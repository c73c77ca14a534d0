import Userland.Memory.Access

/-!
# System calls

A program makes a system call by leaving words on its stack: the number of the call, then its
arguments (`Syscall.words`). `Syscall.decode` reads the words back from user memory. It takes no more
words than the call has, each checked before it is read.
-/

namespace Userland

/-- A system call with its arguments. Pointers are not checked yet. -/
inductive Syscall where
  /-- Power off the machine. -/
  | halt
  /-- End the caller. -/
  | exit (status : Int32)
  /-- Start a child. -/
  | exec (commandLine : VirtAddr)
  /-- Wait for a child. -/
  | wait (pid : Int32)
  /-- Make a file. -/
  | create (path : VirtAddr) (size : UInt32)
  /-- Take a file's name away. -/
  | remove (path : VirtAddr)
  /-- Open a file. -/
  | openFile (path : VirtAddr)
  /-- Length of an open file. -/
  | filesize (fd : Int32)
  /-- Read from a descriptor. -/
  | read (fd : Int32) (buffer : VirtAddr) (size : UInt32)
  /-- Write to a descriptor. -/
  | write (fd : Int32) (buffer : VirtAddr) (size : UInt32)
  /-- Move the position of an open file. -/
  | seek (fd : Int32) (position : UInt32)
  /-- Position of an open file. -/
  | tell (fd : Int32)
  /-- Close a descriptor. -/
  | close (fd : Int32)
  /-- Add one. -/
  | practice (value : Int32)
deriving DecidableEq

/-- An argument of a system call, by the way in which its word is read. -/
inductive Argument where
  /-- A signed number. -/
  | int (value : Int32)
  /-- A number without sign. -/
  | word (value : UInt32)
  /-- A user address. -/
  | pointer (address : VirtAddr)

/-- The word that carries an argument. -/
def Argument.toWord : Argument → UInt32
  | int n => n.toUInt32
  | word n => n
  | pointer a => a.toWord

namespace Syscall

/-! ## The words of a call -/

/-- The number of a call. -/
def number : Syscall → UInt32
  | halt => 0
  | exit .. => 1
  | exec .. => 2
  | wait .. => 3
  | create .. => 4
  | remove .. => 5
  | openFile .. => 6
  | filesize .. => 7
  | read .. => 8
  | write .. => 9
  | seek .. => 10
  | tell .. => 11
  | close .. => 12
  | practice .. => 13

/-- The name of a call. -/
def name : Syscall → String
  | halt => "Halt"
  | exit .. => "Exit"
  | exec .. => "Exec"
  | wait .. => "Wait"
  | create .. => "Create"
  | remove .. => "Remove"
  | openFile .. => "Open"
  | filesize .. => "Filesize"
  | read .. => "Read"
  | write .. => "Write"
  | seek .. => "Seek"
  | tell .. => "Tell"
  | close .. => "Close"
  | practice .. => "Practice"

/-- The arguments of a call, in order. -/
def arguments : Syscall → List Argument
  | halt => []
  | exit status => [.int status]
  | exec commandLine => [.pointer commandLine]
  | wait pid => [.int pid]
  | create path size => [.pointer path, .word size]
  | remove path => [.pointer path]
  | openFile path => [.pointer path]
  | filesize fd => [.int fd]
  | read fd buffer size => [.int fd, .pointer buffer, .word size]
  | write fd buffer size => [.int fd, .pointer buffer, .word size]
  | seek fd position => [.int fd, .word position]
  | tell fd => [.int fd]
  | close fd => [.int fd]
  | practice value => [.int value]

/-- The words that a program leaves on its stack, the lowest first. -/
def words (call : Syscall) : List UInt32 := call.number :: call.arguments.map Argument.toWord

/-! ## Decoding -/

/-- The word number `i` up from the stack pointer. -/
def readStackWord (s : AddressSpace) (pool : FramePool) (esp : VirtAddr) (i : Nat) :
    Except UserFault UInt32 :=
  match esp.add? (i * 4) with
  | none => .error (.kernelAddress esp)
  | some a => s.readWord pool a

/-- Read the call at a user stack pointer. -/
def decode (s : AddressSpace) (pool : FramePool) (esp : VirtAddr) : Except UserFault Syscall := do
  let word := readStackWord s pool esp
  let int (i : Nat) : Except UserFault Int32 := (word i).map UInt32.toInt32
  let pointer (i : Nat) : Except UserFault VirtAddr := (word i).map VirtAddr.ofWord
  let n ← word 0
  match n.toNat with
  | 0 => return halt
  | 1 => return exit (← int 1)
  | 2 => return exec (← pointer 1)
  | 3 => return wait (← int 1)
  | 4 => return create (← pointer 1) (← word 2)
  | 5 => return remove (← pointer 1)
  | 6 => return openFile (← pointer 1)
  | 7 => return filesize (← int 1)
  | 8 => return read (← int 1) (← pointer 2) (← word 3)
  | 9 => return write (← int 1) (← pointer 2) (← word 3)
  | 10 => return seek (← int 1) (← word 2)
  | 11 => return tell (← int 1)
  | 12 => return close (← int 1)
  | 13 => return practice (← int 1)
  | _ => throw (.unknownSyscall n)

end Syscall

/-- What is done after a call. -/
inductive Outcome where
  /-- The caller goes on with a result. -/
  | result (value : Int32)
  /-- The caller goes on, its result register untouched. -/
  | void
  /-- The caller ends. -/
  | exit (status : Int32)
  /-- The machine is powered off. -/
  | halt

/-- The result of a call that answers yes or no. -/
def Outcome.ofBool (b : Bool) : Outcome := .result (if b then 1 else 0)

end Userland

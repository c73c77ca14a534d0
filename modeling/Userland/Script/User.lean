import Userland.Kernel.Dispatch

/-!
# Scripts for user programs

A script says what a program does in user mode: system calls, uses of its own memory, faults. Each
operation reports its answer. User code uses memory byte by byte, the lowest first, and faults at the
first byte that it may not use. After the last operation the program makes the system call that ends
it with status 0.
-/

namespace Userland

/-- An operation of a user program. -/
inductive UserOp where
  /-- Leave words on the stack and make a system call. -/
  | trap (words : List UInt32) (esp : Option UInt32) (eax : UInt32)
  /-- Leave words on the stack, and see what the call that they make comes to, without doing as it
      says. -/
  | dispatch (words : List UInt32) (esp : Option UInt32)
  /-- Store bytes. -/
  | store (start : VirtAddr) (data : Bytes)
  /-- Store one byte over and over. -/
  | fill (start : VirtAddr) (b : UInt8) (n : Nat)
  /-- Read bytes. -/
  | load (start : VirtAddr) (n : Nat)
  /-- Read the arguments from the initial stack. -/
  | arguments
  /-- Tell the state in which the program was started. -/
  | context
  /-- Tell about the process. -/
  | process
  /-- Tell the mapped pages. -/
  | pages
  /-- Let other threads go first. -/
  | yield
  /-- Activate the page tables, as a thread switch does. -/
  | activate
  /-- Take a page fault. -/
  | fault (fault : PageFault)
  /-- End the process. -/
  | exit (status : Int32)
  /-- Destroy the process and end the thread, without telling anyone. -/
  | vanish

namespace UserOp

open ThreadProgram

/-- Take the fault of a byte that may not be used. -/
def faultAt {α : Type} (touch : AddressSpace.Touch) : ThreadProgram α :=
  Kernel.userFault ⟨touch.address, .user, touch.write, touch.present⟩

/-- Store bytes as user code. -/
def storeBytes (start : VirtAddr) (data : Bytes) : ThreadProgram Unit := do
  match ← ask (.store start data) with
  | .ok () => return ()
  | .error touch => faultAt touch

/-- Store one byte over and over, at most a page at a time. -/
def storeRepeated (start : Nat) (b : UInt8) (n : Nat) : ThreadProgram Unit :=
  if n ≤ pageSize then storeBytes (.ofNat start) (List.replicate n b)
  else do
    storeBytes (.ofNat start) (List.replicate pageSize b)
    storeRepeated (start + pageSize) b (n - pageSize)
termination_by n
decreasing_by
  simp only [pageSize] at *
  omega

/-- Read bytes as user code. -/
def loadBytes (start : Nat) (n : Nat) : ThreadProgram Bytes := do
  match ← ask (.load (.ofNat start) n) with
  | .ok data => return data
  | .error touch => faultAt touch

/-- Read a word as user code. -/
def loadWord (start : Nat) : ThreadProgram Nat := do
  return (Bytes.word (← loadBytes start 4)).toNat

/-- Read a string that ends with a zero byte as user code, after the bytes `done`, newest first. -/
def loadString (start : Nat) (done : Bytes) : ThreadProgram Bytes :=
  if start < userTop then do
    match ← loadBytes start 1 with
    | [] => return done.reverse
    | b :: _ => if b = 0 then return done.reverse else loadString (start + 1) (b :: done)
  else faultAt ⟨.ofNat start, false, false⟩
termination_by userTop - start

/-- Read `n` strings whose addresses lie at `list` and after it, after the strings `done`, newest
    first. -/
def loadStrings (list : Nat) (done : List Bytes) : Nat → ThreadProgram (List Bytes)
  | 0 => return done.reverse
  | n + 1 => do
    let string ← loadString (← loadWord list) []
    loadStrings (list + wordSize) (string :: done) n

/-- Where words are left on the stack unless something else is said. -/
def stackPlace (context : UserContext) (esp : Option UInt32) : UInt32 :=
  esp.getD (context.esp - 64)

/-- Leave words on the stack. -/
def storeWords (esp : UInt32) (words : List UInt32) : ThreadProgram Unit :=
  storeBytes (.ofWord esp) (words.flatMap Bytes.ofWord)

/-- Make a system call. -/
def makeCall (k : Kernel) (esp : UInt32) (words : List UInt32) (eax : UInt32) :
    ThreadProgram UInt32 := do
  storeWords esp words
  k.syscall ⟨esp, eax⟩

/-- What an operation does, and what it answers. -/
def perform (k : Kernel) (context : UserContext) : UserOp → ThreadProgram Reply
  | trap words esp eax => do
    let result ← makeCall k (stackPlace context esp) words eax
    return .number result.toInt32.toInt
  | dispatch words esp => do
    let esp := stackPlace context esp
    storeWords esp words
    match ← ask (.decode (.ofWord esp)) with
    | .error refusal => return .dispatched (.error refusal)
    | .ok call => return .dispatched (← k.dispatch call)
  | store start data => do
    storeBytes start data
    return .nothing
  | fill start b n => do
    storeRepeated start.toNat b n
    return .nothing
  | load start n => do
    return .bytes (← loadBytes start.toNat n)
  | arguments => do
    let n ← loadWord (context.esp.toNat + wordSize)
    let list ← loadWord (context.esp.toNat + 2 * wordSize)
    return .texts (← loadStrings list [] n)
  | UserOp.context => return .context context
  | process => do
    match ← ask .process with
    | some p => return .process p
    | none => return .nothing
  | pages => do
    return .pages (← ask .pages)
  | yield => do
    act .yield
    return .nothing
  | activate => do
    Kernel.activateOwn
    return .nothing
  | fault f => Kernel.userFault f
  | exit status => Kernel.exitProcess status
  | vanish => do
    Kernel.destroyOwn
    endThread

/-- Do operations, the first of which has number `i`, and report their answers. -/
def performAll (k : Kernel) (context : UserContext) (i : Nat) : List UserOp → ThreadProgram Unit
  | [] => return ()
  | op :: rest => do
    let reply ← perform k context op
    ask (.report i reply)
    performAll k context (i + 1) rest

/-- What a program does in user mode: its script, then the call that ends it. -/
def run (k : Kernel) (script : List UserOp) (context : UserContext) : ThreadProgram Unit := do
  performAll k context 0 script
  discard (makeCall k (stackPlace context none) [1, 0] 0)

end UserOp

end Userland

import Userland.Executable.Builder
import Userland.Machine.Host
import Userland.Kernel.Dispatch

/-!
# Trials of the whole kernel

A trial puts programs on a volume, each with the same small image, and starts command lines as
initial processes, one after the other. What a program does in user mode is a script of system calls
made from words on its own stack. A program may also fail: then its process is destroyed on the spot
and the trial ends with the texts of all failures.
-/

namespace Userland

/-- An operation of a program on trial. -/
inductive TrialOp where
  /-- Tell the process number. -/
  | pid
  /-- Tell the arguments. -/
  | arguments
  /-- Leave bytes in the unused low end of the stack page, and tell their address. -/
  | pushBytes (data : Bytes)
  /-- Read user memory. -/
  | readMemory (start : VirtAddr) (n : Nat)
  /-- Make a system call, and tell its result. -/
  | call (number : UInt32) (arguments : List UInt32)
  /-- Make a system call for which there is nothing to tell. -/
  | quietCall (number : UInt32) (arguments : List UInt32)
  /-- Trap with a stack pointer. -/
  | trapAt (esp : UInt32)
  /-- Take a page fault. -/
  | fault (address : VirtAddr)
  /-- Whether the page tables that the thread activated last are those of its process. -/
  | ownSpaceActive
  /-- Fail. -/
  | fail (text : String)

namespace TrialOp

open ThreadProgram

/-! ## Failing -/

/-- Destroy the process, record a failure, and end the thread. -/
def failWith {α : Type} (text : String) : ThreadProgram α := do
  Kernel.destroyOwn
  ask (.fail text)
  endThread

/-- The text of a failure that comes from an error. -/
def errorText (error : String) : String :=
  "called `Result::unwrap()` on an `Err` value: " ++ error

/-- Bytes that are not text, as text. -/
def brokenText (bs : Bytes) (broken : Utf8.Broken) : String :=
  let length := match broken.length with
    | some n => "Some(" ++ toString n ++ ")"
    | none => "None"
  "FromUtf8Error \x7b bytes: [" ++ String.intercalate ", " (bs.map fun b => toString b.toNat) ++
    "], error: Utf8Error \x7b valid_up_to: " ++ toString broken.validUpTo ++ ", error_len: " ++
    length ++ " \x7d \x7d"

/-- Go on with a result, or fail with its error. -/
def unwrap {ε α : Type} (text : ε → String) : Except ε α → ThreadProgram α
  | .ok x => return x
  | .error e => failWith (errorText (text e))

/-! ## Doing operations -/

/-- Most bytes of an argument. -/
abbrev maxArgumentLength : Nat := pageSize

/-- Read a word as the kernel does. -/
def word (start : Nat) : ThreadProgram UInt32 := do
  let bs ← unwrap UserFault.debugText (← ask (.copyIn (.ofNat start) wordSize))
  return Bytes.word bs

/-- Read `n` arguments whose addresses lie at `list` and after it, after those in `done`, newest
    first. -/
def readArguments (list : Nat) (done : List Bytes) : Nat → ThreadProgram (List Bytes)
  | 0 => return done.reverse
  | n + 1 => do
    let start ← word list
    let bs ← unwrap UserFault.debugText (← ask (.copyString (.ofWord start) maxArgumentLength))
    match Utf8.firstBroken? 0 bs with
    | some broken => failWith (errorText (brokenText bs broken))
    | none => readArguments (list + wordSize) (bs :: done) n

/-- Store words and trap. -/
def makeCall (k : Kernel) (context : UserContext) (number : UInt32) (arguments : List UInt32) :
    ThreadProgram Int32 := do
  let esp := context.esp - 64
  let data := (number :: arguments).flatMap Bytes.ofWord
  unwrap MappingError.name (← ask (.writeBytes (.ofWord esp) data))
  return (← k.syscall (.ofStack esp)).toInt32

/-- What an operation does, what it answers, and how many bytes of the stack's low end are in use
    afterwards. -/
def perform (k : Kernel) (context : UserContext) (used : Nat) :
    TrialOp → ThreadProgram (Reply × Nat)
  | pid => do
    let p ← ask .process
    return (.number ((p.map Process.pid).getD (-1)).toInt, used)
  | arguments => do
    let n ← word (context.esp.toNat + wordSize)
    let list ← word (context.esp.toNat + 2 * wordSize)
    return (.texts (← readArguments list.toNat [] n.toNat), used)
  | pushBytes data => do
    let start := stackBase + used
    unwrap MappingError.name (← ask (.writeBytes (.ofNat start) data))
    return (.number start, used + data.length)
  | readMemory start n => do
    let bs ← unwrap MappingError.name (← ask (.readBytes start n))
    return (.bytes bs, used)
  | call number words => do
    let result ← makeCall k context number words
    return (.number result.toInt, used)
  | quietCall number words => do
    discard (makeCall k context number words)
    return (.nothing, used)
  | trapAt esp => do
    let result ← k.syscall (.ofStack esp)
    return (.number result.toInt32.toInt, used)
  | fault address => Kernel.userFault ⟨address, .user, false, false⟩
  | ownSpaceActive => do
    let p ← ask .process
    let root := (p.bind Process.space).map AddressSpace.root
    return (.flag ((← ask .lastActivation) = some root), used)
  | fail text => failWith text

/-- Do operations, the first of which has number `i`, report their answers, and end the process. -/
def performAll (k : Kernel) (context : UserContext) (used i : Nat) :
    List TrialOp → ThreadProgram Unit
  | [] => discard (makeCall k context 1 [0])
  | op :: rest => do
    let (reply, used) ← perform k context used op
    ask (.report i reply)
    performAll k context used (i + 1) rest

end TrialOp

/-! ## Whole trials -/

/-- What a trial starts from. -/
structure TrialPlan where
  /-- Files that are there besides the programs. -/
  files : List (String × Bytes)
  /-- What programs do in user mode, by name. -/
  programs : List (String × List TrialOp)
  /-- Keyboard bytes. -/
  input : Bytes
  /-- The command lines. -/
  lines : List String
  /-- Whether the thread that starts them gets a number after the first. -/
  adopt : Bool

/-- What comes of a command line. -/
inductive TrialResult where
  /-- The exit status, or why the program could not be started. -/
  | ran (result : Except ExecError Int32)
  /-- Threads failed. -/
  | failed (text : String)

namespace TrialPlan

/-- The image of every program: a few bytes of code, and a page of data. -/
def image : ExecutableImage :=
  ⟨0x08048000,
    [.loadable 0x08048000 [0xCD, 0x30, 0xEB, 0xFE] 0x100 false,
      .loadable 0x0804A000 (Bytes.ofString "initialized") 0x200 true]⟩

/-- How many page frames there are. -/
abbrev frames : Nat := 64

/-- The kernel. -/
def kernel : Kernel := ⟨{}, .endsThread⟩

/-- A file with given bytes. -/
def file (name : String) (data : Bytes) : FileNode :=
  .ofContents name (.ofExtents [.ofBytes 0 data]) data.length

/-- The volume with the files and programs. -/
def volume (p : TrialPlan) : Volume :=
  let v := p.files.foldl (fun v (name, data) => v.add (file name data)) (Volume.empty .unbounded)
  let image := image.build
  p.programs.foldl (fun v (name, _) => v.add (file name image)) v

/-- What a process does in user mode. -/
def userMode (p : TrialPlan) : UserMode := fun name context =>
  TrialOp.performAll kernel context 0 0 ((p.programs.lookup name).getD [])

/-- What is fixed during the trial. -/
def environment (p : TrialPlan) : Environment :=
  ⟨fun start => kernel.startProcess p.userMode start, fun _ => false, [], fun _ => .pure ()⟩

/-- The number of the thread that starts the command lines. -/
def mainThread (p : TrialPlan) : Tid := if p.adopt then 2 else 1

/-- The machine at the start, with a place for the main thread. -/
def machine (p : TrialPlan) : Machine :=
  let m := Machine.fresh (.fresh p.volume (.ofFrames frames) p.input) 1
  { m with threads := Array.replicate (p.mainThread + 1) Thread.absent }

/-- What the main thread does with a command line. -/
def runLine (line : String) : ThreadProgram Unit := do
  let result ← kernel.run line
  ThreadProgram.ask (.report 0 (.ran result))

/-- The answer to the last command line. -/
def lastResult (m : Machine) (t : Tid) : Option (Except ExecError Int32) :=
  m.devices.transcript.findSome? fun r =>
    match r.answer with
    | some (_, .ran result) => if r.thread = t then some result else none
    | _ => none

/-- The texts of the failures, if there are any. -/
def failureText? (d : Devices) : Option String :=
  if d.failures.isEmpty then none
  else some ("thread failures: [" ++
    String.intercalate ", " (d.failures.reverse.map Quoted.quote) ++ "]")

/-- Run command lines until one of them leaves a failure behind. -/
def runLines (p : TrialPlan) (m : Machine) : List String → List TrialResult × Machine
  | [] => ([], m)
  | line :: rest =>
    let t := p.mainThread
    let m := m.setThread t (.ready t (runLine line))
    let m := ((Host.ofMachine m [t] false).run p.environment).1.machine
    let result := (lastResult m t).toList.map TrialResult.ran
    match failureText? m.devices with
    | some text => (result ++ [.failed text], m)
    | none =>
      let (results, m) := runLines p m rest
      (result ++ results, m)

/-- Run the trial. -/
def run (p : TrialPlan) : List TrialResult × Machine := p.runLines p.machine p.lines

end TrialPlan

end Userland

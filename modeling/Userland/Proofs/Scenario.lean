import Userland.Machine.Step
import Userland.Script.User

/-!
# Whole runs with arbitrary programs

A scenario is what a run of the kernel starts from: a filesystem, a pool of unused frames, the limits
of the kernel, a command line, and what user programs do. A user program is a tree of its own
(`UserCode`): it uses its memory, traps, and goes on as it likes with what it gets, until it takes a
fault or goes on with a block of code, which is such a tree again. So a program may go on for ever, and in
any way, for there are as many blocks as numbers. It has no end of its own: only the kernel ends a thread.

The first thread starts the command line and awaits it; threads take turns in any order
(`Scenario.Reachable`).
-/

namespace Userland

/-- What a user program has yet to do. -/
inductive UserCode where
  /-- Trap, and go on with the result register. -/
  | trap (frame : TrapFrame) (next : UInt32 → UserCode)
  /-- Take a page fault. -/
  | fault (address : VirtAddr) (write present : Bool)
  /-- Read bytes, and go on with them. A byte that may not be used is a page fault. -/
  | load (start : VirtAddr) (n : Nat) (next : Bytes → UserCode)
  /-- Store bytes, and go on. A byte that may not be used is a page fault. -/
  | store (start : VirtAddr) (data : Bytes) (next : UserCode)
  /-- Go on with a block of code. -/
  | goto (block : Nat)

namespace UserCode

/-- What a thread does in user mode. -/
def program (k : Kernel) : UserCode → ThreadProgram Unit
  | trap frame next => do (next (← k.syscall frame)).program k
  | fault address write present => Kernel.userFault ⟨address, .user, write, present⟩
  | load start n next => do (next (← UserOp.loadBytes start.toNat n)).program k
  | store start data next => do
    UserOp.storeBytes start data
    next.program k
  | goto block => ThreadProgram.goto block

end UserCode

/-- What a run of the kernel starts from. -/
structure Scenario where
  /-- The files that have a name. -/
  directory : List (String × Nat)
  /-- All files. -/
  nodes : Array FileNode
  /-- How files grow. -/
  growth : GrowthRule
  /-- What is left in the frames of the pool. -/
  leftovers : Array Page
  /-- Pages of memory that are never handed out. -/
  withheld : Nat
  /-- Keyboard bytes. -/
  input : Bytes
  /-- Limits of the kernel. -/
  settings : Settings
  /-- The command line. -/
  line : String
  /-- What programs do, by the process, its name and the state in which it is started. -/
  code : NewProcess → String → UserContext → UserCode
  /-- The blocks of code that programs may go on with. -/
  blocks : Nat → UserCode
  /-- Which requests for a thread, counted from zero, are refused. -/
  spawnFails : Nat → Bool

namespace Scenario

/-- A scenario with no files and no frames, in which no program can be loaded. -/
def blank (line : String) : Scenario :=
  { directory := []
    nodes := #[]
    growth := .bounded
    leftovers := #[]
    withheld := 0
    input := []
    settings := {}
    line := line
    code := fun _ _ _ => .fault (.ofWord 0) false false
    blocks := fun _ => .fault (.ofWord 0) false false
    spawnFails := fun _ => false }

variable (x : Scenario)

/-- The kernel. -/
def kernel : Kernel := ⟨x.settings, .stopsMachine⟩

/-- What is fixed during the run. -/
def environment : Environment :=
  { startProcess := fun start =>
      x.kernel.startProcess (fun name context => (x.code start name context).program x.kernel) start
    spawnFails := x.spawnFails
    stillborn := []
    blocks := fun block => (x.blocks block).program x.kernel }

/-- The volume at the start: no file is open. -/
def volume : Volume := ⟨x.directory, x.nodes, #[], 0, x.growth⟩

/-- The pool at the start: no frame is handed out. -/
def pool : FramePool := ⟨x.leftovers.map fun page => ⟨page, false⟩, x.withheld⟩

/-- The devices at the start, with the kernel's greeting in the log. -/
def devices : Devices :=
  (Devices.fresh x.volume x.pool x.input).remark .info x.settings.greeting

/-- The machine at the start, with the first thread. -/
def machine : Machine :=
  ((Machine.fresh x.devices 1).addThread (discard (x.kernel.run x.line))).2

/-- What may have come of the machine, in whatever order its threads took turns. -/
def Reachable (m : Machine) : Prop := Machine.Reaches x.environment x.machine m

end Scenario

end Userland

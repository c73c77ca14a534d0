import Userland.Machine.Host
import Userland.Script.User

/-!
# Scripts for the first thread

The first thread has no process. It follows a script of its own: it starts and awaits programs, uses
the volume, and takes traps as a thread without a process does. Then it ends, and the programs that it
started run on.
-/

namespace Userland

/-- An operation of the first thread. -/
inductive BootOp where
  /-- Start a command line as the initial process and wait for it. -/
  | run (line : String)
  /-- Start a command line as a child. -/
  | execute (line : String)
  /-- Wait for a child, as a system call does. -/
  | wait (pid : Int32)
  /-- Wait for a child. -/
  | awaitChild (pid : Int32)
  /-- Whether a child is recorded. -/
  | contains (pid : Int32)
  /-- Tell the children. -/
  | children
  /-- Tell the children of a registry that was just made. -/
  | noChildren
  /-- Forget the children. -/
  | forget
  /-- Let other threads go first. -/
  | yield
  /-- Take a trap. -/
  | trap (frame : TrapFrame)
  /-- Take a page fault. -/
  | fault (fault : PageFault)
  /-- End the process that the thread does not have. -/
  | exit (status : Int32)
  /-- Activate page tables, as a thread switch does. -/
  | activate
  /-- Make a file. -/
  | create (path : String) (size : UInt32)
  /-- Take a file's name away. -/
  | remove (path : String)
  /-- Open a file, write to it, and close it. -/
  | write (path : String) (data : Bytes)
  /-- Tell the limits of the kernel. -/
  | settings

namespace BootOp

open ThreadProgram

/-- Write to the start of a file; nothing if there is no such file. -/
def writeFile (path : String) (data : Bytes) : Routine (Option Nat) := do
  match ← Routine.ask (.openFile path) with
  | none => return none
  | some h =>
    let n ← Routine.ask (.write h data)
    Routine.ask (.close h)
    return some n

/-- What an operation does, and what it answers. -/
def perform (k : Kernel) : BootOp → ThreadProgram Reply
  | run line => do return .ran (← k.run line)
  | execute line => do return .started (← k.execute .kin line)
  | wait pid => do return .number (← Kernel.wait .kin pid).toInt
  | awaitChild pid => do return .waited (← Kernel.awaitChild .kin pid)
  | contains pid => do return .flag ((← withRegistry .kin (ask (.children .kin))).contains pid)
  | children => do return .children (← withRegistry .kin (ask (.children .kin)))
  | noChildren => return .children .empty
  | forget => do
    Kernel.forgetChildren .kin
    return .nothing
  | yield => do
    act .yield
    return .nothing
  | trap frame => do
    let eax ← k.syscall frame
    return .frame { frame with eax := eax }
  | fault f => Kernel.userFault f
  | exit status => Kernel.exitProcess status
  | activate => do
    Kernel.activateOwn
    return .nothing
  | create path size => do
    return .flag (← Kernel.withVolume (Routine.ask (.create path size)))
  | remove path => do
    return .flag (← Kernel.withVolume (Routine.ask (.remove path)))
  | write path data => do
    return .count (← Kernel.withVolume (writeFile path data))
  | settings => return .settings k.settings

/-- Do operations, the first of which has number `i`, and report their answers; at the end the
    records of children are dropped. -/
def performAll (k : Kernel) (i : Nat) : List BootOp → ThreadProgram Unit
  | [] => do Kernel.dropReceivers (← ask (.takeChildren .kin))
  | op :: rest => do
    let reply ← perform k op
    ask (.report i reply)
    performAll k (i + 1) rest

end BootOp

/-! ## Whole runs -/

/-- What a run of a machine starts from. -/
structure BootPlan where
  /-- The mounted volume. -/
  volume : Volume
  /-- How many page frames there are. -/
  frames : Nat
  /-- Keyboard bytes. -/
  input : Bytes
  /-- Limits of the kernel. -/
  settings : Settings
  /-- What the first thread does. -/
  boot : List BootOp
  /-- What processes do in user mode, by name. -/
  programs : List (String × List UserOp)
  /-- How many threads can be made. -/
  spawnLimit : Nat
  /-- Which of the threads made are destroyed before they run. -/
  stillborn : List Nat
  /-- Whether the volume is slow. -/
  slowVolume : Bool

namespace BootPlan

/-- The kernel. -/
def kernel (p : BootPlan) : Kernel := ⟨p.settings, .stopsMachine⟩

/-- What a process does in user mode; one without a script does nothing but end. -/
def userMode (p : BootPlan) : UserMode := fun name context =>
  UserOp.run p.kernel ((p.programs.lookup name).getD []) context

/-- What is fixed during the run. -/
def environment (p : BootPlan) : Environment :=
  { startProcess := fun start => p.kernel.startProcess p.userMode start
    spawnFails := fun request => request ≥ p.spawnLimit
    stillborn := p.stillborn
    blocks := fun _ => .pure () }

/-- The devices at the start, with the kernel's greeting in the log. -/
def devices (p : BootPlan) : Devices :=
  (Devices.fresh p.volume (.ofFrames p.frames) p.input).remark .info p.settings.greeting

/-- The machine at the start, with the first thread. -/
def machine (p : BootPlan) : Machine :=
  ((Machine.fresh p.devices 1).addThread (BootOp.performAll p.kernel 0 p.boot)).2

/-- Run the machine until it is over. -/
def run (p : BootPlan) : Machine × RunOutcome :=
  let (h, outcome) := (Host.ofMachine p.machine [1] p.slowVolume).run p.environment
  (h.machine, outcome)

end BootPlan

end Userland

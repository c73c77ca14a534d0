import Userland.Machine.Request

/-!
# The place of a process in its thread

A thread hosts at most one process. A process that is taken off its thread leaves the place vacant,
and there is nothing to be taken a second time.
-/

namespace Userland

/-- A process, and its thread before and after the process is taken off it. -/
structure SlotView where
  /-- The process. -/
  process : Process
  /-- The thread while it hosts the process. -/
  hosting : Belongings
  /-- The thread after the process was taken off it. -/
  vacated : Belongings
  /-- What was taken off, and what was taken off after that. -/
  taken : Option Process × Option Process

namespace SlotView

/-- Take the process off a thread. -/
def take (b : Belongings) (d : Devices) : Option Process × Belongings :=
  let (_, b, _) := DeviceRequest.detachProcess.serve b d
  (b.hands.process, b)

/-- Host a process that was just made, and take it off its thread. -/
def ofFresh (pid : Int32) (name : String) (maxOpenFiles : Nat) : SlotView :=
  let devices := Devices.fresh (.empty .bounded) (.ofFrames 0) []
  let process := Process.fresh pid name maxOpenFiles
  let hosting := { Belongings.fresh 1 with process := some process }
  let (first, vacated) := take hosting devices
  ⟨process, hosting, vacated, first, (take vacated devices).1⟩

end SlotView

end Userland

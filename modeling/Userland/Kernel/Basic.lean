import Userland.Kernel.Settings
import Userland.Machine.Action

/-!
# The kernel

The kernel is a set of programs that threads run. One lock guards the volume: every request to a
file is made while it is held (`Kernel.withVolume`). Console lines are written in one piece.
-/

namespace Userland

/-- What switching off does. -/
inductive PowerSwitch where
  /-- The machine stops. -/
  | stopsMachine
  /-- The thread that does it ends, and what it has is dropped. -/
  | endsThread
deriving DecidableEq

/-- The kernel's fixed part. -/
structure Kernel where
  /-- Its limits. -/
  settings : Settings
  /-- What switching off does. -/
  power : PowerSwitch

namespace Kernel

open ThreadProgram DeviceRequest

/-- The lock on the volume. -/
def volumeLock : LockId := ⟨0⟩

/-- Use the volume. -/
def withVolume {α : Type} (body : Routine α) : ThreadProgram α := withLock volumeLock body

/-- Record a remark. -/
def remark (level : LogLevel) (text : String) : ThreadProgram Unit := ask (log level text)

/-- Show a line. -/
def putLine (text : String) : ThreadProgram Unit := ask (put (Bytes.ofString (text ++ "\n")))

/-- Turn interrupts off while something is done. -/
def withoutInterrupts {α : Type} (body : ThreadProgram α) : ThreadProgram α := do
  let before ← ask disableInterrupts
  let x ← body
  ask (setInterrupts before)
  return x

/-- Drop the receivers of channels. -/
def dropReceivers (channels : List ChannelId) : ThreadProgram Unit :=
  channels.forM fun c => act (.dropReceiver c)

/-- Activate the page tables of the thread's process, or the kernel's own if it has none. -/
def activateOwn : ThreadProgram Unit := do
  let p ← ask process
  ask (activate ((p.bind (·.space)).map (·.root)))

end Kernel

end Userland

import Userland.Executable.Loader
import Userland.Kernel.Basic

/-!
# The end of a process

A process that ends first tells its parent, then gives back its files, its children's records, its
memory and at last itself (`Kernel.exitProcess`). The kernel's page tables are activated in one
section without interrupts in which the memory is detached; frames go back with interrupts on.
A process may also be destroyed in one piece, with all that it still has (`Kernel.destroyProcess`).
-/

namespace Userland.Kernel

open ThreadProgram DeviceRequest

/-- Close handles. -/
def closeAll (files : List Handle) : Routine Unit := files.forM fun h => Routine.ask (close h)

/-- Destroy the process in hand, with all that it still has. -/
def destroyInHand : ThreadProgram Unit := do
  match ← ask destroyProcess with
  | none => return ()
  | some left =>
    if left.space then
      Loader.releaseSpace
    closeAll left.files
    closeAll left.executable.toList
    dropReceivers left.children
    match left.exitSignal with
    | some c => dropSender c
    | none => return ()

/-- Take the process off the thread and destroy it. -/
def destroyOwn : ThreadProgram Unit := do
  ask detachProcess
  destroyInHand

/-- End the thread with an event that says so. -/
def exitThread {α : Type} : ThreadProgram α := do
  ask (note .exit)
  endThread

/-- Close the files of the process and lift its denial. -/
def closeFiles (executable : Option Handle) (files : List Handle) : ThreadProgram Unit :=
  withVolume do
    match executable with
    | some h =>
      Routine.ask (allow h)
      Routine.ask (close h)
    | none => pure ()
    closeAll files

/-- Forget the children of the process. -/
def forgetChildren (family : Family) : ThreadProgram Unit := do
  let orphans ← withRegistry family (ask (takeChildren family))
  if orphans.isEmpty then return ()
  else
    remark .trace ("[PROCESS] discarding " ++ toString orphans.length ++ " child records")
    dropReceivers orphans

/-- Detach the memory of the process and give it back. -/
def releaseMemory : ThreadProgram Unit := do
  let detached ← withoutInterrupts do
    let detached ← ask detachSpace
    ask (activate none)
    return detached
  if detached then Loader.releaseSpace else return ()

/-- End the process of the thread with a status, and the thread with it. -/
def exitProcess {α : Type} (status : Int32) : ThreadProgram α := do
  match ← ask process with
  | none => pure ()
  | some p =>
    ask (setExitStatus status)
    if p.state = .running then
      putLine (p.name ++ ": exit(" ++ toString status.toInt ++ ")")
    ask (setState .exiting)
    remark .debug ("[PROCESS] pid " ++ toString p.pid.toInt ++ " exiting with " ++
      toString status.toInt)
    match ← ask takeExitSignal with
    | some c => discard (send c (.status status))
    | none => pure ()
    let executable ← ask takeExecutable
    let files ← ask takeFiles
    closeFiles executable files
    forgetChildren .process
    releaseMemory
  withoutInterrupts (ask detachProcess)
  destroyInHand
  exitThread

end Userland.Kernel

import Userland.Kernel.Exec

/-!
# Carrying out system calls

`Kernel.dispatch` carries out a call for the process of the thread. Pointers are checked before
anything is done; a call that passes a bad one costs the process its life, and has done nothing. A
bad descriptor, or a path that is not text, only makes the call fail. `Kernel.syscall` is the way in
from a trap, `Kernel.userFault` from a page fault.
-/

namespace Userland.Kernel

open ThreadProgram DeviceRequest

/-- A string from user memory; nothing if it is not text. -/
def userString (k : Kernel) (start : VirtAddr) :
    ThreadProgram (Except UserFault (Option String)) := do
  match ← ask (copyString start k.settings.maxUserString) with
  | .error fault => return .error fault
  | .ok bytes => return .ok (Utf8.decode? bytes)

/-- Go on with a path from user memory; a path that is not text gives `failure`. -/
def withPath (k : Kernel) (start : VirtAddr) (failure : Outcome)
    (body : String → ThreadProgram Outcome) : ThreadProgram (Except UserFault Outcome) := do
  match ← k.userString start with
  | .error fault => return .error fault
  | .ok none =>
    let p ← ask process
    remark .debug ("[SYSCALL] pid " ++ toString ((p.map Process.pid).getD 0).toInt ++
      ": path is not UTF-8")
    return .ok failure
  | .ok (some path) => return .ok (← body path)

/-- Use the file that a program names, if it names one. -/
def withFile {α : Type} (fd : Int32) (body : Handle → Routine α) : ThreadProgram (Option α) := do
  match Descriptor.ofInt? fd with
  | none => return none
  | some descriptor =>
    match ← ask (findFile descriptor) with
    | .error _ => return none
    | .ok h => return some (← withVolume (body h))

/-- Start a child. -/
def exec (k : Kernel) (commandLine : VirtAddr) : ThreadProgram (Except UserFault Outcome) := do
  match ← k.userString commandLine with
  | .error fault => return .error fault
  | .ok none => return .ok (.result (-1))
  | .ok (some line) =>
    match ← k.execute .process line with
    | .ok child => return .ok (.result child.toPid)
    | .error e =>
      remark .debug ("[SYSCALL] exec " ++ Quoted.quote line ++ ": " ++ e.message)
      return .ok (.result (-1))

/-- Open a file. If there is no descriptor for it, it is closed again at once. -/
def openPath (path : String) : ThreadProgram Outcome := do
  let descriptor ← withVolume do
    match ← Routine.ask (openFile path) with
    | none => return none
    | some h =>
      match ← Routine.ask (keepFile h) with
      | some descriptor => return some descriptor
      | none =>
        Routine.ask (close h)
        return none
  return .result ((descriptor.map Descriptor.toInt).getD (-1))

/-- Close a descriptor, if it names a file. -/
def closeDescriptor (fd : Int32) : ThreadProgram Unit := do
  match Descriptor.ofInt? fd with
  | none => return ()
  | some descriptor =>
    match ← ask (takeFile descriptor) with
    | .error _ => return ()
    | .ok h => withVolume (Routine.ask (close h))

/-- Read `n` keyboard bytes, after those in `done`, newest first. -/
def readKeyboard (done : Bytes) : Nat → ThreadProgram Bytes
  | 0 => return done.reverse
  | n + 1 => do
    let b ← ask getByte
    readKeyboard (b :: done) n

/-- The bytes that a read of a descriptor gives; nothing if it cannot be read. -/
def readDescriptor (fd : Int32) (n : Nat) : ThreadProgram (Option Bytes) :=
  match Descriptor.ofInt? fd with
  | none => return none
  | some descriptor =>
    if descriptor = .input then some <$> readKeyboard [] n
    else if descriptor = .output then return none
    else withFile fd fun h => Routine.ask (read h n)

/-- Read into user memory. The whole buffer is checked before anything is read. -/
def readInto (fd : Int32) (buffer : VirtAddr) (size : UInt32) :
    ThreadProgram (Except UserFault Outcome) := do
  match ← ask (checkRange buffer size.toNat .write) with
  | .error fault => return .error fault
  | .ok () =>
    match ← readDescriptor fd size.toNat with
    | none => return .ok (.result (-1))
    | some data =>
      match ← ask (copyOut buffer data) with
      | .error fault => return .error fault
      | .ok () => return .ok (.result (Int32.ofNat data.length))

/-- Write to a descriptor: how many bytes were taken, or -1 if it cannot be written. -/
def writeDescriptor (fd : Int32) (data : Bytes) : ThreadProgram Int32 :=
  match Descriptor.ofInt? fd with
  | none => return -1
  | some descriptor =>
    if descriptor = .output then do
      ask (put data)
      return Int32.ofNat data.length
    else if descriptor = .input then return -1
    else do
      let n ← withFile fd fun h => Routine.ask (write h data)
      return (n.map Int32.ofNat).getD (-1)

/-- Write from user memory. -/
def writeFrom (fd : Int32) (buffer : VirtAddr) (size : UInt32) :
    ThreadProgram (Except UserFault Outcome) := do
  match ← ask (copyIn buffer size.toNat) with
  | .error fault => return .error fault
  | .ok data => return .ok (.result (← writeDescriptor fd data))

/-- Carry out a call for the process of the thread. -/
def dispatch (k : Kernel) (call : Syscall) : ThreadProgram (Except UserFault Outcome) := do
  match call with
  | .halt => return .ok .halt
  | .exit status => return .ok (.exit status)
  | .exec commandLine => k.exec commandLine
  | .wait pid => return .ok (.result (← wait .process pid))
  | .create path size =>
    k.withPath path (.ofBool false) fun path => do
      return .ofBool (← withVolume (Routine.ask (create path size)))
  | .remove path =>
    k.withPath path (.ofBool false) fun path => do
      return .ofBool (← withVolume (Routine.ask (remove path)))
  | .openFile path => k.withPath path (.result (-1)) openPath
  | .filesize fd =>
    let n ← withFile fd fun h => Routine.ask (length h)
    return .ok (.result ((n.map UInt32.toInt32).getD (-1)))
  | .read fd buffer size => readInto fd buffer size
  | .write fd buffer size => writeFrom fd buffer size
  | .seek fd position =>
    discard (withFile fd fun h => Routine.ask (seek h position))
    return .ok .void
  | .tell fd =>
    let n ← withFile fd fun h => Routine.ask (tell h)
    return .ok (.result ((n.map UInt32.toInt32).getD (-1)))
  | .close fd =>
    closeDescriptor fd
    return .ok .void
  | .practice value => return .ok (.result (value + 1))

/-- Switch the machine off. -/
def powerOff {α : Type} (k : Kernel) : ThreadProgram α := do
  ask DeviceRequest.powerOff
  match k.power with
  | .stopsMachine => stop .halted
  | .endsThread =>
    destroyOwn
    endThread

/-- Handle a trap of user code: the result register afterwards. -/
def syscall (k : Kernel) (frame : TrapFrame) : ThreadProgram UInt32 := do
  match ← ask process with
  | none =>
    remark .error "[SYSCALL] trap from a thread with no process"
    return frame.eax
  | some _ =>
    let outcome ← do
      match ← ask (decode (.ofWord frame.esp)) with
      | .error fault => pure (.error fault)
      | .ok call => k.dispatch call
    match outcome with
    | .ok (.result value) => return value.toUInt32
    | .ok .void => return frame.eax
    | .ok (.exit status) => exitProcess status
    | .ok .halt =>
      remark .info "[SYSCALL] halt"
      k.powerOff
    | .error fault =>
      remark .debug ("[SYSCALL] killing process: " ++ fault.message)
      exitProcess (-1)

/-- Handle a page fault. One of user code ends the process; one of the kernel stops the machine. -/
def userFault {α : Type} (fault : PageFault) : ThreadProgram α := do
  match fault.mode with
  | .user =>
    remark .debug ("[PROCESS] page fault at " ++ fault.address.text ++ " (" ++
      (if fault.write then "writing" else "reading") ++ " " ++
      (if fault.present then "protected" else "unmapped") ++ " page)")
    exitProcess (-1)
  | .kernel => stop (.panic ("kernel page fault at " ++ fault.address.text))

end Userland.Kernel

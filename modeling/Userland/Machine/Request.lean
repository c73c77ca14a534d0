import Userland.Machine.Devices
import Userland.Program

/-!
# Requests that are served at once

A thread asks for one thing at a time: of its process, of the memory in its hands, of the volume, of
the console. Each `DeviceRequest` is served in one step, without sleeping (`DeviceRequest.serve`). A
`Routine` is a program of such requests; it can be run by itself on devices (`Routine.run`) or as a
part of what a thread does.
-/

namespace Userland

/-- What is left of a process that is destroyed. Its space and its handles are in the hands of the
    thread. -/
structure Leftovers where
  /-- Whether there is a space. -/
  space : Bool
  /-- The open files, by ascending descriptor. -/
  files : List Handle
  /-- The handle on the executable. -/
  executable : Option Handle
  /-- The exit channels of children. -/
  children : List ChannelId
  /-- The channel for its own exit status. -/
  exitSignal : Option ChannelId

/-- A request that is served at once. -/
inductive DeviceRequest where
  /-- The number of the thread. -/
  | tid
  /-- The process that the thread hosts. -/
  | process
  /-- Host a new process. -/
  | newProcess (name : String) (maxOpenFiles : Nat) (exit : ChannelId)
  /-- Set the state of the process. -/
  | setState (state : ProcessState)
  /-- Set the exit status of the process. -/
  | setExitStatus (status : Int32)
  /-- Take the channel for the exit status out of the process. -/
  | takeExitSignal
  /-- Take the handle on the executable out of the process. -/
  | takeExecutable
  /-- Take all open files out of the process. -/
  | takeFiles
  /-- Take the memory out of the process. -/
  | detachSpace
  /-- Take the process off the thread. -/
  | detachProcess
  /-- Destroy the process in hand. -/
  | destroyProcess
  /-- Read the call at a user stack pointer. -/
  | decode (esp : VirtAddr)
  /-- Check a range of user memory. -/
  | checkRange (start : VirtAddr) (n : Nat) (access : Access)
  /-- Copy bytes out of user memory. -/
  | copyIn (start : VirtAddr) (n : Nat)
  /-- Copy a string out of user memory. -/
  | copyString (start : VirtAddr) (limit : Nat)
  /-- Copy bytes into user memory. -/
  | copyOut (start : VirtAddr) (data : Bytes)
  /-- Read bytes as user code. -/
  | load (start : VirtAddr) (n : Nat)
  /-- Store bytes as user code. -/
  | store (start : VirtAddr) (data : Bytes)
  /-- Read bytes of any mapped page. -/
  | readBytes (start : VirtAddr) (n : Nat)
  /-- Store bytes in any mapped page. -/
  | writeBytes (start : VirtAddr) (data : Bytes)
  /-- The mapped pages of the process. -/
  | pages
  /-- Start to fill a space. -/
  | newSpace
  /-- Get a frame in hand. -/
  | allocate
  /-- Store bytes in the frame in hand. -/
  | fill (offset : Nat) (data : Bytes)
  /-- Store zeros in the frame in hand from an offset on. -/
  | clear (offset : Nat)
  /-- Give the frame in hand back. -/
  | freeFrame
  /-- Map the frame in hand into the space in hand; if that is refused the frame goes back. -/
  | mapFrame (page : VirtAddr) (writable : Bool)
  /-- The mapped pages of the space in hand. -/
  | spacePages
  /-- Unmap a page of the space in hand and give its frame back. -/
  | freePage (page : VirtAddr)
  /-- Let go of the space in hand. -/
  | dropSpace
  /-- Make the space in hand the memory of the process. -/
  | installSpace
  /-- Make a handle in hand the process's handle on its executable. -/
  | installExecutable (file : Handle)
  /-- Open a file; the handle is in hand. -/
  | openFile (path : String)
  /-- Make a file. -/
  | create (path : String) (size : UInt32)
  /-- Take a file's name away. -/
  | remove (path : String)
  /-- Read from a file. -/
  | read (file : Handle) (n : Nat)
  /-- Write to a file. -/
  | write (file : Handle) (data : Bytes)
  /-- Move the position of a handle. -/
  | seek (file : Handle) (position : UInt32)
  /-- The position of a handle. -/
  | tell (file : Handle)
  /-- The length of a file. -/
  | length (file : Handle)
  /-- Deny writes to a file. -/
  | deny (file : Handle)
  /-- Allow writes to a file. -/
  | allow (file : Handle)
  /-- Close a handle in hand. -/
  | close (file : Handle)
  /-- Give a handle in hand a descriptor; if there is none it stays in hand. -/
  | keepFile (file : Handle)
  /-- The handle under a descriptor. -/
  | findFile (descriptor : Descriptor)
  /-- Take the handle under a descriptor in hand. -/
  | takeFile (descriptor : Descriptor)
  /-- Read a keyboard byte. -/
  | getByte
  /-- Show a buffer. -/
  | put (buffer : Bytes)
  /-- Turn interrupts off. -/
  | disableInterrupts
  /-- Set the interrupt level. -/
  | setInterrupts (level : InterruptLevel)
  /-- The interrupt level. -/
  | interrupts
  /-- Activate page tables, by their directory, or the kernel's own. -/
  | activate (root : Option Nat)
  /-- What the thread activated last, if it activated anything. -/
  | lastActivation
  /-- Record a child. -/
  | register (family : Family) (child : Tid) (exit : ChannelId)
  /-- Take the record of the child with a process number. -/
  | takeChild (family : Family) (pid : Int32)
  /-- Take all records. -/
  | takeChildren (family : Family)
  /-- The records. -/
  | children (family : Family)
  /-- Record a remark. -/
  | log (level : LogLevel) (text : String)
  /-- Record that user mode is entered, the thread is to end, or the machine is to stop. -/
  | note (event : Event)
  /-- Record that power is to go off. -/
  | powerOff
  /-- Report the answer to an operation of a script. -/
  | report (operation : Nat) (reply : Reply)
  /-- Record that the thread fails. -/
  | fail (text : String)

namespace DeviceRequest

/-- The kind of answer to each request. -/
abbrev Answer : DeviceRequest → Type
  | tid => Tid
  | process => Option Process
  | takeExitSignal => Option ChannelId
  | takeExecutable => Option Handle
  | takeFiles => List Handle
  | detachSpace => Bool
  | destroyProcess => Option Leftovers
  | decode _ => Except UserFault Syscall
  | checkRange .. => Except UserFault Unit
  | copyIn .. => Except UserFault Bytes
  | copyString .. => Except UserFault Bytes
  | copyOut .. => Except UserFault Unit
  | load .. => Except AddressSpace.Touch Bytes
  | store .. => Except AddressSpace.Touch Unit
  | readBytes .. => Except MappingError Bytes
  | writeBytes .. => Except MappingError Unit
  | pages => List AddressSpace.PageSummary
  | allocate => Bool
  | mapFrame .. => Except MappingError Unit
  | spacePages => List VirtAddr
  | openFile _ => Option Handle
  | create .. => Bool
  | remove _ => Bool
  | read .. => Bytes
  | write .. => Nat
  | tell _ => UInt32
  | length _ => UInt32
  | keepFile _ => Option Descriptor
  | findFile _ => Except DescriptorError Handle
  | takeFile _ => Except DescriptorError Handle
  | getByte => UInt8
  | disableInterrupts => InterruptLevel
  | interrupts => InterruptLevel
  | lastActivation => Option (Option Nat)
  | takeChild .. => Option ChannelId
  | takeChildren _ => List ChannelId
  | children _ => Children
  | _ => Unit

/-! ## Serving -/

/-- A request on the memory of the process, which is refused as an unmapped address if the process
    has none. -/
def onMemory {α : Type} (start : VirtAddr) (b : Belongings) (d : Devices)
    (f : AddressSpace → FramePool → Except UserFault α) :
    Except UserFault α × Belongings × Devices :=
  match b.space? with
  | some s => (f s d.pool, b, d)
  | none => (.error (.unmapped start), b, d)

/-- Take a frame in hand, if there is one left. -/
def serveAllocate (b : Belongings) (d : Devices) : Bool × Belongings × Devices :=
  match d.pool.allocate? with
  | some (f, pool) =>
    (true, { b with hands := { b.hands with frame := some f } },
      { d with pool := pool }.note b.tid (.allocate true))
  | none => (false, b, d.note b.tid (.allocate false))

/-- Give the frame in hand back. -/
def serveFreeFrame (b : Belongings) (d : Devices) : Unit × Belongings × Devices :=
  match b.hands.frame with
  | some f =>
    ((), { b with hands := { b.hands with frame := none } },
      d.releaseFrame b.tid b.interrupts f)
  | none => ((), b, d)

/-- Map the frame in hand. -/
def serveMapFrame (page : VirtAddr) (writable : Bool) (b : Belongings) (d : Devices) :
    Except MappingError Unit × Belongings × Devices :=
  match b.hands.space, b.hands.frame with
  | some s, some f =>
    match s.map page f writable with
    | .ok s => (.ok (), { b with hands := { b.hands with space := some s, frame := none } }, d)
    | .error e =>
      (.error e, { b with hands := { b.hands with frame := none } },
        d.releaseFrame b.tid b.interrupts f)
  | _, _ => (.error .outOfMemory, b, d)

/-- Give the frame of a mapped page back. -/
def serveFreePage (page : VirtAddr) (b : Belongings) (d : Devices) :
    Unit × Belongings × Devices :=
  match b.hands.space with
  | some s =>
    match s.translate page with
    | some t =>
      ((), { b with hands := { b.hands with space := some (s.unmap page) } },
        d.releaseFrame b.tid b.interrupts t.frame)
    | none => ((), b, d)
  | none => ((), b, d)

/-- Take a process apart. -/
def serveDestroyProcess (b : Belongings) (d : Devices) :
    Option Leftovers × Belongings × Devices :=
  match b.hands.process with
  | some p =>
    let files := p.files.files
    let hands : Hands :=
      { space := p.space.or b.hands.space
        frame := b.hands.frame
        files := b.hands.files ++ files ++ p.executable.toList
        process := none }
    (some
      { space := p.space.isSome
        files := files
        executable := p.executable
        children := p.children.channels
        exitSignal := p.exitSignal },
      { b with hands := hands }, d)
  | none => (none, b, d)

/-- Give a handle a descriptor. -/
def serveKeepFile (h : Handle) (b : Belongings) (d : Devices) :
    Option Descriptor × Belongings × Devices :=
  match b.process with
  | some p =>
    match p.files.insert h with
    | some (descriptor, files) =>
      (some descriptor,
        { b with
          process := some { p with files := files }
          hands := { b.hands with files := b.hands.files.filter (· ≠ h) } }, d)
    | none => (none, b, d)
  | none => (none, b, d)

/-- Take a handle from its descriptor. -/
def serveTakeFile (descriptor : Descriptor) (b : Belongings) (d : Devices) :
    Except DescriptorError Handle × Belongings × Devices :=
  match b.process with
  | some p =>
    match p.files.remove descriptor with
    | .ok (h, files) =>
      (.ok h,
        { b with
          process := some { p with files := files }
          hands := { b.hands with files := h :: b.hands.files } }, d)
    | .error e => (.error e, b, d)
  | none => (.error .notOpen, b, d)

/-- Serve a request: the answer, and what the thread and the devices are like afterwards. -/
def serve : (r : DeviceRequest) → Belongings → Devices → r.Answer × Belongings × Devices
  | tid, b, d => (b.tid, b, d)
  | process, b, d => (b.process, b, d)
  | newProcess name maxOpenFiles exit, b, d =>
    let process := { Process.fresh b.tid.toPid name maxOpenFiles with exitSignal := some exit }
    ((), { b with process := some process }, d)
  | setState state, b, d => ((), b.modifyProcess fun p => { p with state := state }, d)
  | setExitStatus status, b, d =>
    ((), b.modifyProcess fun p => { p with exitStatus := some status }, d)
  | takeExitSignal, b, d =>
    (b.process.bind (·.exitSignal), b.modifyProcess fun p => { p with exitSignal := none }, d)
  | takeExecutable, b, d =>
    let executable := b.process.bind (·.executable)
    (executable,
      { b.modifyProcess (fun p => { p with executable := none }) with
        hands := { b.hands with files := executable.toList ++ b.hands.files } }, d)
  | takeFiles, b, d =>
    let files := (b.process.map (·.files.files)).getD []
    (files,
      { b.modifyProcess (fun p => { p with files := p.files.drainAll.2 }) with
        hands := { b.hands with files := files ++ b.hands.files } }, d)
  | detachSpace, b, d =>
    match b.space? with
    | some s =>
      (true,
        { b.modifyProcess (fun p => { p with space := none }) with
          hands := { b.hands with space := some s } }, d)
    | none => (false, b, d)
  | detachProcess, b, d =>
    ((), { b with process := none, hands := { b.hands with process := b.process } }, d)
  | destroyProcess, b, d => serveDestroyProcess b d
  | decode esp, b, d => onMemory esp b d fun s pool => Syscall.decode s pool esp
  | checkRange start n access, b, d => onMemory start b d fun s _ => s.checkRange start n access
  | copyIn start n, b, d => onMemory start b d fun s pool => s.copyIn pool start n
  | copyString start limit, b, d => onMemory start b d fun s pool => s.copyString pool start limit
  | copyOut start data, b, d =>
    match b.space? with
    | some s =>
      let (result, pool) := s.copyOut d.pool start data
      (result, b, { d with pool := pool })
    | none => (.error (.unmapped start), b, d)
  | load start n, b, d =>
    match b.space? with
    | some s => (s.load d.pool start.toNat [] n, b, d)
    | none => (if n = 0 then .ok [] else .error ⟨start, false, false⟩, b, d)
  | store start data, b, d =>
    match b.space? with
    | some s =>
      let (result, pool) := s.store d.pool start.toNat data
      (result, b, { d with pool := pool })
    | none => (if data.isEmpty then .ok () else .error ⟨start, true, false⟩, b, d)
  | readBytes start n, b, d =>
    match b.space? with
    | some s => (s.readBytes d.pool start n, b, d)
    | none => (.error .notMapped, b, d)
  | writeBytes start data, b, d =>
    match b.space? with
    | some s =>
      let (result, pool) := s.writeBytes d.pool start data
      (result, b, { d with pool := pool })
    | none => (.error .notMapped, b, d)
  | pages, b, d => ((b.space?.map fun s => s.summary d.pool).getD [], b, d)
  | newSpace, b, d =>
    ((), { b with hands := { b.hands with space := some (.empty d.spacesMade) } },
      { d with spacesMade := d.spacesMade + 1 })
  | allocate, b, d => serveAllocate b d
  | fill offset data, b, d =>
    match b.hands.frame with
    | some f => ((), b, { d with pool := d.pool.write f offset data })
    | none => ((), b, d)
  | clear offset, b, d =>
    match b.hands.frame with
    | some f => ((), b, { d with pool := d.pool.clear f offset })
    | none => ((), b, d)
  | freeFrame, b, d => serveFreeFrame b d
  | mapFrame page writable, b, d => serveMapFrame page writable b d
  | spacePages, b, d => ((b.hands.space.map fun s => s.pages.map (·.1)).getD [], b, d)
  | freePage page, b, d => serveFreePage page b d
  | dropSpace, b, d => ((), { b with hands := { b.hands with space := none } }, d)
  | installSpace, b, d =>
    match b.process with
    | some p =>
      ((), { b with
        process := some { p with space := b.hands.space }
        hands := { b.hands with space := none } }, d)
    | none => ((), b, d)
  | installExecutable h, b, d =>
    match b.process with
    | some p =>
      ((), { b with
        process := some { p with executable := some h }
        hands := { b.hands with files := b.hands.files.filter (· ≠ h) } }, d)
    | none => ((), b, d)
  | openFile path, b, d =>
    match d.volume.openFile? path with
    | some (h, volume) =>
      (some h, { b with hands := { b.hands with files := h :: b.hands.files } },
        { d with volume := volume }.note b.tid (.openFile path true))
    | none => (none, b, d.note b.tid (.openFile path false))
  | create path size, b, d =>
    let (done, volume) := d.volume.create path size
    (done, b, { d with volume := volume }.note b.tid (.create path size done))
  | remove path, b, d =>
    let (done, volume) := d.volume.remove path
    (done, b, { d with volume := volume }.note b.tid (.remove path done))
  | read h n, b, d =>
    let (data, volume) := d.volume.read h n
    (data, b, { d with volume := volume }.note b.tid (.read (d.volume.nameOf h) n data.length))
  | write h data, b, d =>
    let (n, volume) := d.volume.write h data
    (n, b, { d with volume := volume }.note b.tid (.write (d.volume.nameOf h) data.length n))
  | seek h position, b, d =>
    ((), b, { d with volume := d.volume.seek h position }.note b.tid
      (.seek (d.volume.nameOf h) position))
  | tell h, b, d => (d.volume.tell h, b, d)
  | length h, b, d => (d.volume.length h, b, d)
  | deny h, b, d =>
    ((), b, { d with volume := d.volume.deny h }.note b.tid (.deny (d.volume.nameOf h)))
  | allow h, b, d =>
    ((), b, { d with volume := d.volume.allow h }.note b.tid (.allow (d.volume.nameOf h)))
  | close h, b, d =>
    ((), { b with hands := { b.hands with files := b.hands.files.filter (· ≠ h) } },
      { d with volume := d.volume.close h }.note b.tid (.close (d.volume.nameOf h)))
  | keepFile h, b, d => serveKeepFile h b d
  | findFile descriptor, b, d =>
    match b.process with
    | some p => (p.files.get descriptor, b, d)
    | none => (.error .notOpen, b, d)
  | takeFile descriptor, b, d => serveTakeFile descriptor b d
  | getByte, b, d =>
    let (byte, console) := d.console.getByte
    (byte, b, { d with console := console })
  | put buffer, b, d =>
    ((), b, { d with console := d.console.put buffer }.note b.tid (.put buffer))
  | disableInterrupts, b, d =>
    (b.interrupts, { b with interrupts := .off }, d.note b.tid .disableInterrupts)
  | setInterrupts level, b, d =>
    ((), { b with interrupts := level }, d.note b.tid (.setInterrupts level.isOn))
  | interrupts, b, d => (b.interrupts, b, d)
  | activate root, b, d => ((), b, d.note b.tid (.activate root))
  | lastActivation, b, d => ((d.activations b.tid).getLast?, b, d)
  | register family child exit, b, d =>
    ((), b.modifyChildren (·.register child exit) family, d)
  | takeChild family pid, b, d =>
    match (b.children family).find? pid with
    | some (child, exit) => (some exit, b.modifyChildren (·.remove child) family, d)
    | none => (none, b, d)
  | takeChildren family, b, d =>
    ((b.children family).channels, b.modifyChildren (fun _ => .empty) family, d)
  | children family, b, d => (b.children family, b, d)
  | log level text, b, d => ((), b, d.remark level text)
  | note event, b, d => ((), b, d.note b.tid event)
  | powerOff, b, d => ((), b, { d with halted := true }.note b.tid .halt)
  | report operation reply, b, d => ((), b, d.report ⟨b.tid, some (operation, reply)⟩)
  | fail text, b, d => ((), b, { d with failures := text :: d.failures })

/-- The requests that go to the volume and may take their time there. -/
def usesVolume : DeviceRequest → Bool
  | openFile _ | create .. | remove _ | read .. | write .. => true
  | _ => false

/-- Device requests and their answers. -/
abbrev signature : Signature := ⟨DeviceRequest, Answer⟩

end DeviceRequest

/-! ## Routines -/

/-- A program that never sleeps. -/
abbrev Routine := Program DeviceRequest.signature

namespace Routine

/-- Ask for one thing. -/
def ask (r : DeviceRequest) : Routine r.Answer := Program.request (σ := DeviceRequest.signature) r

/-- Run a routine on devices: its result, and what the thread and the devices are like afterwards. -/
def run {α : Type} : Routine α → Belongings → Devices → α × Belongings × Devices
  | Program.pure x, b, d => (x, b, d)
  | Program.ask r next, b, d =>
    let (answer, b, d) := DeviceRequest.serve r b d
    run (next answer) b d

end Routine

end Userland

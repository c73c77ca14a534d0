import Userland.Executable.Loader

/-!
# Scripts for address spaces

A script works on several address spaces that share one pool of frames. A space is made when it is
first named, and again when it is named after it was dropped.
-/

namespace Userland

/-- An operation on an address space. -/
inductive SpaceOp where
  /-- Map a new frame. -/
  | map (page : VirtAddr) (writable : Bool)
  /-- Take a frame and give it back. -/
  | allocateFree
  /-- Look up an address. -/
  | translate (address : VirtAddr)
  /-- Read bytes without a check. -/
  | read (start : VirtAddr) (n : Nat)
  /-- Store bytes without a check. -/
  | write (start : VirtAddr) (data : Bytes)
  /-- Check an address. -/
  | checkPointer (address : VirtAddr) (access : Access)
  /-- Check a range. -/
  | checkRange (start : VirtAddr) (n : Nat) (access : Access)
  /-- Read a word. -/
  | readWord (start : VirtAddr)
  /-- Copy bytes out. -/
  | copyIn (start : VirtAddr) (n : Nat)
  /-- Copy bytes in. -/
  | copyOut (start : VirtAddr) (data : Bytes)
  /-- Copy a string out. -/
  | copyString (start : VirtAddr) (limit : Nat)
  /-- Read a system call. -/
  | decode (esp : VirtAddr)
  /-- Map a stack page with arguments. -/
  | stack (arguments : List String)
  /-- Tell the mapped pages. -/
  | pages
  /-- Tell the number of pages as text. -/
  | debugText
  /-- Drop the space. -/
  | drop

/-- The answer to an operation. -/
inductive SpaceReply where
  /-- Whether it could be done. -/
  | mapped (result : Except MappingError Unit)
  /-- The flags of a page. -/
  | flags (result : Option PageFlags)
  /-- Bytes read without a check. -/
  | read (result : Except MappingError Bytes)
  /-- What a check says. -/
  | checked (result : Except UserFault Unit)
  /-- A word. -/
  | word (result : Except UserFault UInt32)
  /-- Bytes. -/
  | copied (result : Except UserFault Bytes)
  /-- A string. -/
  | string (result : Except UserFault Bytes)
  /-- A system call. -/
  | call (result : Except UserFault Syscall)
  /-- Where the stack starts, and its bytes. -/
  | stack (result : Except LoadError (VirtAddr × Bytes))
  /-- Pages. -/
  | pages (list : List AddressSpace.PageSummary)
  /-- Text. -/
  | text (text : String)

/-- Address spaces that share devices. -/
structure SpaceDesk where
  /-- The devices. -/
  devices : Devices
  /-- The spaces, by number. -/
  spaces : List (Nat × AddressSpace)

namespace SpaceDesk

/-- A desk with a pool of frames. -/
def fresh (frames : Nat) : SpaceDesk := ⟨.fresh (Volume.empty .bounded) (.ofFrames frames) [], []⟩

/-- Run a routine with a space in hand, which is made if there is none. -/
def run {α : Type} (desk : SpaceDesk) (id : Nat) (r : Routine α) : α × SpaceDesk :=
  let own := Belongings.fresh 0
  let r : Routine α := do
    if (desk.spaces.lookup id).isNone then Routine.ask .newSpace
    r
  let hands := { Hands.empty with space := desk.spaces.lookup id }
  let (x, own, devices) := r.run { own with hands := hands } desk.devices
  let others := desk.spaces.filter fun (i, _) => i ≠ id
  (x, ⟨devices, (own.hands.space.toList.map fun s => (id, s)) ++ others⟩)

/-- The space with a number, if there is one. -/
def space? (desk : SpaceDesk) (id : Nat) : Option AddressSpace := desk.spaces.lookup id

/-- The space with a number. -/
def space (desk : SpaceDesk) (id : Nat) : AddressSpace := (desk.space? id).getD (.empty 0)

/-- Drop all spaces. -/
def clear (desk : SpaceDesk) : SpaceDesk :=
  desk.spaces.foldl (fun desk (id, _) => (desk.run id Loader.releaseSpace).2) desk

end SpaceDesk

/-- The bytes from the start of a stack to the end of its page. -/
def stackBytes (s : AddressSpace) (pool : FramePool) (esp : VirtAddr) : Bytes :=
  match s.readBytes pool esp (userTop - esp.toNat) with
  | .ok bs => bs
  | .error _ => []

namespace SpaceOp

open Routine

/-- Map a new frame. -/
def mapNew (page : VirtAddr) (writable : Bool) : Routine (Except MappingError Unit) := do
  if ← ask .allocate then ask (.mapFrame page writable)
  else return .error .outOfMemory

/-- Take a frame and give it back. -/
def takeAndFree : Routine (Except MappingError Unit) := do
  if ← ask .allocate then
    ask .freeFrame
    return .ok ()
  else return .error .outOfMemory

/-- What an operation on the space `id` answers, and the desk afterwards. The space is there. -/
def performOn (desk : SpaceDesk) (id : Nat) : SpaceOp → SpaceReply × SpaceDesk
  | map page writable =>
    let (result, desk) := desk.run id (mapNew page writable)
    (.mapped result, desk)
  | allocateFree =>
    let (result, desk) := desk.run id takeAndFree
    (.mapped result, desk)
  | translate a => (.flags (((desk.space id).translate a).map (·.flags)), desk)
  | read start n => (.read ((desk.space id).readBytes desk.devices.pool start n), desk)
  | write start data =>
    let (result, pool) := (desk.space id).writeBytes desk.devices.pool start data
    (.mapped result, { desk with devices := { desk.devices with pool := pool } })
  | checkPointer a access => (.checked ((desk.space id).checkPointer a access), desk)
  | checkRange start n access => (.checked ((desk.space id).checkRange start n access), desk)
  | readWord start => (.word ((desk.space id).readWord desk.devices.pool start), desk)
  | copyIn start n => (.copied ((desk.space id).copyIn desk.devices.pool start n), desk)
  | copyOut start data =>
    let (result, pool) := (desk.space id).copyOut desk.devices.pool start data
    (.checked result, { desk with devices := { desk.devices with pool := pool } })
  | copyString start limit =>
    (.string ((desk.space id).copyString desk.devices.pool start limit), desk)
  | decode esp => (.call (Syscall.decode (desk.space id) desk.devices.pool esp), desk)
  | stack arguments =>
    let (result, desk) := desk.run id (Loader.loadStack arguments)
    (.stack (result.map fun esp => (esp, stackBytes (desk.space id) desk.devices.pool esp)), desk)
  | pages => (.pages ((desk.space id).summary desk.devices.pool), desk)
  | debugText => (.text (desk.space id).debugText, desk)
  | drop => (.mapped (.ok ()), (desk.run id Loader.releaseSpace).2)

/-- What an operation on the space `id` answers, and the desk afterwards. -/
def perform (desk : SpaceDesk) (id : Nat) (op : SpaceOp) : SpaceReply × SpaceDesk :=
  performOn (desk.run id (pure ())).2 id op

end SpaceOp

/-- An answer, with the state of the space and of the pool afterwards. -/
structure SpaceStep where
  /-- The answer. -/
  reply : SpaceReply
  /-- How many pages are mapped, if the space is still there. -/
  mapped : Option Nat
  /-- Bytes handed out. -/
  usedBytes : Nat

namespace SpaceDesk

/-- What operations answer, one after the other, and the desk afterwards. -/
def performAll (desk : SpaceDesk) : List (Nat × SpaceOp) → List SpaceStep × SpaceDesk
  | [] => ([], desk)
  | (id, op) :: rest =>
    let (reply, desk) := op.perform desk id
    let step : SpaceStep :=
      ⟨reply, (desk.space? id).map (·.mapped), desk.devices.pool.usedBytes⟩
    let (steps, desk) := performAll desk rest
    (step :: steps, desk)

end SpaceDesk

end Userland

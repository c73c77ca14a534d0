import Userland.Memory.AddressSpace

/-!
# Checked access to user memory

Every pointer that a program hands to the kernel is checked against the program's own pages before
the memory behind it is used. A refusal (`UserFault`) costs the program its life. Checks on a range
go page by page (`AddressSpace.checkRange`); `AddressSpace.checkPointer` checks one byte.

User code itself reads and writes memory byte by byte, and faults at the first byte that it may not
use (`AddressSpace.load`, `AddressSpace.store`).
-/

namespace Userland

/-- What is about to be done to user memory. -/
inductive Access where
  /-- Bytes are taken from it. -/
  | read
  /-- Bytes are stored in it. -/
  | write
deriving DecidableEq

/-- A value from user code that the kernel refuses to act on. -/
inductive UserFault where
  /-- The pointer is null. -/
  | nullPointer
  /-- The address belongs to the kernel. -/
  | kernelAddress (address : VirtAddr)
  /-- No page is mapped at the address. -/
  | unmapped (address : VirtAddr)
  /-- The page at the address may not be written. -/
  | readOnly (address : VirtAddr)
  /-- There is no such system call. -/
  | unknownSyscall (number : UInt32)
  /-- A string does not end within its limit. -/
  | stringTooLong
deriving DecidableEq

namespace UserFault

/-- The refusal in words. -/
def message : UserFault → String
  | nullPointer => "null pointer"
  | kernelAddress a => "kernel address " ++ a.text
  | unmapped a => "unmapped address " ++ a.text
  | readOnly a => "write to read-only page at " ++ a.text
  | unknownSyscall n => "unknown system call " ++ toString n.toNat
  | stringTooLong => "unterminated string"

/-- The name of the refusal. -/
def name : UserFault → String
  | nullPointer => "NullPointer"
  | kernelAddress _ => "KernelAddress"
  | unmapped _ => "Unmapped"
  | readOnly _ => "ReadOnly"
  | unknownSyscall _ => "UnknownSyscall"
  | stringTooLong => "StringTooLong"

/-- The name, with the value that is refused. -/
def debugText (f : UserFault) : String :=
  match f with
  | kernelAddress a | unmapped a | readOnly a => f.name ++ "(" ++ a.debugText ++ ")"
  | unknownSyscall n => f.name ++ "(" ++ toString n.toNat ++ ")"
  | nullPointer | stringTooLong => f.name

end UserFault

namespace AddressSpace

/-! ## Checks -/

/-- Check one address. -/
def checkPointer (s : AddressSpace) (a : VirtAddr) (access : Access) : Except UserFault Unit :=
  if a.toNat = 0 then .error .nullPointer
  else if !a.isUser then .error (.kernelAddress a)
  else
    match s.translate a with
    | none => .error (.unmapped a)
    | some t =>
      if access = .write ∧ !t.flags.writable then .error (.readOnly a) else .ok ()

/-- Check the pages that start at `page` and every page size further, up to the byte `last`. -/
def checkPages (s : AddressSpace) (access : Access) (last page : Nat) : Except UserFault Unit :=
  if page ≤ last then do
    s.checkPointer (VirtAddr.ofNat page) access
    s.checkPages access last (page + pageSize)
  else .ok ()
termination_by last + 1 - page
decreasing_by
  simp only [pageSize]
  omega

/-- Check `n` bytes from `start` on. No bytes are fine wherever they lie. The first check is on
    `start` itself, so that a null pointer is reported as such. -/
def checkRange (s : AddressSpace) (start : VirtAddr) (n : Nat) (access : Access) :
    Except UserFault Unit :=
  if n = 0 then .ok ()
  else
    match start.add? (n - 1) with
    | none => .error (.kernelAddress start)
    | some last =>
      if !last.isUser then .error (.kernelAddress last)
      else do
        s.checkPointer start access
        s.checkPages access last.toNat (start.page.toNat + pageSize)

/-! ## Copies -/

/-- A mapping error after a check counts as a fault at the start of the range. -/
def faultAt {α : Type} (start : VirtAddr) : Except MappingError α → Except UserFault α
  | .ok x => .ok x
  | .error _ => .error (.unmapped start)

/-- Copy `n` bytes out of user memory. -/
def copyIn (s : AddressSpace) (pool : FramePool) (start : VirtAddr) (n : Nat) :
    Except UserFault Bytes := do
  s.checkRange start n .read
  faultAt start (s.readBytes pool start n)

/-- Read a word of user memory. -/
def readWord (s : AddressSpace) (pool : FramePool) (start : VirtAddr) : Except UserFault UInt32 :=
  (s.copyIn pool start 4).map Bytes.word

/-- Copy bytes into user memory that may be written. -/
def copyOut (s : AddressSpace) (pool : FramePool) (start : VirtAddr) (data : Bytes) :
    Except UserFault Unit × FramePool :=
  match s.checkRange start data.length .write with
  | .error fault => (.error fault, pool)
  | .ok () =>
    let (result, pool) := s.writeBytes pool start data
    (faultAt start result, pool)

/-- The rest of a string of which the bytes `done`, newest first, are read, with at most `limit`
    more bytes to look at. -/
def copyStringFrom (s : AddressSpace) (pool : FramePool) (start : VirtAddr) (done : Bytes)
    (count : Nat) : Nat → Except UserFault Bytes
  | 0 => .error .stringTooLong
  | limit + 1 =>
    match start.add? count with
    | none => .error (.kernelAddress start)
    | some a => do
      s.checkPointer a .read
      match ← faultAt a (s.readBytes pool a 1) with
      | [] => .error (.unmapped a)
      | b :: _ =>
        if b = 0 then .ok done.reverse
        else s.copyStringFrom pool start (b :: done) (count + 1) limit

/-- Copy a string that ends with a zero byte out of user memory, without the zero. At most `limit`
    bytes are looked at, the zero included, and each is checked before it is read. -/
def copyString (s : AddressSpace) (pool : FramePool) (start : VirtAddr) (limit : Nat) :
    Except UserFault Bytes :=
  s.copyStringFrom pool start [] 0 limit

/-! ## Access by user code -/

/-- A byte that user code may not use. -/
structure Touch where
  /-- The byte. -/
  address : VirtAddr
  /-- Whether it was to be written. -/
  write : Bool
  /-- Whether its page is mapped. -/
  present : Bool

/-- Read `n` bytes as user code does, after the bytes `done`, newest first. -/
def load (s : AddressSpace) (pool : FramePool) (a : Nat) (done : Bytes) : Nat → Except Touch Bytes
  | 0 => .ok done.reverse
  | n + 1 =>
    match s.byte? pool (VirtAddr.ofNat a) with
    | some b => s.load pool (a + 1) (b :: done) n
    | none => .error ⟨VirtAddr.ofNat a, false, false⟩

/-- Store bytes as user code does. Bytes before one that may not be written stay stored. -/
def store (s : AddressSpace) (pool : FramePool) (a : Nat) : Bytes → Except Touch Unit × FramePool
  | [] => (.ok (), pool)
  | b :: bs =>
    match s.translate (VirtAddr.ofNat a) with
    | none => (.error ⟨VirtAddr.ofNat a, true, false⟩, pool)
    | some t =>
      if t.flags.writable then
        s.store (pool.write t.frame (VirtAddr.ofNat a).offset [b]) (a + 1) bs
      else (.error ⟨VirtAddr.ofNat a, true, true⟩, pool)

end AddressSpace

end Userland

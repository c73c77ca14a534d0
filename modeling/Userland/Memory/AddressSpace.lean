import Userland.Memory.FramePool
import Userland.Memory.PageTable
import Userland.Text.Digest

/-!
# Address spaces

An address space maps pages to frames through a directory of page tables. Page 0 and the kernel's
pages are never mapped, and no page is mapped twice (`AddressSpace.checkMappable`). The kernel
reads and writes user memory through the tables, page by page (`AddressSpace.readBytes`,
`AddressSpace.writeBytes`); the same memory seen byte by byte is `AddressSpace.byte?`.
-/

namespace Userland

/-- Directory entries below the kernel. -/
abbrev userDirectorySize : Nat := userTop / (pageSize * tableSize)

/-- What an address resolves to. -/
structure Translation where
  /-- The frame that backs the page. -/
  frame : Frame
  /-- The flags that the page was mapped with. -/
  flags : PageFlags

/-- The pages of one program. -/
structure AddressSpace where
  /-- Identity of the page directory. -/
  root : Nat
  /-- The page tables, one for every 4 MiB in use. -/
  directory : Vector (Option PageTable) tableSize
  /-- How many pages are mapped. -/
  mapped : Nat

namespace AddressSpace

/-- The space that maps nothing. -/
def empty (root : Nat) : AddressSpace := ⟨root, Vector.replicate tableSize none, 0⟩

/-- The page table of a directory index. -/
def table? (s : AddressSpace) (index : Nat) : Option PageTable := (s.directory[index]?).join

/-- The entry for the page of an address, if its table exists. -/
def entry? (s : AddressSpace) (a : VirtAddr) : Option PageEntry :=
  (s.table? a.directoryIndex).bind (·[a.tableIndex]?)

/-- Look up the page that holds an address. -/
def translate (s : AddressSpace) (a : VirtAddr) : Option Translation :=
  if a.isUser then
    match s.entry? a with
    | some e => if e.isPresent then some ⟨Frame.ofAddress e.frame, e.flags⟩ else none
    | none => none
  else none

/-! ## Mapping -/

/-- Whether a page may be mapped. -/
def checkMappable (s : AddressSpace) (page : VirtAddr) : Except MappingError Unit :=
  if !page.isAligned then .error .misalignedAddress
  else if page.toNat < pageSize ∨ !page.isUser then .error .invalidPermissions
  else if (s.translate page).isSome then .error .alreadyMapped
  else .ok ()

/-- The space with the entry for a page changed. -/
def setEntry (s : AddressSpace) (page : VirtAddr) (e : PageEntry) : AddressSpace :=
  let table := (s.table? page.directoryIndex).getD PageTable.empty
  { s with
    directory := s.directory.setIfInBounds page.directoryIndex
      (some (table.setIfInBounds page.tableIndex e)) }

/-- Map a page to a frame. -/
def map (s : AddressSpace) (page : VirtAddr) (frame : Frame) (writable : Bool) :
    Except MappingError AddressSpace := do
  s.checkMappable page
  let s := s.setEntry page (PageEntry.page frame.address (PageFlags.ofUser writable))
  return { s with mapped := s.mapped + 1 }

/-- Clear the entry for a page that is mapped. -/
def unmap (s : AddressSpace) (page : VirtAddr) : AddressSpace :=
  let s := s.setEntry page PageEntry.empty
  { s with mapped := s.mapped - 1 }

/-- The mapped pages with their entries, in ascending order. -/
def pages (s : AddressSpace) : List (VirtAddr × PageEntry) :=
  ((s.directory.toList.take userDirectorySize).zipIdx).flatMap fun (table?, directoryIndex) =>
    match table? with
    | none => []
    | some table => table.present.map fun (tableIndex, e) =>
        (VirtAddr.ofNat ((directoryIndex * tableSize + tableIndex) * pageSize), e)

/-! ## Contents -/

/-- The byte at an address, if its page is mapped. -/
def byte? (s : AddressSpace) (pool : FramePool) (a : VirtAddr) : Option UInt8 :=
  (s.translate a).bind fun t => (pool.page? t.frame).bind (·[a.offset]?)

/-- The bytes of `todo` addresses, `done` bytes up from `start`, read in pieces that end with a
    page. Only the presence of pages is checked. -/
def readFrom (s : AddressSpace) (pool : FramePool) (start : VirtAddr) (done todo : Nat) :
    Except MappingError Bytes :=
  if todo = 0 then .ok []
  else
    match start.add? done with
    | none => .error .notMapped
    | some a =>
      match s.translate a with
      | none => .error .notMapped
      | some t =>
        let piece := min (pageSize - a.offset) todo
        (s.readFrom pool start (done + piece) (todo - piece)).map
          (pool.read t.frame a.offset piece ++ ·)
termination_by todo
decreasing_by
  have := a.offset_lt
  omega

/-- The `n` bytes from `start` on. -/
def readBytes (s : AddressSpace) (pool : FramePool) (start : VirtAddr) (n : Nat) :
    Except MappingError Bytes :=
  s.readFrom pool start 0 n

/-- Store bytes, `done` bytes up from `start`, in pieces that end with a page. Pieces before a page
    that is not mapped stay stored. -/
def writeFrom (s : AddressSpace) (pool : FramePool) (start : VirtAddr) (done : Nat) (data : Bytes) :
    Except MappingError Unit × FramePool :=
  if data.isEmpty then (.ok (), pool)
  else
    match start.add? done with
    | none => (.error .notMapped, pool)
    | some a =>
      match s.translate a with
      | none => (.error .notMapped, pool)
      | some t =>
        let piece := min (pageSize - a.offset) data.length
        s.writeFrom (pool.write t.frame a.offset (data.take piece)) start (done + piece)
          (data.drop piece)
termination_by data.length
decreasing_by
  have := a.offset_lt
  have : data.length ≠ 0 := by simp_all
  simp only [List.length_drop]
  omega

/-- Store bytes from `start` on. -/
def writeBytes (s : AddressSpace) (pool : FramePool) (start : VirtAddr) (data : Bytes) :
    Except MappingError Unit × FramePool :=
  s.writeFrom pool start 0 data

/-- A mapped page, by what an observer can tell of it. -/
structure PageSummary where
  /-- Where it starts. -/
  address : VirtAddr
  /-- Whether it may be written. -/
  writable : Bool
  /-- The digest of its bytes. -/
  digest : UInt32

/-- All mapped pages, in ascending order. -/
def summary (s : AddressSpace) (pool : FramePool) : List PageSummary :=
  s.pages.map fun (a, e) =>
    ⟨a, e.flags.writable, Digest.ofBytes (pool.read (Frame.ofAddress e.frame) 0 pageSize)⟩

/-! ## Text -/

/-- The number of pages; the directory itself is not shown. -/
def debugText (s : AddressSpace) : String :=
  "AddressSpace \x7b root: ROOT, mapped: " ++ toString s.mapped ++ " \x7d"

end AddressSpace

end Userland

import Userland.Memory.Address

/-!
# Page table entries

An entry packs the address of a page frame and its flags into one word, in the format of the
32-bit x86 memory unit: the flags lie in the twelve lowest bits, which the address of a frame leaves
free (`PageEntry.frame_page`, `PageEntry.flags_page`). A page table has 1024 entries.
-/

namespace Userland

/-! ## Flags -/

/-- What a page may be used for, and how it has been used. -/
structure PageFlags where
  /-- The entry maps a page. -/
  present : Bool
  /-- The page may be written. -/
  writable : Bool
  /-- The page may be used by user code. -/
  user : Bool
  /-- The page has been used. -/
  accessed : Bool
  /-- The page has been written. -/
  dirty : Bool
deriving DecidableEq

namespace PageFlags

/-- The flags among the bits of a word; other bits are dropped. -/
def ofBits (word : Nat) : PageFlags :=
  ⟨word.testBit 0, word.testBit 1, word.testBit 2, word.testBit 5, word.testBit 6⟩

/-- The flags as bits. -/
def bits (f : PageFlags) : Nat :=
  f.present.toNat + 2 * f.writable.toNat + 4 * f.user.toNat + 32 * f.accessed.toNat +
    64 * f.dirty.toNat

/-- The flags of a user page. -/
def ofUser (writable : Bool) : PageFlags := ⟨true, writable, true, false, false⟩

/-- The names of the flags that are set. -/
def names (f : PageFlags) : List String :=
  [(f.present, "PRESENT"), (f.writable, "WRITABLE"), (f.user, "USER"), (f.accessed, "ACCESSED"),
    (f.dirty, "DIRTY")].filterMap fun (isSet, name) => if isSet then some name else none

/-- The names of the flags that are set, or zero if there are none. -/
def debugText (f : PageFlags) : String :=
  let inner := if f.names.isEmpty then "0x0" else String.intercalate " | " f.names
  "PageFlags(" ++ inner ++ ")"

theorem bits_lt (f : PageFlags) : f.bits < pageSize := by
  obtain ⟨p, w, u, a, d⟩ := f
  cases p <;> cases w <;> cases u <;> cases a <;> cases d <;> decide

@[simp] theorem ofBits_bits (f : PageFlags) : ofBits f.bits = f := by
  obtain ⟨p, w, u, a, d⟩ := f
  cases p <;> cases w <;> cases u <;> cases a <;> cases d <;> decide

end PageFlags

/-! ## Entries -/

/-- An entry of a page table. -/
structure PageEntry where
  /-- Address and flags in one word. -/
  word : Nat
deriving DecidableEq

namespace PageEntry

/-- The entry that maps nothing. -/
def empty : PageEntry := ⟨0⟩

/-- The entry that maps a frame. -/
def page (frame : PhysAddr) (flags : PageFlags) : PageEntry := ⟨pageDown frame.toNat + flags.bits⟩

/-- The address of the frame. -/
def frame (e : PageEntry) : PhysAddr := PhysAddr.ofNat (pageDown e.word)

/-- The flags. -/
def flags (e : PageEntry) : PageFlags := PageFlags.ofBits (e.word % pageSize)

/-- Whether the entry maps a page. -/
def isPresent (e : PageEntry) : Bool := e.word % 2 = 1

/-- The frame and the flags, or that there are none. -/
def debugText (e : PageEntry) : String :=
  if e.isPresent then "PTE(addr=" ++ e.frame.text ++ ", flags=" ++ e.flags.debugText ++ ")"
  else "PTE(invalid)"

@[simp] theorem flags_page (a : PhysAddr) (f : PageFlags) : (page a f).flags = f := by
  have h : (pageDown a.toNat + f.bits) % pageSize = f.bits := by
    have := f.bits_lt
    simp only [pageDown, pageSize] at *
    omega
  rw [flags, page, h, PageFlags.ofBits_bits]

@[simp] theorem frame_page {a : PhysAddr} (h : a.isAligned = true) (f : PageFlags) :
    (page a f).frame = a := by
  obtain ⟨n, hn⟩ := a
  have bound : n < 0x10000000000000000 := hn
  have := f.bits_lt
  simp only [PhysAddr.isAligned, decide_eq_true_eq] at h
  simp only [page, frame, PhysAddr.ofNat, pageDown, pageSize, addressLimit,
    PhysAddr.mk.injEq] at *
  omega

theorem isPresent_page (a : PhysAddr) (f : PageFlags) : (page a f).isPresent = f.present := by
  have low : (pageDown a.toNat + f.bits) % 2 = f.present.toNat := by
    have := Bool.toNat_lt f.present
    simp only [pageDown, pageSize, PageFlags.bits]
    omega
  cases h : f.present <;> simp [isPresent, page, low, h]

@[simp] theorem isPresent_empty : empty.isPresent = false := rfl

end PageEntry

/-! ## Tables -/

/-- A page table. -/
abbrev PageTable := Vector PageEntry tableSize

namespace PageTable

/-- The table that maps nothing. -/
def empty : PageTable := Vector.replicate tableSize PageEntry.empty

/-- The entries that map a page, with their indices, in order. -/
def present (t : PageTable) : List (Nat × PageEntry) :=
  (t.toList.zipIdx.filter fun (e, _) => e.isPresent).map fun (e, i) => (i, e)

/-- The table with every entry that maps a page cleared. -/
def clearPresent (t : PageTable) : PageTable :=
  t.map fun e => if e.isPresent then PageEntry.empty else e

end PageTable

/-! ## Refusals -/

/-- Why a page could not be mapped or used. -/
inductive MappingError where
  /-- The page is mapped already. -/
  | alreadyMapped
  /-- The page is not mapped. -/
  | notMapped
  /-- No frame is free. -/
  | outOfMemory
  /-- The address is not the start of a page. -/
  | misalignedAddress
  /-- The page is page 0 or belongs to the kernel. -/
  | invalidPermissions
deriving DecidableEq

namespace MappingError

/-- The name of the refusal. -/
def name : MappingError → String
  | alreadyMapped => "AlreadyMapped"
  | notMapped => "NotMapped"
  | outOfMemory => "OutOfMemory"
  | misalignedAddress => "MisalignedAddress"
  | invalidPermissions => "InvalidPermissions"

/-- The refusal in words. -/
def message : MappingError → String
  | alreadyMapped => "virtual address already mapped"
  | notMapped => "virtual address not mapped"
  | outOfMemory => "out of physical frames"
  | misalignedAddress => "address not properly aligned"
  | invalidPermissions => "invalid permission combination"

end MappingError

end Userland

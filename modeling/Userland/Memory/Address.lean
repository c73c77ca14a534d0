import Userland.Text.Hex

/-!
# Addresses

Memory is divided into pages of 4096 bytes. A user address space ends at `userTop`; everything
from there on belongs to the kernel. Addresses of both kinds have 64 bits, so a sum may leave the
range (`VirtAddr.add?`). A user address is split three ways: its number of 4 MiB regions
(`VirtAddr.directoryIndex`), of pages within the region (`VirtAddr.tableIndex`) and of bytes within
the page (`VirtAddr.offset`); `VirtAddr.split` puts the three together again.
-/

namespace Userland

/-- Bytes in a page. -/
abbrev pageSize : Nat := 4096

/-- Entries of a page directory, and of a page table. -/
abbrev tableSize : Nat := 1024

/-- The first address that belongs to the kernel. -/
abbrev userTop : Nat := 0xC0000000

/-- The start of the page that holds `n`. -/
def pageDown (n : Nat) : Nat := n / pageSize * pageSize

/-- The least multiple of the page size that is not below `n`. -/
def pageUp (n : Nat) : Nat := (n + (pageSize - 1)) / pageSize * pageSize

/-- One past the greatest address. -/
abbrev addressLimit : Nat := 0x10000000000000000

/-- One past the greatest 32-bit word. -/
abbrev wordLimit : Nat := 0x100000000

/-- An address as the processor's memory bus sees it. -/
structure PhysAddr where
  /-- Position of the byte. -/
  toNat : Nat
  /-- Addresses have 64 bits. -/
  isLt : toNat < addressLimit
deriving DecidableEq

/-- An address as a program sees it. -/
structure VirtAddr where
  /-- Position of the byte. -/
  toNat : Nat
  /-- Addresses have 64 bits. -/
  isLt : toNat < addressLimit
deriving DecidableEq

namespace PhysAddr

/-- The address with the 64 lowest bits of `n`. -/
def ofNat (n : Nat) : PhysAddr := ⟨n % addressLimit, Nat.mod_lt _ (by decide)⟩

/-- Whether a page starts here. -/
def isAligned (a : PhysAddr) : Bool := a.toNat % pageSize = 0

/-- Sixteen digits or more. -/
def text (a : PhysAddr) : String := Hex.padded 16 a.toNat

/-- The text with the name of the type around it. -/
def debugText (a : PhysAddr) : String := "PhysAddr(" ++ a.text ++ ")"

end PhysAddr

namespace VirtAddr

/-- The address with the 64 lowest bits of `n`. -/
def ofNat (n : Nat) : VirtAddr := ⟨n % addressLimit, Nat.mod_lt _ (by decide)⟩

/-- The address in a 32-bit word. -/
def ofWord (w : UInt32) : VirtAddr := ⟨w.toNat, Nat.lt_trans w.toNat_lt (by decide)⟩

/-- The 32 lowest bits. -/
def toWord (a : VirtAddr) : UInt32 := UInt32.ofNat a.toNat

/-- Whether a page starts here. -/
def isAligned (a : VirtAddr) : Bool := a.toNat % pageSize = 0

/-- The start of the page that holds `a`. -/
def page (a : VirtAddr) : VirtAddr :=
  ⟨pageDown a.toNat, Nat.lt_of_le_of_lt (Nat.div_mul_le_self ..) a.isLt⟩

/-- Where `a` lies in its page. -/
def offset (a : VirtAddr) : Nat := a.toNat % pageSize

/-- The number of the 4 MiB region that holds `a`. -/
def directoryIndex (a : VirtAddr) : Nat := a.toNat / (pageSize * tableSize)

/-- The number of the page that holds `a` within its region. -/
def tableIndex (a : VirtAddr) : Nat := a.toNat / pageSize % tableSize

/-- The address `n` bytes up, if there is one. -/
def add? (a : VirtAddr) (n : Nat) : Option VirtAddr :=
  if h : a.toNat + n < addressLimit then some ⟨a.toNat + n, h⟩ else none

/-- Whether `a` lies below the kernel. -/
def isUser (a : VirtAddr) : Bool := a.toNat < userTop

/-- Eight digits or more. -/
def text (a : VirtAddr) : String := Hex.padded 8 a.toNat

/-- The text with the name of the type around it. -/
def debugText (a : VirtAddr) : String := "VirtAddr(" ++ a.text ++ ")"

/-- The three parts of an address determine it. -/
theorem split (a : VirtAddr) :
    a.directoryIndex * (pageSize * tableSize) + a.tableIndex * pageSize + a.offset = a.toNat := by
  simp only [directoryIndex, tableIndex, offset, pageSize, tableSize]
  omega

theorem tableIndex_lt (a : VirtAddr) : a.tableIndex < tableSize := Nat.mod_lt _ (by decide)

theorem offset_lt (a : VirtAddr) : a.offset < pageSize := Nat.mod_lt _ (by decide)

theorem directoryIndex_lt {a : VirtAddr} (h : a.isUser = true) : a.directoryIndex < tableSize := by
  simp only [isUser, userTop, decide_eq_true_eq] at h
  simp only [directoryIndex, pageSize, tableSize]
  omega

@[simp] theorem toNat_page (a : VirtAddr) : a.page.toNat = a.toNat / pageSize * pageSize := rfl

theorem add?_eq_some {a b : VirtAddr} {n : Nat} :
    a.add? n = some b ↔ b.toNat = a.toNat + n := by
  simp only [add?]
  split
  · rename_i h
    simp only [Option.some.injEq]
    constructor
    · rintro rfl
      rfl
    · intro e
      cases b
      simp_all
  · have := b.isLt
    constructor
    · simp
    · intro e
      omega

end VirtAddr

/-- Round up to a page boundary; `none` if the sum leaves the 64 bits. -/
def pageUp? (n : Nat) : Option Nat :=
  if n ≤ addressLimit - pageSize then some (pageUp n) else none

end Userland

import Userland.Bytes
import Userland.Memory.Address

/-!
# The pool of page frames

Frames for user pages come from one pool over a region of memory. A frame is handed out cleared,
whatever was left in it (`FramePool.allocate?`), and may be handed out again once it is back
(`FramePool.release`). The pool counts the bytes it has handed out. The allocator under it keeps its
records in the region itself, and may withhold pages of the region for them; how many is a parameter
(`FramePool.ofRegion`).
-/

namespace Userland

/-! ## Pages -/

/-- The contents of a page. -/
abbrev Page := Vector UInt8 pageSize

namespace Page

/-- A page of equal bytes. -/
def filled (b : UInt8) : Page := Vector.replicate pageSize b

/-- `n` bytes of a page from `offset` on, or as many as there are. -/
def read (p : Page) (offset n : Nat) : Bytes := (p.toArray.extract offset (offset + n)).toList

/-- A page with bytes stored from `offset` on; bytes past the end are dropped. -/
def write (p : Page) (offset : Nat) : Bytes → Page
  | [] => p
  | b :: bs => write (p.setIfInBounds offset b) (offset + 1) bs

/-- A page with zeros from `offset` on. -/
def clear (p : Page) (offset : Nat) : Page :=
  ⟨(p.toList.take offset ++ List.replicate (pageSize - offset) 0).toArray, by simp; omega⟩

theorem read_eq (p : Page) (offset n : Nat) :
    p.read offset n = (p.toList.drop offset).take n := by
  simp [read, Vector.toList]

theorem getElem_write (p : Page) (offset : Nat) (bs : Bytes) (i : Nat) (h : i < pageSize) :
    (p.write offset bs)[i] =
      if offset ≤ i then (bs[i - offset]?).getD p[i] else p[i] := by
  induction bs generalizing p offset with
  | nil => simp [write]
  | cons b bs ih =>
    rw [write, ih]
    rcases Nat.lt_trichotomy offset i with before | rfl | after
    · have shift : i - offset = (i - (offset + 1)) + 1 := by omega
      simp [Nat.le_of_lt before, Nat.succ_le_of_lt before, shift, Nat.ne_of_lt before]
    · have : ¬ offset + 1 ≤ offset := by omega
      simp [this]
    · have : ¬ offset ≤ i := by omega
      have : ¬ offset + 1 ≤ i := by omega
      simp [*, Nat.ne_of_gt after]

theorem getElem_clear (p : Page) (offset i : Nat) (h : i < pageSize) :
    (p.clear offset)[i] = if i < offset then p[i] else 0 := by
  simp only [clear, Vector.getElem_mk, List.getElem_toArray, List.getElem_append, List.length_take,
    Vector.length_toList]
  by_cases before : i < offset
  · simp [before, Nat.lt_min.2 ⟨before, h⟩]
  · have beyond : ¬i < min offset pageSize := fun lt => before (Nat.lt_min.1 lt).1
    simp [before, beyond]

end Page

/-! ## Frames -/

/-- One past the greatest number of a frame; a later one would lie past the end of the addresses. -/
abbrev frameLimit : Nat := addressLimit / pageSize - 1

/-- A frame of the pool, by its number. -/
structure Frame where
  /-- Frames are numbered from zero. -/
  index : Nat
  /-- Every frame has an address. -/
  isLt : index < frameLimit
deriving DecidableEq

namespace Frame

/-- The address of the first byte. No frame lies at address zero. -/
def address (f : Frame) : PhysAddr := PhysAddr.ofNat ((f.index + 1) * pageSize)

/-- The frame at an address. -/
def ofAddress (a : PhysAddr) : Frame :=
  ⟨a.toNat / pageSize - 1, by
    have bound : a.toNat < 0x10000000000000000 := a.isLt
    simp only [frameLimit, addressLimit, pageSize]
    omega⟩

end Frame

/-! ## The pool -/

/-- A place of the pool: a page, which stays as it is when its frame comes back. -/
structure FrameSlot where
  /-- What the frame holds. -/
  page : Page
  /-- Whether the frame is handed out. -/
  inUse : Bool

/-- The pool of frames. -/
structure FramePool where
  /-- The frames that can be handed out, by number. -/
  slots : Array FrameSlot
  /-- The whole pages of the region that are never handed out. -/
  withheld : Nat

namespace FramePool

/-- A pool of unused frames that hold leftovers. -/
def ofFrames (n : Nat) : FramePool := ⟨Array.replicate n ⟨Page.filled 0xA5, false⟩, 0⟩

/-- A pool over a region of `size` bytes that starts at a page boundary. The allocator withholds some of
    its whole pages. -/
def ofRegion (size : Nat) (withheld : Nat := 0) : FramePool :=
  { ofFrames (size / pageSize - withheld) with withheld := min withheld (size / pageSize) }

/-- An upper bound on the frames handed out at once: the whole pages of the region. -/
def capacity (pool : FramePool) : Nat := pool.slots.size + pool.withheld

theorem capacity_ofRegion (size withheld : Nat) : (ofRegion size withheld).capacity = size / pageSize := by
  simp only [ofRegion, ofFrames, capacity, Array.size_replicate]
  omega

theorem ofRegion_pages (n : Nat) : ofRegion (n * pageSize) = ofFrames n := by
  simp [ofRegion, ofFrames, pageSize]

/-- The frames handed out. -/
def usedFrames (pool : FramePool) : Nat := pool.slots.countP (·.inUse)

/-- The bytes handed out. -/
def usedBytes (pool : FramePool) : Nat := pageSize * pool.usedFrames

/-- Whether a frame is handed out. -/
def inUse (pool : FramePool) (f : Frame) : Bool :=
  ((pool.slots[f.index]?).map (·.inUse)).getD false

/-- What a frame holds; no bytes for a frame that does not exist. -/
def page? (pool : FramePool) (f : Frame) : Option Page := (pool.slots[f.index]?).map (·.page)

/-- The pool with the contents of a frame changed. -/
def modify (pool : FramePool) (f : Frame) (change : Page → Page) : FramePool :=
  { pool with slots := pool.slots.modify f.index fun s => { s with page := change s.page } }

/-- Bytes of a frame. -/
def read (pool : FramePool) (f : Frame) (offset n : Nat) : Bytes :=
  match pool.page? f with
  | some p => p.read offset n
  | none => []

/-- The pool with bytes stored in a frame. -/
def write (pool : FramePool) (f : Frame) (offset : Nat) (bs : Bytes) : FramePool :=
  pool.modify f (·.write offset bs)

/-- The pool with zeros stored in a frame from `offset` on. -/
def clear (pool : FramePool) (f : Frame) (offset : Nat) : FramePool :=
  pool.modify f (·.clear offset)

/-- Hand out the first unused frame, cleared. -/
def allocate? (pool : FramePool) : Option (Frame × FramePool) :=
  (pool.slots.findIdx? fun s => !s.inUse).bind fun i =>
    if h : i < frameLimit then
      some (⟨i, h⟩, { pool with slots := pool.slots.setIfInBounds i ⟨Page.filled 0, true⟩ })
    else none

/-- Take a frame back. -/
def release (pool : FramePool) (f : Frame) : FramePool :=
  { pool with slots := pool.slots.modify f.index fun s => { s with inUse := false } }

end FramePool

end Userland

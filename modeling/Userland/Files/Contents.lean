import Userland.Bytes
import Userland.Text.Digest

/-!
# File contents

A file may be almost 4 GiB long and hold only a few bytes, so its contents are kept as a list of
extents, the newest first; where no extent reaches, the contents are zero. `Contents.get` is the
contents as a function of the position, and `Contents.get_write` says what a write does to it. How
long the file is does not belong to the contents: bytes past its end are kept and show when it
grows.
-/

namespace Userland

/-- Bytes at a place of a file. -/
structure Extent where
  /-- The first position. -/
  start : Nat
  /-- The number of positions. -/
  length : Nat
  /-- The byte at a distance from the first. -/
  get : Nat → UInt8

namespace Extent

/-- Given bytes. -/
def ofBytes (start : Nat) (bs : Bytes) : Extent :=
  let stored := bs.toArray
  ⟨start, stored.size, fun i => stored.getD i 0⟩

/-- One byte over and over. -/
def repeated (start : Nat) (b : UInt8) (length : Nat) : Extent := ⟨start, length, fun _ => b⟩

/-- Whether the extent reaches a position. -/
def covers (e : Extent) (i : Nat) : Bool := e.start ≤ i && i < e.start + e.length

end Extent

/-- The contents of a file, as extents with the newest first. -/
structure Contents where
  /-- What was written. -/
  extents : List Extent

namespace Contents

/-- All zero. -/
def zero : Contents := ⟨[]⟩

/-- Contents made by writing extents in order. -/
def ofExtents (es : List Extent) : Contents := ⟨es.reverse⟩

/-- The byte at a position. -/
def get (c : Contents) (i : Nat) : UInt8 :=
  match c.extents.find? (·.covers i) with
  | some e => e.get (i - e.start)
  | none => 0

/-- Store bytes. -/
def write (c : Contents) (start : Nat) (bs : Bytes) : Contents :=
  if bs.isEmpty then c else ⟨.ofBytes start bs :: c.extents⟩

/-- The extents that reach into a range, for faster reading. -/
def within (c : Contents) (start n : Nat) : Contents :=
  ⟨c.extents.filter fun e => e.start < start + n && start < e.start + e.length⟩

/-- Read `n` bytes. -/
def read (c : Contents) (start n : Nat) : Bytes :=
  let near := c.within start n
  (List.range n).map fun i => near.get (start + i)

/-- The digest of the bytes from `i` on, `n` of them, after the digest `h`. -/
def digestFrom (c : Contents) (i : Nat) (h : UInt32) : Nat → UInt32
  | 0 => h
  | n + 1 => c.digestFrom (i + 1) (Digest.push h (c.get i)) n

/-- The digest of the first `n` bytes. -/
def digest (c : Contents) (n : Nat) : UInt32 := c.digestFrom 0 Digest.start n

@[simp] theorem get_zero (i : Nat) : zero.get i = 0 := rfl

theorem get_write (c : Contents) (start : Nat) (bs : Bytes) (i : Nat) :
    (c.write start bs).get i =
      if start ≤ i ∧ i < start + bs.length then (bs[i - start]?).getD 0 else c.get i := by
  unfold write
  split
  · rename_i empty
    have : bs.length = 0 := by simp_all
    have : ¬ (start ≤ i ∧ i < start + bs.length) := by omega
    simp [this]
  · by_cases inside : start ≤ i ∧ i < start + bs.length
    · simp [get, Extent.covers, Extent.ofBytes, inside]
    · have : ((Extent.ofBytes start bs).covers i) = false := by
        simp [Extent.covers, Extent.ofBytes]
        omega
      simp [get, this, inside]

end Contents

end Userland

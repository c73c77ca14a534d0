/-!
# Byte strings and little-endian words

Data on its way between memory, files and the console is a list of bytes. Words are stored with
the least significant byte first: `Bytes.ofNat k n` are the `k` lowest bytes of `n`, and
`Bytes.value` reads a byte string back (`value_ofNat`).
-/

namespace Userland

/-- A byte string. -/
abbrev Bytes := List UInt8

namespace Bytes

/-- The UTF-8 bytes of a text. -/
def ofString (s : String) : Bytes := s.toByteArray.data.toList

/-- The number whose bytes, least significant first, are given. -/
def value : Bytes → Nat
  | [] => 0
  | b :: bs => b.toNat + 256 * value bs

/-- The `k` lowest bytes of `n`, least significant first. -/
def ofNat : Nat → Nat → Bytes
  | 0, _ => []
  | k + 1, n => UInt8.ofNat n :: ofNat k (n / 256)

@[simp] theorem length_ofNat (k n : Nat) : (ofNat k n).length = k := by
  induction k generalizing n with
  | zero => rfl
  | succ k ih => simp [ofNat, ih]

/-- How many byte strings of length `k` there are. -/
def count : Nat → Nat
  | 0 => 1
  | k + 1 => 256 * count k

theorem value_ofNat (k n : Nat) : value (ofNat k n) = n % count k := by
  induction k generalizing n with
  | zero => simp [ofNat, value, count, Nat.mod_one]
  | succ k ih => rw [ofNat, value, ih, count, Nat.mod_mul, UInt8.toNat_ofNat']

/-- The two bytes of a 16-bit word. -/
def ofWord16 (w : UInt16) : Bytes := ofNat 2 w.toNat

/-- The four bytes of a 32-bit word. -/
def ofWord (w : UInt32) : Bytes := ofNat 4 w.toNat

/-- The 32-bit word at the front of a byte string; missing bytes count as zero. -/
def word (bs : Bytes) : UInt32 := UInt32.ofNat (value (bs.take 4))

/-- The 16-bit word at `offset`. -/
def word16At (bs : Bytes) (offset : Nat) : UInt16 :=
  UInt16.ofNat (value ((bs.drop offset).take 2))

/-- The 32-bit word at `offset`. -/
def wordAt (bs : Bytes) (offset : Nat) : UInt32 := word (bs.drop offset)

theorem word_ofWord (w : UInt32) : word (ofWord w) = w := by
  have whole : (ofNat 4 w.toNat).take 4 = ofNat 4 w.toNat := List.take_of_length_le (by simp)
  have small : w.toNat % count 4 = w.toNat := Nat.mod_eq_of_lt w.toNat_lt
  rw [word, ofWord, whole, value_ofNat, small]
  exact UInt32.ofNat_toNat

/-- `n` zero bytes. -/
def zeros (n : Nat) : Bytes := List.replicate n 0

end Bytes

end Userland

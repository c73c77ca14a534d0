import Userland.Bytes

/-!
# UTF-8 text

Byte strings from user memory become text only when they are well-formed UTF-8 (`Utf8.decode?`).
The display shows any bytes, with the replacement character where a sequence is broken
(`Utf8.decodeLossy`): the longest start of a well-formed sequence counts as one broken sequence.
`Utf8.truncate` keeps the longest start of a text that fits a number of bytes.
-/

namespace Userland.Utf8

/-! ## Decoding -/

/-- The text with the given bytes, if they are well formed. -/
def decode? (bs : Bytes) : Option String := String.fromUTF8? ⟨bs.toArray⟩

/-- What a leading byte announces: how many bytes follow, the range of the first of them, and the
    bits that the leading byte itself contributes. -/
structure Lead where
  /-- Bytes that follow. -/
  trailing : Nat
  /-- Least first byte that may follow. -/
  least : UInt8
  /-- Greatest first byte that may follow. -/
  greatest : UInt8
  /-- Bits of the character in the leading byte. -/
  bits : Nat

/-- The announcement of a byte at the start of a sequence; `none` if no sequence starts with it. -/
def Lead.ofByte? (b : UInt8) : Option Lead :=
  let n := b.toNat
  if n < 0x80 then some ⟨0, 0x80, 0xBF, n⟩
  else if n < 0xC2 then none
  else if n < 0xE0 then some ⟨1, 0x80, 0xBF, n % 32⟩
  else if n = 0xE0 then some ⟨2, 0xA0, 0xBF, n % 16⟩
  else if n = 0xED then some ⟨2, 0x80, 0x9F, n % 16⟩
  else if n < 0xF0 then some ⟨2, 0x80, 0xBF, n % 16⟩
  else if n = 0xF0 then some ⟨3, 0x90, 0xBF, n % 8⟩
  else if n < 0xF4 then some ⟨3, 0x80, 0xBF, n % 8⟩
  else if n = 0xF4 then some ⟨3, 0x80, 0x8F, n % 8⟩
  else none

/-- Follow a sequence that still needs `need` bytes, the next of them between `least` and
    `greatest`. Gives the code point, if the sequence is complete, and the bytes used. -/
def follow (least greatest : UInt8) (point used : Nat) : Nat → Bytes → Option Nat × Nat
  | 0, _ => (some point, used)
  | _ + 1, [] => (none, used)
  | need + 1, b :: bs =>
    if least ≤ b ∧ b ≤ greatest then
      follow 0x80 0xBF (64 * point + b.toNat % 64) (used + 1) need bs
    else (none, used)

/-- Stands for a broken sequence. -/
def replacement : Char := Char.ofNat 0xFFFD

/-- The characters of a byte string, each broken sequence replaced. -/
def charsLossy : Bytes → List Char
  | [] => []
  | b :: bs =>
    match Lead.ofByte? b with
    | none => replacement :: charsLossy bs
    | some lead =>
      let (point, used) := follow lead.least lead.greatest lead.bits 0 lead.trailing bs
      ((point.map Char.ofNat).getD replacement) :: charsLossy (bs.drop used)
termination_by bs => bs.length

/-- The text of any bytes, each broken sequence replaced. -/
def decodeLossy (bs : Bytes) : String := String.ofList (charsLossy bs)

/-- A broken sequence. -/
structure Broken where
  /-- How many bytes before it are well formed. -/
  validUpTo : Nat
  /-- How many bytes it has; nothing if the bytes end before it can be told. -/
  length : Option Nat

/-- The first broken sequence, after `n` bytes that are well formed. -/
def firstBroken? (n : Nat) : Bytes → Option Broken
  | [] => none
  | b :: bs =>
    match Lead.ofByte? b with
    | none => some ⟨n, some 1⟩
    | some lead =>
      match follow lead.least lead.greatest lead.bits 0 lead.trailing bs with
      | (some _, used) => firstBroken? (n + 1 + used) (bs.drop used)
      | (none, used) => some ⟨n, if used < bs.length then some (used + 1) else none⟩
termination_by bs => bs.length

/-! ## Cutting -/

/-- The longest start of a list of characters whose encoding fits `room` bytes. -/
def takeFitting (room : Nat) : List Char → List Char
  | [] => []
  | c :: cs => if c.utf8Size ≤ room then c :: takeFitting (room - c.utf8Size) cs else []

/-- The longest start of `s` that takes at most `limit` bytes and ends between characters. -/
def truncate (s : String) (limit : Nat) : String := String.ofList (takeFitting limit s.toList)

end Userland.Utf8

import Userland.Bytes

/-!
# Hexadecimal text

Numbers are written with lower-case digits after `0x`, plain (`Hex.numeral`) or padded with zeros
to a least number of digits (`Hex.padded`). Bytes are written with two digits each
(`Hex.ofBytes`) and read back by `Hex.toBytes?`.
-/

namespace Userland.Hex

/-- The digits of a number, without leading zeros; zero is `0`. -/
def digits (n : Nat) : String := String.ofList (Nat.toDigits 16 n)

/-- A number with its `0x` and no padding. -/
def numeral (n : Nat) : String := "0x" ++ digits n

/-- A number with its `0x` and at least `width` digits. -/
def padded (width n : Nat) : String :=
  let text := digits n
  "0x" ++ String.ofList (List.replicate (width - text.length) '0') ++ text

/-- The two digits of a byte. -/
def ofByte (b : UInt8) : List Char :=
  [Nat.digitChar (b.toNat / 16), Nat.digitChar (b.toNat % 16)]

/-- Two digits for every byte. -/
def ofBytes (bs : Bytes) : String := String.ofList (bs.flatMap ofByte)

/-- The value of a digit. -/
def digit? (c : Char) : Option Nat :=
  if '0' ≤ c ∧ c ≤ '9' then some (c.toNat - '0'.toNat)
  else if 'a' ≤ c ∧ c ≤ 'f' then some (c.toNat - 'a'.toNat + 10)
  else none

/-- Read pairs of digits as bytes. -/
def bytesOfDigits? : List Char → Option Bytes
  | [] => some []
  | h :: l :: rest => do
    let high ← digit? h
    let low ← digit? l
    let bs ← bytesOfDigits? rest
    return UInt8.ofNat (16 * high + low) :: bs
  | [_] => none

/-- The bytes written in `text`. -/
def toBytes? (text : String) : Option Bytes := bytesOfDigits? text.toList

/-- Read digits as a number, after those already read as `acc`. -/
def valueOfDigits? (acc : Nat) : List Char → Option Nat
  | [] => some acc
  | c :: rest => do valueOfDigits? (16 * acc + (← digit? c)) rest

/-- The number written in `text` after its `0x`. -/
def toNat? (text : String) : Option Nat :=
  match text.toList with
  | '0' :: 'x' :: c :: rest => valueOfDigits? 0 (c :: rest)
  | _ => none

end Userland.Hex

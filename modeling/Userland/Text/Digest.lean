import Userland.Bytes

/-!
# Content digests

Contents are compared by their 32-bit FNV-1a hash, written with eight hexadecimal digits.
-/

namespace Userland.Digest

/-- The hash of no bytes. -/
def start : UInt32 := 0x811C9DC5

/-- The hash after one more byte. -/
@[inline] def push (h : UInt32) (b : UInt8) : UInt32 := (h ^^^ b.toUInt32) * 0x01000193

/-- The hash of a byte string. -/
def ofBytes (bs : Bytes) : UInt32 := bs.foldl push start

/-- Eight hexadecimal digits. -/
def text (h : UInt32) : String :=
  let digits := Nat.toDigits 16 h.toNat
  String.ofList (List.replicate (8 - digits.length) '0' ++ digits)

end Userland.Digest

import Userland.Bytes
import Userland.Memory.FramePool

/-!
# The initial stack

A program finds its arguments on a stack of one page, just below the kernel. From the top down the
page holds the argument strings, each ended by a zero byte and the first argument lowest; padding to
a word; a null word; the addresses of the strings, the first lowest; the address of the first of
those; their number; and a null word in place of a return address. `InitialStack.build` writes the
page and gives the address of the last word, or nothing if the page is too small.
-/

namespace Userland

/-- Bytes in a word. -/
abbrev wordSize : Nat := 4

/-- The address of the stack page. -/
abbrev stackBase : Nat := userTop - pageSize

/-- The stack page, as an address. -/
def stackPage : VirtAddr := ⟨stackBase, by decide⟩

/-- A stack page that is being filled from its end down. -/
structure InitialStack where
  /-- What is written so far; the rest is zero. -/
  page : Page
  /-- Where the written part starts. -/
  top : Nat

namespace InitialStack

/-- Nothing written. -/
def empty : InitialStack := ⟨Page.filled 0, pageSize⟩

/-- The user address of the written part. -/
def address (w : InitialStack) : Nat := stackBase + w.top

/-- Write bytes below those that are there. -/
def push (w : InitialStack) (bs : Bytes) : Option InitialStack :=
  if bs.length ≤ w.top then some ⟨w.page.write (w.top - bs.length) bs, w.top - bs.length⟩ else none

/-- Move down to a word boundary. -/
def align (w : InitialStack) : InitialStack := { w with top := w.top / wordSize * wordSize }

/-- Write strings, the last first, and give their addresses. -/
def pushStrings (w : InitialStack) : List String → Option (List Nat × InitialStack)
  | [] => some ([], w)
  | arg :: rest => do
    let (addresses, w) ← w.pushStrings rest
    let w ← w.push (Bytes.ofString arg ++ [0])
    return (w.address :: addresses, w)

/-- Write words, the last first. -/
def pushWords (w : InitialStack) (words : List Nat) : Option InitialStack :=
  w.push (words.flatMap fun n => Bytes.ofWord (UInt32.ofNat n))

/-- The stack page for a list of arguments, and the address at which the stack starts. -/
def build (arguments : List String) : Option (Page × VirtAddr) := do
  let (addresses, w) ← empty.pushStrings arguments
  let w := w.align
  let list := w.address - wordSize * (arguments.length + 1)
  let w ← w.pushWords ([0, arguments.length, list] ++ addresses ++ [0])
  return (w.page, VirtAddr.ofNat w.address)

end InitialStack

end Userland

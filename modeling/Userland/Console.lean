import Userland.Bytes

/-!
# The console

The console gives keyboard bytes, zeros once they are used up, and shows whole buffers, so that
lines of different programs do not mix. A `LineWriter` collects text and hands it over in one
buffer; it never hands over an empty one.
-/

namespace Userland

/-- Keyboard and display. -/
structure Console where
  /-- Keyboard bytes not yet read. -/
  input : Bytes
  /-- The buffers shown, newest first. -/
  shown : List Bytes

namespace Console

/-- A console with nothing shown. -/
def ofInput (input : Bytes) : Console := ⟨input, []⟩

/-- Read a keyboard byte. -/
def getByte (c : Console) : UInt8 × Console :=
  match c.input with
  | [] => (0, c)
  | b :: rest => (b, { c with input := rest })

/-- Show a buffer. -/
def put (c : Console) (buffer : Bytes) : Console := { c with shown := buffer :: c.shown }

/-- The buffers shown, oldest first. -/
def buffers (c : Console) : List Bytes := c.shown.reverse

/-- How many buffers were shown. -/
def writes (c : Console) : Nat := c.shown.length

/-- All bytes shown. -/
def output (c : Console) : Bytes := c.buffers.flatten

end Console

/-- Text on its way to the console. -/
structure LineWriter where
  /-- Text collected so far. -/
  line : String

namespace LineWriter

/-- Nothing collected. -/
def empty : LineWriter := ⟨""⟩

/-- Collect text. -/
def write (w : LineWriter) (text : String) : LineWriter := ⟨w.line ++ text⟩

/-- Hand over what is collected, if that is anything. -/
def flush (w : LineWriter) (c : Console) : LineWriter × Console :=
  if w.line.isEmpty then (w, c) else (empty, c.put (Bytes.ofString w.line))

end LineWriter

/-- Show a line of text. -/
def Console.putLine (c : Console) (text : String) : Console :=
  ((LineWriter.empty.write (text ++ "\n")).flush c).2

end Userland

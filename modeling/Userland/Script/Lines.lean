import Userland.Console

/-!
# Scripts for console lines

A script writes text through one `LineWriter`, or shows whole lines past it. At its end what the
writer holds is shown.
-/

namespace Userland

/-- An operation on the console. -/
inductive LineOp where
  /-- Collect text. -/
  | write (text : String)
  /-- Collect a number. -/
  | number (n : Int)
  /-- Show what is collected. -/
  | flush
  /-- Show the line of a program that ends. -/
  | exitLine (name : String) (status : Int)

namespace LineOp

/-- The writer and the console after an operation. -/
def perform (w : LineWriter) (c : Console) : LineOp → LineWriter × Console
  | write text => (w.write text, c)
  | number n => (w.write (toString n), c)
  | flush => w.flush c
  | exitLine name status => (w, c.putLine (name ++ ": exit(" ++ toString status ++ ")"))

/-- How many buffers were shown after each operation, and the console at the end. -/
def performAll (w : LineWriter) (c : Console) : List LineOp → List Nat × Console
  | [] => ([], (w.flush c).2)
  | op :: rest =>
    let (w, c) := perform w c op
    let (counts, last) := performAll w c rest
    (c.writes :: counts, last)

end LineOp

end Userland

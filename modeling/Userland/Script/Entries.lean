import Userland.Memory.PageTable

/-!
# Scripts for a page table

A script sets, clears and shows entries of one page table.
-/

namespace Userland

/-- An operation on a page table. -/
inductive EntryOp where
  /-- Set an entry. -/
  | set (index : Nat) (entry : PageEntry)
  /-- Show an entry. -/
  | get (index : Nat)
  /-- List the entries that map a page. -/
  | present
  /-- Clear the entries that map a page. -/
  | clearPresent

/-- The answer to an operation. -/
inductive EntryReply where
  /-- An entry. -/
  | entry (entry : PageEntry)
  /-- Entries with their indices. -/
  | entries (list : List (Nat × PageEntry))
  /-- How many entries. -/
  | count (n : Nat)

namespace EntryOp

/-- What an operation answers, and the table afterwards. -/
def perform (t : PageTable) : EntryOp → EntryReply × PageTable
  | set i e => (.entry e, t.setIfInBounds i e)
  | get i => (.entry ((t[i]?).getD PageEntry.empty), t)
  | present => (.entries t.present, t)
  | clearPresent => (.count t.present.length, t.clearPresent)

/-- What operations answer, one after the other. -/
def performAll (t : PageTable) : List EntryOp → List EntryReply
  | [] => []
  | op :: rest =>
    let (reply, t) := perform t op
    reply :: performAll t rest

end EntryOp

end Userland

import Userland.Machine.Names

/-!
# Child registries

A registry has one record for each child that was started and not yet waited for: the channel on
which the child will publish its exit status. Records are ordered by process number.
-/

namespace Userland

/-- The children of one process. -/
structure Children where
  /-- Process numbers, ascending, with the channels of their exit statuses. -/
  records : List (Tid × ChannelId)

/-- Why a wait gives no status. -/
inductive WaitError where
  /-- The process is no child of the caller, or was waited for already. -/
  | notChild
deriving DecidableEq

/-- The refusal in words. -/
def WaitError.message : WaitError → String
  | notChild => "not a child of this process"

namespace Children

/-- No children. -/
def empty : Children := ⟨[]⟩

/-- Put a record where it belongs; a record of the same process gives way. -/
def insertRecord (t : Tid) (exit : ChannelId) : List (Tid × ChannelId) → List (Tid × ChannelId)
  | [] => [(t, exit)]
  | (u, c) :: rest =>
    if t < u then (t, exit) :: (u, c) :: rest
    else if t = u then (t, exit) :: rest
    else (u, c) :: insertRecord t exit rest

/-- Record a child. -/
def register (r : Children) (t : Tid) (exit : ChannelId) : Children :=
  ⟨insertRecord t exit r.records⟩

/-- The record of the child with a process number. -/
def find? (r : Children) (pid : Int32) : Option (Tid × ChannelId) :=
  r.records.find? fun (t, _) => (t : Int) = pid.toInt

/-- Whether there is a record of a process number. -/
def contains (r : Children) (pid : Int32) : Bool := (r.find? pid).isSome

/-- Forget a child. -/
def remove (r : Children) (t : Tid) : Children := ⟨r.records.filter fun (u, _) => u ≠ t⟩

/-- How many records there are. -/
def size (r : Children) : Nat := r.records.length

/-- Whether there are no records. -/
def isEmpty (r : Children) : Bool := r.size = 0

/-- The channels of all records, in order. -/
def channels (r : Children) : List ChannelId := r.records.map (·.2)

/-- The process numbers as a set. -/
def debugText (r : Children) : String :=
  "\x7b" ++ String.intercalate ", " (r.records.map fun (t, _) => "Tid(" ++ toString t ++ ")") ++
    "\x7d"

end Children

end Userland

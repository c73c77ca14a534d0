/-!
# Descriptor tables

A program names its open files by small numbers. Descriptors 0 and 1 are the console and never name
a file. A new file takes the lowest free descriptor from 2 on, below the capacity of the table
(`DescriptorTable.insert`). The table is generic in what it holds; places past the end of the list
are free, so a table needs room only for the descriptors in use. `DescriptorTable.find?` is the
table as a finite map.
-/

namespace Userland

/-- A descriptor number that is not negative. -/
structure Descriptor where
  /-- The number. -/
  number : Nat
deriving DecidableEq

namespace Descriptor

/-- Keyboard input. -/
def input : Descriptor := ⟨0⟩

/-- Console output. -/
def output : Descriptor := ⟨1⟩

/-- The first descriptor that may name a file. -/
def firstFile : Nat := 2

/-- The descriptor that a program means by a number; negative numbers mean none. -/
def ofInt? (n : Int32) : Option Descriptor :=
  if n < 0 then none else some ⟨n.toNatClampNeg⟩

/-- The descriptor as a program sees it. -/
def toInt (d : Descriptor) : Int32 := Int32.ofNat d.number

end Descriptor

/-- Why a descriptor does not name a file, or cannot be given. -/
inductive DescriptorError where
  /-- The number is out of range or belongs to the console. -/
  | invalidDescriptor
  /-- No file is open under the number. -/
  | notOpen
  /-- Every number is taken. -/
  | tableFull
deriving DecidableEq

/-- The refusal in words. -/
def DescriptorError.message : DescriptorError → String
  | invalidDescriptor => "invalid file descriptor"
  | notOpen => "file descriptor not open"
  | tableFull => "file descriptor table full"

/-- Open files by descriptor. -/
structure DescriptorTable (α : Type) where
  /-- Descriptors are below this number. -/
  capacity : Nat
  /-- What is open under each number; numbers past the end are free. -/
  slots : List (Option α)

namespace DescriptorTable

variable {α : Type}

/-- A table without open files. -/
def empty (capacity : Nat) : DescriptorTable α := ⟨capacity, []⟩

/-- The file open under a number, if any. -/
def find? (t : DescriptorTable α) (n : Nat) : Option α := (t.slots[n]?).join

/-- The open files, by ascending descriptor. -/
def files (t : DescriptorTable α) : List α := t.slots.filterMap id

/-- How many files are open. -/
def size (t : DescriptorTable α) : Nat := t.files.length

/-- Whether no file is open. -/
def isEmpty (t : DescriptorTable α) : Bool := t.size = 0

/-- The list of slots with one of them set, made longer as needed. -/
def setSlot (x : Option α) : Nat → List (Option α) → List (Option α)
  | 0, [] => [x]
  | 0, _ :: rest => x :: rest
  | n + 1, [] => none :: setSlot x n []
  | n + 1, y :: rest => y :: setSlot x n rest

/-- The table with one slot set. -/
def set (t : DescriptorTable α) (n : Nat) (x : Option α) : DescriptorTable α :=
  { t with slots := setSlot x n t.slots }

/-- The first free number among slots of which the first has number `n`. -/
def firstFree (n : Nat) : List (Option α) → Nat
  | [] => n
  | none :: _ => n
  | some _ :: rest => firstFree (n + 1) rest

/-- The lowest free descriptor. -/
def free? (t : DescriptorTable α) : Option Descriptor :=
  let n := firstFree Descriptor.firstFile (t.slots.drop Descriptor.firstFile)
  if n < t.capacity then some ⟨n⟩ else none

/-- Open a file under the lowest free descriptor; `none` if there is none. -/
def insert (t : DescriptorTable α) (x : α) : Option (Descriptor × DescriptorTable α) :=
  t.free?.map fun d => (d, t.set d.number (some x))

/-- The file that a descriptor names. -/
def get (t : DescriptorTable α) (d : Descriptor) : Except DescriptorError α :=
  if d.number < Descriptor.firstFile ∨ d.number ≥ t.capacity then .error .invalidDescriptor
  else
    match t.find? d.number with
    | some x => .ok x
    | none => .error .notOpen

/-- Change the file that a descriptor names. -/
def modify (t : DescriptorTable α) (d : Descriptor) (f : α → α) :
    Except DescriptorError (DescriptorTable α) :=
  (t.get d).map fun x => t.set d.number (some (f x))

/-- Take the file that a descriptor names out of the table. -/
def remove (t : DescriptorTable α) (d : Descriptor) :
    Except DescriptorError (α × DescriptorTable α) :=
  (t.get d).map fun x => (x, t.set d.number none)

/-- Take the first `n` open files out of a list of slots. -/
def drainSlots : Nat → List (Option α) → List α × List (Option α)
  | 0, slots => ([], slots)
  | _, [] => ([], [])
  | n + 1, some x :: rest =>
    let (taken, rest) := drainSlots n rest
    (x :: taken, none :: rest)
  | n + 1, none :: rest =>
    let (taken, rest) := drainSlots (n + 1) rest
    (taken, none :: rest)

/-- Take the `n` open files with the lowest descriptors out of the table. -/
def drain (t : DescriptorTable α) (n : Nat) : List α × DescriptorTable α :=
  let (taken, slots) := drainSlots n t.slots
  (taken, { t with slots := slots })

/-- Take all open files out of the table. -/
def drainAll (t : DescriptorTable α) : List α × DescriptorTable α := t.drain t.size

/-- The capacity and the number of open files. -/
def debugText (t : DescriptorTable α) : String :=
  "FdTable \x7b capacity: " ++ toString t.capacity ++ ", open: " ++ toString t.size ++ " \x7d"

end DescriptorTable

end Userland

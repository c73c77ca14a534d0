import Userland.Files.Contents

/-!
# A mounted volume

A volume holds files under names and hands out handles. A handle has a position of its own; any
handle may deny writes to its file, which then holds for every handle on the file until the denier
allows writes again or is closed. Removing a name leaves the file to those who have it open, and a
new file under the same name is another file.

Each file counts the handles that deny writes to it, and the volume counts the open handles.
-/

namespace Userland

/-- One past the greatest file position. -/
abbrev positionLimit : Nat := 0x100000000

/-- A file. -/
structure FileNode where
  /-- The name it was made under. -/
  name : String
  /-- Its bytes. -/
  contents : Contents
  /-- Where it ends. -/
  size : Nat
  /-- How many handles deny writes to it. -/
  denials : Nat
  /-- The length it claims to have, if that is not its size. -/
  claimedLength : Option UInt32
  /-- Whether reads never come to its end. -/
  endless : Bool

namespace FileNode

/-- A file as it is made. -/
def ofContents (name : String) (contents : Contents) (size : Nat) : FileNode :=
  ⟨name, contents, size, 0, none, false⟩

/-- The length it reports. -/
def length (f : FileNode) : UInt32 := f.claimedLength.getD (UInt32.ofNat f.size)

/-- How many bytes a read of `n` bytes at a position gets. -/
def available (f : FileNode) (position : UInt32) (n : Nat) : Nat :=
  if f.endless then n else min n (f.size - position.toNat)

/-- The digest of its bytes. -/
def digest (f : FileNode) : UInt32 := f.contents.digest f.size

end FileNode

/-- An open file. -/
structure OpenFile where
  /-- The file, by its number. -/
  node : Nat
  /-- Where the next read or write starts. -/
  position : UInt32
  /-- Whether this handle denies writes. -/
  denying : Bool

/-- A handle on an open file, by its number. -/
structure Handle where
  /-- Handles are numbered in the order of opening. -/
  index : Nat
deriving DecidableEq

/-- What becomes of a write at the end of a file. -/
inductive GrowthRule where
  /-- Bytes that no position reaches are not taken, and a write of no bytes changes nothing. -/
  | bounded
  /-- All bytes are taken, and even a write of no bytes makes the file reach up to its position. -/
  | unbounded
deriving DecidableEq

namespace GrowthRule

/-- How many of `n` bytes a write at a position takes. -/
def taken (g : GrowthRule) (position : UInt32) (n : Nat) : Nat :=
  match g with
  | .bounded => min n (positionLimit - 1 - position.toNat)
  | .unbounded => n

/-- The size of a file after a write has put `n` bytes at a position. -/
def sizeAfter (g : GrowthRule) (size : Nat) (position : UInt32) (n : Nat) : Nat :=
  if g = .bounded ∧ n = 0 then size else max size (position.toNat + n)

end GrowthRule

/-- A volume. -/
structure Volume where
  /-- The files that have a name. -/
  directory : List (String × Nat)
  /-- All files, those without a name included. -/
  nodes : Array FileNode
  /-- What each handle has open; nothing once it is closed. -/
  handles : Array (Option OpenFile)
  /-- How many handles are open. -/
  openHandles : Nat
  /-- How its files grow. -/
  growth : GrowthRule

namespace Volume

/-- A volume without files. -/
def empty (growth : GrowthRule) : Volume := ⟨[], #[], #[], 0, growth⟩

/-! ## Names -/

/-- The number of the file under a name. -/
def lookup (v : Volume) (path : String) : Option Nat := v.directory.lookup path

/-- Put a file under a name; a file that had the name before loses it. -/
def add (v : Volume) (f : FileNode) : Volume :=
  { v with
    directory := (f.name, v.nodes.size) :: v.directory.filter fun (name, _) => name ≠ f.name
    nodes := v.nodes.push f }

/-- Make a file of zeros, unless the name is taken. -/
def create (v : Volume) (path : String) (size : UInt32) : Bool × Volume :=
  if (v.lookup path).isSome then (false, v)
  else (true, v.add (FileNode.ofContents path Contents.zero size.toNat))

/-- Take a name away. -/
def remove (v : Volume) (path : String) : Bool × Volume :=
  if (v.lookup path).isSome then
    (true, { v with directory := v.directory.filter fun (name, _) => name ≠ path })
  else (false, v)

/-- The files that have a name, sorted by name. -/
def listing (v : Volume) : List (String × FileNode) :=
  let entries := v.directory.filterMap fun (name, i) => (v.nodes[i]?).map fun f => (name, f)
  entries.mergeSort fun a b => a.1 ≤ b.1

/-! ## Handles -/

/-- Open the file under a name. -/
def openFile? (v : Volume) (path : String) : Option (Handle × Volume) :=
  (v.lookup path).map fun i =>
    (⟨v.handles.size⟩,
      { v with handles := v.handles.push (some ⟨i, 0, false⟩), openHandles := v.openHandles + 1 })

/-- What a handle has open. -/
def opened? (v : Volume) (h : Handle) : Option OpenFile := (v.handles[h.index]?).join

/-- The file that a handle has open. -/
def node? (v : Volume) (h : Handle) : Option FileNode :=
  (v.opened? h).bind fun o => v.nodes[o.node]?

/-- The name under which the file of a handle was made. -/
def nameOf (v : Volume) (h : Handle) : String := ((v.node? h).map (·.name)).getD ""

/-- The volume with an open handle changed. -/
def setOpened (v : Volume) (h : Handle) (o : OpenFile) : Volume :=
  { v with handles := v.handles.setIfInBounds h.index (some o) }

/-- The volume with a file changed. -/
def modifyNode (v : Volume) (i : Nat) (change : FileNode → FileNode) : Volume :=
  { v with nodes := v.nodes.modify i change }

/-- Read up to `n` bytes and move the position past them. -/
def read (v : Volume) (h : Handle) (n : Nat) : Bytes × Volume :=
  match v.opened? h, v.node? h with
  | some o, some f =>
    let got := f.available o.position n
    (f.contents.read o.position.toNat got,
      v.setOpened h { o with position := o.position + UInt32.ofNat got })
  | _, _ => ([], v)

/-- Write bytes, as many as are taken, and move the position past them. While writes are denied
    nothing is written. -/
def write (v : Volume) (h : Handle) (data : Bytes) : Nat × Volume :=
  match v.opened? h, v.node? h with
  | some o, some f =>
    if f.denials > 0 then (0, v)
    else
      let n := v.growth.taken o.position data.length
      let v := v.modifyNode o.node fun f =>
        { f with
          contents := f.contents.write o.position.toNat (data.take n)
          size := v.growth.sizeAfter f.size o.position n }
      (n, v.setOpened h { o with position := o.position + UInt32.ofNat n })
  | _, _ => (0, v)

/-- Move the position, past the end of the file if asked to. -/
def seek (v : Volume) (h : Handle) (position : UInt32) : Volume :=
  match v.opened? h with
  | some o => v.setOpened h { o with position := position }
  | none => v

/-- The position. -/
def tell (v : Volume) (h : Handle) : UInt32 := ((v.opened? h).map (·.position)).getD 0

/-- The length that the file reports. -/
def length (v : Volume) (h : Handle) : UInt32 := ((v.node? h).map (·.length)).getD 0

/-- Deny writes to the file, if the handle does not do so already. -/
def deny (v : Volume) (h : Handle) : Volume :=
  match v.opened? h with
  | some o =>
    if o.denying then v
    else (v.modifyNode o.node fun f => { f with denials := f.denials + 1 }).setOpened h
      { o with denying := true }
  | none => v

/-- Take back the handle's denial, if there is one. -/
def allow (v : Volume) (h : Handle) : Volume :=
  match v.opened? h with
  | some o =>
    if o.denying then
      (v.modifyNode o.node fun f => { f with denials := f.denials - 1 }).setOpened h
        { o with denying := false }
    else v
  | none => v

/-- Close a handle; its denial ends. -/
def close (v : Volume) (h : Handle) : Volume :=
  match v.opened? h with
  | some _ =>
    let v := v.allow h
    { v with
      handles := v.handles.setIfInBounds h.index none
      openHandles := v.openHandles - 1 }
  | none => v

end Volume

end Userland

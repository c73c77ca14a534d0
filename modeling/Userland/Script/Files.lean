import Userland.Files.Volume

/-!
# Scripts for a volume

A script holds handles under numbers. Opening a file under a number that is in use closes the handle
that was there, once the new one is open.
-/

namespace Userland

/-- An operation on a volume. -/
inductive VolumeOp where
  /-- Put a file under a name, whether the name is taken or not. -/
  | add (path : String) (data : Bytes)
  /-- Make a file. -/
  | create (path : String) (size : UInt32)
  /-- Take a file's name away. -/
  | remove (path : String)
  /-- Open a file and hold the handle. -/
  | openFile (path : String) (id : Nat)
  /-- Close a handle. -/
  | close (id : Nat)
  /-- Read up to `n` bytes. -/
  | read (id : Nat) (n : Nat)
  /-- Write bytes. -/
  | write (id : Nat) (data : Bytes)
  /-- Move a position. -/
  | seek (id : Nat) (position : UInt32)
  /-- Deny writes. -/
  | deny (id : Nat)
  /-- Allow writes. -/
  | allow (id : Nat)
  /-- Tell the position and the length. -/
  | stat (id : Nat)

/-- The answer to an operation. -/
inductive VolumeReply where
  /-- There is nothing to tell. -/
  | nothing
  /-- No handle is held under the number. -/
  | notOpen
  /-- Yes or no. -/
  | flag (value : Bool)
  /-- How many bytes were written. -/
  | count (n : Nat)
  /-- The bytes read into a buffer of `size` bytes. -/
  | data (read : Bytes) (size : Nat)
  /-- Position and length. -/
  | stat (position length : UInt32)

/-- A volume and the handles that a script holds. -/
structure VolumeDesk where
  /-- The volume. -/
  volume : Volume
  /-- Handles, by number. -/
  held : List (Nat × Handle)

namespace VolumeOp

/-- Use a handle, if it is held. -/
def withHandle (desk : VolumeDesk) (id : Nat) (f : Handle → VolumeReply × Volume) :
    VolumeReply × VolumeDesk :=
  match desk.held.lookup id with
  | some h =>
    let (reply, volume) := f h
    (reply, { desk with volume := volume })
  | none => (.notOpen, desk)

/-- Close the handle under a number, if there is one. -/
def drop (desk : VolumeDesk) (id : Nat) : VolumeDesk :=
  match desk.held.lookup id with
  | some h => ⟨desk.volume.close h, desk.held.filter fun (i, _) => i ≠ id⟩
  | none => desk

/-- What an operation answers, and the desk afterwards. -/
def perform (desk : VolumeDesk) : VolumeOp → VolumeReply × VolumeDesk
  | add path data =>
    let contents := Contents.ofExtents [.ofBytes 0 data]
    let file := FileNode.ofContents path contents data.length
    (.nothing, { desk with volume := desk.volume.add file })
  | create path size =>
    let (done, volume) := desk.volume.create path size
    (.flag done, { desk with volume := volume })
  | remove path =>
    let (done, volume) := desk.volume.remove path
    (.flag done, { desk with volume := volume })
  | openFile path id =>
    match desk.volume.openFile? path with
    | some (h, volume) =>
      let desk := drop { desk with volume := volume } id
      (.flag true, { desk with held := (id, h) :: desk.held })
    | none => (.flag false, desk)
  | close id => (.flag (desk.held.lookup id).isSome, drop desk id)
  | read id n => withHandle desk id fun h =>
      let (got, volume) := desk.volume.read h n
      (.data got n, volume)
  | write id data => withHandle desk id fun h =>
      let (n, volume) := desk.volume.write h data
      (.count n, volume)
  | seek id position => withHandle desk id fun h => (.nothing, desk.volume.seek h position)
  | deny id => withHandle desk id fun h => (.nothing, desk.volume.deny h)
  | allow id => withHandle desk id fun h => (.nothing, desk.volume.allow h)
  | stat id => withHandle desk id fun h =>
      (.stat (desk.volume.tell h) (desk.volume.length h), desk.volume)

/-- What operations answer, one after the other, each with the number of open handles afterwards. -/
def performAll (desk : VolumeDesk) : List VolumeOp → List (VolumeReply × Nat)
  | [] => []
  | op :: rest =>
    let (reply, desk) := perform desk op
    (reply, desk.volume.openHandles) :: performAll desk rest

end VolumeOp

end Userland

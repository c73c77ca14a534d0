import Userland.Proofs.Volumes

/-!
# Open files as byte streams

To those who read and write it, an open file is a string of bytes with a position, which may be denied to
them (`Stream`). This is all that matters for what a handle does: a read takes the next bytes and moves past
them (`Volume.read_of_stream?`), a write puts bytes over what is there (`Overwrites`) and moves past them
(`Volume.write_of_stream?`), and a seek moves (`Volume.seek_of_stream?`).
-/

namespace Userland

/-- What an open file is to those who read and write it. -/
structure Stream where
  /-- Its bytes. -/
  data : Bytes
  /-- Where the next read or write starts. -/
  position : Nat
  /-- Whether writes are denied. -/
  denied : Bool

namespace Stream

variable {f : Stream} {n i : Nat}

/-- The next bytes, `n` at most. -/
def next (f : Stream) (n : Nat) : Bytes := (f.data.drop f.position).take n

@[simp] theorem length_next (f : Stream) (n : Nat) :
    (f.next n).length = min n (f.data.length - f.position) := by
  rw [next, List.length_take, List.length_drop]

theorem getElem?_next (lt : i < n) : (f.next n)[i]? = f.data[f.position + i]? := by
  rw [next, List.getElem?_take, if_pos lt, List.getElem?_drop]

end Stream

/-- Bytes are put over a string of bytes from a position on: it has them there, and otherwise what it had. It
    gets no longer than they reach. -/
structure Overwrites (bytes : Bytes) (position : Nat) (before after : Bytes) : Prop where
  stored : ∀ i < bytes.length, after[position + i]? = bytes[i]?
  kept : ∀ i < before.length, i < position ∨ position + bytes.length ≤ i → after[i]? = before[i]?
  length : after.length ≤ max before.length (position + bytes.length)

namespace Overwrites

variable {bytes before after : Bytes} {position : Nat}

/-- What was put there is read from there. -/
theorem next_eq (puts : Overwrites bytes position before after) (denied : Bool) :
    (Stream.mk after position denied).next bytes.length = bytes := by
  refine List.ext_getElem? fun i => ?_
  by_cases lt : i < bytes.length
  · rw [Stream.getElem?_next lt]
    exact puts.stored i lt
  · rw [List.getElem?_eq_none (Nat.le_of_not_lt lt), List.getElem?_eq_none]
    rw [Stream.length_next]
    exact Nat.le_trans (Nat.min_le_left ..) (Nat.le_of_not_lt lt)

theorem length_lt (puts : Overwrites bytes position before after) {limit : Nat} (short : before.length < limit)
    (fits : position + bytes.length < limit) : after.length < limit :=
  Nat.lt_of_le_of_lt puts.length (Nat.max_lt.2 ⟨short, fits⟩)

end Overwrites

/-- Below the last position a write takes all of its bytes. -/
theorem GrowthRule.taken_eq (growth : GrowthRule) {position : UInt32} {n : Nat}
    (fits : position.toNat + n < positionLimit) : growth.taken position n = n := by
  cases growth with
  | bounded =>
    refine Nat.min_eq_left ?_
    simp only [positionLimit] at *
    omega
  | unbounded => rfl

namespace Volume

variable {v : Volume} {h : Handle} {f : Stream} {node : FileNode} {o : OpenFile}

/-- The file that a handle has open, as a stream. A file that never ends is none. -/
def stream? (v : Volume) (h : Handle) : Option Stream := do
  let o ← v.opened? h
  let node ← v.nodes[o.node]?
  if node.endless then none
  else some ⟨node.contents.read 0 node.size, o.position.toNat, decide (0 < node.denials)⟩

theorem stream?_eq_some : v.stream? h = some f ↔ ∃ o node, v.opened? h = some o ∧
    v.nodes[o.node]? = some node ∧ node.endless = false ∧
      f = ⟨node.contents.read 0 node.size, o.position.toNat, decide (0 < node.denials)⟩ := by
  simp only [stream?, bind, Option.bind_eq_some_iff, Option.ite_none_left_eq_some, Bool.not_eq_true,
    Option.some.injEq, eq_comm (b := f)]
  constructor
  · rintro ⟨o, opened, node, found, finite, rfl⟩
    exact ⟨o, node, opened, found, finite, rfl⟩
  · rintro ⟨o, node, opened, found, finite, rfl⟩
    exact ⟨o, opened, node, found, finite, rfl⟩

theorem opened?_setOpened (opened : v.opened? h = some o) (o' : OpenFile) :
    (v.setOpened h o').opened? h = some o' := by
  obtain ⟨inside, -⟩ := Array.getElem?_eq_some_iff.1 (handles_of_opened? opened)
  simp [setOpened, opened?, inside]

/-- Moving the position of a handle moves that of its stream. -/
theorem stream?_setOpened (found : v.stream? h = some f) (opened : v.opened? h = some o) (position : UInt32) :
    (v.setOpened h { o with position := position }).stream? h = some { f with position := position.toNat } := by
  obtain ⟨o', node, opened', there, finite, rfl⟩ := stream?_eq_some.1 found
  cases opened.symm.trans opened'
  exact stream?_eq_some.2 ⟨_, node, opened?_setOpened opened _, there, finite, rfl⟩

theorem seek_of_stream? (found : v.stream? h = some f) (position : UInt32) :
    (v.seek h position).stream? h = some { f with position := position.toNat } := by
  obtain ⟨o, node, opened, -⟩ := stream?_eq_some.1 found
  rw [seek, opened]
  exact stream?_setOpened found opened position

/-- A position that does not leave the range of positions moves as far as it is told to. -/
theorem toNat_add_ofNat {position : UInt32} {n : Nat} (fits : n = 0 ∨ position.toNat + n < positionLimit) :
    (position + UInt32.ofNat n).toNat = position.toNat + n := by
  have := position.toNat_lt
  rw [UInt32.toNat_add, UInt32.toNat_ofNat']
  simp only [positionLimit] at fits
  omega

/-- A read gives the next bytes of the stream and moves past them. -/
theorem read_of_stream? (found : v.stream? h = some f) (short : f.data.length < positionLimit) (n : Nat) :
    (v.read h n).1 = f.next n ∧
      (v.read h n).2.stream? h = some { f with position := f.position + (f.next n).length } := by
  obtain ⟨o, node, opened, there, finite, rfl⟩ := stream?_eq_some.1 found
  have file : v.node? h = some node := by rw [node?, opened, Option.bind_some, there]
  have available : node.available o.position n = min n (node.size - o.position.toNat) := by
    simp [FileNode.available, finite]
  simp only [Contents.length_read] at short
  -- No byte is taken from past the end, where positions might run out.
  have moved : (o.position + UInt32.ofNat (min n (node.size - o.position.toNat))).toNat =
      o.position.toNat + min n (node.size - o.position.toNat) := toNat_add_ofNat (by omega)
  simp only [Volume.read, opened, file, available, Stream.length_next, Contents.length_read]
  refine ⟨List.ext_getElem? fun i => ?_, ?_⟩
  · rw [Contents.getElem?_read, Stream.next, List.getElem?_take, List.getElem?_drop, Contents.getElem?_read,
      Nat.zero_add]
    dsimp only
    split_ifs <;> first | rfl | omega
  · rw [← moved]
    exact stream?_setOpened found opened _

/-- While writes are denied nothing is written. -/
theorem write_of_stream?_denied (found : v.stream? h = some f) (denied : f.denied = true) (bytes : Bytes) :
    v.write h bytes = (0, v) := by
  obtain ⟨o, node, opened, there, finite, rfl⟩ := stream?_eq_some.1 found
  have file : v.node? h = some node := by rw [node?, opened, Option.bind_some, there]
  have denied : 0 < node.denials := of_decide_eq_true denied
  simp only [Volume.write, opened, file, gt_iff_lt, denied, if_true]

/-- Bytes that are put into the contents of a file are put over its bytes. -/
theorem overwrites_write (growth : GrowthRule) (node : FileNode) (position : UInt32) (bytes : Bytes) :
    Overwrites bytes position.toNat (node.contents.read 0 node.size)
      ((node.contents.write position.toNat bytes).read 0 (growth.sizeAfter node.size position bytes.length)) := by
  have size : node.size ≤ growth.sizeAfter node.size position bytes.length ∧
      growth.sizeAfter node.size position bytes.length ≤ max node.size (position.toNat + bytes.length) ∧
      (0 < bytes.length → position.toNat + bytes.length ≤ growth.sizeAfter node.size position bytes.length) := by
    rw [GrowthRule.sizeAfter]
    split <;> omega
  refine ⟨fun i lt => ?_, fun i lt outside => ?_, ?_⟩
  · rw [Contents.getElem?_read, if_pos (by omega), Nat.zero_add, Contents.get_write, if_pos (by omega),
      Nat.add_sub_cancel_left, List.getElem?_eq_getElem lt, Option.getD_some]
  · rw [Contents.length_read] at lt
    rw [Contents.getElem?_read, if_pos (by omega), Contents.getElem?_read, if_pos lt, Nat.zero_add,
      Contents.get_write, if_neg (by omega)]
  · rw [Contents.length_read, Contents.length_read]
    exact size.2.1

/-- A write that is not denied puts its bytes over those of the stream and moves past them. -/
theorem write_of_stream? (found : v.stream? h = some f) (free : f.denied = false) (bytes : Bytes)
    (fits : f.position + bytes.length < positionLimit) :
    (v.write h bytes).1 = bytes.length ∧ ∃ data, Overwrites bytes f.position f.data data ∧
      (v.write h bytes).2.stream? h = some { f with data := data, position := f.position + bytes.length } := by
  obtain ⟨o, node, opened, there, finite, rfl⟩ := stream?_eq_some.1 found
  have file : v.node? h = some node := by rw [node?, opened, Option.bind_some, there]
  have free' : ¬ 0 < node.denials := of_decide_eq_false free
  have taken := v.growth.taken_eq fits
  simp only [Volume.write, opened, file, gt_iff_lt, free', if_false, taken, List.take_length, true_and]
  have moved : (o.position + UInt32.ofNat bytes.length).toNat = o.position.toNat + bytes.length :=
    toNat_add_ofNat (.inr fits)
  refine ⟨_, overwrites_write v.growth node o.position bytes, ?_⟩
  refine stream?_eq_some.2 ⟨_, { node with
    contents := node.contents.write o.position.toNat bytes
    size := v.growth.sizeAfter node.size o.position bytes.length }, opened?_setOpened opened _, ?_, finite, ?_⟩
  · simp only [setOpened, modifyNode, Array.getElem?_modify, if_true, there, Option.map_some]
  · simp only [moved, free']

end Volume

end Userland

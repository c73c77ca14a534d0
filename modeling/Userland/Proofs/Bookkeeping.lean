import Mathlib.Data.Nat.PSub
import Userland.Proofs.VolumeHistories

/-!
# The books of a volume

A volume counts its open handles, and each file counts those that deny writes to it. Handles come and go,
files lose their names and others take them, and still the counts are what the history says
(`VolumeDesk.sound_after`): they are never counted down below zero (`VolumeDesk.Records.perform?_eq`), and a
write is refused exactly while some handle on the file denies it.
-/

namespace Userland

/-! ## Counting down -/

/-- Take back the handle's denial, if its file counts one. -/
def Volume.allow? (v : Volume) (h : Handle) : Option Volume :=
  match v.opened? h with
  | some o =>
    if o.denying then do
      let f ← v.nodes[o.node]?
      let denials ← f.denials.psub 1
      return (v.modifyNode o.node fun f => { f with denials := denials }).setOpened h
        { o with denying := false }
    else some v
  | none => some v

/-- Close a handle, if there is one to be counted. -/
def Volume.close? (v : Volume) (h : Handle) : Option Volume :=
  match v.opened? h with
  | some _ => do
    let v ← v.allow? h
    let openHandles ← v.openHandles.psub 1
    return { v with
      handles := v.handles.setIfInBounds h.index none
      openHandles := openHandles }
  | none => some v

namespace VolumeOp

/-- Close the handle under a number, if no count goes below zero. -/
def drop? (desk : VolumeDesk) (id : Nat) : Option VolumeDesk :=
  match desk.held.lookup id with
  | some h => do return ⟨← desk.volume.close? h, desk.held.filter fun (i, _) => i ≠ id⟩
  | none => some desk

/-- What an operation answers, and the desk afterwards, if no count goes below zero. -/
def perform? (desk : VolumeDesk) : VolumeOp → Option (VolumeReply × VolumeDesk)
  | openFile path id =>
    match desk.volume.openFile? path with
    | some (h, volume) => do
      let desk ← drop? { desk with volume := volume } id
      return (.flag true, { desk with held := (id, h) :: desk.held })
    | none => some (.flag false, desk)
  | close id => do return (.flag (desk.held.lookup id).isSome, ← drop? desk id)
  | allow id =>
    match desk.held.lookup id with
    | some h => do return (.nothing, { desk with volume := ← desk.volume.allow? h })
    | none => some (.notOpen, desk)
  | op => some (op.perform desk)

end VolumeOp

namespace Volume

variable {v : Volume} {base : Nat → Nat}

theorem modifyNode_congr {i : Nat} {f : FileNode} {change change' : FileNode → FileNode}
    (found : v.nodes[i]? = some f) (same : change f = change' f) :
    v.modifyNode i change = v.modifyNode i change' := by
  have nodes : v.nodes.modify i change = v.nodes.modify i change' := by
    refine Array.ext_getElem? fun n => ?_
    rw [Array.getElem?_modify, Array.getElem?_modify]
    split
    · next here => rw [← here, found, Option.map_some, Option.map_some, same]
    · rfl
  rw [modifyNode, modifyNode, nodes]

/-- A denial that is taken back was counted. -/
theorem Tallied.allow?_eq (tallied : v.Tallied base) (h : Handle) : v.allow? h = some (v.allow h) := by
  cases opened : v.opened? h with
  | none => simp only [Volume.allow?, Volume.allow, opened]
  | some o =>
    by_cases denying : o.denying = true
    · obtain ⟨f, found, some⟩ := tallied.denied (grip?_eq_some.2 ⟨o, opened, rfl, denying⟩)
      have counted : (v.modifyNode o.node fun g => { g with denials := f.denials - 1 }) =
          v.modifyNode o.node fun g => { g with denials := g.denials - 1 } := modifyNode_congr found rfl
      simp only [Volume.allow?, Volume.allow, opened, denying, if_true, found, Nat.psub_eq_sub some,
        Option.bind_eq_bind, Option.bind_some, ← counted]
      rfl
    · simp only [Volume.allow?, Volume.allow, opened, denying, Bool.false_eq_true, if_false]

/-- A handle that is closed was counted. -/
theorem close?_eq (tallied : v.Tallied base) (counted : v.Counted) (h : Handle) :
    v.close? h = some (v.close h) := by
  cases opened : v.opened? h with
  | none => simp only [close?, close, opened]
  | some o =>
    -- Taking back the denial leaves the handle open, so the volume still counts it.
    have isOpen : (v.allow h).isOpen h = true := by
      rw [(sameOpen_allow v h).isOpen, Volume.isOpen, opened, Option.isSome_some]
    have counts : 0 < (v.allow h).openHandles := by
      refine Nat.pos_of_ne_zero fun zero => Bool.false_ne_true ?_
      rw [← isOpen, ((sameOpen_allow v h).counted counted).openHandles_eq_zero.1 zero h]
    simp only [close?, close, opened, tallied.allow?_eq h, Nat.psub_eq_sub counts, Option.bind_eq_bind,
      Option.bind_some]
    rfl

end Volume

namespace VolumeDesk

variable {past : List VolumeOp} {desk : VolumeDesk}

theorem drop?_eq {base : Nat → Nat} (desk : VolumeDesk) (tallied : desk.volume.Tallied base)
    (counted : desk.volume.Counted) (i : Nat) : VolumeOp.drop? desk i = some (VolumeOp.drop desk i) := by
  cases found : desk.held.lookup i with
  | none => simp only [VolumeOp.drop?, VolumeOp.drop, found]
  | some h =>
    simp only [VolumeOp.drop?, VolumeOp.drop, found, Volume.close?_eq tallied counted]
    rfl

theorem Records.perform?_eq (records : Records past desk) (op : VolumeOp) :
    op.perform? desk = some (op.perform desk) := by
  cases op with
  | openFile path i =>
    cases given : desk.volume.openFile? path with
    | none => simp only [VolumeOp.perform?, VolumeOp.perform, given]
    | some result =>
      obtain ⟨h, v⟩ := result
      -- What is under the number is closed on the volume on which the new handle is open already.
      have dropped := drop?_eq ⟨v, desk.held⟩ (records.tallied.openFile? given)
        ((Volume.openFile?_eq_some given).2.2 records.counted) i
      simp only [VolumeOp.perform?, VolumeOp.perform, given, dropped]
      rfl
  | close i =>
    rw [VolumeOp.perform?, drop?_eq desk records.tallied records.counted]
    rfl
  | allow i =>
    cases found : desk.held.lookup i with
    | none => simp only [VolumeOp.perform?, VolumeOp.perform, VolumeOp.withHandle, found]
    | some h =>
      simp only [VolumeOp.perform?, VolumeOp.perform, VolumeOp.withHandle, found, records.tallied.allow?_eq]
      rfl
  | _ => rfl

/-! ## The books of a volume -/

/-- What a volume keeps book of is as its history has it. -/
structure Sound (past : List VolumeOp) : Prop where
  /-- Files are numbered as they were made. -/
  size : (after past).volume.nodes.size = made past
  /-- Names are those of the files that have them. -/
  names : ∀ name, (after past).volume.lookup name = named past name
  /-- Handles have hold of the files that were opened, and deny writes to them or do not. -/
  handles : ∀ k, (after past).grip? k = (opened past k).map (·, denying past k)
  /-- Each file, with a name or without, counts the handles on it that deny writes. -/
  denials : ∀ n f, (after past).volume.nodes[n]? = some f → (deniers past n).encard = f.denials
  /-- The handles that were opened and not closed are counted. -/
  openHandles : {k | (opened past k).isSome = true}.encard = (after past).volume.openHandles
  /-- No count goes below zero, whatever is done next. -/
  counts : ∀ op : VolumeOp, op.perform? (after past) = some (op.perform (after past))
  /-- A write of some bytes writes none exactly if a handle denies it. -/
  refuses : ∀ k n data, opened past k = some n → data ≠ [] →
    (((VolumeOp.write k data).perform (after past)).1 = .count 0 ↔ (deniers past n).Nonempty)
  /-- Such a write leaves everything as it is. -/
  keeps : ∀ k n data, opened past k = some n → (deniers past n).Nonempty →
    (VolumeOp.write k data).perform (after past) = (.count 0, after past)

theorem Records.deniers_eq (records : Records past desk) (n : Nat) :
    deniers past n = {k | desk.grip? k = some (n, true)} := by
  ext k
  rw [Set.mem_ofPred_eq, records.grips]
  simp [deniers]

theorem Records.encard_deniers (records : Records past desk) {n : Nat} {f : FileNode}
    (found : desk.volume.nodes[n]? = some f) : (deniers past n).encard = f.denials := by
  rw [records.deniers_eq, records.holds.encard_deniers, records.tallied.count n f found, Nat.zero_add]

/-- Under a number where a file was opened is a handle that has hold of it. -/
theorem Records.exists_handle (records : Records past desk) {k n : Nat} (found : opened past k = some n) :
    ∃ h f, desk.held.lookup k = some h ∧ desk.volume.grip? h = some (n, denying past k) ∧
      desk.volume.nodes[n]? = some f := by
  have grips := records.grip?_eq found
  obtain ⟨h, held, has⟩ := Option.bind_eq_some_iff.1 grips
  obtain ⟨o, opened, rfl, -⟩ := Volume.grip?_eq_some.1 has
  exact ⟨h, _, held, has, Array.getElem?_eq_getElem (records.tallied.handles h o opened)⟩

/-- What is written under a number is written with its handle. -/
theorem perform_write {k : Nat} {h : Handle} (held : desk.held.lookup k = some h) (data : Bytes) :
    (VolumeOp.write k data).perform desk =
      (.count (desk.volume.write h data).1, ⟨(desk.volume.write h data).2, desk.held⟩) := by
  simp only [VolumeOp.perform, VolumeOp.withHandle, held]

theorem Records.write_of_denied (records : Records past desk) {k n : Nat} (found : opened past k = some n)
    (denied : (deniers past n).Nonempty) (data : Bytes) :
    (VolumeOp.write k data).perform desk = (.count 0, desk) := by
  obtain ⟨h, f, held, grips, node⟩ := records.exists_handle found
  have counted : 0 < f.denials := by
    refine Nat.pos_of_ne_zero fun zero => denied.ne_empty (Set.encard_eq_zero.1 ?_)
    rw [records.encard_deniers node, zero, Nat.cast_zero]
  rw [perform_write held, Volume.write_eq_of_denied grips node counted]

theorem Records.write_of_free (records : Records past desk) {k n : Nat} (found : opened past k = some n)
    (free : ¬ (deniers past n).Nonempty) (data : Bytes) :
    ((VolumeOp.write k data).perform desk).1 = .count data.length := by
  obtain ⟨h, f, held, grips, node⟩ := records.exists_handle found
  have counted : f.denials = 0 := by
    have none := records.encard_deniers node
    rw [Set.not_nonempty_iff_eq_empty.1 free, Set.encard_empty] at none
    exact_mod_cast none.symm
  rw [perform_write held, Volume.write_of_free grips node counted, records.growth]
  rfl

/-- Whatever is done with a volume, each file counts the handles that deny writes to it, and the volume those
    that are open. -/
theorem sound_after (past : List VolumeOp) : Sound past := by
  have records := records_after past
  refine ⟨records.size, records.names, records.grips, fun n f => records.encard_deniers, ?_,
    records.perform?_eq, fun k n data found some => ⟨fun none => ?_, fun denied => ?_⟩,
    fun k n data found denied => records.write_of_denied found denied data⟩
  · rw [← records.holds.encard_open records.counted]
    congr 1
    ext k
    rw [Set.mem_ofPred_eq, Set.mem_ofPred_eq, records.grips, Option.isSome_map]
  · by_contra free
    rw [records.write_of_free found free] at none
    exact some (List.length_eq_zero_iff.1 (VolumeReply.count.inj none))
  · rw [records.write_of_denied found denied]

/-- A file that lost its name to another is denied as before, and the other is not. -/
example : (after [.openFile "a" 2, .add "a" [], .remove "a", .deny 1, .deny 1, .openFile "a" 1,
    .add "a" [7]]).volume.nodes.toList.map (·.denials) = [1, 0] := by decide

end VolumeDesk

end Userland

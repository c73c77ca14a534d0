import Mathlib.Data.Set.Card
import Userland.Proofs.Grips
import Userland.Script.Files

/-!
# Handles that are held

A script holds each open handle of its volume under one number (`VolumeDesk.Holds`). So what is told of the
open handles can be told of the numbers: which file a number has hold of, and whether it denies writes
(`VolumeDesk.grip?`). An operation under one number leaves the others as they are (`VolumeDesk.grip?_drop`),
and what the volume counts are numbers (`VolumeDesk.Holds.encard_deniers`,
`VolumeDesk.Holds.encard_open`).
-/

namespace Userland

/-! ## Association lists -/

section Lists

variable {α β : Type} [DecidableEq α] {l : List (α × β)} {k : α} {x : β}

theorem lookup_cons_eq (i k : α) (x : β) (l : List (α × β)) :
    ((i, x) :: l).lookup k = if k = i then some x else l.lookup k := by
  split
  · next same => rw [List.lookup_cons, beq_iff_eq.2 same]
  · next other => rw [List.lookup_cons, beq_false_of_ne other]

/-- The entries under one key may be dropped. -/
theorem lookup_filter_ne (l : List (α × β)) (gone k : α) :
    (l.filter fun (i, _) => i ≠ gone).lookup k = if k = gone then none else l.lookup k := by
  induction l with
  | nil => simp
  | cons entry l ih =>
    obtain ⟨i, x⟩ := entry
    by_cases dropped : i = gone
    · rw [List.filter_cons_of_neg (by simpa using dropped), ih, lookup_cons_eq, dropped]
      by_cases same : k = gone <;> simp [same]
    · rw [List.filter_cons_of_pos (by simpa using dropped), lookup_cons_eq, lookup_cons_eq, ih]
      by_cases here : k = i
      · rw [if_pos here, if_pos here, if_neg (here ▸ dropped)]
      · rw [if_neg here, if_neg here]

/-- If no key is there twice, an entry is what its key is for. -/
theorem lookup_eq_some_iff_mem (once : (l.map Prod.fst).Nodup) : l.lookup k = some x ↔ (k, x) ∈ l := by
  induction l with
  | nil => simp
  | cons entry l ih =>
    obtain ⟨i, y⟩ := entry
    obtain ⟨new, once⟩ := List.nodup_cons.1 once
    rw [lookup_cons_eq, List.mem_cons, Prod.mk.injEq]
    split
    · next same =>
      have away : (i, x) ∉ l := fun mem => new (List.mem_map.2 ⟨_, mem, rfl⟩)
      simp [same, away, eq_comm]
    · next other => simp [other, ih once]

/-- The entries that are so can be counted by their keys. -/
theorem encard_lookup (once : (l.map Prod.fst).Nodup) (P : β → Bool) :
    {k | ∃ x, l.lookup k = some x ∧ P x = true}.encard = (l.map Prod.snd).countP P := by
  have keys : {k | ∃ x, l.lookup k = some x ∧ P x = true} =
      ((l.filter fun e => P e.2).map Prod.fst).toFinset := by
    ext k
    simp [lookup_eq_some_iff_mem once]
  have distinct : ((l.filter fun e => P e.2).map Prod.fst).Nodup :=
    once.sublist (List.filter_sublist.map Prod.fst)
  rw [keys, Set.encard_coe_eq_coe_finsetCard, List.toFinset_card_of_nodup distinct, List.length_map,
    ← List.countP_eq_length_filter, List.countP_map]
  rfl

end Lists

/-! ## Names -/

namespace Volume

variable {v v' : Volume} {h : Handle} {f : FileNode} {path name : String} {n : Nat}

theorem lookup_add (v : Volume) (f : FileNode) (name : String) :
    (v.add f).lookup name = if name = f.name then some v.nodes.size else v.lookup name := by
  rw [lookup, add, lookup_cons_eq, lookup_filter_ne]
  split
  · rfl
  · rfl

theorem lookup_remove (v : Volume) (path name : String) :
    (v.remove path).2.lookup name = if name = path then none else v.lookup name := by
  unfold remove
  split
  · exact lookup_filter_ne v.directory path name
  · next untaken =>
    split
    · next same => rw [same, Option.not_isSome_iff_eq_none.1 untaken]
    · rfl

/-- Files have the same names as before, and no file is new. -/
structure SameFiles (v v' : Volume) : Prop where
  /-- Names. -/
  directory : v'.directory = v.directory
  /-- The number of files. -/
  size : v'.nodes.size = v.nodes.size
  /-- How they grow. -/
  growth : v'.growth = v.growth

theorem SameFiles.refl (v : Volume) : v.SameFiles v := ⟨rfl, rfl, rfl⟩

theorem sameFiles_modifyNode (v : Volume) (i : Nat) (change : FileNode → FileNode) (h : Handle) (o : OpenFile) :
    v.SameFiles ((v.modifyNode i change).setOpened h o) := ⟨rfl, Array.size_modify .., rfl⟩

theorem sameFiles_openFile? (given : v.openFile? path = some (h, v')) : v.SameFiles v' := by
  simp only [openFile?, Option.map_eq_some_iff, Prod.mk.injEq] at given
  obtain ⟨n, -, -, rfl⟩ := given
  exact ⟨rfl, rfl, rfl⟩

theorem sameFiles_read (v : Volume) (h : Handle) (count : Nat) : v.SameFiles (v.read h count).2 := by
  unfold read
  split <;> exact ⟨rfl, rfl, rfl⟩

theorem sameFiles_write (v : Volume) (h : Handle) (data : Bytes) : v.SameFiles (v.write h data).2 := by
  unfold write
  split
  · split
    · exact .refl v
    · exact sameFiles_modifyNode ..
  · exact .refl v

theorem sameFiles_seek (v : Volume) (h : Handle) (position : UInt32) : v.SameFiles (v.seek h position) := by
  unfold seek
  split <;> exact ⟨rfl, rfl, rfl⟩

theorem sameFiles_deny (v : Volume) (h : Handle) : v.SameFiles (v.deny h) := by
  unfold deny
  split
  · split
    · exact .refl v
    · exact sameFiles_modifyNode ..
  · exact .refl v

theorem sameFiles_allow (v : Volume) (h : Handle) : v.SameFiles (v.allow h) := by
  unfold allow
  split
  · split
    · exact sameFiles_modifyNode ..
    · exact .refl v
  · exact .refl v

theorem sameFiles_close (v : Volume) (h : Handle) : v.SameFiles (v.close h) := by
  unfold close
  split
  · obtain ⟨directory, size, growth⟩ := sameFiles_allow v h
    exact ⟨directory, size, growth⟩
  · exact .refl v

end Volume

/-! ## Numbers -/

namespace VolumeDesk

variable {desk : VolumeDesk} {loose : List Handle} {h : Handle} {k n : Nat} {b : Bool} {v : Volume}

/-- What the handle under a number has hold of. -/
def grip? (desk : VolumeDesk) (k : Nat) : Option (Nat × Bool) := (desk.held.lookup k).bind desk.volume.grip?

/-- Each open handle is held under one number, except for those that are loose. -/
structure Holds (desk : VolumeDesk) (loose : List Handle) : Prop where
  /-- No number is there twice. -/
  numbers : (desk.held.map Prod.fst).Nodup
  /-- No handle is there twice. -/
  once : (loose ++ desk.held.map Prod.snd).Nodup
  /-- Open handles and no others are there. -/
  live : ∀ h, desk.volume.isOpen h = true ↔ h ∈ loose ++ desk.held.map Prod.snd

theorem Holds.sameOpen (holds : desk.Holds loose) (same : desk.volume.SameOpen v) :
    (VolumeDesk.mk v desk.held).Holds loose :=
  ⟨holds.numbers, holds.once, fun h => (congrArg (· = true) (same.isOpen h)).to_iff.trans (holds.live h)⟩

/-- A handle is held under one number at most. -/
theorem Holds.number_unique (holds : desk.Holds loose) {i : Nat} (here : desk.held.lookup k = some h)
    (there : desk.held.lookup i = some h) : k = i := by
  have once := (List.nodup_append.1 holds.once).2.1
  rw [lookup_eq_some_iff_mem holds.numbers] at here there
  exact congrArg Prod.fst (List.inj_on_of_nodup_map once here there rfl)

/-! ### Closing the handle under a number -/

theorem drop_of_none (unused : desk.held.lookup k = none) : VolumeOp.drop desk k = desk := by
  simp only [VolumeOp.drop, unused]

theorem volume_drop (found : desk.held.lookup k = some h) :
    (VolumeOp.drop desk k).volume = desk.volume.close h := by
  simp only [VolumeOp.drop, found]

theorem lookup_drop (desk : VolumeDesk) (k i : Nat) :
    (VolumeOp.drop desk k).held.lookup i = if i = k then none else desk.held.lookup i := by
  cases found : desk.held.lookup k with
  | none =>
    rw [drop_of_none found]
    split
    · next same => rw [same, found]
    · rfl
  | some h =>
    simp only [VolumeOp.drop, found]
    exact lookup_filter_ne desk.held k i

theorem held_drop_sublist (desk : VolumeDesk) (k : Nat) : (VolumeOp.drop desk k).held.Sublist desk.held := by
  cases found : desk.held.lookup k with
  | none => rw [drop_of_none found]
  | some h =>
    simp only [VolumeOp.drop, found]
    exact List.filter_sublist

/-- What is so of a volume with or without a handle closed is so when a number is given up. -/
theorem of_volume_drop {P : Volume → Prop} (same : P desk.volume) (closed : ∀ h, P (desk.volume.close h))
    (k : Nat) : P (VolumeOp.drop desk k).volume := by
  cases found : desk.held.lookup k with
  | none => rwa [drop_of_none found]
  | some h =>
    rw [volume_drop found]
    exact closed h

theorem sameFiles_drop (desk : VolumeDesk) (k : Nat) :
    desk.volume.SameFiles (VolumeOp.drop desk k).volume :=
  of_volume_drop (.refl _) (Volume.sameFiles_close _) k

theorem tallied_drop {base : Nat → Nat} (desk : VolumeDesk) (tallied : desk.volume.Tallied base) (k : Nat) :
    (VolumeOp.drop desk k).volume.Tallied base := of_volume_drop tallied tallied.close k

theorem counted_drop (desk : VolumeDesk) (counted : desk.volume.Counted) (k : Nat) :
    (VolumeOp.drop desk k).volume.Counted := of_volume_drop counted counted.close k

/-- A handle that is held is not loose. -/
theorem Holds.not_loose (holds : desk.Holds loose) (found : desk.held.lookup k = some h) : h ∉ loose := by
  intro other
  have mem := (lookup_eq_some_iff_mem holds.numbers).1 found
  exact (List.nodup_append.1 holds.once).2.2 h other h (List.mem_map.2 ⟨_, mem, rfl⟩) rfl

theorem Holds.mem_handles (holds : desk.Holds loose) :
    h ∈ desk.held.map Prod.snd ↔ ∃ k, desk.held.lookup k = some h := by
  simp only [lookup_eq_some_iff_mem holds.numbers, List.mem_map, Prod.exists, exists_eq_right]

/-- A handle that is closed is held no more. -/
theorem Holds.drop (holds : desk.Holds loose) (k : Nat) : (VolumeOp.drop desk k).Holds loose := by
  have kept := held_drop_sublist desk k
  have numbers := holds.numbers.sublist (kept.map Prod.fst)
  have once := holds.once.sublist (.append (.refl _) (kept.map Prod.snd))
  refine ⟨numbers, once, fun g => ?_⟩
  cases found : desk.held.lookup k with
  | none =>
    rw [drop_of_none found]
    exact holds.live g
  | some h =>
    have apart := holds.not_loose found
    -- Of the handles that are held, the one that is closed is the one under the number.
    have others : g ∈ (VolumeOp.drop desk k).held.map Prod.snd ↔ g ≠ h ∧ g ∈ desk.held.map Prod.snd := by
      rw [holds.mem_handles, List.mem_map]
      simp only [Prod.exists, exists_eq_right, ← lookup_eq_some_iff_mem numbers, lookup_drop]
      constructor
      · rintro ⟨i, there⟩
        split at there
        · cases there
        · next other =>
          refine ⟨?_, i, there⟩
          rintro rfl
          exact other (holds.number_unique there found)
      · rintro ⟨other, i, there⟩
        refine ⟨i, (if_neg ?_).trans there⟩
        rintro rfl
        exact other (Option.some.inj (there.symm.trans found))
    rw [volume_drop found, Volume.isOpen_close, Bool.and_eq_true, Bool.not_eq_true', decide_eq_false_iff_not,
      holds.live, List.mem_append, List.mem_append, others]
    constructor
    · rintro ⟨other, mem | mem⟩
      · exact .inl mem
      · exact .inr ⟨other, mem⟩
    · rintro (mem | ⟨other, mem⟩)
      · exact ⟨fun same => apart (same ▸ mem), .inl mem⟩
      · exact ⟨other, .inr mem⟩

/-- Closing a handle does not matter for those that have another number. -/
theorem Holds.grip?_drop (holds : desk.Holds loose) (k i : Nat) :
    (VolumeOp.drop desk k).grip? i = if i = k then none else desk.grip? i := by
  rw [grip?, lookup_drop]
  split
  · rfl
  next other =>
  rw [grip?]
  cases there : desk.held.lookup i with
  | none => rfl
  | some g =>
    cases found : desk.held.lookup k with
    | none => rw [drop_of_none found]
    | some h =>
      rw [volume_drop found]
      refine (desk.volume.grip?_close h g).trans (if_neg ?_)
      rintro rfl
      exact other (holds.number_unique there found)

theorem Holds.grip?_drop_loose (holds : desk.Holds loose) (mem : h ∈ loose) (k : Nat) :
    (VolumeOp.drop desk k).volume.grip? h = desk.volume.grip? h := by
  cases found : desk.held.lookup k with
  | none => rw [drop_of_none found]
  | some g =>
    rw [volume_drop found]
    refine (desk.volume.grip?_close g h).trans (if_neg ?_)
    rintro rfl
    exact holds.not_loose found mem

/-! ### Denying, allowing, opening -/

/-- Denials that are placed or taken back with the handle under a number are that number's. -/
theorem Holds.grip?_set {i : Nat} (holds : desk.Holds loose) (found : desk.held.lookup i = some h)
    (set : ∀ g, v.grip? g =
      if g = h then (desk.volume.grip? g).map fun p => (p.1, b) else desk.volume.grip? g) (k : Nat) :
    (VolumeDesk.mk v desk.held).grip? k =
      if k = i then (desk.grip? k).map fun p => (p.1, b) else desk.grip? k := by
  simp only [grip?]
  cases there : desk.held.lookup k with
  | none => simp
  | some g =>
    have same : g = h ↔ k = i := by
      constructor
      · rintro rfl
        exact holds.number_unique there found
      · rintro rfl
        exact Option.some.inj (there.symm.trans found)
    simp only [Option.bind_some, set, same]

/-- A handle that is opened is loose until it is held. -/
theorem Holds.openFile? {path : String} (holds : desk.Holds [])
    (given : desk.volume.openFile? path = some (h, v)) : (VolumeDesk.mk v desk.held).Holds [h] := by
  obtain ⟨shut, isOpen, -⟩ := Volume.openFile?_eq_some given
  refine ⟨holds.numbers, List.nodup_cons.2 ⟨fun mem => ?_, holds.once⟩, fun g => ?_⟩
  · rw [(holds.live h).2 mem] at shut
    cases shut
  · rw [isOpen, Bool.or_eq_true, decide_eq_true_eq, holds.live]
    exact List.mem_cons.symm

theorem Holds.grip?_openFile? {path : String} (holds : desk.Holds [])
    (given : desk.volume.openFile? path = some (h, v)) (k : Nat) :
    (VolumeDesk.mk v desk.held).grip? k = desk.grip? k := by
  simp only [grip?]
  cases there : desk.held.lookup k with
  | none => rfl
  | some g =>
    have loose := holds.openFile? given
    obtain ⟨-, n, -, grips⟩ := Volume.grip?_openFile? given g
    refine grips.trans (if_neg fun same => ?_)
    exact loose.not_loose (k := k) there (List.mem_singleton.2 same)

theorem Holds.keep (holds : desk.Holds [h]) (unused : desk.held.lookup k = none) :
    (VolumeDesk.mk desk.volume ((k, h) :: desk.held)).Holds [] := by
  refine ⟨List.nodup_cons.2 ⟨fun mem => ?_, holds.numbers⟩, holds.once, holds.live⟩
  obtain ⟨⟨i, g⟩, held, rfl⟩ := List.mem_map.1 mem
  rw [(lookup_eq_some_iff_mem holds.numbers).2 held] at unused
  cases unused

/-! ## What the volume counts -/

theorem Holds.encard_held (holds : desk.Holds []) (P : OpenFile → Bool) :
    {k | ∃ h, desk.held.lookup k = some h ∧ (desk.volume.opened? h).any P = true}.encard =
      desk.volume.handles.countP (·.any P) := by
  rw [Volume.countP_handles holds.once holds.live]
  exact encard_lookup holds.numbers fun h => (desk.volume.opened? h).any P

/-- A file is denied by so many numbers. -/
theorem Holds.encard_deniers (holds : desk.Holds []) (n : Nat) :
    {k | desk.grip? k = some (n, true)}.encard = desk.volume.deniers n := by
  rw [Volume.deniers, ← holds.encard_held]
  congr 1
  ext k
  simp only [Set.mem_ofPred_eq, grip?, Option.bind_eq_some_iff, Volume.grip?_eq_some]
  refine exists_congr fun h => and_congr_right fun _ => ?_
  cases desk.volume.opened? h with
  | none => simp
  | some o => simp [OpenFile.denies, and_comm]

/-- So many numbers are in use. -/
theorem Holds.encard_open (holds : desk.Holds []) (counted : desk.volume.Counted) :
    {k | (desk.grip? k).isSome = true}.encard = desk.volume.openHandles := by
  have all (slot : Option OpenFile) : slot.isSome = slot.any fun _ => true := by cases slot <;> rfl
  rw [counted, funext all, ← holds.encard_held]
  congr 1
  ext k
  simp only [Set.mem_ofPred_eq, grip?]
  cases desk.held.lookup k with
  | none => simp
  | some h => simp [Volume.grip?, ← all]

end VolumeDesk

end Userland

import Userland.Proofs.OpenFiles

/-!
# Histories of a descriptor table

Whatever is done to a descriptor table, it stays the finite map that `MapStep` describes, and a handle is never
copied or lost: those that were brought are those that are open together with those that were given back,
removed or drained (`brought_perm`). So each is in one place, under one descriptor or with the caller
(`refines_map`).
-/

namespace Userland

namespace DescriptorTable

variable {α σ : Type}

/-! ## Who has a handle -/

/-- The handles that an operation brings. -/
def TableOp.brings : TableOp α σ → List α
  | insert x _ => [x]
  | _ => []

/-- The handles that go to the caller. -/
def TableReply.gives : TableReply α → List α
  | givenBack x | removed x => [x]
  | drained xs => xs
  | _ => []

/-- What was open or is brought is open afterwards or goes to the caller. -/
theorem perm_perform (op : TableOp α σ) (t : DescriptorTable (α × σ)) :
    (op.brings ++ t.handles).Perm ((op.perform t).2.handles ++ (op.perform t).1.gives) := by
  cases op with
  | insert x s =>
    rw [TableOp.perform]
    cases inserted : t.insert (x, s) with
    | none => exact List.perm_append_comm
    | some result =>
      obtain ⟨d, t'⟩ := result
      have more : t'.handles.Perm (x :: t.handles) := (files_insert inserted).map Prod.fst
      exact more.symm.trans (.of_eq (List.append_nil _).symm)
  | use d f =>
    rw [TableOp.perform, modify]
    cases found : t.get d with
    | error e => exact .of_eq (List.append_nil _).symm
    | ok file =>
      obtain ⟨x, s⟩ := file
      have there : t.find? d.number = some (x, s) := by
        rw [get] at found
        split at found
        · cases found
        split at found
        · next there => exact there.trans (congrArg some (Except.ok.inj found))
        · cases found
      have same : (t.set d.number (some (x, f s))).handles = t.handles := map_setSlot there rfl
      exact .of_eq (same.symm.trans (List.append_nil _).symm)
  | remove d =>
    rw [TableOp.perform]
    cases removed : t.remove d with
    | error e => exact .of_eq (List.append_nil _).symm
    | ok result =>
      obtain ⟨⟨x, s⟩, t'⟩ := result
      have less : t.handles.Perm (x :: t'.handles) := (files_remove removed).map Prod.fst
      exact less.trans (List.perm_append_singleton x t'.handles).symm
  | drain k =>
    have taken : (t.drain k).1.map Prod.fst = t.handles.take k := by
      rw [drain, drainSlots_fst, handles, files, List.map_take]
    have left : (t.drain k).2.handles = t.handles.drop k := by
      rw [handles, files, drain, filterMap_drainSlots, handles, files, List.map_drop]
    change t.handles.Perm ((t.drain k).2.handles ++ (t.drain k).1.map Prod.fst)
    rw [taken, left]
    exact (List.Perm.of_eq (List.take_append_drop k t.handles).symm).trans List.perm_append_comm

/-! ## Histories -/

/-- The table after a history, of which the last operation is the first in the list. -/
def after (c : Nat) : List (TableOp α σ) → DescriptorTable (α × σ)
  | [] => empty c
  | op :: past => (op.perform (after c past)).2

/-- What came of each operation. -/
def replies (c : Nat) : List (TableOp α σ) → List (TableReply α)
  | [] => []
  | op :: past => (op.perform (after c past)).1 :: replies c past

/-- The handles that were brought. -/
def brought (past : List (TableOp α σ)) : List α := past.flatMap TableOp.brings

/-- The handle that an operation opens under a number. -/
def opens (n : Nat) : TableOp α σ → TableReply α → Option α
  | .insert x _, .opened d => if d.number = n then some x else none
  | _, _ => none

/-- The handle that was opened last under a number. -/
def latest (c n : Nat) : List (TableOp α σ) → Option α
  | [] => none
  | op :: past => (opens n op (op.perform (after c past)).1).or (latest c n past)

/-- Where a handle may be. -/
inductive Place where
  /-- Open under a number. -/
  | slot (n : Nat)
  /-- With the caller, since the operation at a position of the history. -/
  | caller (i : Nat)

/-- A handle is at a place after a history. -/
def Lies (c : Nat) (past : List (TableOp α σ)) (x : α) : Place → Prop
  | .slot n => (after c past).handle? n = some x
  | .caller i => ∃ r, (replies c past)[i]? = some r ∧ x ∈ r.gives

section Histories

variable {c n : Nat} {past : List (TableOp α σ)} {x : α}

theorem within_after (c : Nat) (past : List (TableOp α σ)) : Within c (after c past) := by
  induction past with
  | nil => exact ⟨rfl, fun n used => absurd rfl used⟩
  | cons op past ih => exact ih.perform op

/-- No handle is lost, and none is there twice. -/
theorem brought_perm (c : Nat) (past : List (TableOp α σ)) :
    (brought past).Perm ((after c past).handles ++ (replies c past).flatMap TableReply.gives) := by
  induction past with
  | nil => exact .refl _
  | cons op past ih =>
    have step := perm_perform op (after c past)
    refine (ih.append_left op.brings).trans ?_
    rw [← List.append_assoc]
    refine (step.append_right _).trans (.of_eq ?_)
    rw [List.append_assoc]
    rfl

/-- What is open under a number is what was opened there last. -/
theorem latest_eq (found : (after c past).handle? n = some x) : latest c n past = some x := by
  induction past with
  | nil => cases found
  | cons op past ih =>
    have step := mapStep_perform (within_after c past) op
    rw [latest]
    rw [after] at found
    generalize (op.perform (after c past)).1 = r at step ⊢
    generalize (op.perform (after c past)).2.handle? = m' at step found
    cases step with
    | @opened k y _ =>
      rw [Function.update_apply] at found
      by_cases same : n = k
      · rw [if_pos same] at found
        rw [opens, if_pos same.symm, found]
        rfl
      · rw [if_neg same] at found
        rw [opens, if_neg (Ne.symm same), Option.none_or]
        exact ih found
    | removed =>
      rw [Function.update_apply] at found
      split at found
      · cases found
      · exact ih found
    | drained =>
      dsimp only at found
      split at found
      · cases found
      · exact ih found
    | full | found => exact ih found
    | invalid | notOpen =>
      have nothing (e : DescriptorError) : opens n op (.refused e) = none := by cases op <;> rfl
      rw [nothing, Option.none_or]
      exact ih found

theorem size_eq (c : Nat) (past : List (TableOp α σ)) :
    (after c past).size = (List.range c).countP fun n => ((after c past).handle? n).isSome := by
  have listed : (after c past).numbers.Perm
      ((List.range c).filter fun n => ((after c past).handle? n).isSome) := by
    refine (List.perm_ext_iff_of_nodup (pairwise_numbers _).nodup (List.nodup_range.filter _)).2 fun n => ?_
    rw [mem_numbers, List.mem_filter, List.mem_range, Option.isSome_iff_ne_none, Ne, Ne, handle?_eq_none]
    exact (and_iff_right_of_imp fun used => ((within_after c past).bounds n used).2).symm
  have length := congrArg List.length (map_numbers (after c past))
  rw [List.length_map, List.length_map] at length
  rw [size, ← length, listed.length_eq, List.countP_eq_length_filter]

/-- If no handle is brought twice, each is in one place. -/
theorem existsUnique_lies (c : Nat) (once : (brought past).Nodup) (mem : x ∈ brought past) :
    ∃! place, Lies c past x place := by
  have perm := brought_perm c past
  obtain ⟨open_, gone, apart⟩ := List.nodup_append.1 (perm.nodup_iff.1 once)
  have given {i : Nat} (lies : Lies c past x (.caller i)) :
      x ∈ (replies c past).flatMap TableReply.gives := by
    obtain ⟨r, found, mem⟩ := lies
    exact List.mem_flatMap.2 ⟨r, List.mem_of_getElem? found, mem⟩
  -- Different answers give different handles.
  have answers {i j : Nat} (lt : i < j) (here : Lies c past x (.caller i))
      (there : Lies c past x (.caller j)) : False := by
    obtain ⟨r₁, found₁, mem₁⟩ := here
    obtain ⟨r₂, found₂, mem₂⟩ := there
    obtain ⟨inside₁, rfl⟩ := List.getElem?_eq_some_iff.1 found₁
    obtain ⟨inside₂, rfl⟩ := List.getElem?_eq_some_iff.1 found₂
    exact List.pairwise_iff_getElem.1 (List.nodup_flatMap.1 gone).2 i j inside₁ inside₂ lt mem₁ mem₂
  have unique {p q : Place} (here : Lies c past x p) (there : Lies c past x q) : p = q := by
    cases p with
    | slot n =>
      cases q with
      | slot k => rw [number_unique open_ here there]
      | caller j => exact absurd rfl (apart x (mem_handles.2 ⟨n, here⟩) x (given there))
    | caller i =>
      cases q with
      | slot k => exact absurd rfl (apart x (mem_handles.2 ⟨k, there⟩) x (given here))
      | caller j =>
        rcases Nat.lt_trichotomy i j with before | rfl | later
        · exact (answers before here there).elim
        · rfl
        · exact (answers later there here).elim
  rcases List.mem_append.1 (perm.mem_iff.1 mem) with held | given
  · obtain ⟨n, found⟩ := mem_handles.1 held
    exact ⟨.slot n, found, fun q there => unique there found⟩
  · obtain ⟨r, listed, mem⟩ := List.mem_flatMap.1 given
    obtain ⟨i, found⟩ := List.mem_iff_getElem?.1 listed
    exact ⟨.caller i, ⟨r, found, mem⟩, fun q there => unique there ⟨r, found, mem⟩⟩

end Histories

/-- What a table does after a history. -/
structure Refines (c : Nat) (past : List (TableOp α σ)) : Prop where
  /-- The next operation gives the answer that the map of the open handles allows, and no other, and leaves the
      map that this answer goes with. -/
  steps : ∀ op r m, MapStep c (after c past).handle? op r m ↔
    (op.perform (after c past)).1 = r ∧ (op.perform (after c past)).2.handle? = m
  /-- A handle that is given back has left no trace. -/
  unchanged : ∀ x s, ((TableOp.insert x s).perform (after c past)).1 = .givenBack x →
    ((TableOp.insert x s).perform (after c past)).2 = after c past
  /-- That is so for all handles where only the console has descriptors. -/
  console : c ≤ Descriptor.firstFile → ∀ x s,
    (TableOp.insert x s).perform (after c past) = (.givenBack x, after c past)
  /-- The number of a descriptor that is given is not negative, and means the descriptor. -/
  numbers : ∀ x s d, ((TableOp.insert x s).perform (after c past)).1 = .opened d →
    0 ≤ d.toInt ∧ Descriptor.ofInt? d.toInt = some d
  /-- The console has no slot, and no slot is out of range. -/
  bounds : ∀ n, (after c past).handle? n ≠ none → Descriptor.firstFile ≤ n ∧ n < c
  /-- The size is the number of open descriptors. -/
  size : (after c past).size = (List.range c).countP fun n => ((after c past).handle? n).isSome
  /-- Under each of them is the handle that was opened there last. -/
  latest : ∀ n x, (after c past).handle? n = some x → latest c n past = some x
  /-- The handles brought are those that are open with those that the caller got back. -/
  ledger : (brought past).Perm ((after c past).handles ++ (replies c past).flatMap TableReply.gives)
  /-- If none was brought twice, each is open under one number, or was given back once. -/
  place : (brought past).Nodup → ∀ x ∈ brought past, ∃! place, Lies c past x place

/-- Whatever is done to a table of at most `0x80000000` descriptors, it is a finite map from descriptors to
    handles. -/
theorem refines_map {c : Nat} (small : c ≤ 0x80000000) (past : List (TableOp α σ)) : Refines c past where
  steps op r m := by
    have step := mapStep_perform (within_after c past) op
    constructor
    · intro allowed
      exact step.unique allowed
    · rintro ⟨rfl, rfl⟩
      exact step
  unchanged x s back := by
    rw [TableOp.perform] at back ⊢
    split at back
    · cases back
    · rfl
  console small x s := by
    have full : (after c past).free? = none := by
      by_contra some
      obtain ⟨d, free⟩ := Option.ne_none_iff_exists'.1 some
      obtain ⟨from_, lt, -⟩ := free?_eq_some free
      rw [(within_after c past).capacity] at lt
      omega
    rw [TableOp.perform, insert, full]
    rfl
  numbers x s d given := by
    have step := mapStep_perform (within_after c past) (.insert x s)
    rw [given] at step
    generalize ((TableOp.insert x s).perform (after c past)).2.handle? = m at step
    cases step with
    | opened from_ lt => exact Descriptor.ofInt?_toInt (Nat.lt_of_lt_of_le lt small)
  bounds n used := (within_after c past).bounds n (mt handle?_eq_none.2 used)
  size := size_eq c past
  latest _ _ := latest_eq
  ledger := brought_perm c past
  place once _ := existsUnique_lies c once

/-- With room for two files, a third is given back, and the first descriptor is used again after its file was
    taken out. -/
theorem refines_map_reuse : 4 ≤ 0x80000000 ∧ Refines 4
    [.drain 1, .insert 'd' (), .remove ⟨2⟩, .insert 'c' (), .insert 'b' (), .insert 'a' ()] :=
  ⟨by decide, refines_map (by decide) _⟩

example : replies 4 [.drain 1, .insert 'd' (), .remove ⟨2⟩, .insert 'c' (), .insert 'b' (), .insert 'a' ()] =
    [.drained ['d'], .opened ⟨2⟩, .removed 'a', .givenBack 'c', .opened ⟨3⟩, .opened ⟨2⟩] := rfl

end DescriptorTable

end Userland

import Mathlib.Tactic.Common
import Userland.Files.DescriptorTable

/-!
# The files of a descriptor table

Inserting a file adds it to the open files of a table, removing one takes it away, and draining takes
the first of them. Slot by slot, setting one leaves the others as they are (`join_setSlot`), the first free
number is the lowest, and the slots that draining empties are the first of those in use (`join_drainSlots`).
-/

namespace Userland

namespace DescriptorTable

variable {α : Type} {table table' : DescriptorTable α} {d : Descriptor} {x : α}

/-! ## Inserting and removing -/

theorem files_setSlot_some {slots : List (Option α)} {n : Nat} (free : (slots[n]?).join = none) :
    ((setSlot (some x) n slots).filterMap id).Perm (x :: slots.filterMap id) := by
  induction slots generalizing n with
  | nil =>
    induction n with
    | zero => exact .refl _
    | succ n ih => exact ih rfl
  | cons slot rest ih =>
    cases n with
    | zero =>
      obtain rfl : slot = none := by simpa using free
      exact .refl _
    | succ n =>
      have perm := ih (n := n) (by simpa using free)
      cases slot with
      | none => exact perm
      | some y => exact (perm.cons y).trans (.swap ..)

theorem files_setSlot_none {slots : List (Option α)} {n : Nat} (there : (slots[n]?).join = some x) :
    (slots.filterMap id).Perm (x :: (setSlot none n slots).filterMap id) := by
  induction slots generalizing n with
  | nil => simp at there
  | cons slot rest ih =>
    cases n with
    | zero =>
      obtain rfl : slot = some x := by simpa using there
      exact .refl _
    | succ n =>
      have perm := ih (n := n) (by simpa using there)
      cases slot with
      | none => exact perm
      | some y => exact (perm.cons y).trans (.swap ..)

/-- Setting a slot leaves the others as they are. -/
theorem join_setSlot (x : Option α) (n : Nat) (slots : List (Option α)) (k : Nat) :
    ((setSlot x n slots)[k]?).join = if k = n then x else (slots[k]?).join := by
  induction n, slots using setSlot.induct generalizing k with
  | case1 => cases k <;> simp [setSlot]
  | case2 => cases k <;> simp [setSlot]
  | case3 n ih => cases k <;> simp [setSlot, ih]
  | case4 n y rest ih => cases k <;> simp [setSlot, ih]

/-- A slot may hold another file with the same handle. -/
theorem map_setSlot {σ : Type} {slots : List (Option (α × σ))} {f g : α × σ} {n : Nat}
    (there : (slots[n]?).join = some f) (same : g.1 = f.1) :
    ((setSlot (some g) n slots).filterMap id).map Prod.fst = (slots.filterMap id).map Prod.fst := by
  induction slots generalizing n with
  | nil => simp at there
  | cons slot rest ih =>
    cases n with
    | zero =>
      obtain rfl : slot = some f := by simpa using there
      simp [setSlot, same]
    | succ n =>
      have later := ih (n := n) (by simpa using there)
      cases slot with
      | none => exact later
      | some y => exact congrArg (y.1 :: ·) later

theorem getElem?_firstFree (slots : List (Option α)) (n : Nat) :
    n ≤ firstFree n slots ∧ (slots[firstFree n slots - n]?).join = none := by
  induction slots generalizing n with
  | nil => simp [firstFree]
  | cons slot rest ih =>
    cases slot with
    | none => simp [firstFree]
    | some y =>
      obtain ⟨le, free⟩ := ih (n + 1)
      refine ⟨Nat.le_of_succ_le le, ?_⟩
      rw [firstFree]
      obtain ⟨k, eq⟩ := Nat.exists_eq_add_of_le le
      rw [eq] at free ⊢
      have : n + 1 + k - n = k + 1 := by omega
      rw [this, List.getElem?_cons_succ]
      rwa [Nat.add_sub_cancel_left] at free

/-- Before the first free number there is none. -/
theorem join_ne_none_of_lt_firstFree {slots : List (Option α)} {i n : Nat} (from_ : i ≤ n)
    (lt : n < firstFree i slots) : (slots[n - i]?).join ≠ none := by
  induction slots generalizing i with
  | nil =>
    rw [firstFree] at lt
    omega
  | cons slot rest ih =>
    cases slot with
    | none =>
      rw [firstFree] at lt
      omega
    | some y =>
      rw [firstFree] at lt
      rcases Nat.eq_or_lt_of_le from_ with rfl | later
      · simp
      · have next : n - i = n - (i + 1) + 1 := by omega
        rw [next, List.getElem?_cons_succ]
        exact ih later lt

/-- A file that gets a descriptor is one more open file. -/
theorem files_insert (inserted : table.insert x = some (d, table')) :
    table'.files.Perm (x :: table.files) := by
  simp only [insert, free?, Option.map_eq_some_iff, Prod.mk.injEq] at inserted
  obtain ⟨_, free, rfl, rfl⟩ := inserted
  obtain ⟨-, same⟩ := Option.ite_none_right_eq_some.1 free
  obtain rfl := Option.some.inj same
  obtain ⟨le, unused⟩ := getElem?_firstFree (table.slots.drop Descriptor.firstFile)
    Descriptor.firstFile
  refine files_setSlot_some ?_
  rwa [List.getElem?_drop, Nat.add_sub_of_le le] at unused

/-- A file that is taken from its descriptor is one open file less. -/
theorem files_remove (removed : table.remove d = .ok (x, table')) :
    table.files.Perm (x :: table'.files) := by
  simp only [remove, get] at removed
  split at removed
  · cases removed
  split at removed
  · rename_i y found
    cases removed
    exact files_setSlot_none found
  · cases removed

/-! ## Numbers in use -/

section Numbers

variable {slots : List (Option α)} {i n : Nat}

/-- The numbers of the slots in use, of which the first slot has number `i`. -/
def numbersFrom (i : Nat) : List (Option α) → List Nat
  | [] => []
  | none :: rest => numbersFrom (i + 1) rest
  | some _ :: rest => i :: numbersFrom (i + 1) rest

theorem mem_numbersFrom : n ∈ numbersFrom i slots ↔ i ≤ n ∧ (slots[n - i]?).join ≠ none := by
  induction slots generalizing i with
  | nil => simp [numbersFrom]
  | cons slot rest ih =>
    have split : (i ≤ n ∧ ((slot :: rest)[n - i]?).join ≠ none) ↔
        (n = i ∧ slot ≠ none) ∨ (i + 1 ≤ n ∧ (rest[n - (i + 1)]?).join ≠ none) := by
      rcases Nat.lt_trichotomy n i with before | rfl | after
      · omega
      · have not : ¬ n + 1 ≤ n := Nat.not_succ_le_self n
        simp [not]
      · have next : n - i = n - (i + 1) + 1 := by omega
        rw [next, List.getElem?_cons_succ]
        simp only [Nat.le_of_lt after, Nat.ne_of_gt after, true_and, false_and, false_or]
        exact (and_iff_right after).symm
    rw [split, ← ih]
    cases slot with
    | none => simp [numbersFrom]
    | some y => simp [numbersFrom]

theorem pairwise_numbersFrom (i : Nat) (slots : List (Option α)) : (numbersFrom i slots).Pairwise (· < ·) := by
  induction slots generalizing i with
  | nil => exact .nil
  | cons slot rest ih =>
    cases slot with
    | none => exact ih (i + 1)
    | some y => exact .cons (fun n mem => (mem_numbersFrom.1 mem).1) (ih (i + 1))

/-- In order, they are the numbers of the files. -/
theorem map_numbersFrom (i : Nat) (slots : List (Option α)) :
    (numbersFrom i slots).map (fun n => (slots[n - i]?).join) = (slots.filterMap id).map some := by
  induction slots generalizing i with
  | nil => rfl
  | cons slot rest ih =>
    have later : (numbersFrom (i + 1) rest).map (fun n => ((slot :: rest)[n - i]?).join) =
        (rest.filterMap id).map some := by
      rw [← ih (i + 1)]
      refine List.map_congr_left fun n mem => ?_
      have := (mem_numbersFrom.1 mem).1
      have next : n - i = n - (i + 1) + 1 := by omega
      rw [next, List.getElem?_cons_succ]
    cases slot with
    | none => exact later
    | some y =>
      rw [numbersFrom, List.map_cons, later]
      simp

/-! ## Draining -/

/-- Draining takes files from the front. -/
theorem drainSlots_fst (k : Nat) (slots : List (Option α)) :
    (drainSlots k slots).1 = (slots.filterMap id).take k := by
  induction k, slots using drainSlots.induct with
  | case1 => simp [drainSlots]
  | case2 => simp [drainSlots]
  | case3 n y rest taken left eq ih => simpa [drainSlots] using ih
  | case4 n rest taken left eq ih => simpa [drainSlots] using ih

theorem filterMap_drainSlots (k : Nat) (slots : List (Option α)) :
    ((drainSlots k slots).2).filterMap id = (slots.filterMap id).drop k := by
  induction k, slots using drainSlots.induct with
  | case1 => simp [drainSlots]
  | case2 => simp [drainSlots]
  | case3 n y rest taken left eq ih => simpa [drainSlots] using ih
  | case4 n rest taken left eq ih => simpa [drainSlots] using ih

/-- The slots of the files that are taken become free, and the others stay as they are. -/
theorem join_drainSlots (k : Nat) (slots : List (Option α)) (from_ : i ≤ n) :
    (((drainSlots k slots).2)[n - i]?).join =
      if n ∈ (numbersFrom i slots).take k then none else (slots[n - i]?).join := by
  induction k, slots using drainSlots.induct generalizing i with
  | case1 => simp [drainSlots]
  | case2 => simp [drainSlots, numbersFrom]
  | case3 k y rest taken left eq ih =>
    rcases Nat.eq_or_lt_of_le from_ with rfl | later
    · simp [drainSlots, numbersFrom]
    · have next : n - i = n - (i + 1) + 1 := by omega
      have other : n ≠ i := Nat.ne_of_gt later
      simpa [drainSlots, numbersFrom, next, other] using ih later
  | case4 k rest taken left eq ih =>
    rcases Nat.eq_or_lt_of_le from_ with rfl | later
    · simp [drainSlots]
    · have next : n - i = n - (i + 1) + 1 := by omega
      simpa [drainSlots, numbersFrom, next] using ih later

end Numbers

/-- Nothing is open in a table that was drained. -/
@[simp] theorem files_drainAll (t : DescriptorTable α) : t.drainAll.2.files = [] :=
  (filterMap_drainSlots t.size t.slots).trans (List.drop_length ..)

end DescriptorTable

end Userland

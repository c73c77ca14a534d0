import Mathlib.Data.List.Nodup
import Mathlib.Data.List.Perm.Basic
import Userland.Machine.Step

/-!
# Records of children

A process number names its child for as long as there are fewer threads than signed words, so a wait
finds the record that was made for the child (`Children.find?_register`), and taking a record undoes
its registration (`Children.remove_register`).
-/

namespace Userland

/-- Programs see the number of a thread as it is. -/
theorem Tid.toInt_toPid {t : Tid} (small : t < threadLimit) : t.toPid.toInt = (t : Int) :=
  Int32.toInt_ofNat_of_lt small

namespace Children

variable {r : Children} {t c : Tid} {exit : ChannelId} {pid : Int32}

/-- The threads on record. -/
def keys (r : Children) : List Tid := r.records.map (·.1)

theorem insertRecord_perm {records : List (Tid × ChannelId)} (new : t ∉ records.map (·.1)) :
    (insertRecord t exit records).Perm ((t, exit) :: records) := by
  induction records with
  | nil => exact .refl _
  | cons record rest ih =>
    obtain ⟨u, c⟩ := record
    rw [List.map_cons, List.mem_cons, not_or] at new
    obtain ⟨other, new⟩ := new
    rw [insertRecord]
    split
    · exact .refl _
    · exact ((ih new).cons _).trans (.swap ..)

/-- A new record is added, and nothing else changes. -/
theorem records_register (new : t ∉ r.keys) :
    (r.register t exit).records.Perm ((t, exit) :: r.records) := insertRecord_perm new

theorem filter_insertRecord {records : List (Tid × ChannelId)} (new : t ∉ records.map (·.1)) :
    (insertRecord t exit records).filter (fun (u, _) => u ≠ t) = records := by
  induction records with
  | nil => simp [insertRecord]
  | cons record rest ih =>
    obtain ⟨u, c⟩ := record
    rw [List.map_cons, List.mem_cons, not_or] at new
    obtain ⟨other, new⟩ := new
    have all : rest.filter (fun (u, _) => u ≠ t) = rest :=
      List.filter_eq_self.2 fun (u, c) mem => by
        simpa using fun same : u = t => new (same ▸ List.mem_map_of_mem (f := (·.1)) mem)
    rw [insertRecord]
    split
    · rw [List.filter_cons_of_neg (by simp), List.filter_cons_of_pos (by simpa using Ne.symm other),
        all]
    · rw [List.filter_cons_of_pos (by simpa using Ne.symm other), ih new]

/-- A record that is taken again leaves the registry as it was. -/
theorem remove_register (new : t ∉ r.keys) : (r.register t exit).remove t = r := by
  rw [remove, register, filter_insertRecord new]

/-- A record that is found has the number that was asked for. -/
theorem mem_of_find? (found : r.find? pid = some (t, exit)) :
    (t, exit) ∈ r.records ∧ (t : Int) = pid.toInt := by
  rw [find?] at found
  exact ⟨List.mem_of_find?_eq_some found, by simpa using List.find?_some found⟩

/-- A child on record is found by its number. -/
theorem find?_of_mem (distinct : r.keys.Nodup) (small : t < threadLimit)
    (mem : (t, exit) ∈ r.records) : r.find? t.toPid = some (t, exit) := by
  cases found : r.find? t.toPid with
  | none =>
    have := List.find?_eq_none.1 found _ mem
    simp [Tid.toInt_toPid small] at this
  | some record =>
    obtain ⟨u, c⟩ := record
    obtain ⟨mem', same⟩ := mem_of_find? found
    rw [Tid.toInt_toPid small] at same
    obtain rfl := Int.ofNat_inj.1 same
    rw [List.inj_on_of_nodup_map distinct mem mem' rfl]

/-- Nothing is found under a number exactly if no child on record has it. -/
theorem find?_eq_none : r.find? pid = none ↔ ∀ t ∈ r.keys, (t : Int) ≠ pid.toInt := by
  rw [find?, List.find?_eq_none, keys, List.forall_mem_map]
  simp

theorem nodup_register (distinct : r.keys.Nodup) (new : t ∉ r.keys) :
    (r.register t exit).keys.Nodup := by
  rw [keys, ((records_register new).map _).nodup_iff, List.map_cons, List.nodup_cons]
  exact ⟨new, distinct⟩

/-- The record that was just made is found. -/
theorem find?_register (distinct : r.keys.Nodup) (new : t ∉ r.keys) (small : t < threadLimit) :
    (r.register t exit).find? t.toPid = some (t, exit) :=
  find?_of_mem (nodup_register distinct new) small
    ((records_register new).mem_iff.2 List.mem_cons_self)

/-- Taking a record takes nothing else. -/
theorem records_remove (distinct : r.keys.Nodup) (mem : (t, exit) ∈ r.records) :
    r.records.Perm ((t, exit) :: (r.remove t).records) := by
  have others : r.records.erase (t, exit) = (r.remove t).records := by
    rw [(distinct.of_map _).erase_eq_filter, remove]
    refine List.filter_congr fun record mem' => ?_
    have : record = (t, exit) ↔ record.1 = t :=
      ⟨fun same => same ▸ rfl, fun same => List.inj_on_of_nodup_map distinct mem' mem same⟩
    simp only [bne, beq_eq_decide, this, ne_eq, decide_not]
  rw [← others]
  exact List.perm_cons_erase mem

theorem keys_remove_sublist : (r.remove t).keys.Sublist r.keys := List.filter_sublist.map _

end Children

end Userland

import Mathlib.Data.List.Nodup
import Mathlib.Data.Option.Basic
import Userland.Proofs.Descriptors

/-!
# A descriptor table as a finite map

A descriptor table maps numbers to handles (`DescriptorTable.handle?`), and `MapStep` says, of any such map,
what each operation answers and what the map is afterwards: which number a new handle gets, which numbers are
refused and why, and which handles are taken out in which order. A map allows one answer only
(`MapStep.unique`), and a table gives that answer (`mapStep_perform`).
-/

namespace Userland

namespace Descriptor

/-- A descriptor that has 31 bits is the one that its number means. -/
theorem ofInt?_toInt {d : Descriptor} (small : d.number < 0x80000000) : 0 ≤ d.toInt ∧ ofInt? d.toInt = some d := by
  have value : d.toInt.toInt = d.number := by
    rw [toInt, Int32.toInt_ofNat_of_lt small]
  have nonnegative : 0 ≤ d.toInt := by
    rw [Int32.le_iff_toInt_le, value]
    exact Int.natCast_nonneg _
  refine ⟨nonnegative, ?_⟩
  rw [ofInt?, if_neg (Int32.not_lt.2 nonnegative), Int32.toNatClampNeg, value, Int.toNat_natCast]

end Descriptor

namespace DescriptorTable

variable {α σ : Type}

/-! ## What a table tells -/

section Views

variable {t : DescriptorTable α} {d : Descriptor} {n k : Nat}

theorem find?_set (t : DescriptorTable α) (n : Nat) (x : Option α) (k : Nat) :
    (t.set n x).find? k = if k = n then x else t.find? k := join_setSlot x n t.slots k

/-- The numbers of the open files, in order. -/
def numbers (t : DescriptorTable α) : List Nat := numbersFrom 0 t.slots

theorem mem_numbers : n ∈ t.numbers ↔ t.find? n ≠ none := by
  rw [numbers, mem_numbersFrom]
  exact and_iff_right (Nat.zero_le n)

theorem pairwise_numbers (t : DescriptorTable α) : t.numbers.Pairwise (· < ·) := pairwise_numbersFrom 0 t.slots

theorem map_numbers (t : DescriptorTable α) : t.numbers.map t.find? = t.files.map some :=
  map_numbersFrom 0 t.slots

/-- The lowest free descriptor is free, and none below it is. -/
theorem free?_eq_some (free : t.free? = some d) : Descriptor.firstFile ≤ d.number ∧ d.number < t.capacity ∧
    t.find? d.number = none ∧ ∀ k, Descriptor.firstFile ≤ k → k < d.number → t.find? k ≠ none := by
  obtain ⟨small, same⟩ := Option.ite_none_right_eq_some.1 free
  obtain rfl := Option.some.inj same
  obtain ⟨le, unused⟩ := getElem?_firstFree (t.slots.drop Descriptor.firstFile) Descriptor.firstFile
  rw [List.getElem?_drop, Nat.add_sub_of_le le] at unused
  refine ⟨le, small, unused, fun k from_ lt => ?_⟩
  have used := join_ne_none_of_lt_firstFree from_ lt
  rwa [List.getElem?_drop, Nat.add_sub_of_le from_] at used

/-- There is none only if all descriptors are in use. -/
theorem free?_eq_none (full : t.free? = none) (from_ : Descriptor.firstFile ≤ n) (lt : n < t.capacity) :
    t.find? n ≠ none := by
  simp only [free?, ite_eq_right_iff, reduceCtorEq, imp_false] at full
  have used := join_ne_none_of_lt_firstFree from_ (Nat.lt_of_lt_of_le lt (Nat.le_of_not_lt full))
  rwa [List.getElem?_drop, Nat.add_sub_of_le from_] at used

end Views

/-! ## Operations -/

/-- Something done with a table. An open file is a handle with what may change about the file. -/
inductive TableOp (α σ : Type) where
  /-- Open a file. -/
  | insert (handle : α) (state : σ)
  /-- Look a file up and do something to it. -/
  | use (d : Descriptor) (change : σ → σ)
  /-- Take a file out. -/
  | remove (d : Descriptor)
  /-- Start to take all files out, and stop after the first `n`. -/
  | drain (n : Nat)

/-- What comes of it. -/
inductive TableReply (α : Type) where
  /-- The file is open under a descriptor. -/
  | opened (d : Descriptor)
  /-- The handle is given back. -/
  | givenBack (handle : α)
  /-- The handle under a descriptor. -/
  | found (handle : α)
  /-- The handle that was taken out. -/
  | removed (handle : α)
  /-- The descriptor is refused. -/
  | refused (reason : DescriptorError)
  /-- The handles that were taken out, in order. -/
  | drained (handles : List α)

namespace TableOp

/-- The descriptor that an operation names. -/
def descriptor? : TableOp α σ → Option Descriptor
  | use d _ | remove d => some d
  | _ => none

/-- What comes of an operation, and the table afterwards. -/
def perform (t : DescriptorTable (α × σ)) :
    TableOp α σ → TableReply α × DescriptorTable (α × σ)
  | insert handle state =>
    match t.insert (handle, state) with
    | some (d, t) => (.opened d, t)
    | none => (.givenBack handle, t)
  | use d change =>
    match t.get d, t.modify d (Prod.map id change) with
    | .ok (handle, _), .ok t => (.found handle, t)
    | .error e, _ => (.refused e, t)
    | _, .error e => (.refused e, t)
  | remove d =>
    match t.remove d with
    | .ok ((handle, _), t) => (.removed handle, t)
    | .error e => (.refused e, t)
  | drain n => (.drained ((t.drain n).1.map Prod.fst), (t.drain n).2)

end TableOp

/-- The handle that is open under a number. -/
def handle? (t : DescriptorTable (α × σ)) (n : Nat) : Option α := (t.find? n).map Prod.fst

/-- The handles that are open. -/
def handles (t : DescriptorTable (α × σ)) : List α := t.files.map Prod.fst

/-- What a map from the numbers below `c` to handles answers, and the map afterwards. The numbers of the
    console are not used. -/
inductive MapStep (c : Nat) (m : Nat → Option α) :
    TableOp α σ → TableReply α → (Nat → Option α) → Prop where
  /-- A handle gets the lowest number that is free. -/
  | opened {n : Nat} {x : α} {s : σ} : Descriptor.firstFile ≤ n → n < c → m n = none →
    (∀ k, Descriptor.firstFile ≤ k → k < n → m k ≠ none) →
    MapStep c m (.insert x s) (.opened ⟨n⟩) (Function.update m n (some x))
  /-- It is given back if no number is free. -/
  | full {x : α} {s : σ} : (∀ n, Descriptor.firstFile ≤ n → n < c → m n ≠ none) →
    MapStep c m (.insert x s) (.givenBack x) m
  /-- A handle is found under its number. -/
  | found {d : Descriptor} {f : σ → σ} {x : α} : Descriptor.firstFile ≤ d.number → d.number < c →
    m d.number = some x → MapStep c m (.use d f) (.found x) m
  /-- It is taken out, and its number is free again. -/
  | removed {d : Descriptor} {x : α} : Descriptor.firstFile ≤ d.number → d.number < c →
    m d.number = some x → MapStep c m (.remove d) (.removed x) (Function.update m d.number none)
  /-- A number that is the console's or out of range is invalid. -/
  | invalid {d : Descriptor} {op : TableOp α σ} : op.descriptor? = some d →
    d.number < Descriptor.firstFile ∨ c ≤ d.number → MapStep c m op (.refused .invalidDescriptor) m
  /-- Under a number that is free nothing is open. -/
  | notOpen {d : Descriptor} {op : TableOp α σ} : op.descriptor? = some d →
    Descriptor.firstFile ≤ d.number → d.number < c → m d.number = none →
    MapStep c m op (.refused .notOpen) m
  /-- The first of the numbers in use become free, and their handles are taken out in this order. -/
  | drained {k : Nat} {all : List Nat} {xs : List α} : all.Pairwise (· < ·) → (∀ n, n ∈ all ↔ m n ≠ none) →
    (all.take k).map m = xs.map some →
    MapStep c m (.drain k) (.drained xs) (fun n => if n ∈ all.take k then none else m n)

section Steps

variable {c : Nat} {m m₁ m₂ : Nat → Option α} {op : TableOp α σ} {r₁ r₂ : TableReply α}

/-- A map gives one answer. -/
theorem MapStep.unique (step₁ : MapStep c m op r₁ m₁) (step₂ : MapStep c m op r₂ m₂) : r₁ = r₂ ∧ m₁ = m₂ := by
  cases step₁ with
  | @opened n₁ _ _ from₁ lt₁ free₁ lowest₁ =>
    cases step₂ with
    | @opened n₂ _ _ from₂ lt₂ free₂ lowest₂ =>
      rcases Nat.lt_trichotomy n₁ n₂ with below | rfl | above
      · exact absurd free₁ (lowest₂ n₁ from₁ below)
      · exact ⟨rfl, rfl⟩
      · exact absurd free₂ (lowest₁ n₂ from₂ above)
    | full used => exact absurd free₁ (used n₁ from₁ lt₁)
    | invalid names | notOpen names => cases names
  | full used =>
    cases step₂ with
    | opened from₂ lt₂ free₂ => exact absurd free₂ (used _ from₂ lt₂)
    | full => exact ⟨rfl, rfl⟩
    | invalid names | notOpen names => cases names
  | found from₁ lt₁ there₁ =>
    cases step₂ with
    | found from₂ lt₂ there₂ => exact ⟨by rw [Option.some.inj (there₁.symm.trans there₂)], rfl⟩
    | invalid names outside =>
      cases names
      omega
    | notOpen names from₂ lt₂ free₂ =>
      cases names
      exact nomatch there₁.symm.trans free₂
  | removed from₁ lt₁ there₁ =>
    cases step₂ with
    | removed from₂ lt₂ there₂ => exact ⟨by rw [Option.some.inj (there₁.symm.trans there₂)], rfl⟩
    | invalid names outside =>
      cases names
      omega
    | notOpen names from₂ lt₂ free₂ =>
      cases names
      exact nomatch there₁.symm.trans free₂
  | invalid names₁ outside₁ =>
    cases step₂ with
    | opened | full | drained => cases names₁
    | found from₂ lt₂ | removed from₂ lt₂ =>
      cases names₁
      omega
    | invalid => exact ⟨rfl, rfl⟩
    | notOpen names₂ from₂ lt₂ =>
      cases names₁.symm.trans names₂
      omega
  | notOpen names₁ from₁ lt₁ free₁ =>
    cases step₂ with
    | opened | full | drained => cases names₁
    | found _ _ there₂ | removed _ _ there₂ =>
      cases names₁
      exact nomatch there₂.symm.trans free₁
    | invalid names₂ outside₂ =>
      cases names₁.symm.trans names₂
      omega
    | notOpen => exact ⟨rfl, rfl⟩
  | @drained k all₁ xs₁ ordered₁ mem₁ taken₁ =>
    cases step₂ with
    | invalid names | notOpen names => cases names
    | @drained _ all₂ xs₂ ordered₂ mem₂ taken₂ =>
      -- There is one ascending list of the numbers in use.
      have same : all₁ = all₂ := by
        refine List.Perm.eq_of_pairwise (fun a b _ _ lt gt => absurd (Nat.lt_trans lt gt) (Nat.lt_irrefl a))
          ordered₁ ordered₂ ?_
        refine (List.perm_ext_iff_of_nodup ordered₁.nodup ordered₂.nodup).2 fun n => ?_
        rw [mem₁, mem₂]
      subst same
      have handles : xs₁ = xs₂ := List.map_injective_iff.2 (Option.some_injective _) (taken₁.symm.trans taken₂)
      exact ⟨by rw [handles], rfl⟩

/-- A table of capacity `c` has nothing open under the numbers of the console and from `c` on. -/
structure Within (c : Nat) (t : DescriptorTable α) : Prop where
  /-- Its capacity. -/
  capacity : t.capacity = c
  /-- Where its files are. -/
  bounds : ∀ n, t.find? n ≠ none → Descriptor.firstFile ≤ n ∧ n < c

variable {t : DescriptorTable (α × σ)}

theorem handle?_eq_none {n : Nat} : t.handle? n = none ↔ t.find? n = none := Option.map_eq_none_iff

theorem handle?_set (t : DescriptorTable (α × σ)) (n : Nat) (file : Option (α × σ)) :
    (t.set n file).handle? = Function.update t.handle? n (file.map Prod.fst) := by
  funext k
  rw [handle?, find?_set, Function.update_apply]
  split
  · rfl
  · rfl

/-- In order, the numbers in use are those of the handles. -/
theorem map_handle? (t : DescriptorTable (α × σ)) : t.numbers.map t.handle? = t.handles.map some := by
  have files := congrArg (List.map (Option.map Prod.fst)) (map_numbers t)
  rw [List.map_map, List.map_map] at files
  rw [handles, List.map_map]
  exact files

theorem mem_handles {x : α} : x ∈ t.handles ↔ ∃ n, t.handle? n = some x := by
  have listed : x ∈ t.handles ↔ some x ∈ t.handles.map some := by simp
  rw [listed, ← map_handle?, List.mem_map]
  constructor
  · rintro ⟨n, -, found⟩
    exact ⟨n, found⟩
  · rintro ⟨n, found⟩
    refine ⟨n, mem_numbers.2 fun free => ?_, found⟩
    exact nomatch found.symm.trans (handle?_eq_none.2 free)

/-- Where no handle is open twice, none has two numbers. -/
theorem number_unique {x : α} {n k : Nat} (once : t.handles.Nodup) (found : t.handle? n = some x)
    (found' : t.handle? k = some x) : n = k := by
  have listed {j : Nat} (found : t.handle? j = some x) : j ∈ t.numbers :=
    mem_numbers.2 fun free => nomatch found.symm.trans (handle?_eq_none.2 free)
  have distinct : (t.numbers.map t.handle?).Nodup := by
    rw [map_handle?]
    exact once.map (Option.some_injective _)
  exact List.inj_on_of_nodup_map distinct (listed found) (listed found') (found.trans found'.symm)

/-- What a descriptor names. -/
theorem get_cases (within : Within c t) (d : Descriptor) :
    (d.number < Descriptor.firstFile ∨ c ≤ d.number) ∧ t.get d = .error .invalidDescriptor ∨
      Descriptor.firstFile ≤ d.number ∧ d.number < c ∧
        (t.find? d.number = none ∧ t.get d = .error .notOpen ∨
          ∃ file, t.find? d.number = some file ∧ t.get d = .ok file) := by
  rw [get, within.capacity]
  split
  · next outside => exact .inl ⟨outside, rfl⟩
  · next inside =>
    refine .inr ⟨by omega, by omega, ?_⟩
    cases t.find? d.number with
    | none => exact .inl ⟨rfl, rfl⟩
    | some file => exact .inr ⟨file, rfl, rfl⟩

/-- A table gives the answer that the map of its handles allows. -/
theorem mapStep_perform (within : Within c t) (op : TableOp α σ) :
    MapStep c t.handle? op (op.perform t).1 (op.perform t).2.handle? := by
  cases op with
  | insert x s =>
    rw [TableOp.perform, insert]
    cases free : t.free? with
    | none =>
      refine .full fun n from_ lt => ?_
      rw [Ne, handle?_eq_none]
      exact free?_eq_none free from_ (within.capacity.symm ▸ lt)
    | some d =>
      obtain ⟨from_, lt, unused, lowest⟩ := free?_eq_some free
      rw [Option.map_some]
      dsimp only
      rw [handle?_set]
      exact .opened from_ (within.capacity ▸ lt) (handle?_eq_none.2 unused) fun k from_ lt =>
        mt handle?_eq_none.1 (lowest k from_ lt)
  | use d f =>
    rw [TableOp.perform, modify]
    rcases get_cases within d with ⟨outside, same⟩ | ⟨from_, lt, ⟨free, same⟩ | ⟨⟨x, s⟩, there, same⟩⟩
    · rw [same]
      exact .invalid rfl outside
    · rw [same]
      exact .notOpen rfl from_ lt (handle?_eq_none.2 free)
    · have open_ : t.handle? d.number = some x := by rw [handle?, there]; rfl
      rw [same]
      change MapStep c t.handle? (.use d f) (.found x) (t.set d.number (some (x, f s))).handle?
      rw [handle?_set, Option.map_some, ← open_, Function.update_eq_self]
      exact .found from_ lt open_
  | remove d =>
    rw [TableOp.perform, remove]
    rcases get_cases within d with ⟨outside, same⟩ | ⟨from_, lt, ⟨free, same⟩ | ⟨⟨x, s⟩, there, same⟩⟩
    · rw [same]
      exact .invalid rfl outside
    · rw [same]
      exact .notOpen rfl from_ lt (handle?_eq_none.2 free)
    · have open_ : t.handle? d.number = some x := by rw [handle?, there]; rfl
      rw [same]
      change MapStep c t.handle? (.remove d) (.removed x) (t.set d.number none).handle?
      rw [handle?_set]
      exact .removed from_ lt open_
  | drain k =>
    have after : (t.drain k).2.handle? = fun n => if n ∈ t.numbers.take k then none else t.handle? n := by
      funext n
      have slot := join_drainSlots k t.slots (Nat.zero_le n)
      rw [Nat.sub_zero] at slot
      change Option.map Prod.fst _ = _
      rw [find?, drain, slot, apply_ite (Option.map Prod.fst)]
      rfl
    rw [TableOp.perform, after]
    refine .drained (pairwise_numbers t) (fun n => by rw [mem_numbers, Ne, Ne, handle?_eq_none]) ?_
    rw [List.map_take, map_handle?, drain, drainSlots_fst, handles, files, List.map_take, List.map_take]

theorem MapStep.bounds {r : TableReply α} {m' : Nat → Option α} (step : MapStep c m op r m')
    (bounds : ∀ n, m n ≠ none → Descriptor.firstFile ≤ n ∧ n < c) (n : Nat) (used : m' n ≠ none) :
    Descriptor.firstFile ≤ n ∧ n < c := by
  cases step with
  | @opened k _ _ from_ lt =>
    by_cases same : n = k
    · exact same ▸ ⟨from_, lt⟩
    · rw [Function.update_of_ne same] at used
      exact bounds n used
  | @removed d _ from_ lt =>
    by_cases same : n = d.number
    · exact same ▸ ⟨from_, lt⟩
    · rw [Function.update_of_ne same] at used
      exact bounds n used
  | drained =>
    dsimp only at used
    split at used
    · exact absurd rfl used
    · exact bounds n used
  | full | found | invalid | notOpen => exact bounds n used

theorem capacity_perform (op : TableOp α σ) (t : DescriptorTable (α × σ)) :
    (op.perform t).2.capacity = t.capacity := by
  cases op with
  | insert x s =>
    rw [TableOp.perform, insert]
    cases t.free? <;> rfl
  | use d f =>
    rw [TableOp.perform, modify]
    cases t.get d <;> rfl
  | remove d =>
    rw [TableOp.perform, remove]
    cases t.get d <;> rfl
  | drain k => rfl

theorem Within.perform (within : Within c t) (op : TableOp α σ) : Within c (op.perform t).2 where
  capacity := (capacity_perform op t).trans within.capacity
  bounds n used := by
    have step := mapStep_perform within op
    refine step.bounds (fun n used => within.bounds n (mt handle?_eq_none.2 used)) n ?_
    exact mt handle?_eq_none.1 used

end Steps

end DescriptorTable

end Userland

import Mathlib.Data.List.Nodup
import Mathlib.Logic.Function.Basic
import Userland.Proofs.Contract
import Userland.Proofs.Volumes

/-!
# Who has what

Frames, handles and receiving ends are things of which each is one thread's, once, for as long as it is
in use (`Ledger`). What a thread does leaves things where they are, or brings one in use, or puts one
out of use (`Flow`), and each of these keeps the ledger in order (`Ledger.flow`). That requests are such
flows of frames and of handles is shown in `Userland.Proofs.Requests`.
-/

namespace Userland

/-! ## Ledgers -/

/-- Each thing in use is one thread's, once. -/
structure Ledger {α : Type} (has : Tid → List α) (live : α → Bool) : Prop where
  /-- No thread has a thing twice. -/
  once : ∀ t, (has t).Nodup
  /-- No two threads have the same thing. -/
  apart : ∀ t u x, x ∈ has t → x ∈ has u → t = u
  /-- What threads have is what is in use. -/
  live : ∀ x, live x = true ↔ ∃ t, x ∈ has t

/-- How what a thread has, and what is in use, may change together. -/
inductive Flow {α : Type} [DecidableEq α] (own own' : List α) (live live' : α → Bool) : Prop where
  /-- The thread has what it had. -/
  | keep : own'.Perm own → (∀ x, live' x = live x) → Flow own own' live live'
  /-- The thread gets a thing that was not in use. -/
  | take (x : α) : own'.Perm (x :: own) → live x = false →
    (∀ y, live' y = (decide (y = x) || live y)) → Flow own own' live live'
  /-- The thread gives a thing up, which is in use no more. -/
  | give (x : α) : own.Perm (x :: own') → (∀ y, live' y = (!decide (y = x) && live y)) →
    Flow own own' live live'

namespace Ledger

variable {α : Type} {has : Tid → List α} {live live' : α → Bool} {t : Tid} {own : List α}

/-- What is in use is one thread's or another's. -/
theorem live_iff (h : Ledger has live) (t : Tid) (x : α) :
    live x = true ↔ x ∈ has t ∨ ∃ u, u ≠ t ∧ x ∈ has u := by
  rw [h.live]
  constructor
  · rintro ⟨u, mem⟩
    by_cases same : u = t
    · exact .inl (same ▸ mem)
    · exact .inr ⟨u, same, mem⟩
  · rintro (mem | ⟨u, -, mem⟩)
    · exact ⟨t, mem⟩
    · exact ⟨u, mem⟩

/-- One thread may have other things, as long as no other thread has them. -/
theorem replace (h : Ledger has live) (once : own.Nodup)
    (apart : ∀ u x, u ≠ t → x ∈ own → x ∉ has u)
    (used : ∀ x, live' x = true ↔ x ∈ own ∨ ∃ u, u ≠ t ∧ x ∈ has u) :
    Ledger (Function.update has t own) live' := by
  have others {u : Tid} (other : u ≠ t) : Function.update has t own u = has u :=
    Function.update_of_ne other ..
  have self : Function.update has t own t = own := Function.update_self ..
  refine ⟨fun u => ?_, fun u v x mem mem' => ?_, fun x => ?_⟩
  · by_cases same : u = t
    · rwa [same, self]
    · rw [others same]
      exact h.once u
  · by_cases atU : u = t <;> by_cases atV : v = t
    · rw [atU, atV]
    · rw [atU, self] at mem
      rw [others atV] at mem'
      exact absurd mem' (apart v x atV mem)
    · rw [others atU] at mem
      rw [atV, self] at mem'
      exact absurd mem (apart u x atU mem')
    · rw [others atU] at mem
      rw [others atV] at mem'
      exact h.apart u v x mem mem'
  · rw [used]
    constructor
    · rintro (mem | ⟨u, other, mem⟩)
      · exact ⟨t, by rwa [self]⟩
      · exact ⟨u, by rwa [others other]⟩
    · rintro ⟨u, mem⟩
      by_cases same : u = t
      · rw [same, self] at mem
        exact .inl mem
      · rw [others same] at mem
        exact .inr ⟨u, same, mem⟩

/-- A ledger stays in order when what one thread has flows. -/
theorem flow [DecidableEq α] (h : Ledger has live) (flow : Flow (has t) own live live') :
    Ledger (Function.update has t own) live' := by
  cases flow with
  | keep perm same =>
    refine h.replace (perm.nodup_iff.2 (h.once t)) (fun u x other mem mem' => ?_) fun x => ?_
    · exact other (h.apart u t x mem' (perm.mem_iff.1 mem))
    · rw [same, h.live_iff t, perm.mem_iff]
  | take x perm unused same =>
    have nobody (u : Tid) : x ∉ has u := fun mem => by
      rw [(h.live x).2 ⟨u, mem⟩] at unused
      cases unused
    refine h.replace (perm.nodup_iff.2 (List.nodup_cons.2 ⟨nobody t, h.once t⟩))
      (fun u y other mem mem' => ?_) fun y => ?_
    · rcases List.mem_cons.1 (perm.mem_iff.1 mem) with rfl | mem
      · exact nobody u mem'
      · exact other (h.apart u t y mem' mem)
    · rw [same, perm.mem_iff, List.mem_cons, Bool.or_eq_true, decide_eq_true_eq, h.live_iff t,
        or_assoc]
  | give x perm same =>
    have distinct := List.nodup_cons.1 (perm.nodup_iff.1 (h.once t))
    refine h.replace distinct.2 (fun u y other mem mem' => ?_) fun y => ?_
    · exact other (h.apart u t y mem' (perm.mem_iff.2 (List.mem_cons_of_mem x mem)))
    · rw [same, Bool.and_eq_true, Bool.not_eq_true', decide_eq_false_iff_not, h.live_iff t,
        perm.mem_iff, List.mem_cons]
      constructor
      · rintro ⟨other, (rfl | mem) | elsewhere⟩
        · exact absurd rfl other
        · exact .inl mem
        · exact .inr elsewhere
      · rintro (mem | ⟨u, other, mem⟩)
        · exact ⟨fun same => distinct.1 (same ▸ mem), .inl (.inr mem)⟩
        · refine ⟨fun same => other ?_, .inr ⟨u, other, mem⟩⟩
          exact h.apart u t x (same ▸ mem) (perm.mem_iff.2 List.mem_cons_self)

/-- What several threads have, they have once. -/
theorem nodup_flatMap (h : Ledger has live) {l : List Tid} (distinct : l.Nodup) : (l.flatMap has).Nodup :=
  List.nodup_flatMap.2 ⟨fun t _ => h.once t,
    distinct.imp fun other x mem mem' => other (h.apart _ _ x mem mem')⟩

/-- At first nobody has anything, and nothing is in use. -/
theorem empty (unused : ∀ x, live x = false) : Ledger (fun _ : Tid => []) live :=
  ⟨fun _ => List.nodup_nil, fun _ _ _ => nofun, fun x => by simp [unused x]⟩

/-- Nothing is in use if nobody has anything. -/
theorem unused (h : Ledger has live) (nothing : ∀ t, has t = []) (x : α) : live x = false := by
  rw [← Bool.not_eq_true, h.live]
  rintro ⟨t, mem⟩
  rw [nothing t] at mem
  cases mem

end Ledger

end Userland

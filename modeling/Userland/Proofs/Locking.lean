import Mathlib.Data.List.Nodup
import Mathlib.Logic.Function.Basic
import Userland.Proofs.Scripts

/-!
# Keeping to a lock

A thread keeps to a lock if it frees the lock, and uses the number that the lock guards, only while it
has a guard, and if it wakes at once whom it has to wake when it frees the lock (`Program.KeepsTo`).
Where the thread is with the lock is its `LockPhase`. The scripts for locks and channels keep to every
lock, whatever their operations are (`SyncOp.keepsTo_performAll`).
-/

namespace Userland

open ThreadProgram

/-- Where a thread is with a lock. -/
inductive LockPhase where
  /-- It has no guard. -/
  | outside
  /-- It has a guard. -/
  | inside
  /-- It has freed the lock, and is about to wake the front of the queue. -/
  | leaving (front : Tid)
deriving DecidableEq

namespace LockPhase

/-- What a thread may do as it is with a lock. -/
def Allows (l : LockId) : LockPhase → Action → Prop
  | leaving u, a => a = .unblock u
  | _, .spawn .. | _, .lockRegistry _ | _, .goto _ | _, .stop _ => False
  | p, .release l' | p, .getCell l' | p, .setCell l' _ => l' = l → p = .inside
  | _, _ => True

/-- Where the thread is after an action. -/
def after (l : LockId) : LockPhase → (a : Action) → a.Answer → LockPhase
  | p, .lock l', _ => if l' = l then inside else p
  | p, .release l', front => if l' = l then Option.elim front outside leaving else p
  | leaving _, .unblock _, _ => outside
  | p, _, _ => p

end LockPhase

/-- The program keeps to a lock, and ends as `Q` says. A thread that has a guard never gets another one:
    what it would do then is of no concern. -/
def Program.KeepsTo {α : Type} (l : LockId) (Q : α → LockPhase → Prop) :
    ThreadProgram α → LockPhase → Prop
  | Program.pure x, p => Q x p
  | Program.ask a next, p => p.Allows l a ∧
    ∀ answer, (p = .inside → a ≠ .lock l) → (next answer).KeepsTo l Q (p.after l a answer)

/-- The action does not concern the lock, makes no thread, is not tried in vain, and does not stop the
    machine. -/
def Action.IsApart (l : LockId) : Action → Prop
  | .spawn .. | .lockRegistry _ | .goto _ | .stop _ => False
  | .lock l' | .release l' | .getCell l' | .setCell l' _ => l' ≠ l
  | _ => True

theorem Action.TouchesOnly.isApart {lock : Option LockId} {channel : Option ChannelId} {l : LockId}
    {a : Action} (touches : a.TouchesOnly lock channel) (other : lock ≠ some l) : a.IsApart l := by
  cases a with
  | spawn | lockRegistry | goto | stop => exact touches
  | lock l' | release l' | getCell l' | setCell l' _ =>
    exact fun here : l' = l => other (here ▸ touches)
  | _ => trivial

section

variable {l : LockId} {p : LockPhase} {α β : Type} {Q : α → LockPhase → Prop}

namespace LockPhase

theorem allows_of_isApart {a : Action} (apart : a.IsApart l) (stays : ∀ u, p ≠ leaving u) :
    p.Allows l a := by
  cases p with
  | leaving u => exact absurd rfl (stays u)
  | outside | inside => cases a <;> first | trivial | exact apart | exact fun same => absurd same apart

/-- What is allowed does not concern the lock, or is what the thread may do with it now. -/
theorem Allows.cases {a : Action} (h : p.Allows l a) : (∃ u, p = leaving u ∧ a = .unblock u) ∨
    (∀ u, p ≠ leaving u) ∧ (a.IsApart l ∨ a = .lock l ∨
      p = inside ∧ (a = .release l ∨ a = .getCell l ∨ ∃ value, a = .setCell l value)) := by
  cases p with
  | leaving u => exact .inl ⟨u, rfl, h⟩
  | outside | inside =>
    refine .inr ⟨nofun, ?_⟩
    cases a with
    | spawn | lockRegistry | goto | stop => exact h.elim
    | lock l' =>
      by_cases here : l' = l
      · exact .inr (.inl (here ▸ rfl))
      · exact .inl here
    | release l' =>
      by_cases here : l' = l
      · exact .inr (.inr ⟨h here, .inl (here ▸ rfl)⟩)
      · exact .inl here
    | getCell l' =>
      by_cases here : l' = l
      · exact .inr (.inr ⟨h here, .inr (.inl (here ▸ rfl))⟩)
      · exact .inl here
    | setCell l' value =>
      by_cases here : l' = l
      · exact .inr (.inr ⟨h here, .inr (.inr ⟨value, here ▸ rfl⟩)⟩)
      · exact .inl here
    | _ => exact .inl trivial

theorem after_of_isApart {a : Action} (apart : a.IsApart l) (stays : ∀ u, p ≠ leaving u)
    (answer : a.Answer) : p.after l a answer = p := by
  cases p with
  | leaving u => exact absurd rfl (stays u)
  | outside | inside => cases a <;> first | rfl | exact if_neg apart

end LockPhase

namespace Program

theorem keepsTo_bind (first : ThreadProgram α) (rest : α → ThreadProgram β) (Q : β → LockPhase → Prop) :
    (first >>= rest).KeepsTo l Q p ↔ first.KeepsTo l (fun x p => (rest x).KeepsTo l Q p) p := by
  change (first.bind rest).KeepsTo l Q p ↔ _
  induction first generalizing p with
  | pure x => rfl
  | ask a next ih => simp only [bind, KeepsTo, ih]

theorem KeepsTo.mono {Q' : α → LockPhase → Prop} {program : ThreadProgram α}
    (h : program.KeepsTo l Q p) (implies : ∀ x p, Q x p → Q' x p) : program.KeepsTo l Q' p := by
  induction program generalizing p with
  | pure x => exact implies x p h
  | ask a next ih => exact ⟨h.1, fun answer vain => ih answer (h.2 answer vain)⟩

theorem KeepsTo.bind {first : ThreadProgram α} {rest : α → ThreadProgram β} {Q' : β → LockPhase → Prop}
    (h : first.KeepsTo l Q p) (next : ∀ x p, Q x p → (rest x).KeepsTo l Q' p) :
    (first >>= rest).KeepsTo l Q' p :=
  (keepsTo_bind first rest Q').2 (h.mono next)

/-- What does not concern the lock is done without it and with it. -/
theorem KeepsTo.of_only {program : ThreadProgram α} {R : α → Prop}
    (only : program.Only (Action.IsApart l) R) (stays : ∀ u, p ≠ .leaving u)
    (result : ∀ x, R x → Q x p) : program.KeepsTo l Q p := by
  induction program with
  | pure x => exact result x only
  | ask a next ih =>
    refine ⟨LockPhase.allows_of_isApart only.1 stays, fun answer _ => ?_⟩
    rw [LockPhase.after_of_isApart only.1 stays]
    exact ih answer (only.2 answer)

end Program

end

/-! ## Scripts -/

namespace SyncOp

open Program

variable {l : LockId} {p : LockPhase} {s : SyncState}

/-- A script knows whether it holds the lock. -/
def Knows (l : LockId) (held : List LockId) (p : LockPhase) : Prop :=
  (p = .outside ∧ held.count l = 0) ∨ (p = .inside ∧ held.count l = 1)

theorem Knows.stays {held : List LockId} (h : Knows l held p) (u : Tid) : p ≠ .leaving u := by
  rcases h with ⟨rfl, -⟩ | ⟨rfl, -⟩ <;> nofun

theorem Knows.inside {held : List LockId} (h : Knows l held p) (mem : l ∈ held) : p = .inside := by
  rcases h with ⟨-, none⟩ | ⟨rfl, -⟩
  · exact absurd mem (List.count_eq_zero.1 none)
  · rfl

/-- A lock that the thread holds is freed. -/
theorem keepsTo_unlock : (ThreadProgram.unlock l).KeepsTo l (fun _ p => p = .outside) .inside := by
  refine ⟨fun _ => rfl, fun front _ => ?_⟩
  change (wake front).KeepsTo l _ (if l = l then Option.elim front .outside .leaving else .inside)
  rw [if_pos rfl]
  cases front with
  | none => rfl
  | some u => exact ⟨rfl, fun _ _ => rfl⟩

/-- Other locks are freed without this one and with it. -/
theorem keepsTo_unlock_of_ne {l' : LockId} (other : l' ≠ l) (stays : ∀ u, p ≠ .leaving u) :
    (ThreadProgram.unlock l').KeepsTo l (fun _ p' => p' = p) p := by
  have only : (ThreadProgram.unlock l').Only (Action.TouchesOnly (some l') none) fun _ => True :=
    only_unlock rfl
  refine .of_only (only.mono (fun _ touches => ?_) fun _ => id) stays fun _ _ => rfl
  exact touches.isApart fun same => other (Option.some.inj same)

/-- Letting go frees each lock that is held. -/
theorem keepsTo_letGo (h : Knows l s.held p) :
    (letGo s).KeepsTo l (fun _ p => ∀ u, p ≠ .leaving u) p := by
  have levels (levels : List InterruptLevel) :
      (levels.forM fun level => ask (.setInterrupts level)).Only (Action.IsApart l) fun _ => True := by
    induction levels with
    | nil => trivial
    | cons level rest ih =>
      exact Only.bind (R := fun _ => True) (only_ask trivial fun _ => trivial) fun _ _ => ih
  -- The lock is held at most once, so when it has been given back it is not among the rest.
  have locks (held : List LockId) (p : LockPhase) (h : Knows l held p) :
      (held.forM ThreadProgram.unlock).KeepsTo l (fun _ p => ∀ u, p ≠ .leaving u) p := by
    induction held generalizing p with
    | nil => exact h.stays
    | cons l' rest ih =>
      by_cases here : l' = l
      · subst here
        obtain rfl := h.inside List.mem_cons_self
        have count : rest.count l' = 0 := by
          rcases h with ⟨outside, -⟩ | ⟨-, once⟩
          · cases outside
          · simpa using once
        refine keepsTo_unlock.bind fun _ p' left => ?_
        subst left
        exact ih _ (.inl ⟨rfl, count⟩)
      · have rest : Knows l rest p := by rwa [Knows, List.count_cons_of_ne here] at h
        exact (keepsTo_unlock_of_ne here h.stays).bind fun _ p' same => ih p' (same ▸ rest)
  refine (KeepsTo.of_only (Q := fun _ p' => p' = p) (levels s.levels) h.stays fun _ _ => rfl).bind
    fun _ p' same => ?_
  subst same
  refine locks _ _ ?_
  rwa [Knows, (List.mergeSort_perm ..).count_eq]

/-- Taking the lock gives the guard. A thread that has it already waits for ever. -/
theorem keepsTo_lock (h : Knows l s.held p) :
    (perform s (.lock l)).KeepsTo l (fun done p => Knows l done.2.held p) p := by
  rcases h with ⟨rfl, none⟩ | ⟨rfl, -⟩
  · refine ⟨trivial, fun _ _ => ?_⟩
    change KeepsTo l _ _ (if l = l then .inside else .outside)
    rw [if_pos rfl]
    refine ⟨fun _ => rfl, fun _ _ => .inr ⟨rfl, ?_⟩⟩
    rw [List.count_cons_self, none]
  · exact ⟨trivial, fun _ vain => absurd rfl (vain rfl)⟩

/-- Only the holder frees the lock. -/
theorem keepsTo_unlockHeld (h : Knows l s.held p) :
    (perform s (.unlock l)).KeepsTo l (fun done p => Knows l done.2.held p) p := by
  rw [perform]
  split
  · rename_i mem
    obtain rfl := h.inside mem
    refine keepsTo_unlock.bind fun _ p' left => ?_
    subst left
    exact .inl ⟨rfl, List.count_eq_zero.2 (by simp)⟩
  · exact h

/-- Only the holder uses the number that the lock guards. -/
theorem keepsTo_add (h : Knows l s.held p) (amount : Int64) :
    (perform s (.add l amount)).KeepsTo l (fun done p => Knows l done.2.held p) p := by
  rw [perform]
  split
  · rename_i mem
    obtain rfl := h.inside mem
    exact ⟨fun _ => rfl, fun _ _ => ⟨fun _ => rfl, fun _ _ => h⟩⟩
  · exact h

theorem keepsTo_perform (h : Knows l s.held p) (op : SyncOp) :
    (perform s op).KeepsTo l (fun done p => Knows l done.2.held p) p := by
  by_cases own : op.lock? = some l
  · cases op with
    | lock l' =>
      obtain rfl := Option.some.inj own
      exact keepsTo_lock h
    | unlock l' =>
      obtain rfl := Option.some.inj own
      exact keepsTo_unlockHeld h
    | add l' amount =>
      obtain rfl := Option.some.inj own
      exact keepsTo_add h amount
    | _ => cases own
  · refine .of_only ((only_perform s op).mono (fun a touches => touches.isApart own) fun _ => id)
      h.stays fun done same => ?_
    rwa [Knows, same l own]

/-- A script keeps to every lock. -/
theorem keepsTo_performAll (h : Knows l s.held p) (i : Nat) (script : List SyncOp) :
    (performAll s i script).KeepsTo l (fun _ p => ∀ u, p ≠ .leaving u) p := by
  induction script generalizing s p i with
  | nil => exact keepsTo_letGo h
  | cons op rest ih =>
    refine (keepsTo_perform h op).bind fun done p' knows => ?_
    refine (KeepsTo.of_only (Q := fun _ p'' => p'' = p') (R := fun _ => True)
      (only_ask trivial fun _ => trivial) knows.stays fun _ _ => rfl).bind fun _ p'' same => ?_
    subst same
    exact ih knows (i + 1)

end SyncOp

end Userland

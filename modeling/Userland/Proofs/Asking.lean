import Mathlib.Tactic.Common
import Userland.Machine.Action

/-!
# What programs ask for

All that a program asks for may be of some kind, and its results too (`Program.Only`). Where programs are
put together, so are these.
-/

namespace Userland

namespace Program

variable {σ : Signature} {α β : Type} {P P' : σ.Request → Prop} {R R' : α → Prop}

/-- All that a program asks for is so, and its results are so. -/
def Only (P : σ.Request → Prop) (R : α → Prop) : Program σ α → Prop
  | pure x => R x
  | ask r next => P r ∧ ∀ answer, (next answer).Only P R

theorem only_bind (p : Program σ α) (f : α → Program σ β) (R : β → Prop) :
    (p >>= f).Only P R ↔ p.Only P fun x => (f x).Only P R := by
  change (p.bind f).Only P R ↔ _
  induction p with
  | pure x => rfl
  | ask r next ih => simp only [bind, Only, ih]

theorem Only.mono {p : Program σ α} (h : p.Only P R) (asks : ∀ r, P r → P' r)
    (results : ∀ x, R x → R' x) : p.Only P' R' := by
  induction p with
  | pure x => exact results x h
  | ask r next ih => exact ⟨asks r h.1, fun answer => ih answer (h.2 answer)⟩

theorem Only.bind {p : Program σ α} {f : α → Program σ β} {R' : β → Prop} (first : p.Only P R)
    (rest : ∀ x, R x → (f x).Only P R') : (p >>= f).Only P R' :=
  (only_bind p f R').2 (first.mono (fun _ => id) rest)

theorem Only.forM {γ : Type} {l : List γ} {f : γ → Program σ PUnit} {R : PUnit → Prop}
    (each : ∀ x ∈ l, (f x).Only P fun _ => True) (result : R ()) : (l.forM f).Only P R := by
  induction l with
  | nil => exact result
  | cons x l ih =>
    exact (each x List.mem_cons_self).bind fun _ _ => ih fun y mem => each y (List.mem_cons_of_mem x mem)

end Program

namespace ThreadProgram

open Program

variable {α : Type} {P : Action → Prop} {R : α → Prop}

theorem only_act {a : Action} {R : a.Answer → Prop} (asks : P a) (results : ∀ answer, R answer) :
    (act a).Only P R := ⟨asks, results⟩

theorem only_ask {r : DeviceRequest} {R : r.Answer → Prop} (asks : P (.device r))
    (results : ∀ answer, R answer) : (ask r).Only P R := ⟨asks, results⟩

theorem only_ofRoutine (p : Routine α) :
    (ofRoutine p).Only P R ↔ p.Only (fun r => P (.device r)) R := by
  induction p with
  | pure x => rfl
  | ask r next ih => simp only [ofRoutine, Only, ih]

/-- What may be done without the lock may be done with it. -/
theorem only_withLock {l : LockId} {body : Routine α} (lock : P (.lock l)) (release : P (.release l))
    (wake : ∀ t, P (.unblock t)) (inside : body.Only (fun r => P (.device r)) R) :
    (withLock l body).Only P R := by
  have woken (t : Option Tid) : (ThreadProgram.wake t).Only P fun _ => True := by
    cases t with
    | none => trivial
    | some t => exact only_act (wake t) fun _ => trivial
  refine Only.bind (R := fun _ => True) (only_act lock fun _ => trivial) fun _ _ => ?_
  refine Only.bind ((only_ofRoutine body).2 inside) fun x result => ?_
  refine Only.bind (R := fun _ => True) ?_ fun _ _ => result
  exact Only.bind (R := fun _ => True) (only_act release fun _ => trivial) fun t _ => woken t

theorem only_withRegistry {family : Family} {body : ThreadProgram α} (lock : P (.lockRegistry family))
    (unlock : P (.unlockRegistry family)) (inside : body.Only P R) : (withRegistry family body).Only P R :=
  Only.bind (R := fun _ => True) (only_act lock fun _ => trivial) fun _ _ =>
    Only.bind inside fun _ result =>
      Only.bind (R := fun _ => True) (only_act unlock fun _ => trivial) fun _ _ => result

end ThreadProgram

end Userland

import Mathlib.Logic.Relation
import Userland.Proofs.Asking
import Userland.Proofs.Histories

/-!
# Carrying out a program among others

A thread carries out a program one action after the other, and other things happen in between
(`Performs`). What these may be is left open: `others m m'` says that they may make `m'` of `m`. With
equality for `others` the thread is alone; the turns of all other threads are another choice.

A program that has only asked questions has no part in what has become of the machine: whatever is
different is the doing of the others, or a remark in the log (`Machine.Untouched`).
-/

namespace Userland

open ThreadProgram

namespace Machine

variable {m m' : Machine} {t : Tid}

/-- Serve a request of thread `t`: the answer, and the machine afterwards. -/
def serve (m : Machine) (t : Tid) (r : DeviceRequest) : r.Answer × Machine :=
  let (answer, own, devices) := r.serve (m.thread t).own m.devices
  (answer, { m.setThread t { m.thread t with own := own } with devices := devices })

/-- The machines are the same, but for the log. -/
def SameButLog (m m' : Machine) : Prop :=
  ∃ log, m' = { m with devices := { m.devices with log := log } }

/-- From `m` to `m'` nothing was done but by others, save for remarks in the log. -/
def Untouched (others : Machine → Machine → Prop) : Machine → Machine → Prop :=
  Relation.ReflTransGen fun m m' => others m m' ∨ SameButLog m m'

theorem SameButLog.refl (m : Machine) : SameButLog m m := ⟨m.devices.log, rfl⟩

/-- Where there are no others, all is as it was. -/
theorem untouched_alone : Untouched (· = ·) m m' ↔ SameButLog m m' := by
  refine ⟨fun untouched => ?_, fun same => .single (.inr same)⟩
  induction untouched with
  | refl => exact .refl m
  | tail _ last ih =>
    obtain ⟨log, rfl⟩ := ih
    rcases last with rfl | ⟨log', rfl⟩
    · exact ⟨log, rfl⟩
    · exact ⟨log', rfl⟩

/-- A request that leaves what it is served with leaves the machine. -/
theorem serve_eq_self {r : DeviceRequest}
    (same : (r.serve (m.thread t).own m.devices).2 = ((m.thread t).own, m.devices)) :
    (m.serve t r).2 = m := by
  rw [serve]
  rcases served : r.serve (m.thread t).own m.devices with ⟨answer, own, devices⟩
  rw [served] at same
  cases same
  simp only [m.setThread_thread t]

end Machine

/-! ## Performing -/

section Performs

variable {env : Environment} {others : Machine → Machine → Prop} {t : Tid} {α β : Type}
  {m m' : Machine}

/-- Thread `t` carries out a program: from machine `m` on, with `others` in between, it comes to a result
    in machine `m'`. -/
inductive Performs (env : Environment) (others : Machine → Machine → Prop) (t : Tid) {α : Type} :
    ThreadProgram α → Machine → α → Machine → Prop where
  /-- There is nothing left to do. -/
  | pure (x : α) (m : Machine) : Performs env others t (Program.pure x) m x m
  /-- An action is done, and the program goes on. -/
  | ask {a : Action} {next : a.Answer → ThreadProgram α} {answer : a.Answer} {ready : List Tid}
      {m m₁ m₂ m' : Machine} {x : α} : m.attempt env t a = .done answer m₁ ready → others m₁ m₂ →
      Performs env others t (next answer) m₂ x m' → Performs env others t (Program.ask a next) m x m'
  /-- An action has to wait, and is tried again. -/
  | wait {a : Action} {next : a.Answer → ThreadProgram α} {m m₁ m₂ m' : Machine} {x : α} :
      m.attempt env t a = .wait m₁ → others m₁ m₂ →
      Performs env others t (Program.ask a next) m₂ x m' → Performs env others t (Program.ask a next) m x m'

theorem performs_pure {x y : α} :
    Performs env others t (pure x : ThreadProgram α) m y m' ↔ y = x ∧ m' = m := by
  constructor
  · intro performs
    cases performs
    exact ⟨rfl, rfl⟩
  · rintro ⟨rfl, rfl⟩
    exact .pure y m'

theorem Performs.bind {p : ThreadProgram α} {f : α → ThreadProgram β} {x : α} {y : β} {m₁ : Machine}
    (first : Performs env others t p m x m₁) (second : Performs env others t (f x) m₁ y m') :
    Performs env others t (p >>= f) m y m' := by
  induction first with
  | pure => exact second
  | ask done between _ ih => exact .ask done between (ih second)
  | wait waits between _ ih => exact .wait waits between (ih second)

theorem performs_bind {p : ThreadProgram α} {f : α → ThreadProgram β} {y : β} :
    Performs env others t (p >>= f) m y m' ↔
      ∃ x m₁, Performs env others t p m x m₁ ∧ Performs env others t (f x) m₁ y m' := by
  refine ⟨fun performs => ?_, fun ⟨x, m₁, first, second⟩ => first.bind second⟩
  generalize whole : p >>= f = q at performs
  -- On the way the program that is left is that of `p` with `f` to follow.
  induction performs generalizing p with
  | pure x m =>
    cases p with
    | pure z =>
      refine ⟨z, m, .pure z m, ?_⟩
      change f z = Program.pure x at whole
      rw [whole]
      exact .pure x m
    | ask a next => cases whole
  | ask done between rest ih =>
    cases p with
    | pure z =>
      refine ⟨z, _, .pure z _, ?_⟩
      change f z = _ at whole
      rw [whole]
      exact .ask done between rest
    | ask a next =>
      cases whole
      obtain ⟨x, m₁, first, second⟩ := ih rfl
      exact ⟨x, m₁, .ask done between first, second⟩
  | wait waits between rest ih =>
    cases p with
    | pure z =>
      refine ⟨z, _, .pure z _, ?_⟩
      change f z = _ at whole
      rw [whole]
      exact .wait waits between rest
    | ask a next =>
      cases whole
      obtain ⟨x, m₁, first, second⟩ := ih (p := Program.ask _ _) rfl
      exact ⟨x, m₁, .wait waits between first, second⟩

/-- A request to a device is served at once. -/
theorem performs_ask {r : DeviceRequest} {f : r.Answer → ThreadProgram β} {y : β} :
    Performs env others t (ThreadProgram.ask r >>= f) m y m' ↔ ∃ m₁, others (m.serve t r).2 m₁ ∧
      Performs env others t (f (m.serve t r).1) m₁ y m' := by
  constructor
  · intro performs
    cases performs with
    | ask done between rest =>
      cases done
      exact ⟨_, between, rest⟩
    | wait waits => cases waits
  · rintro ⟨m₁, between, rest⟩
    have served : m.attempt env t (.device r) = .done (m.serve t r).1 (m.serve t r).2 [] := rfl
    change Performs env others t (Program.ask (Action.device r) f) m y m'
    exact .ask served between rest

/-! ## What the thread keeps -/

/-- Whatever comes of the action, what thread `t` has for itself is as it was. -/
def Action.Spares (env : Environment) (t : Tid) (a : Action) : Prop :=
  ∀ m : Machine, ((m.attempt env t a).machine.thread t).own = (m.thread t).own

theorem Action.spares_lock (l : LockId) : Action.Spares env t (.lock l) := by
  intro m
  simp only [Machine.attempt]
  rcases (m.lock l).tryLock t with ⟨_ | _, x⟩ <;> rfl

theorem Action.spares_release (l : LockId) : Action.Spares env t (.release l) := fun _ => rfl

theorem Action.spares_unblock (u : Tid) : Action.Spares env t (.unblock u) := fun m =>
  (m.resembles_wake t u).own

theorem Action.spares_quiet {r : DeviceRequest} (quiet : r.isQuiet = true) :
    Action.Spares env t (.device r) := by
  intro m
  change ((m.setThread t { m.thread t with own := (r.serve (m.thread t).own m.devices).2.1 }).thread
    t).own = _
  rw [DeviceRequest.own_of_isQuiet quiet]
  exact congrArg (fun m => (Machine.thread m t).own) (m.setThread_thread t)

/-- What neither others nor the actions of a program change is the same afterwards. -/
theorem Performs.preserves {p : ThreadProgram α} {x : α} {R : α → Prop} {V : Machine → β}
    (performs : Performs env others t p m x m') (keeps : ∀ m m', others m m' → V m' = V m)
    (only : p.Only (fun a => ∀ m, V (m.attempt env t a).machine = V m) R) : V m' = V m := by
  induction performs with
  | pure => rfl
  | @ask a next answer ready m m₁ m₂ m' x done between rest ih =>
    have spared := only.1 m
    rw [done] at spared
    exact (ih (only.2 answer)).trans ((keeps _ _ between).trans spared)
  | @wait a next m m₁ m₂ m' x waits between rest ih =>
    have spared := only.1 m
    rw [waits] at spared
    exact (ih only).trans ((keeps _ _ between).trans spared)

/-- If others leave a thread what it has for itself, a program does so that spares it. -/
theorem Performs.own_eq {p : ThreadProgram α} {x : α} {R : α → Prop}
    (performs : Performs env others t p m x m')
    (keeps : ∀ m m', others m m' → (m'.thread t).own = (m.thread t).own)
    (only : p.Only (Action.Spares env t) R) : (m'.thread t).own = (m.thread t).own :=
  performs.preserves keeps only

end Performs

end Userland

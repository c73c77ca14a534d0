import Userland.Proofs.Lives
import Userland.Proofs.Parents

/-!
# What a thread finds in its frames

What a thread has stored in its frames is there until the thread itself stores something else. So what a
program comes to with the frames of its thread is told without the other threads
(`ThreadProgram.Yields`): at every step the pool may be another one, as long as it looks the same to the
thread (`Belongings.Sees`). Whatever a program yields so, it yields in every run (`Scenario.yields_at`).
-/

namespace Userland

/-- In the frames of a thread, one pool holds what the other does. -/
def Belongings.Sees (b : Belongings) (pool pool' : FramePool) : Prop := ∀ f ∈ b.frames, pool'.page? f = pool.page? f

/-- What becomes of what a thread has, and of the pool as it last saw it, when it does something. -/
inductive Alters : (a : Action) → Belongings → FramePool → a.Answer → Belongings → FramePool → Prop where
  /-- A device has served a request. -/
  | device (r : DeviceRequest) (b : Belongings) (pool : FramePool) (d : Devices) : b.Sees pool d.pool →
    Alters (.device r) b pool (r.serve b d).1 (r.serve b d).2.1 (r.serve b d).2.2.pool
  /-- Another action is done. -/
  | act (a : Action) (b : Belongings) (pool : FramePool) (answer : a.Answer) : (∀ r, a ≠ .device r) →
    Alters a b pool answer b pool

/-! ## Programs -/

namespace ThreadProgram

variable {α β : Type} {Q Q' : α → Belongings → FramePool → Prop} {b : Belongings} {pool : FramePool}

/-- If the program ends, `Q` holds of its result, of what the thread has then, and of the pool. -/
def Yields : ThreadProgram α → (α → Belongings → FramePool → Prop) → Belongings → FramePool → Prop
  | Program.pure x, Q, b, pool => Q x b pool
  | Program.ask a next, Q, b, pool => ∀ answer b' pool', Alters a b pool answer b' pool' →
    Yields (next answer) Q b' pool'

theorem yields_bind (p : ThreadProgram α) (next : α → ThreadProgram β) (Q : β → Belongings → FramePool → Prop) :
    Yields (p >>= next) Q b pool ↔ p.Yields (fun x => (next x).Yields Q) b pool := by
  change Yields (Program.bind p next) Q b pool ↔ _
  induction p generalizing b pool with
  | pure x => rfl
  | ask a rest ih => simp only [Program.bind, Yields, ih]

theorem Yields.mono {p : ThreadProgram α} (yields : p.Yields Q b pool)
    (weaker : ∀ x b pool, Q x b pool → Q' x b pool) : p.Yields Q' b pool := by
  induction p generalizing b pool with
  | pure x => exact weaker x b pool yields
  | ask a rest ih => exact fun answer b' pool' alters => ih answer (yields answer b' pool' alters)

theorem yields_ask {r : DeviceRequest} {Q : r.Answer → Belongings → FramePool → Prop}
    (served : ∀ d : Devices, b.Sees pool d.pool → Q (r.serve b d).1 (r.serve b d).2.1 (r.serve b d).2.2.pool) :
    (ask r).Yields Q b pool := by
  intro answer b' pool' alters
  cases alters with
  | device r b pool d sees => exact served d sees
  | act a b pool answer other => exact absurd rfl (other r)

/-- What every step keeps, the program keeps. -/
theorem yields_of_only {P : Action → Prop} {R : α → Prop} {I : Belongings → FramePool → Prop}
    {p : ThreadProgram α} (only : p.Only P R)
    (keeps : ∀ (a : Action) b pool answer b' pool', P a → Alters a b pool answer b' pool' → I b pool → I b' pool')
    (holds : I b pool) : p.Yields (fun x b pool => R x ∧ I b pool) b pool := by
  induction p generalizing b pool with
  | pure x => exact ⟨only, holds⟩
  | ask a rest ih =>
    intro answer b' pool' alters
    exact ih answer (only.2 answer) (keeps a b pool answer b' pool' only.1 alters holds)

/-- What holds of the result whatever the thread has, is yielded. -/
theorem yields_of_all {p : ThreadProgram α} (all : ∀ x b pool, Q x b pool) : p.Yields Q b pool := by
  induction p generalizing b pool with
  | pure x => exact all x b pool
  | ask a rest ih => exact fun answer b' pool' _ => ih answer

end ThreadProgram

/-! ## Runs -/

namespace Scenario

open ThreadProgram

variable {x : Scenario} {turns : ℕ → Turn} {i b : ℕ} {t : Tid}

/-- At a turn a thread is told nothing, and keeps what it has, or it does something. -/
theorem alters_succ {a : Action} {next : a.Answer → ThreadProgram Unit}
    (inside : t < (x.machineAt turns i).threads.size) (here : x.programAt turns i t = Program.ask a next)
    {pool : FramePool} (sees : (x.standingAt turns i t).own.Sees pool (x.machineAt turns i).devices.pool) :
    x.toldAt turns i t a = none ∧ (x.standingAt turns (i + 1) t).own = (x.standingAt turns i t).own ∧
      (x.standingAt turns (i + 1) t).own.Sees pool (x.machineAt turns (i + 1)).devices.pool ∨
    ∃ answer pool', x.toldAt turns i t a = some answer ∧
      Alters a (x.standingAt turns i t).own pool answer (x.standingAt turns (i + 1) t).own pool' ∧
      (x.standingAt turns (i + 1) t).own.Sees pool' (x.machineAt turns (i + 1)).devices.pool := by
  -- What the thread has does not change unless it makes a request, and neither does what it sees.
  have still (silent : ∀ r answer, ¬x.Does turns i t (.device r) answer) :
      (x.standingAt turns (i + 1) t).own = (x.standingAt turns i t).own ∧
      (x.standingAt turns (i + 1) t).own.Sees pool (x.machineAt turns (i + 1)).devices.pool := by
    have same : (x.standingAt turns (i + 1) t).own = (x.standingAt turns i t).own :=
      (x.own_succ inside).resolve_right fun ⟨r, answer, does, _⟩ => silent r answer does
    refine ⟨same, fun f mem => ?_⟩
    rw [same] at mem
    rw [page?_succ mem fun r _ attempts => absurd (does_of_attempts attempts) (silent r _), sees f mem]
  cases told : x.toldAt turns i t a with
  | none =>
    refine .inl ⟨rfl, still ?_⟩
    rintro r answer ⟨⟨next', there⟩, told'⟩
    obtain rfl := (Program.ask.inj (there.symm.trans here)).1
    cases told'.symm.trans told
  | some answer =>
    have does : x.Does turns i t a answer := ⟨⟨next, here⟩, told⟩
    by_cases other : ∀ r, a ≠ .device r
    · obtain ⟨same, sees'⟩ := still fun r answer => not_does here (other r).symm
      exact .inr ⟨answer, pool, rfl, same ▸ .act a _ pool answer other, sees'⟩
    · simp only [ne_eq, not_forall, not_not] at other
      obtain ⟨r, rfl⟩ := other
      obtain ⟨own, devices, rfl⟩ := does.served
      refine .inr ⟨_, (x.machineAt turns (i + 1)).devices.pool, rfl, ?_, fun f _ => rfl⟩
      rw [own, devices]
      exact .device r _ pool _ sees

/-- As long as a part of what a thread does lasts, what is left of it yields what the part yields. -/
theorem yields_at {α : Type} {p : ThreadProgram α} {next : α → ThreadProgram Unit}
    {Q : α → Belongings → FramePool → Prop} {d : ℕ} (here : x.programAt turns b t = p >>= next)
    (inside : t < (x.machineAt turns b).threads.size) (remains : p.Remains)
    (yields : p.Yields Q (x.standingAt turns b t).own (x.machineAt turns b).devices.pool)
    (ongoing : ∀ e < d, ∀ r, x.leftAt turns t p b e ≠ Program.pure r) :
    ∃ pool, (x.standingAt turns (b + d) t).own.Sees pool (x.machineAt turns (b + d)).devices.pool ∧
      Yields (x.leftAt turns t p b d) Q (x.standingAt turns (b + d) t).own pool := by
  induction d with
  | zero => exact ⟨_, fun f _ => rfl, yields⟩
  | succ d ih =>
    obtain ⟨pool, sees, yields⟩ := ih fun e early => ongoing e (Nat.lt_succ_of_lt early)
    have onward := programAt_of_remains here inside remains fun e early => ongoing e (Nat.lt_succ_of_lt early)
    have inside := Nat.lt_of_lt_of_le inside (x.size_le turns (Nat.le_add_right b d))
    cases left : x.leftAt turns t p b d with
    | pure r => exact absurd left (ongoing d (Nat.lt_succ_self d) r)
    | ask a first =>
      rw [left] at onward yields
      rw [leftAt, left]
      change ∃ pool, _ ∧ Yields ((x.toldAt turns (b + d) t a).elim (Program.ask a first) first) Q _ pool
      rcases alters_succ inside onward sees with ⟨told, same, sees'⟩ | ⟨answer, pool', told, alters, sees'⟩
      · rw [told]
        exact ⟨pool, sees', same.symm ▸ yields⟩
      · rw [told]
        exact ⟨pool', sees', yields answer _ pool' alters⟩

end Scenario

end Userland

import Userland.Proofs.CallRuns

/-!
# Parts of what a thread does, one after the other

A part of what a thread does is itself made of parts: what is left of two is left of the first and the
second, and then of the second (`Scenario.leftAt_bind`). So what comes first in a program comes first in
a run (`Scenario.done_before`), and what comes in it once is done once (`Scenario.not_done_again`).
-/

namespace Userland

open ThreadProgram

/-! ## Programs -/

namespace Program

variable {α : Type} {P : Action → Prop} {p : ThreadProgram α} {told : ∀ a : Action, Option a.Answer}

/-- Of what is so, the program does one thing at most. -/
def Once (P : Action → Prop) : ThreadProgram α → Prop
  | pure _ => True
  | ask a next => ∀ answer, (P a → (next answer).Only (fun a => ¬P a) fun _ => True) ∧ (next answer).Once P

theorem Once.of_only (only : p.Only (fun a => ¬P a) fun _ => True) : p.Once P := by
  induction p with
  | pure x => trivial
  | ask a next ih => exact fun answer => ⟨fun so => absurd so only.1, ih answer (only.2 answer)⟩

theorem Once.advance (once : p.Once P) : (p.advance told).Once P := by
  cases p with
  | pure x => trivial
  | ask a next =>
    change Once P ((told a).elim (ask a next) next)
    cases told a with
    | none => exact once
    | some answer => exact (once answer).2

/-- Nothing of the second kind comes in the program before something of the first, and without that its
    results are so. -/
def Before (P Q : Action → Prop) (R : α → Prop) : ThreadProgram α → Prop
  | pure x => R x
  | ask a next => ¬Q a ∧ (P a ∨ ∀ answer, (next answer).Before P Q R)

theorem Before.of_only {Q : Action → Prop} {R : α → Prop} (only : p.Only (fun a => ¬Q a) R) :
    p.Before P Q R := by
  induction p with
  | pure x => exact only
  | ask a next ih => exact ⟨only.1, .inr fun answer => ih answer (only.2 answer)⟩

end Program

/-! ## Runs -/

namespace Scenario

variable {x : Scenario} {turns : ℕ → Turn} {b d : ℕ} {t : Tid} {α β : Type}

theorem once_leftAt {α : Type} {P : Action → Prop} {p : ThreadProgram α} (once : p.Once P) (d : ℕ) :
    (x.leftAt turns t p b d).Once P := by
  induction d with
  | zero => exact once
  | succ d ih => exact ih.advance

/-- What is left of two parts is left of the first and the second, until the first is over. -/
theorem leftAt_bind (p : ThreadProgram α) (f : α → ThreadProgram β) (b d : ℕ) :
    (∀ r, x.leftAt turns t p b d ≠ Program.pure r) ∧
      x.leftAt turns t (p >>= f) b d = x.leftAt turns t p b d >>= f ∨
    ∃ e r g, d = e + g ∧ x.leftAt turns t p b e = Program.pure r ∧
      (∀ e' < e, ∀ r', x.leftAt turns t p b e' ≠ Program.pure r') ∧
      x.leftAt turns t (p >>= f) b d = x.leftAt turns t (f r) (b + e) g := by
  induction d with
  | zero =>
    cases same : p with
    | pure r => exact .inr ⟨0, r, 0, rfl, rfl, fun e before => absurd before (Nat.not_lt_zero e), rfl⟩
    | ask a next =>
      refine .inl ⟨?_, rfl⟩
      rintro r ⟨⟩
  | succ d ih =>
    rcases ih with ⟨ongoing, left⟩ | ⟨e, r, g, rfl, over', first, left⟩
    swap
    · refine .inr ⟨e, r, g + 1, rfl, over', first, ?_⟩
      rw [leftAt, left, leftAt, Nat.add_assoc b e g]
    -- The first part goes on with this turn, and may be over after it.
    have onward : x.leftAt turns t (p >>= f) b (d + 1) = x.leftAt turns t p b (d + 1) >>= f := by
      rw [leftAt, left, leftAt, Program.advance_bind ongoing]
    cases over' : x.leftAt turns t p b (d + 1) with
    | ask a next =>
      rw [over'] at onward
      refine .inl ⟨?_, onward⟩
      rintro r ⟨⟩
    | pure r =>
      refine .inr ⟨d + 1, r, 0, rfl, over', fun e' before r' early => ?_, ?_⟩
      · exact ongoing r' (leftAt_of_pure (Nat.le_of_lt_succ before) early)
      · rw [onward, over']
        rfl

/-- What is done next in two parts is done in the first, or in the second when the first is over. -/
theorem leftAt_bind_ask {p : ThreadProgram α} {f : α → ThreadProgram β} {a : Action}
    {first : a.Answer → ThreadProgram β} (left : x.leftAt turns t (p >>= f) b d = Program.ask a first) :
    (∃ first', x.leftAt turns t p b d = Program.ask a first') ∨
    ∃ e r g, d = e + g ∧ x.leftAt turns t p b e = Program.pure r ∧
      (∀ e' < e, ∀ r', x.leftAt turns t p b e' ≠ Program.pure r') ∧
      x.leftAt turns t (f r) (b + e) g = Program.ask a first := by
  rcases leftAt_bind p f b d with ⟨ongoing, same⟩ | ⟨e, r, g, sum, over', since, same⟩
  · refine .inl ?_
    obtain ⟨first', here, -⟩ := Program.asks_of_bind ongoing (same.symm.trans left)
    exact ⟨first', here⟩
  · exact .inr ⟨e, r, g, sum, over', since, same.symm.trans left⟩

/-- When two parts are over the first has been over, and then the second. -/
theorem leftAt_bind_pure {p : ThreadProgram α} {f : α → ThreadProgram β} {r' : β}
    (left : x.leftAt turns t (p >>= f) b d = Program.pure r') :
    ∃ e r g, d = e + g ∧ x.leftAt turns t p b e = Program.pure r ∧
      (∀ e' < e, ∀ r', x.leftAt turns t p b e' ≠ Program.pure r') ∧
      x.leftAt turns t (f r) (b + e) g = Program.pure r' := by
  rcases leftAt_bind p f b d with ⟨ongoing, same⟩ | ⟨e, r, g, sum, over', since, same⟩
  · exact absurd (same.symm.trans left) (Program.bind_ne_pure ongoing _ _)
  · exact ⟨e, r, g, sum, over', since, same.symm.trans left⟩

/-- When an action of a part was done, what is left is of what comes after the action. -/
theorem only_after {p : ThreadProgram α} {P : Action → Prop} {R : α → Prop} {a : Action}
    {first : a.Answer → ThreadProgram α} {answer : a.Answer} {d e : ℕ}
    (left : x.leftAt turns t p b d = Program.ask a first) (told : x.toldAt turns (b + d) t a = some answer)
    (only : (first answer).Only P R) (later : d < e) : (x.leftAt turns t p b e).Only P R := by
  obtain ⟨e, rfl⟩ := Nat.exists_eq_add_of_lt later
  have onward : x.leftAt turns t p b (d + 1) = first answer := leftAt_succ_of_told left told
  rw [Nat.add_right_comm, leftAt_add, onward]
  exact only_leftAt only e

/-- What comes before something in a program is done before it in a run. -/
theorem done_before {P Q : Action → Prop} {R : α → Prop} {p : ThreadProgram α} (before : p.Before P Q R)
    (done : ¬(x.leftAt turns t p b d).Before P Q R) :
    ∃ e < d, ∃ (a : Action) (first : a.Answer → ThreadProgram α) (answer : a.Answer), P a ∧
      x.leftAt turns t p b e = Program.ask a first ∧ x.toldAt turns (b + e) t a = some answer := by
  induction d with
  | zero => exact absurd before done
  | succ d ih =>
    by_cases still : (x.leftAt turns t p b d).Before P Q R
    swap
    · obtain ⟨e, early, rest⟩ := ih still
      exact ⟨e, Nat.lt_succ_of_lt early, rest⟩
    rw [leftAt] at done
    cases left : x.leftAt turns t p b d with
    | pure r =>
      rw [left] at still done
      exact absurd still done
    | ask a first =>
      rw [left] at still done
      change ¬Program.Before P Q R ((x.toldAt turns (b + d) t a).elim (Program.ask a first) first) at done
      cases told : x.toldAt turns (b + d) t a with
      | none =>
        rw [told] at done
        exact absurd still done
      | some answer =>
        rw [told] at done
        exact ⟨d, Nat.lt_succ_self d, a, first, answer, still.2.resolve_right fun later => done (later answer),
          left, told⟩

theorem done_before_ask {P Q : Action → Prop} {R : α → Prop} {p : ThreadProgram α} (before : p.Before P Q R)
    {a : Action} {first : a.Answer → ThreadProgram α} (left : x.leftAt turns t p b d = Program.ask a first)
    (so : Q a) : ∃ e < d, ∃ (a : Action) (first : a.Answer → ThreadProgram α) (answer : a.Answer), P a ∧
      x.leftAt turns t p b e = Program.ask a first ∧ x.toldAt turns (b + e) t a = some answer :=
  done_before before fun still => by
    rw [left] at still
    exact still.1 so

theorem done_before_pure {P Q : Action → Prop} {R : α → Prop} {p : ThreadProgram α} (before : p.Before P Q R)
    {r : α} (left : x.leftAt turns t p b d = Program.pure r) (other : ¬R r) :
    ∃ e < d, ∃ (a : Action) (first : a.Answer → ThreadProgram α) (answer : a.Answer), P a ∧
      x.leftAt turns t p b e = Program.ask a first ∧ x.toldAt turns (b + e) t a = some answer :=
  done_before before fun still => by
    rw [left] at still
    exact other still

/-- What comes in a program once is not done again in a run. -/
theorem not_done_again {P : Action → Prop} {p : ThreadProgram α} (once : p.Once P) {a a' : Action}
    {first : a.Answer → ThreadProgram α} {first' : a'.Answer → ThreadProgram α} {answer : a.Answer} {d' : ℕ}
    (left : x.leftAt turns t p b d = Program.ask a first) (told : x.toldAt turns (b + d) t a = some answer)
    (so : P a) (later : d < d') (left' : x.leftAt turns t p b d' = Program.ask a' first') : ¬P a' := by
  obtain ⟨f, rfl⟩ : ∃ f, d' = d + 1 + f := Nat.exists_eq_add_of_lt later |>.imp fun f same => by omega
  have once := @once_leftAt x turns b t _ P _ once d
  rw [left] at once
  have onward : x.leftAt turns t p b (d + 1) = first answer := leftAt_succ_of_told left told
  have only := @only_leftAt x turns (b + (d + 1)) t _ _ _ _ ((once answer).1 so) f
  rw [leftAt_add, onward] at left'
  rw [left'] at only
  exact only.1

/-- What comes in a program once is done once in a run. -/
theorem done_once {P : Action → Prop} {p : ThreadProgram α} (once : p.Once P) {a a' : Action}
    {first : a.Answer → ThreadProgram α} {first' : a'.Answer → ThreadProgram α} {answer : a.Answer}
    {answer' : a'.Answer} {d' : ℕ} (left : x.leftAt turns t p b d = Program.ask a first)
    (told : x.toldAt turns (b + d) t a = some answer) (so : P a)
    (left' : x.leftAt turns t p b d' = Program.ask a' first')
    (told' : x.toldAt turns (b + d') t a' = some answer') (so' : P a') : d = d' := by
  rcases Nat.lt_trichotomy d d' with earlier | same | later
  · exact absurd so' (not_done_again once left told so earlier left')
  · exact same
  · exact absurd so (not_done_again once left' told' so' later left)

/-- A thread whose program is over does nothing more. -/
theorem programAt_of_pure {i j : ℕ} (le : i ≤ j) (inside : t < (x.machineAt turns i).threads.size)
    (over' : x.programAt turns i t = Program.pure ()) : x.programAt turns j t = Program.pure () := by
  induction le with
  | refl => exact over'
  | step later ih =>
    rcases programAt_succ (Nat.lt_of_lt_of_le inside (x.size_le turns later)) with step | ⟨a, next, here, -⟩
    · rw [step, ih]
      rfl
    · exact nomatch ih.symm.trans here

/-- A thread goes on with a part of what it does that it leaves only to end, if it has not ended. -/
theorem programAt_of_alive {p : ThreadProgram α} {next : α → ThreadProgram Unit}
    (here : x.programAt turns b t = p >>= next) (inside : t < (x.machineAt turns b).threads.size)
    (remains : p.Only (fun a : Action => a = .endThread ∨ a.goesOn = true) fun _ => True)
    (ongoing : ∀ e < d, ∀ r, x.leftAt turns t p b e ≠ Program.pure r) {n : ℕ} (le : b + d ≤ n)
    (alive : x.programAt turns n t ≠ Program.pure ()) :
    x.programAt turns (b + d) t = x.leftAt turns t p b d >>= next := by
  refine (programAt_add here inside ongoing).resolve_right fun ⟨e, _, a, first, left, leaves, ends⟩ => ?_
  have inside' := Nat.lt_of_lt_of_le inside (x.size_le turns (Nat.le_add_right b d))
  have remains := @only_leftAt x turns b t _ _ _ _ remains e
  rw [left] at remains
  have gone := ends (remains.1.resolve_right (Bool.eq_false_iff.1 leaves))
  exact absurd (programAt_of_pure le inside' gone) alive

/-- What is left of such a part is what the thread has to do next. -/
theorem programAt_of_left {p : ThreadProgram α} {next : α → ThreadProgram Unit}
    (here : x.programAt turns b t = p >>= next) (inside : t < (x.machineAt turns b).threads.size)
    (remains : p.Only (fun a : Action => a = .endThread ∨ a.goesOn = true) fun _ => True) {a : Action}
    {first : a.Answer → ThreadProgram α} (left : x.leftAt turns t p b d = Program.ask a first)
    {n : ℕ} (le : b + d ≤ n) (alive : x.programAt turns n t ≠ Program.pure ()) :
    x.programAt turns (b + d) t = Program.ask a fun answer => first answer >>= next := by
  rw [programAt_of_alive here inside remains (fun e before r over' =>
    nomatch left.symm.trans (leftAt_of_pure (Nat.le_of_lt before) over')) le alive, left]
  rfl

/-- So what it is told then it does. -/
theorem does_of_left {p : ThreadProgram α} {next : α → ThreadProgram Unit}
    (here : x.programAt turns b t = p >>= next) (inside : t < (x.machineAt turns b).threads.size)
    (remains : p.Only (fun a : Action => a = .endThread ∨ a.goesOn = true) fun _ => True) {a : Action}
    {first : a.Answer → ThreadProgram α} {answer : a.Answer}
    (left : x.leftAt turns t p b d = Program.ask a first) (told : x.toldAt turns (b + d) t a = some answer)
    {n : ℕ} (le : b + d ≤ n) (alive : x.programAt turns n t ≠ Program.pure ()) :
    x.Does turns (b + d) t a answer :=
  ⟨⟨_, programAt_of_left here inside remains left le alive⟩, told⟩

end Scenario

end Userland

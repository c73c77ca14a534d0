import Userland.Proofs.Runs

/-!
# The history of one thread

What a thread does follows from what it is told: at each time it gets an answer and goes on with it, goes on
with a block, ends, or stays as it is (`Advances`, `Sound.advances`). Other threads change neither its program
nor what it has, nor what it has to see to.
-/

namespace Userland

namespace Program

variable {σ : Signature} {α β : Type}

/-- The program after the answers that it may get. -/
def advance (told : ∀ r, Option (σ.Answer r)) : Program σ α → Program σ α
  | pure x => pure x
  | ask r next => (told r).elim (ask r next) next

/-- A program that is not over goes on in its first part. -/
theorem advance_bind {told : ∀ r, Option (σ.Answer r)} {p : Program σ α} (ongoing : ∀ x, p ≠ pure x)
    (f : α → Program σ β) : (p >>= f).advance told = p.advance told >>= f := by
  cases p with
  | pure x => exact absurd rfl (ongoing x)
  | ask r next =>
    change (told r).elim _ _ = (told r).elim _ _ >>= f
    cases told r <;> rfl

/-- What is done first in two parts is done in the first part, if that is not over. -/
theorem asks_of_bind {p : Program σ α} {f : α → Program σ β} {r : σ.Request} {next : σ.Answer r → Program σ β}
    (ongoing : ∀ x, p ≠ pure x) (asks : p >>= f = ask r next) :
    ∃ first, p = ask r first ∧ next = fun answer => first answer >>= f := by
  cases p with
  | pure x => exact absurd rfl (ongoing x)
  | ask r' first =>
    obtain ⟨rfl, same⟩ := Program.ask.inj asks
    exact ⟨first, rfl, (eq_of_heq same).symm⟩

/-- Two parts are not over if the first is not. -/
theorem bind_ne_pure {p : Program σ α} (ongoing : ∀ x, p ≠ pure x) (f : α → Program σ β) (y : β) :
    p >>= f ≠ pure y := by
  intro same
  cases p with
  | pure x => exact ongoing x rfl
  | ask r next => cases same

end Program

/-- Whether a thread that does something goes on with what it was about to do, once it has an answer. -/
def Action.goesOn : Action → Bool
  | .endThread | .goto _ => false
  | _ => true

/-- Who gets an answer goes on with it. -/
theorem Action.goesOn_of_answer {a : Action} (answer : a.Answer) : a.goesOn = true := by
  cases a <;> first | rfl | cases answer

theorem Action.eq_none_of_leaves {a : Action} (leaves : a.goesOn = false) (told : Option a.Answer) :
    told = none := by
  cases told with
  | none => rfl
  | some answer => exact absurd (goesOn_of_answer answer) (Bool.eq_false_iff.1 leaves)

namespace Machine

variable {env : Environment} {m m' : Machine} {t u : Tid}

/-- The machine after an attempt. -/
def Attempt.machine {α : Type} : Attempt α → Machine
  | .done _ m _ | .wait m | .unanswered m => m

/-- The threads of a machine are as they were, but for their status. -/
structure Resembles (m m' : Machine) (t : Tid) : Prop where
  /-- A thread has the same to do. -/
  program : (m'.thread t).program = (m.thread t).program
  /-- A thread has the same for itself. -/
  own : (m'.thread t).own = (m.thread t).own

theorem Resembles.of_eq (same : m'.thread t = m.thread t) : Resembles m m' t :=
  ⟨by rw [same], by rw [same]⟩

/-- A wakeup leaves a thread as it was, or wakes it. -/
theorem thread_wake_eq (m : Machine) (t u : Tid) :
    (m.wake u).1.thread t = m.thread t ∨ (m.wake u).1.thread t = (m.thread t).woken := by
  rw [thread_wake]
  by_cases same : t = u
  · rw [same, Function.update_self]
    exact .inr rfl
  · exact .inl (Function.update_of_ne same ..)

theorem Resembles.of_woken (same : m'.thread t = m.thread t ∨ m'.thread t = (m.thread t).woken) :
    Resembles m m' t := by
  rcases same with same | same
  · exact .of_eq same
  · exact ⟨by rw [same, Thread.program_woken], by rw [same, Thread.own_woken]⟩

theorem resembles_wake (m : Machine) (t u : Tid) : Resembles m (m.wake u).1 t :=
  .of_woken (m.thread_wake_eq t u)

/-- Threads are made by spawning only. -/
theorem size_attempt_of_ne_spawn {a : Action}
    (other : ∀ name priority start, a ≠ .spawn name priority start) :
    (m.attempt env u a).machine.threads.size = m.threads.size := by
  cases a with
  | spawn name priority start => exact absurd rfl (other name priority start)
  | device r => simp [attempt, Attempt.machine]
  | unblock v => exact (m.wake_frame v).1
  | endThread => simp [attempt, Attempt.machine, finish]
  | goto block => exact size_setThread ..
  | receive c =>
    simp only [attempt]
    rcases (m.channel c).receive u with ⟨_ | value, x⟩ <;> rfl
  | lock l =>
    simp only [attempt]
    rcases (m.lock l).tryLock u with ⟨_ | _, x⟩ <;> rfl
  | lockRegistry family =>
    simp only [attempt]
    split <;> rfl
  | _ => rfl

variable (env m u) in
/-- No thread is lost in an attempt. -/
theorem size_attempt (lives : env.stillborn = []) (a : Action) :
    m.threads.size ≤ (m.attempt env u a).machine.threads.size := by
  cases a with
  | spawn name priority start =>
    simp only [attempt, spawnThread, lives, List.not_mem_nil, if_false]
    split <;> simp [Attempt.machine, settleChannel, setChannel, addThread]
  | _ => exact Nat.le_of_eq (size_attempt_of_ne_spawn fun _ _ _ same => by cases same).symm

/-- An attempt leaves a thread as it was, or wakes it, save its own if it asks a device for something, ends or
    leaves its program. -/
theorem thread_attempt {a : Action} (apart : t ≠ u ∨ (∀ r, a ≠ .device r) ∧ a.goesOn = true)
    (old : ∀ name priority start, a = .spawn name priority start →
      env.stillborn = [] ∧ t < m.threads.size) :
    (m.attempt env u a).machine.thread t = m.thread t ∨
      (m.attempt env u a).machine.thread t = (m.thread t).woken := by
  cases a with
  | device r =>
    have other : t ≠ u := apart.resolve_right fun neither => neither.1 r rfl
    exact .inl (thread_setThread_of_ne other _)
  | spawn name priority start =>
    obtain ⟨lives, inside⟩ := old name priority start rfl
    refine .inl ?_
    simp only [attempt, spawnThread, lives, List.not_mem_nil, if_false]
    split
    · rfl
    · change (m.addThread (env.startProcess start)).2.thread t = _
      rw [thread_addThread, Function.update_of_ne (Nat.ne_of_lt inside)]
  | unblock v => exact m.thread_wake_eq t v
  | endThread | goto block =>
    have other : t ≠ u := apart.resolve_right (by rintro ⟨-, ⟨⟩⟩)
    exact .inl (thread_setThread_of_ne other _)
  | receive c =>
    simp only [attempt]
    rcases (m.channel c).receive u with ⟨_ | value, x⟩ <;> exact .inl rfl
  | lock l =>
    simp only [attempt]
    rcases (m.lock l).tryLock u with ⟨_ | _, x⟩ <;> exact .inl rfl
  | lockRegistry family =>
    simp only [attempt]
    split <;> exact .inl rfl
  | _ => exact .inl rfl

theorem resembles_attempt (lives : env.stillborn = []) {a : Action} (inside : t < m.threads.size)
    (apart : t ≠ u ∨ (∀ r, a ≠ .device r) ∧ a.goesOn = true) :
    Resembles m (m.attempt env u a).machine t :=
  .of_woken (thread_attempt apart fun _ _ _ _ => ⟨lives, inside⟩)

theorem step_of_ask {a : Action} {next : a.Answer → ThreadProgram Unit}
    (awake : (m.thread t).status = .awake) (does : (m.thread t).program = Program.ask a next) :
    m.step env t = settleAttempt t next (m.attempt env t a) := by
  simp only [step, awake, does]

theorem thread_settleAttempt {α : Type} (next : α → ThreadProgram Unit) (attempt : Attempt α)
    (other : u ≠ t) : (settleAttempt t next attempt).1.thread u = attempt.machine.thread u := by
  cases attempt with
  | done answer m' ready => exact thread_setThread_of_ne other _
  | wait m' => exact thread_setThread_of_ne other _
  | unanswered m' => rfl

/-- A step of another leaves a thread as it was, or wakes it. -/
theorem thread_step (other : t ≠ u)
    (old : ∀ a next, (m.thread u).program = Program.ask a next →
      ∀ name priority start, a = .spawn name priority start → env.stillborn = [] ∧ t < m.threads.size) :
    (m.step env u).1.thread t = m.thread t ∨ (m.step env u).1.thread t = (m.thread t).woken := by
  by_cases status : (m.thread u).status = .awake
  swap
  · obtain ⟨th, -, stepped⟩ := step_of_ne_awake env status
    rw [stepped]
    exact .inl (thread_setThread_of_ne other _)
  cases does : (m.thread u).program with
  | pure result =>
    simp only [step, status, does]
    exact .inl (thread_setThread_of_ne other _)
  | ask a next =>
    rw [step_of_ask status does, thread_settleAttempt next _ other]
    exact thread_attempt (.inl other) (old a next does)

/-- A step changes what other threads are doing, and what they have, in no way. -/
theorem resembles_step (lives : env.stillborn = []) (inside : t < m.threads.size) (other : t ≠ u) :
    Resembles m (m.step env u).1 t :=
  .of_woken (thread_step other fun _ _ _ _ _ _ _ => ⟨lives, inside⟩)

/-- The answer that thread `t` gets at a turn to what it may be about to do. -/
def told (env : Environment) (m : Machine) (turn : Turn) (t : Tid) (a : Action) : Option a.Answer :=
  match turn with
  | .step u =>
    if m.stopped.isNone ∧ u = t ∧ (m.thread t).status = .awake then m.answer? env t a else none
  | .wake _ => none

theorem child?_of_answer? (lives : env.stillborn = []) {a : Action} {answer : a.Answer}
    (answered : m.answer? env u a = some answer) {child : Tid} {start : NewProcess}
    (made : a.child? answer = some (child, start)) : child = m.threads.size := by
  cases a with
  | spawn name priority start' =>
    rw [answer?_spawn lives] at answered
    obtain rfl := Option.some.inj answered
    split at made <;> cases made
    rfl
  | _ => cases made

end Machine

/-! ## One thread -/

/-- What may become of a thread at a time, from what it does and how it stands, given what it is told and
    what blocks there are. -/
inductive Advances (blocks : ℕ → ThreadProgram Unit) (told : ∀ a : Action, Option a.Answer) :
    ThreadProgram Unit → Standing → ThreadProgram Unit → Standing → Prop where
  /-- It stays as it is. -/
  | rest {p : ThreadProgram Unit} {s : Standing} :
    (∀ a next, p = Program.ask a next → told a = none) → Advances blocks told p s p s
  /-- It gets an answer. -/
  | go {a : Action} {next : a.Answer → ThreadProgram Unit} {answer : a.Answer} {s s' : Standing} :
    told a = some answer → Allowed a s → Follows a s answer s' →
      Advances blocks told (Program.ask a next) s (next answer) s'
  /-- It goes on with a block. -/
  | goto {block : ℕ} {next : Empty → ThreadProgram Unit} {s : Standing} : Allowed (.goto block) s →
    Advances blocks told (Program.ask (Action.goto block) next) s (blocks block) s
  /-- It ends. -/
  | finish {next : Empty → ThreadProgram Unit} {s : Standing} :
    Advances blocks told (Program.ask Action.endThread next) s (Program.pure ()) s

namespace Machine

variable {env : Environment} {m m' : Machine} {γ : Tid → Duties} {t u : Tid}

/-- A thread that gets no answer, and does not leave its program, stays as it was. -/
theorem resembles_unanswered (lives : env.stillborn = []) (inside : t < m.threads.size) {a : Action}
    {next : a.Answer → ThreadProgram Unit} (unanswered : m.answer? env t a = none)
    (goesOn : a.goesOn = true) : Resembles m (settleAttempt t next (m.attempt env t a)).1 t := by
  have device (r : DeviceRequest) : a ≠ .device r := by
    rintro rfl
    cases unanswered
  have resembles := resembles_attempt (u := t) lives inside (.inr ⟨device, goesOn⟩)
  have size := size_attempt env m t lives a
  cases attempted : m.attempt env t a with
  | done answer m' ready => simp [answer?, attempted] at unanswered
  | wait m' =>
    rw [attempted] at resembles size
    have inside' : t < m'.threads.size := Nat.lt_of_lt_of_le inside size
    refine ⟨?_, ?_⟩
    · rw [settleAttempt, thread_setThread inside', Function.update_self]
      exact resembles.program
    · rw [settleAttempt, thread_setThread inside', Function.update_self]
      exact resembles.own
  | unanswered m' =>
    rw [attempted] at resembles
    exact resembles

/-- A step of a thread that is not awake changes nothing but its status. -/
theorem resembles_step_of_ne_awake (inside : t < m.threads.size)
    (status : (m.thread t).status ≠ .awake) : Resembles m (m.step env t).1 t := by
  obtain ⟨th, dozes, stepped⟩ := step_of_ne_awake env status
  have self : (m.setThread t th).thread t = th := by
    rw [thread_setThread inside, Function.update_self]
  rw [stepped]
  refine ⟨?_, ?_⟩ <;> rw [self] <;> cases dozes <;> rfl

theorem thread_finish (inside : t < m.threads.size) : (m.finish t).thread t =
    { m.thread t with program := .pure (), status := .ended, wakeup := false } := by
  change (m.setThread t _).thread t = _
  rw [thread_setThread inside, Function.update_self]

theorem thread_finish_of_ne {u : Tid} (other : u ≠ t) : (m.finish t).thread u = m.thread u :=
  thread_setThread_of_ne other _

/-- A thread that goes on with a block has nothing else to do. -/
theorem step_goto {block : ℕ} {next : Empty → ThreadProgram Unit} (awake : (m.thread t).status = .awake)
    (does : (m.thread t).program = Program.ask (Action.goto block) next) :
    (m.step env t).1 = m.setThread t { m.thread t with program := env.blocks block } := by
  simp only [step, awake, does, attempt, settleAttempt]

/-- What a thread has to see to after an action, unless the action has made it. -/
theorem dutiesAfter_apply {a : Action} {answer : a.Answer}
    (old : ∀ child start, a.child? answer = some (child, start) → t ≠ child) :
    a.dutiesAfter answer u γ t = Function.update γ u (a.after answer (γ u)) t := by
  unfold Action.dutiesAfter
  cases made : a.child? answer with
  | none => rfl
  | some record => exact Function.update_of_ne (old record.1 record.2 made) ..

/-- Other threads have to see to the same after a step. -/
theorem dutiesAfter_of_ne (lives : env.stillborn = []) (inside : t < m.threads.size) (other : t ≠ u) :
    m.dutiesAfter env u γ t = γ t := by
  cases status : (m.thread u).status with
  | asleep | ended | parking => simp only [dutiesAfter, status]
  | awake =>
    cases does : (m.thread u).program with
    | pure result => simp only [dutiesAfter, status, does]
    | ask a next =>
      cases answered : m.answer? env u a with
      | none => simp only [dutiesAfter, status, does, answered, Option.elim_none]
      | some answer =>
        simp only [dutiesAfter, status, does, answered, Option.elim_some]
        rw [dutiesAfter_apply fun child start made => ?_, Function.update_of_ne other]
        exact child?_of_answer? lives answered made ▸ Nat.ne_of_lt inside

end Machine

/-- A thread that resembles what it was has stayed as it is. -/
theorem Advances.stay {blocks : ℕ → ThreadProgram Unit} {told : ∀ a : Action, Option a.Answer}
    {m m' : Machine} {t : Tid} {γ γ' : Tid → Duties} (resembles : Machine.Resembles m m' t) (duties : γ' t = γ t)
    (silent : ∀ a next, (m.thread t).program = Program.ask a next → told a = none) :
    Advances blocks told (m.thread t).program (m.standing γ t) (m'.thread t).program
      (m'.standing γ' t) := by
  have same : m'.standing γ' t = m.standing γ t := by
    rw [Machine.standing, Machine.standing, resembles.own, duties]
  rw [same, resembles.program]
  exact .rest silent

namespace Sound

variable {env : Environment} {m : Machine} {γ : Tid → Duties} {t : Tid} {a : Action}

/-- What is promised of an answer holds of the answer that a thread gets. -/
theorem promise (h : Sound m γ) (lives : env.stillborn = []) {answer : a.Answer}
    (answered : m.answer? env t a = some answer) : a.Promise (m.standing γ t) answer := by
  cases a with
  | newChannel =>
    obtain rfl := Option.some.inj answered
    exact h.unmade t
  | spawn name priority start =>
    rw [Machine.answer?_spawn lives] at answered
    obtain rfl := Option.some.inj answered
    intro child same
    split at same
    · cases same
    · rename_i room
      obtain rfl := Option.some.inj same
      exact ⟨Nat.not_le.1 fun le => room (.inr le), h.unrecorded t⟩
  | _ => trivial

/-- A thread that gets an answer stands as the rules say. -/
theorem follows (h : Sound m γ) (lives : env.stillborn = []) {next : a.Answer → ThreadProgram Unit}
    (awake : (m.thread t).status = .awake) (does : (m.thread t).program = Program.ask a next)
    {answer : a.Answer} (answered : m.answer? env t a = some answer) :
    ((m.step env t).1.thread t).program = next answer ∧
      Follows a (m.standing γ t) answer ((m.step env t).1.standing (m.dutiesAfter env t γ) t) := by
  have inside := m.lt_size_of_status (t := t) (by simp [awake])
  have duties : m.dutiesAfter env t γ t = a.after answer (γ t) := by
    simp only [Machine.dutiesAfter, awake, does, answered, Option.elim_some]
    rw [Machine.dutiesAfter_apply fun child start made => ?_, Function.update_self]
    exact Machine.child?_of_answer? lives answered made ▸ Nat.ne_of_lt inside
  obtain ⟨m', ready, attempted⟩ : ∃ m' ready, m.attempt env t a = .done answer m' ready := by
    unfold Machine.answer? at answered
    split at answered
    · rename_i attempted
      obtain rfl := Option.some.inj answered
      exact ⟨_, _, attempted⟩
    · cases answered
    · cases answered
  have size : t < m'.threads.size := by
    have more := Machine.size_attempt env m t lives a
    rw [attempted] at more
    exact Nat.lt_of_lt_of_le inside more
  simp only [Machine.standing, duties, Machine.step, awake, does, attempted, Machine.settleAttempt,
    Machine.thread_setThread size, Function.update_self]
  refine ⟨trivial, ?_⟩
  -- Only what is asked of a device may change what the thread has, and the rules say how.
  by_cases device : ∃ r, a = .device r
  · obtain ⟨r, rfl⟩ := device
    obtain ⟨same, after, -⟩ := Machine.Attempt.done.inj attempted
    have own : (m'.thread t).own = (r.serve (m.thread t).own m.devices).2.1 := by
      rw [← after]
      change ((m.setThread t _).thread t).own = _
      rw [Machine.thread_setThread inside, Function.update_self]
      rfl
    rw [own, ← same]
    exact .device r (m.standing γ t) m.devices
  · have other (r : DeviceRequest) : a ≠ .device r := fun same => device ⟨r, same⟩
    have resembles := Machine.resembles_attempt (u := t) lives inside
      (.inr ⟨other, Action.goesOn_of_answer answer⟩)
    rw [attempted] at resembles
    rw [show (m'.thread t).own = (m.thread t).own from resembles.own]
    exact .act a (m.standing γ t) answer other (h.promise lives answered)

/-- A thread that gets no answer waits, unless it leaves its program: then it ends, or goes on elsewhere. -/
theorem advances_unanswered (h : Sound m γ) (lawful : env.Lawful) {next : a.Answer → ThreadProgram Unit}
    (awake : (m.thread t).status = .awake) (does : (m.thread t).program = Program.ask a next)
    (unanswered : m.answer? env t a = none) :
    Advances env.blocks (m.told env (.step t) t) (m.thread t).program (m.standing γ t)
      ((m.step env t).1.thread t).program ((m.step env t).1.standing (m.dutiesAfter env t γ) t) := by
  have inside := m.lt_size_of_status (t := t) (by simp [awake])
  have duties : m.dutiesAfter env t γ = γ := by
    simp only [Machine.dutiesAfter, awake, does, unanswered, Option.elim_none]
  cases goesOn : a.goesOn with
  | true =>
    refine .stay ?_ (by rw [duties]) fun b next' asks => ?_
    · simp only [Machine.step, awake, does]
      exact Machine.resembles_unanswered lawful.lives inside unanswered goesOn
    · obtain rfl : a = b := (Program.ask.inj (does.symm.trans asks)).1
      simp only [Machine.told, unanswered, ite_self]
  | false =>
    rw [does]
    cases a with
    | endThread =>
      have after : (m.step env t).1.thread t = (m.finish t).thread t := by
        simp only [Machine.step, awake, does]
        rfl
      have same : (m.step env t).1.standing γ t = m.standing γ t := by
        rw [Machine.standing, after, Machine.thread_finish inside]
        rfl
      rw [duties, same, after, Machine.thread_finish inside]
      exact .finish
    | goto block =>
      have after : (m.step env t).1.thread t = { m.thread t with program := env.blocks block } := by
        rw [Machine.step_goto awake does, Machine.thread_setThread inside, Function.update_self]
      have same : (m.step env t).1.standing γ t = m.standing γ t := by
        rw [Machine.standing, after]
        rfl
      rw [duties, same, after]
      exact .goto (h.allowed does).1
    | _ => cases goesOn

/-- When a thread makes a step it gets the answer that it is told, goes on with a block, ends, or stays as it
    is. -/
theorem advances_step (h : Sound m γ) (lawful : env.Lawful) (inside : t < m.threads.size)
    (running : m.stopped.isNone = true) :
    Advances env.blocks (m.told env (.step t) t) (m.thread t).program (m.standing γ t)
      ((m.step env t).1.thread t).program ((m.step env t).1.standing (m.dutiesAfter env t γ) t) := by
  by_cases awake : (m.thread t).status = .awake
  swap
  · refine .stay (Machine.resembles_step_of_ne_awake inside awake) ?_ fun a next _ => ?_
    · cases status : (m.thread t).status with
      | awake => exact absurd status awake
      | asleep | ended | parking => simp only [Machine.dutiesAfter, status]
    · simp [Machine.told, awake]
  cases does : (m.thread t).program with
  | pure result =>
    have after : (m.step env t).1.thread t = (m.finish t).thread t := by
      simp only [Machine.step, awake, does]
    rw [← does]
    refine .stay ⟨?_, ?_⟩ ?_ fun a next asks => by cases does.symm.trans asks
    · rw [after, Machine.thread_finish inside, does]
    · rw [after, Machine.thread_finish inside]
    · simp only [Machine.dutiesAfter, awake, does]
  | ask a next =>
    have told : m.told env (.step t) t a = m.answer? env t a := by
      simp only [Machine.told, running, awake, and_self, if_true]
    cases answered : m.answer? env t a with
    | some answer =>
      have gone := h.follows lawful.lives awake does answered
      rw [gone.1]
      exact .go (told.trans answered) (h.allowed does).1 gone.2
    | none =>
      rw [← does]
      exact h.advances_unanswered lawful awake does answered

/-- At each turn a thread gets the answer that it is told, goes on with a block, ends, or stays as it is. -/
theorem advances (h : Sound m γ) (lawful : env.Lawful) (turn : Turn) (inside : t < m.threads.size) :
    Advances env.blocks (m.told env turn t) (m.thread t).program (m.standing γ t)
      ((m.turn env turn).thread t).program
      ((m.turn env turn).standing (m.dutiesAfterTurn env turn γ) t) := by
  unfold Machine.turn Machine.dutiesAfterTurn
  split
  · rename_i stopped
    have stopped : m.stopped.isNone = false := by
      rw [← Option.not_isSome, stopped]
      rfl
    refine .stay (.of_eq rfl) rfl fun a next _ => ?_
    cases turn with
    | wake u => rfl
    | step u => simp only [Machine.told, stopped, Bool.false_eq_true, false_and, if_false]
  · rename_i running
    cases turn with
    | wake u => exact .stay (m.resembles_wake t u) rfl fun _ _ _ => rfl
    | step u =>
      by_cases same : t = u
      · subst same
        refine h.advances_step lawful inside ?_
        rw [← Option.not_isSome]
        simpa using running
      · refine .stay (Machine.resembles_step lawful.lives inside same)
          (Machine.dutiesAfter_of_ne lawful.lives inside same) fun a next _ => ?_
        simp [Machine.told, Ne.symm same]

end Sound

theorem Machine.size_settleAttempt {u : Tid} {α : Type} {next : α → ThreadProgram Unit}
    {attempt : Attempt α} :
    (settleAttempt u next attempt).1.threads.size = attempt.machine.threads.size := by
  cases attempt with
  | done answer m' ready => exact size_setThread ..
  | wait m' => exact size_setThread ..
  | unanswered m' => rfl

namespace Devices

/-- An event is on record as the last of its thread. -/
theorem activations_note (d : Devices) (u : Tid) (e : Event) (t : Tid) :
    (d.note u e).activations t = d.activations t ++ (match e with
      | .activate root => if u = t then [root] else []
      | _ => []) := by
  simp only [activations, note, List.reverse_cons, List.filterMap_append, List.filterMap_cons, List.filterMap_nil]
  cases e with
  | activate root => by_cases same : u = t <;> simp [same]
  | _ => rfl

/-- Two states of the devices are the same, but for reports and for events that have to do with no device. -/
structure Idle (d d' : Devices) : Prop where
  /-- The frames. -/
  pool : d'.pool = d.pool
  /-- The files. -/
  volume : d'.volume = d.volume
  /-- How many spaces were made. -/
  spacesMade : d'.spacesMade = d.spacesMade
  /-- How many frames came back with interrupts off. -/
  freed : d'.freedWithInterruptsOff = d.freedWithInterruptsOff
  /-- What threads have activated. -/
  activations : ∀ t, d'.activations t = d.activations t

namespace Idle

theorem refl (d : Devices) : d.Idle d := ⟨rfl, rfl, rfl, rfl, fun _ => rfl⟩

theorem report (d : Devices) (r : Report) : d.Idle (d.report r) := ⟨rfl, rfl, rfl, rfl, fun _ => rfl⟩

theorem note {e : Event} (d : Devices) (u : Tid) (other : ∀ root, e ≠ .activate root) : d.Idle (d.note u e) := by
  refine ⟨rfl, rfl, rfl, rfl, fun t => ?_⟩
  rw [activations_note]
  cases e with
  | activate root => exact absurd rfl (other root)
  | _ => exact List.append_nil _

end Idle

end Devices

namespace Machine

variable {env : Environment} {m m' : Machine} {u : Tid} {what : Turn} {a : Action}
  {next : a.Answer → ThreadProgram Unit}

/-- At a turn a thread attempts an action. -/
structure Attempts (m : Machine) (what : Turn) (u : Tid) (a : Action)
    (next : a.Answer → ThreadProgram Unit) : Prop where
  /-- The machine goes on. -/
  running : m.stopped = none
  /-- It is the thread's turn. -/
  steps : what = .step u
  /-- The thread is awake. -/
  awake : (m.thread u).status = .awake
  /-- It is about to do that. -/
  does : (m.thread u).program = Program.ask a next

/-- A thread attempts one action at a turn. -/
theorem Attempts.unique (h : m.Attempts what u a next) {v : Tid} {a' : Action}
    {next' : a'.Answer → ThreadProgram Unit} (h' : m.Attempts what v a' next') : u = v ∧ a = a' := by
  obtain rfl := Turn.step.inj (h.steps.symm.trans h'.steps)
  exact ⟨rfl, (Program.ask.inj (h.does.symm.trans h'.does)).1⟩

/-- Channels and devices are the same in two machines. -/
structure SameShared (m m' : Machine) : Prop where
  /-- The channels. -/
  channels : m'.channels = m.channels
  /-- The devices. -/
  devices : m.devices.Idle m'.devices

theorem sameShared_wake (m : Machine) (u : Tid) : m.SameShared (m.wake u).1 :=
  have frame := m.wake_frame u
  ⟨frame.2.2.1, frame.2.1 ▸ .refl m.devices⟩

variable (env m what) in
/-- At a turn a thread attempts an action, or nothing becomes of what is shared. -/
theorem turn_cases :
    (∃ u a next, m.Attempts what u a next ∧
      m.turn env what = (settleAttempt u next (m.attempt env u a)).1) ∨
    m.SameShared (m.turn env what) ∧ ∀ u a next, ¬m.Attempts what u a next := by
  have still {m' : Machine} (channels : m'.channels = m.channels) (devices : m.devices.Idle m'.devices)
      (nobody : ∀ u a next, ¬m.Attempts what u a next) :
      m.SameShared m' ∧ ∀ u a next, ¬m.Attempts what u a next := ⟨⟨channels, devices⟩, nobody⟩
  cases running : m.stopped with
  | some how =>
    refine .inr ?_
    simp only [turn, running, Option.isSome_some, if_true]
    exact still rfl (.refl _) fun u a next h => by cases running.symm.trans h.running
  | none =>
    simp only [turn, running, Option.isSome_none, Bool.false_eq_true, if_false]
    cases what with
    | wake u =>
      have same := sameShared_wake m u
      exact .inr (still same.channels same.devices fun v a next h => by cases h.steps)
    | step u =>
      have mine {v : Tid} {a : Action} {next : a.Answer → ThreadProgram Unit}
          (h : m.Attempts (.step u) v a next) :
          (m.thread u).status = .awake ∧ (m.thread u).program = Program.ask a next := by
        obtain rfl := Turn.step.inj h.steps
        exact ⟨h.awake, h.does⟩
      by_cases status : (m.thread u).status = .awake
      swap
      · obtain ⟨th, -, stepped⟩ := step_of_ne_awake env status
        simp only [stepped]
        exact .inr (still rfl (.refl _) fun v a next h => status (mine h).1)
      cases does : (m.thread u).program with
      | pure r =>
        refine .inr ?_
        simp only [step, status, does]
        exact still rfl (.report _ _) fun v a next h => by cases does.symm.trans (mine h).2
      | ask a next =>
        refine .inl ⟨u, a, next, ⟨running, rfl, status, does⟩, ?_⟩
        simp only [step, status, does]

/-- An attempt at anything but a request to a device leaves the devices as they are. -/
theorem idle_attempt (other : ∀ r, a ≠ .device r) : m.devices.Idle (m.attempt env u a).machine.devices := by
  cases a with
  | device r => exact absurd rfl (other r)
  | spawn name priority start =>
    simp only [attempt, spawnThread]
    split
    · exact .note _ _ (by rintro _ ⟨⟩)
    · split <;> exact .note _ _ (by rintro _ ⟨⟩)
  | receive c =>
    simp only [attempt]
    split <;> exact .refl _
  | lock l | lockRegistry family =>
    simp only [attempt]
    split <;> exact .refl _
  | unblock v => exact (sameShared_wake m v).devices
  | endThread => exact .report _ _
  | _ => exact .refl _

theorem devices_settleAttempt {α : Type} (next : α → ThreadProgram Unit) (attempt : Attempt α) :
    (settleAttempt u next attempt).1.devices = attempt.machine.devices := by
  cases attempt <;> rfl

variable (env m what) in
/-- At a turn a thread makes a request to a device, or the devices stay as they are. -/
theorem serve_turn :
    (∃ u r next, m.Attempts what u (.device r) next ∧
      (m.turn env what).devices = (r.serve (m.thread u).own m.devices).2.2) ∨
    m.devices.Idle (m.turn env what).devices := by
  rcases m.turn_cases env what with ⟨u, a, next, attempts, turned⟩ | ⟨same, -⟩
  · rw [turned, devices_settleAttempt]
    by_cases other : ∀ r, a ≠ .device r
    · exact .inr (idle_attempt other)
    · simp only [ne_eq, not_forall, not_not] at other
      obtain ⟨r, rfl⟩ := other
      exact .inl ⟨u, r, next, attempts, rfl⟩
  · exact .inr same.devices

end Machine

/-- A step of a thread that is not about to spawn makes no thread. -/
theorem Machine.size_step {env : Environment} {m : Machine} {u : Tid}
    (other : ∀ name priority start next, (m.thread u).status = .awake →
      (m.thread u).program ≠ Program.ask (Action.spawn name priority start) next) :
    (m.step env u).1.threads.size = m.threads.size := by
  by_cases status : (m.thread u).status = .awake
  swap
  · obtain ⟨th, -, stepped⟩ := step_of_ne_awake env status
    rw [stepped]
    exact size_setThread ..
  cases does : (m.thread u).program with
  | pure result =>
    simp only [step, status, does]
    exact size_setThread ..
  | ask a next =>
    simp only [step, status, does]
    rw [size_settleAttempt, size_attempt_of_ne_spawn fun name priority start same => ?_]
    subst same
    exact other name priority start next status does

/-- No thread is lost. -/
theorem Machine.size_turn {env : Environment} {m : Machine} {what : Turn}
    (lives : env.stillborn = []) : m.threads.size ≤ (m.turn env what).threads.size := by
  unfold turn
  split
  · exact Nat.le_refl _
  cases what with
  | wake u => exact Nat.le_of_eq (m.wake_frame u).1.symm
  | step u =>
    by_cases spawns : ∃ name priority start next, (m.thread u).status = .awake ∧
      (m.thread u).program = Program.ask (Action.spawn name priority start) next
    · obtain ⟨name, priority, start, next, awake, does⟩ := spawns
      simp only [step, awake, does]
      rw [size_settleAttempt]
      exact size_attempt env m _ lives _
    · exact Nat.le_of_eq (size_step fun name priority start next awake does =>
        spawns ⟨name, priority, start, next, awake, does⟩).symm

/-- A thread that is made is ready to start what it was made for. -/
theorem Machine.births {env : Environment} {m : Machine} {γ : Tid → Duties} {t : Tid} {what : Turn}
    (lives : env.stillborn = []) (new : m.threads.size ≤ t)
    (made : t < (m.turn env what).threads.size) : ∃ start,
      (m.turn env what).thread t = .ready t (env.startProcess start) ∧
        m.dutiesAfterTurn env what γ t = .fresh (some start) := by
  unfold turn dutiesAfterTurn at *
  split at made
  · exact absurd made (Nat.not_lt.2 new)
  rename_i running
  simp only [running, Bool.false_eq_true, if_false]
  cases what with
  | wake u =>
    simp only [(m.wake_frame u).1] at made
    exact absurd made (Nat.not_lt.2 new)
  | step u =>
    dsimp only at made ⊢
    -- Nothing but a spawn that finds room makes a thread, and it makes the one with the next number.
    by_cases spawns : ∃ name priority start next, (m.thread u).status = .awake ∧
      (m.thread u).program = Program.ask (Action.spawn name priority start) next
    swap
    · rw [size_step fun name priority start next awake does =>
        spawns ⟨name, priority, start, next, awake, does⟩] at made
      exact absurd made (Nat.not_lt.2 new)
    obtain ⟨name, priority, start, next, awake, does⟩ := spawns
    have inside := m.lt_size_of_status (t := u) (by simp [awake])
    simp only [step, awake, does] at made ⊢
    by_cases full : env.spawnFails m.asked ∨ m.threads.size ≥ threadLimit
    · simp only [attempt, spawnThread, if_pos full, settleAttempt, size_setThread] at made
      exact absurd made (Nat.not_lt.2 new)
    · have spawned := Sound.spawns name priority start next lives
        inside full
      rw [spawned.size] at made
      obtain rfl : t = m.threads.size := Nat.le_antisymm (Nat.le_of_lt_succ made) new
      refine ⟨start, ?_, ?_⟩
      · rw [spawned.thread, Function.update_of_ne (Nat.ne_of_gt inside), Function.update_self]
      · simp only [dutiesAfter, awake, does, answer?_spawn lives, if_neg full, Option.elim_some,
          Action.dutiesAfter, Action.child?, Option.map_some, Function.update_self]

/-! ## Over time -/

namespace Scenario

variable (x : Scenario) (turns : ℕ → Turn)

/-- What a thread has yet to do at each time. -/
def programAt (i : ℕ) (t : Tid) : ThreadProgram Unit := ((x.machineAt turns i).thread t).program

/-- How a thread stands at each time. -/
def standingAt (i : ℕ) (t : Tid) : Standing :=
  (x.machineAt turns i).standing (x.dutiesAt turns i) t

/-- What a thread is told at each time. -/
def toldAt (i : ℕ) (t : Tid) (a : Action) : Option a.Answer :=
  (x.machineAt turns i).told x.environment (turns i) t a

/-- No thread is lost in a run. -/
theorem size_le {i j : ℕ} (le : i ≤ j) :
    (x.machineAt turns i).threads.size ≤ (x.machineAt turns j).threads.size := by
  induction le with
  | refl => exact Nat.le_refl _
  | step _ ih => exact Nat.le_trans ih (Machine.size_turn rfl)

/-- What holds of threads before they are made, when they have done nothing, and when they are made, and
    stays true whatever they are told, holds at all times. -/
theorem historyAt (holds : ℕ → Tid → ThreadProgram Unit → Standing → Prop)
    (absent : ∀ i t, (∀ j < i, x.programAt turns j t = Program.pure ()) →
      holds i t (Program.pure ()) ⟨.fresh 0, .fresh none⟩)
    (boot : holds 0 1 (discard (x.kernel.run x.line)) ⟨.fresh 1, .fresh none⟩)
    (starts : ∀ i t start, 1 < t → (∀ j ≤ i, x.programAt turns j t = Program.pure ()) →
      holds (i + 1) t (x.environment.startProcess start) ⟨.fresh t, .fresh (some start)⟩)
    (keeps : ∀ i t p' s', holds i t (x.programAt turns i t) (x.standingAt turns i t) →
      Advances x.environment.blocks (x.toldAt turns i t) (x.programAt turns i t) (x.standingAt turns i t) p' s' →
      holds (i + 1) t p' s')
    (i : ℕ) (t : Tid) : holds i t (x.programAt turns i t) (x.standingAt turns i t) := by
  have nothing {i j : ℕ} {t : Tid} (le : j ≤ i) (outside : (x.machineAt turns i).threads.size ≤ t) :
      x.programAt turns j t = Program.pure () := by
    rw [programAt, Machine.thread_of_size_le (Nat.le_trans (x.size_le turns le) outside)]
    rfl
  induction i generalizing t with
  | zero =>
    rw [programAt, standingAt, Machine.standing, machineAt, x.thread_machine]
    split
    · rename_i first
      exact first ▸ boot
    · exact absent 0 t (by simp)
  | succ i ih =>
    -- A thread was there before, is made at this time, or is still to be made.
    by_cases old : t < (x.machineAt turns i).threads.size
    · exact keeps i t _ _ (ih t) ((x.sound turns i).advances x.lawful (turns i) old)
    have new := Nat.not_lt.1 old
    by_cases inside : t < (x.machineAt turns (i + 1)).threads.size
    · obtain ⟨start, thread, duties⟩ := Machine.births (γ := x.dutiesAt turns i) rfl new inside
      have many : 2 ≤ (x.machineAt turns i).threads.size :=
        Nat.le_trans (Nat.le_of_eq x.size_machine.symm) (x.size_le turns (Nat.zero_le i))
      have later : 1 < t := Nat.le_trans many new
      rw [programAt, standingAt, Machine.standing, machineAt, dutiesAt, thread, duties]
      exact starts i t start later fun j le => nothing le new
    · have outside := Nat.not_lt.1 inside
      rw [programAt, standingAt, (x.sound turns (i + 1)).channels.beyond t outside,
        Machine.thread_of_size_le outside]
      exact absent (i + 1) t fun j before => nothing (Nat.le_of_lt before) outside

/-- What holds whatever a thread has done before. -/
theorem history (holds : Tid → ThreadProgram Unit → Standing → Prop)
    (absent : ∀ t, holds t (Program.pure ()) ⟨.fresh 0, .fresh none⟩)
    (boot : holds 1 (discard (x.kernel.run x.line)) ⟨.fresh 1, .fresh none⟩)
    (starts : ∀ t start, 1 < t →
      holds t (x.environment.startProcess start) ⟨.fresh t, .fresh (some start)⟩)
    (keeps : ∀ t told p s p' s', holds t p s → Advances x.environment.blocks told p s p' s' →
      holds t p' s')
    (i : ℕ) (t : Tid) : holds t (x.programAt turns i t) (x.standingAt turns i t) :=
  x.historyAt turns (fun _ => holds) (fun _ t _ => absent t) boot
    (fun _ t start later _ => starts t start later) (fun _ t => keeps t _ _ _) i t

end Scenario

end Userland

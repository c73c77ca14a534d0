import Userland.Proofs.Composition
import Userland.Proofs.Histories

/-!
# Calls in runs

At each time a thread is in the midst of a call, or what it has yet to do is composed of plain actions and
calls (`Scenario.Stage`). While it is in a call it begins no other, and it is in a call only if it has begun
it. A process exits once, with the status that it has asked for in a system call, or with -1 if it was
killed.
-/

namespace Userland

open ThreadProgram

/-- A part of what a thread does that the thread does not leave before it is over. -/
abbrev ThreadProgram.Remains {α : Type} (p : ThreadProgram α) : Prop :=
  p.Only (fun a : Action => a.goesOn = true) fun _ => True

/-- A thread leaves a call only to end. -/
theorem KernelCall.remains (k : Kernel) (c : KernelCall) :
    (c.program k).Only (fun a : Action => a = .endThread ∨ a.goesOn = true) fun _ => True :=
  c.inCall_program.mono (fun a may => by cases a <;> first | exact .inr rfl | exact .inl rfl | exact may.elim)
    fun _ => id

namespace Program

variable {k : Kernel} {α β : Type} {p : ThreadProgram α} {told : ∀ a : Action, Option a.Answer}

theorem Only.advance {P : Action → Prop} {R : α → Prop} (only : p.Only P R) :
    (p.advance told).Only P R := by
  cases p with
  | pure x => exact only
  | ask a next =>
    change ((told a).elim (Program.ask a next) next).Only P R
    cases told a with
    | none => exact only
    | some answer => exact only.2 answer

theorem Inside.advance (inside : p.Inside k) : (p.advance told).Inside k := by
  cases p with
  | pure x => exact inside
  | ask a next =>
    change ((told a).elim (Program.ask a next) next).Inside k
    cases told a with
    | none => exact inside
    | some answer => exact inside.2 answer

/-- A thread in a call does not begin another. -/
theorem Inside.not_calls (inside : p.Inside k) (ongoing : ∀ r, p ≠ Program.pure r)
    (rest : α → ThreadProgram β) (c : KernelCall) : ¬Program.Calls k c (p >>= rest) := by
  cases p with
  | pure r => exact absurd rfl (ongoing r)
  | ask a next => exact inside.1 β rest c

end Program

section

variable {blocks : ℕ → ThreadProgram Unit} {told : ∀ a : Action, Option a.Answer} {p p' : ThreadProgram Unit}
  {s s' : Standing}

/-- A thread goes on with the answer that it is told, unless it leaves its program. -/
theorem Advances.program (advances : Advances blocks told p s p' s') :
    p' = p.advance told ∨
      ∃ a next, p = Program.ask a next ∧ a.goesOn = false ∧ (a = .endThread → p' = Program.pure ()) := by
  cases advances with
  | rest silent =>
    refine .inl ?_
    cases p with
    | pure x => rfl
    | ask a next =>
      change _ = (told a).elim _ _
      rw [silent a next rfl]
      rfl
  | @go a next answer s s' same =>
    refine .inl ?_
    change _ = (told a).elim _ _
    rw [same]
    rfl
  | goto => exact .inr ⟨_, _, rfl, rfl, nofun⟩
  | finish => exact .inr ⟨_, _, rfl, rfl, fun _ => rfl⟩

/-- What a part of what a thread does has for itself goes on with the part, if the thread does not leave it. -/
theorem Advances.part {α : Type} {a : Action} {first : a.Answer → ThreadProgram α}
    {next : α → ThreadProgram Unit} {K : ThreadProgram α → Standing → Prop}
    (advances : Advances blocks told p s p' s')
    (before : p = Program.ask a first >>= next) (after : p' = (Program.ask a first).advance told >>= next)
    (keeps : K (Program.ask a first) s)
    (step : ∀ answer s', Allowed a s → Follows a s answer s' → K (first answer) s') :
    K ((Program.ask a first).advance told) s' := by
  rw [Program.advance] at after ⊢
  cases advances with
  | rest silent =>
    rw [silent a _ before]
    exact keeps
  | @go a' _ answer _ _ same allowed follows =>
    obtain ⟨rfl, -⟩ := Program.ask.inj before
    rw [same]
    exact step answer s' allowed follows
  | goto | finish =>
    obtain ⟨rfl, -⟩ := Program.ask.inj before
    rw [Action.eq_none_of_leaves rfl (told _)]
    exact keeps

end

namespace Scenario

variable (x : Scenario) (turns : ℕ → Turn)

/-! ## What happens in a run -/

/-- A thread makes a step at a time. -/
def Goes (i : ℕ) (t : Tid) : Prop :=
  (x.machineAt turns i).stopped = none ∧ turns i = .step t ∧
    ((x.machineAt turns i).thread t).status = .awake

/-- A thread does something at a time, and gets an answer. -/
def Does (i : ℕ) (t : Tid) (a : Action) (answer : a.Answer) : Prop :=
  (∃ next, x.programAt turns i t = Program.ask a next) ∧ x.toldAt turns i t a = some answer

/-- A process asks in a system call to exit with a status. -/
def AsksExit (i : ℕ) (t : Tid) (status : Int32) : Prop :=
  ∃ esp, x.Does turns i t (.device (.decode esp)) (.ok (.exit status))

/-- A thread begins a call at a time. -/
def Begins (i : ℕ) (t : Tid) (c : KernelCall) : Prop :=
  x.Goes turns i t ∧ (x.programAt turns i t).Calls x.kernel c

/-- What is left of a part of what a thread does after some turns, if it comes to it at time `i`. -/
def leftAt {α : Type} (t : Tid) (p : ThreadProgram α) (i : ℕ) : ℕ → ThreadProgram α
  | 0 => p
  | d + 1 => (leftAt t p i d).advance (x.toldAt turns (i + d) t)

/-- The call that a thread begins at time `i` has given a result by time `j`. -/
def Gives (t : Tid) (c : KernelCall) (i : ℕ) (r : c.Result) (j : ℕ) : Prop :=
  x.Begins turns i t c ∧
    ∃ d, j = i + d ∧ x.leftAt turns t (c.program x.kernel) i d = Program.pure r

/-! ## Stages -/

/-- Where a thread is at a time, with `p` yet to do. -/
inductive Stage (i : ℕ) (t : Tid) (asked : Option Int32) (p : ThreadProgram Unit) : Prop where
  /-- It is in no call. -/
  | between : Composed x.kernel (fun _ _ => True) asked p → Stage i t asked p
  /-- It is in the midst of a call that it began at time `b`. -/
  | inCall (c : KernelCall) (b d : ℕ) (next : c.Result → ThreadProgram Unit) : x.Begins turns b t c →
    i = b + (d + 1) → p = x.leftAt turns t (c.program x.kernel) b (d + 1) >>= next →
    (∀ r, x.leftAt turns t (c.program x.kernel) b (d + 1) ≠ Program.pure r) →
    (x.leftAt turns t (c.program x.kernel) b (d + 1)).Inside x.kernel →
    (∀ r, Composed x.kernel (fun _ _ => True) asked (next r)) → Stage i t asked p

variable {x} {turns} {i : ℕ} {t : Tid}

theorem goes_of_attempts {a : Action} {next : a.Answer → ThreadProgram Unit}
    (attempts : (x.machineAt turns i).Attempts (turns i) t a next) : x.Goes turns i t :=
  ⟨attempts.running, attempts.steps, attempts.awake⟩

/-- Who is told something makes a step. -/
theorem goes_of_told {a : Action} {answer : a.Answer} (told : x.toldAt turns i t a = some answer) :
    x.Goes turns i t := by
  simp only [toldAt, Machine.told] at told
  split at told
  · rename_i u same
    split at told
    · rename_i goes
      obtain ⟨running, rfl, awake⟩ := goes
      exact ⟨by simpa using running, same, awake⟩
    · cases told
  · cases told

theorem Does.goes {a : Action} {answer : a.Answer} (does : x.Does turns i t a answer) :
    x.Goes turns i t := goes_of_told does.2

/-- What a thread that makes a step is told. -/
theorem Goes.told (goes : x.Goes turns i t) (a : Action) :
    x.toldAt turns i t a = (x.machineAt turns i).answer? x.environment t a := by
  obtain ⟨running, steps, awake⟩ := goes
  simp only [toldAt, Machine.told, steps, running, awake, Option.isNone_none, and_self, if_true]

/-- What a thread that makes a step comes to. -/
theorem machineAt_of_goes (goes : x.Goes turns i t) :
    x.machineAt turns (i + 1) = ((x.machineAt turns i).step x.environment t).1 := by
  obtain ⟨running, steps, -⟩ := goes
  change (x.machineAt turns i).turn x.environment (turns i) = _
  unfold Machine.turn
  simp only [running, steps, Option.isSome_none, Bool.false_eq_true, if_false]

theorem only_leftAt {α : Type} {P : Action → Prop} {R : α → Prop} {p : ThreadProgram α}
    (only : p.Only P R) (d : ℕ) : (x.leftAt turns t p i d).Only P R := by
  induction d with
  | zero => exact only
  | succ d ih => exact ih.advance

/-- What has been told so far of the exit status that a process asks for. -/
def Knows (x : Scenario) (turns : ℕ → Turn) (i : ℕ) (t : Tid) (asked : Option Int32) : Prop :=
  ∀ status, (∃ j < i, x.AsksExit turns j t status) ↔ asked = some status

theorem Knows.next {asked : Option Int32} (knows : Knows x turns i t asked)
    (silent : ∀ status, ¬x.AsksExit turns i t status) : Knows x turns (i + 1) t asked := by
  intro status
  rw [← knows status]
  constructor
  · rintro ⟨j, before, asks⟩
    rcases Nat.lt_succ_iff_lt_or_eq.1 before with before | rfl
    · exact ⟨j, before, asks⟩
    · exact absurd asks (silent status)
  · rintro ⟨j, before, asks⟩
    exact ⟨j, Nat.lt_succ_of_lt before, asks⟩

theorem not_asksExit {a : Action} {next : a.Answer → ThreadProgram Unit}
    (here : x.programAt turns i t = Program.ask a next) (other : ∀ esp, a ≠ .device (.decode esp))
    (status : Int32) : ¬x.AsksExit turns i t status := by
  rintro ⟨esp, ⟨next', asks⟩, -⟩
  exact other esp (Program.ask.inj (here.symm.trans asks)).1

/-- A thread goes on with a call, or after it. -/
theorem stage_of_left {asked : Option Int32} {c : KernelCall} {b d : ℕ}
    {next : c.Result → ThreadProgram Unit} {left : ThreadProgram c.Result}
    (begins : x.Begins turns b t c) (same : x.leftAt turns t (c.program x.kernel) b (d + 1) = left)
    (inside : left.Inside x.kernel) (composed : ∀ r, Composed x.kernel (fun _ _ => True) asked (next r)) :
    x.Stage turns (b + (d + 1)) t asked (left >>= next) := by
  subst same
  cases left : x.leftAt turns t (c.program x.kernel) b (d + 1) with
  | pure r => exact .between (composed r)
  | ask a rest =>
    rw [← left]
    refine .inCall c b d next begins rfl rfl (fun r => ?_) inside composed
    rw [left]
    nofun

theorem leftAt_succ_of_told {α : Type} {p : ThreadProgram α} {b d : ℕ} {a : Action}
    {first : a.Answer → ThreadProgram α} {answer : a.Answer}
    (left : x.leftAt turns t p b d = Program.ask a first)
    (told : x.toldAt turns (b + d) t a = some answer) :
    x.leftAt turns t p b (d + 1) = first answer := by
  rw [leftAt, left]
  change (x.toldAt turns (b + d) t a).elim _ _ = _
  rw [told]
  rfl

theorem leftAt_succ_of_silent {α : Type} {p : ThreadProgram α} {b d : ℕ}
    (silent : ∀ a first, x.leftAt turns t p b d = Program.ask a first →
      x.toldAt turns (b + d) t a = none) :
    x.leftAt turns t p b (d + 1) = x.leftAt turns t p b d := by
  rw [leftAt]
  cases left : x.leftAt turns t p b d with
  | pure r => rfl
  | ask a first =>
    change (x.toldAt turns (b + d) t a).elim _ _ = _
    rw [silent a first left]
    rfl

/-- A thread that is told nothing stays where it is. -/
theorem Stage.rest {asked : Option Int32} {p : ThreadProgram Unit} (stage : x.Stage turns i t asked p)
    (silent : ∀ a next, p = Program.ask a next → x.toldAt turns i t a = none) :
    x.Stage turns (i + 1) t asked p := by
  cases stage with
  | between composed => exact .between composed
  | inCall c b d next begins now same ongoing inside composed =>
    subst now
    have still := leftAt_succ_of_silent fun a first left =>
      silent a (fun answer => first answer >>= next) (by rw [same, left]; rfl)
    exact .inCall c b (d + 1) next begins rfl (same.trans (by rw [still])) (still ▸ ongoing)
      (still ▸ inside) composed

/-- A process that decodes a call knows from then on whether it has asked to exit. -/
theorem Knows.decoded (knows : Knows x turns i t none) {esp : VirtAddr}
    {next : Except UserFault Syscall → ThreadProgram Unit} {answer : Except UserFault Syscall}
    (here : x.programAt turns i t = Program.ask (Action.device (.decode esp)) next)
    (told : x.toldAt turns i t (.device (.decode esp)) = some answer) :
    Knows x turns (i + 1) t (exitAsked answer) := fun status => by
  constructor
  · rintro ⟨j, before, asks⟩
    rcases Nat.lt_succ_iff_lt_or_eq.1 before with before | rfl
    · exact nomatch (knows status).1 ⟨j, before, asks⟩
    · obtain ⟨esp', ⟨next', does⟩, told'⟩ := asks
      obtain ⟨⟩ := (Program.ask.inj (here.symm.trans does)).1
      obtain rfl : Except.ok (.exit status) = answer := Option.some.inj (told'.symm.trans told)
      rfl
  · intro same
    refine ⟨i, Nat.lt_succ_self i, esp, ⟨next, here⟩, told.trans ?_⟩
    rw [exitAsked_eq same]

/-- A thread that is told an answer within a call goes on with the call, or after it. -/
theorem Stage.goOn {asked : Option Int32} {c : KernelCall} {b d : ℕ} {a : Action}
    {next : c.Result → ThreadProgram Unit} {first : a.Answer → ThreadProgram c.Result}
    {answer : a.Answer} (begins : x.Begins turns b t c)
    (left : x.leftAt turns t (c.program x.kernel) b (d + 1) = Program.ask a first)
    (told : x.toldAt turns (b + (d + 1)) t a = some answer) (inside : (first answer).Inside x.kernel)
    (composed : ∀ r, Composed x.kernel (fun _ _ => True) asked (next r))
    (knows : Knows x turns (b + (d + 1)) t asked)
    (here : x.programAt turns (b + (d + 1)) t = Program.ask a fun r => first r >>= next) :
    x.Stage turns (b + (d + 1) + 1) t asked (first answer >>= next) ∧
      Knows x turns (b + (d + 1) + 1) t asked := by
  refine ⟨stage_of_left (d := d + 1) begins (leftAt_succ_of_told left told) inside composed,
    knows.next (not_asksExit here fun esp decodes => ?_)⟩
  -- No call decodes another one.
  have may : (x.leftAt turns t (c.program x.kernel) b (d + 1)).Only (Action.InCall c.exits)
      fun _ => True := only_leftAt c.inCall_program (d + 1)
  rw [left] at may
  subst decodes
  exact may.1

/-- A thread that is told an answer between calls has begun a call, or has done something plain. -/
theorem Stage.goBetween {asked : Option Int32} {a : Action} {next : a.Answer → ThreadProgram Unit}
    {answer : a.Answer} (composed : Composed x.kernel (fun _ _ => True) asked (Program.ask a next))
    (knows : Knows x turns i t asked) (here : x.programAt turns i t = Program.ask a next)
    (told : x.toldAt turns i t a = some answer) :
    ∃ asked', x.Stage turns (i + 1) t asked' (next answer) ∧ Knows x turns (i + 1) t asked' := by
  cases composed.head with
  | ask plain rest =>
    refine ⟨asked, .between (rest answer), knows.next (not_asksExit here fun esp decodes => ?_)⟩
    subst decodes
    cases plain
  | decode unasked rest =>
    subst unasked
    exact ⟨exitAsked answer, .between (rest answer), knows.decoded here told⟩
  | goto => cases answer
  | call c first rest opens may after =>
    have goes : x.Goes turns i t := Does.goes ⟨⟨_, here⟩, told⟩
    have begins : x.Begins turns i t c := ⟨goes, first, rest, opens, by rw [here, opens]; rfl⟩
    refine ⟨asked, stage_of_left (d := 0) begins (leftAt_succ_of_told opens told)
      (KernelCall.inside_program opens answer) after, knows.next (not_asksExit here fun esp => ?_)⟩
    cases c <;> nofun

/-- Whatever a thread is told, it goes on in its call, begins one, or does something plain. -/
theorem stage_next {asked : Option Int32} {p : ThreadProgram Unit} (stage : x.Stage turns i t asked p)
    (knows : Knows x turns i t asked) (here : x.programAt turns i t = p) {p' : ThreadProgram Unit}
    {s s' : Standing} (advances : Advances x.environment.blocks (x.toldAt turns i t) p s p' s') :
    ∃ asked', x.Stage turns (i + 1) t asked' p' ∧ Knows x turns (i + 1) t asked' := by
  cases advances with
  | rest silent =>
    refine ⟨asked, stage.rest silent, knows.next ?_⟩
    rintro status ⟨esp, ⟨next, asks⟩, told⟩
    rw [silent _ _ (here.symm.trans asks)] at told
    cases told
  | @goto block next s =>
    refine ⟨asked, .between ?_, knows.next (not_asksExit here fun _ => nofun)⟩
    -- A block is gone on with in user mode, so no exit has been asked for.
    cases stage with
    | between composed => exact composed.unasked_of_goto ▸ UserCode.composed_program rfl _
    | inCall c b d next' begins now same ongoing =>
      have may : (x.leftAt turns t (c.program x.kernel) b (d + 1)).Only (Action.InCall c.exits)
          fun _ => True := only_leftAt c.inCall_program (d + 1)
      obtain ⟨first, left, -⟩ := Program.asks_of_bind ongoing same.symm
      rw [left] at may
      exact may.1.elim
  | finish =>
    exact ⟨asked, .between (.pure trivial), knows.next (not_asksExit here fun _ => nofun)⟩
  | @go a next answer s s' told allowed follows =>
    cases stage with
    | between composed => exact Stage.goBetween composed knows here told
    | inCall c b d rest begins now same ongoing inside composed =>
      subst now
      obtain ⟨first, left, rfl⟩ := Program.asks_of_bind ongoing same.symm
      rw [left] at inside
      exact ⟨asked, Stage.goOn begins left told (inside.2 answer) composed knows here⟩

variable (x) (turns) in
/-- At all times a thread is in a call, or what it has yet to do is composed. -/
theorem stageAt (i : ℕ) (t : Tid) :
    ∃ asked, x.Stage turns i t asked (x.programAt turns i t) ∧ Knows x turns i t asked := by
  have unasked {i : ℕ} {t : Tid} (idle : ∀ j < i, x.programAt turns j t = Program.pure ()) :
      Knows x turns i t none := fun status => by
    refine ⟨?_, nofun⟩
    rintro ⟨j, before, esp, ⟨next, asks⟩, -⟩
    exact nomatch (idle j before).symm.trans asks
  refine x.historyAt turns (fun i t p _ => x.programAt turns i t = p →
    ∃ asked, x.Stage turns i t asked p ∧ Knows x turns i t asked) ?_ ?_ ?_ ?_ i t rfl
  · exact fun i t idle _ => ⟨none, .between (.pure trivial), unasked idle⟩
  · exact fun _ => ⟨none, .between Kernel.composed_run, unasked nofun⟩
  · refine fun i t start _ idle _ => ⟨none, .between ?_, unasked fun j before =>
      idle j (Nat.le_of_lt_succ before)⟩
    exact Kernel.composed_startProcess fun name context => UserCode.composed_program rfl _
  · intro i t p' s' here advances _
    obtain ⟨asked, stage, knows⟩ := here rfl
    exact stage_next stage knows rfl advances

/-! ## How calls go on -/

/-- A thread that begins a call goes on with it, and then with what is composed. It exits with the status
    that it has asked for, or with -1 if it has asked for none. -/
theorem Begins.composed {c : KernelCall} (begins : x.Begins turns i t c) :
    ∃ asked, Knows x turns i t asked ∧ (∀ status, c = .exit status → status = asked.getD (-1)) ∧
      ∃ next, x.programAt turns i t = c.program x.kernel >>= next ∧
        ∀ r, Composed x.kernel (fun _ _ => True) asked (next r) := by
  obtain ⟨asked, stage, knows⟩ := x.stageAt turns i t
  refine ⟨asked, knows, ?_⟩
  cases stage with
  | between composed => exact composed.of_calls begins.2
  | inCall c' b d next begins' now same ongoing inside composed =>
    exact absurd (same ▸ begins.2) (inside.not_calls ongoing next c)

/-- At each time a thread goes on with the answer that it is told, unless it leaves its program. -/
theorem programAt_succ (inside : t < (x.machineAt turns i).threads.size) :
    x.programAt turns (i + 1) t = (x.programAt turns i t).advance (x.toldAt turns i t) ∨
      ∃ a next, x.programAt turns i t = Program.ask a next ∧ a.goesOn = false ∧
        (a = .endThread → x.programAt turns (i + 1) t = Program.pure ()) :=
  ((x.sound turns i).advances x.lawful (turns i) inside).program

/-- A thread that does not leave its program goes on with the answer that it is told. -/
theorem programAt_succ_of_goesOn {a : Action} {next : a.Answer → ThreadProgram Unit}
    (here : x.programAt turns i t = Program.ask a next) (inside : t < (x.machineAt turns i).threads.size)
    (goesOn : a.goesOn = true) :
    x.programAt turns (i + 1) t = (x.toldAt turns i t a).elim (Program.ask a next) next := by
  rcases programAt_succ inside with step | ⟨a', next', here', leaves, -⟩
  · rw [step, here]
    rfl
  · obtain rfl := (Program.ask.inj (here.symm.trans here')).1
    exact absurd goesOn (Bool.eq_false_iff.1 leaves)

theorem Goes.inside (goes : x.Goes turns i t) : t < (x.machineAt turns i).threads.size :=
  Machine.lt_size_of_status (by simp [goes.2.2])

/-- Who does something goes on with the answer. -/
theorem Does.next {a : Action} {answer : a.Answer} {next : a.Answer → ThreadProgram Unit}
    (does : x.Does turns i t a answer) (here : x.programAt turns i t = Program.ask a next) :
    x.programAt turns (i + 1) t = next answer := by
  rw [programAt_succ_of_goesOn here does.goes.inside (Action.goesOn_of_answer answer), does.2]
  rfl

/-- Who does something may do it, and then stands as the rules say. -/
theorem Does.follows {a : Action} {answer : a.Answer} (does : x.Does turns i t a answer) :
    Allowed a (x.standingAt turns i t) ∧
      Follows a (x.standingAt turns i t) answer (x.standingAt turns (i + 1) t) := by
  have inside := does.goes.inside
  obtain ⟨⟨next, here⟩, told⟩ := does
  have advances : Advances x.environment.blocks (x.toldAt turns i t) (x.programAt turns i t)
      (x.standingAt turns i t) (x.programAt turns (i + 1) t) (x.standingAt turns (i + 1) t) :=
    (x.sound turns i).advances x.lawful (turns i) inside
  generalize x.programAt turns i t = p, x.programAt turns (i + 1) t = p', x.standingAt turns i t = s,
    x.standingAt turns (i + 1) t = s' at here advances ⊢
  cases advances with
  | rest silent => exact nomatch (silent a next here).symm.trans told
  | @go a' next' answer' _ _ told' allowed follows =>
    obtain rfl := (Program.ask.inj here).1
    obtain rfl := Option.some.inj (told'.symm.trans told)
    exact ⟨allowed, follows⟩
  | goto | finish =>
    obtain rfl := (Program.ask.inj here).1
    cases answer

theorem leftAt_of_pure {α : Type} {p : ThreadProgram α} {r : α} {d e : ℕ} (le : d ≤ e)
    (over' : x.leftAt turns t p i d = Program.pure r) : x.leftAt turns t p i e = Program.pure r := by
  induction le with
  | refl => exact over'
  | step _ ih =>
    rw [leftAt, ih]
    rfl

/-- What is over was over at some time first. -/
theorem leftAt_first {α : Type} {p : ThreadProgram α} {r : α} {b d : ℕ}
    (over' : x.leftAt turns t p b d = Program.pure r) :
    ∃ e ≤ d, x.leftAt turns t p b e = Program.pure r ∧
      ∀ f < e, ∀ r', x.leftAt turns t p b f ≠ Program.pure r' := by
  induction d with
  | zero => exact ⟨0, Nat.le_refl 0, over', nofun⟩
  | succ d ih =>
    by_cases early : ∃ r', x.leftAt turns t p b d = Program.pure r'
    · obtain ⟨r', left⟩ := early
      obtain rfl := Program.pure.inj ((leftAt_of_pure (Nat.le_succ d) left).symm.trans over')
      obtain ⟨e, le, first⟩ := ih left
      exact ⟨e, Nat.le_succ_of_le le, first⟩
    · exact ⟨d + 1, Nat.le_refl _, over', fun f before r' left =>
        early ⟨r', leftAt_of_pure (Nat.le_of_lt_succ before) left⟩⟩

/-- A thread that has come to a part of what it does goes on with it, until that is over or the thread leaves
    it. -/
theorem programAt_add {α : Type} {p : ThreadProgram α} {next : α → ThreadProgram Unit} {b d : ℕ}
    (here : x.programAt turns b t = p >>= next) (inside : t < (x.machineAt turns b).threads.size)
    (ongoing : ∀ e < d, ∀ r, x.leftAt turns t p b e ≠ Program.pure r) :
    x.programAt turns (b + d) t = x.leftAt turns t p b d >>= next ∨
      ∃ e < d, ∃ a first, x.leftAt turns t p b e = Program.ask a first ∧ a.goesOn = false ∧
        (a = .endThread → x.programAt turns (b + d) t = Program.pure ()) := by
  induction d with
  | zero => exact .inl here
  | succ d ih =>
    have inside' := Nat.lt_of_lt_of_le inside (x.size_le turns (Nat.le_add_right b d))
    rcases ih fun e before => ongoing e (Nat.lt_succ_of_lt before) with
      goes | ⟨e, before, a, first, left, leaves, ends⟩
    swap
    · refine .inr ⟨e, Nat.lt_succ_of_lt before, a, first, left, leaves, fun ended => ?_⟩
      rcases programAt_succ inside' with step | ⟨a', next', here', -⟩
      · rw [← Nat.add_assoc, step, ends ended]
        rfl
      · exact nomatch (ends ended).symm.trans here'
    replace ongoing := ongoing d (Nat.lt_succ_self d)
    rcases programAt_succ inside' with step | ⟨a, next', here', leaves, ends⟩
    · rw [leftAt, ← Program.advance_bind ongoing, ← goes]
      exact .inl step
    · obtain ⟨first, left, -⟩ := Program.asks_of_bind ongoing (goes.symm.trans here')
      exact .inr ⟨d, Nat.lt_succ_self d, a, first, left, leaves, ends⟩

/-- A thread goes on with a part of what it does that it does not leave, until that is over. -/
theorem programAt_of_remains {α : Type} {p : ThreadProgram α} {next : α → ThreadProgram Unit} {b d : ℕ}
    (here : x.programAt turns b t = p >>= next) (inside : t < (x.machineAt turns b).threads.size)
    (remains : p.Remains) (ongoing : ∀ e < d, ∀ r, x.leftAt turns t p b e ≠ Program.pure r) :
    x.programAt turns (b + d) t = x.leftAt turns t p b d >>= next := by
  refine (programAt_add here inside ongoing).resolve_right fun ⟨e, _, a, first, left, leaves, _⟩ => ?_
  have remains := @only_leftAt x turns b t _ _ _ _ remains e
  rw [left] at remains
  exact absurd remains.1 (Bool.eq_false_iff.1 leaves)

/-- What one step of a part of what a thread does preserves holds for as long as the part lasts, if the thread
    does not leave it. -/
theorem part_at {α : Type} {p : ThreadProgram α} {next : α → ThreadProgram Unit} {b d : ℕ}
    {K : ThreadProgram α → Standing → Prop} (inside : t < (x.machineAt turns b).threads.size)
    (keeps : K p (x.standingAt turns b t)) (ongoing : ∀ e < d, ∀ r, x.leftAt turns t p b e ≠ Program.pure r)
    (alive : ∀ e ≤ d, x.programAt turns (b + e) t = x.leftAt turns t p b e >>= next)
    (step : ∀ e a (first : a.Answer → ThreadProgram α) answer s', K (Program.ask a first) (x.standingAt turns (b + e) t) →
      Allowed a (x.standingAt turns (b + e) t) → Follows a (x.standingAt turns (b + e) t) answer s' →
      K (first answer) s') : K (x.leftAt turns t p b d) (x.standingAt turns (b + d) t) := by
  induction d with
  | zero => exact keeps
  | succ d ih =>
    have keeps := ih (fun e early => ongoing e (Nat.lt_succ_of_lt early)) fun e le => alive e (Nat.le_succ_of_le le)
    have before := alive d (Nat.le_succ d)
    have after := alive (d + 1) (Nat.le_refl _)
    have advances := (x.sound turns (b + d)).advances x.lawful (turns (b + d))
      (Nat.lt_of_lt_of_le inside (x.size_le turns (Nat.le_add_right b d)))
    rw [leftAt] at after ⊢
    cases left : x.leftAt turns t p b d with
    | pure r => exact absurd left (ongoing d (Nat.lt_succ_self d) r)
    | ask a first =>
      rw [left] at before after keeps
      exact advances.part before after keeps fun answer s' => step d a first answer s' keeps

theorem leftAt_succ {α : Type} {p : ThreadProgram α} {b d : ℕ} :
    x.leftAt turns t p b (d + 1) = x.leftAt turns t (p.advance (x.toldAt turns b t)) (b + 1) d := by
  induction d with
  | zero => rfl
  | succ d ih => rw [leftAt, ih, leftAt, Nat.add_right_comm b 1 d, Nat.add_assoc]

theorem leftAt_of_leaves {α : Type} {a : Action} {first : a.Answer → ThreadProgram α} {b d : ℕ}
    (leaves : a.goesOn = false) :
    x.leftAt turns t (Program.ask a first) b d = Program.ask a first := by
  induction d with
  | zero => rfl
  | succ d ih =>
    rw [leftAt, ih, Program.advance, Action.eq_none_of_leaves leaves (x.toldAt turns (b + d) t a)]
    rfl

theorem leftAt_add {α : Type} {p : ThreadProgram α} {b : ℕ} (d e : ℕ) :
    x.leftAt turns t p b (d + e) = x.leftAt turns t (x.leftAt turns t p b d) (b + d) e := by
  induction e with
  | zero => rfl
  | succ e ih => rw [← Nat.add_assoc, leftAt, leftAt, ih, Nat.add_assoc]

/-- A thread that is told nothing stands as it did. -/
theorem standingAt_succ_of_silent (inside : t < (x.machineAt turns i).threads.size)
    (silent : ∀ a next, x.programAt turns i t = Program.ask a next → x.toldAt turns i t a = none) :
    x.standingAt turns (i + 1) t = x.standingAt turns i t := by
  have advances : Advances x.environment.blocks (x.toldAt turns i t) (x.programAt turns i t)
      (x.standingAt turns i t) (x.programAt turns (i + 1) t) (x.standingAt turns (i + 1) t) :=
    (x.sound turns i).advances x.lawful (turns i) inside
  generalize x.programAt turns i t = p, x.programAt turns (i + 1) t = p', x.standingAt turns i t = s,
    x.standingAt turns (i + 1) t = s' at silent advances ⊢
  cases advances with
  | rest | goto | finish => rfl
  | go told => exact nomatch (silent _ _ rfl).symm.trans told

/-- What a thread does after a part that began with an action which was done after some turns. -/
structure Proceeds (x : Scenario) (turns : ℕ → Turn) (t : Tid) {α : Type} {a : Action}
    (first : a.Answer → ThreadProgram α) (next : α → ThreadProgram Unit) (b e : ℕ) (answer : a.Answer) :
    Prop where
  /-- The action was done. -/
  does : x.Does turns (b + e) t a answer
  /-- Before that nothing was. -/
  still : x.leftAt turns t (Program.ask a first) b e = Program.ask a first
  /-- So the thread stood as it did. -/
  same : x.standingAt turns (b + e) t = x.standingAt turns b t
  /-- It goes on with the answer. -/
  here : x.programAt turns (b + e + 1) t = first answer >>= next
  /-- So does the part. -/
  onward : ∀ f, x.leftAt turns t (Program.ask a first) b (e + 1 + f) =
    x.leftAt turns t (first answer) (b + e + 1) f

/-- The action with which a part of what a thread does begins is yet to be done, or the part has gone on
    from it. -/
theorem stays_or_proceeds {α : Type} {a : Action} {first : a.Answer → ThreadProgram α} {b : ℕ}
    {next : α → ThreadProgram Unit} (here : x.programAt turns b t = Program.ask a first >>= next)
    (inside : t < (x.machineAt turns b).threads.size) (goesOn : a.goesOn = true) (d : ℕ) :
    (x.leftAt turns t (Program.ask a first) b d = Program.ask a first ∧
      x.programAt turns (b + d) t = Program.ask a first >>= next ∧
      x.standingAt turns (b + d) t = x.standingAt turns b t ∧ ∀ e < d, x.toldAt turns (b + e) t a = none) ∨
    ∃ e f answer, d = e + 1 + f ∧ x.Proceeds turns t first next b e answer := by
  induction d with
  | zero => exact .inl ⟨rfl, here, rfl, nofun⟩
  | succ d ih =>
    rcases ih with ⟨left, here, same, silent⟩ | ⟨e, f, answer, rfl, proceeds⟩
    swap
    · exact .inr ⟨e, f + 1, answer, rfl, proceeds⟩
    have inside := Nat.lt_of_lt_of_le inside (x.size_le turns (Nat.le_add_right b d))
    have step : x.programAt turns (b + d + 1) t = (x.toldAt turns (b + d) t a).elim
        (Program.ask a first >>= next) fun answer => first answer >>= next :=
      programAt_succ_of_goesOn here inside goesOn
    cases told : x.toldAt turns (b + d) t a with
    | none =>
      refine .inl ⟨?_, ?_, (standingAt_succ_of_silent inside fun a' next' here' => ?_).trans same,
        fun e before => ?_⟩
      · rw [leftAt, left, Program.advance, told, Option.elim_none]
      · rwa [told] at step
      · obtain rfl := (Program.ask.inj (here.symm.trans here')).1
        exact told
      · rcases Nat.lt_succ_iff_lt_or_eq.1 before with before | rfl
        · exact silent e before
        · exact told
    | some answer =>
      rw [told] at step
      refine .inr ⟨d, 0, answer, rfl, ⟨⟨_, here⟩, told⟩, left, same, step, fun f => ?_⟩
      rw [leftAt_add, leftAt, left, Program.advance, told, Option.elim_some, Nat.add_assoc]

/-- A part of what a thread does that is over began with an action that was done at some time, and went
    on from there. -/
theorem done_of_over {α : Type} {a : Action} {first : a.Answer → ThreadProgram α} {b d : ℕ} {r : α}
    {next : α → ThreadProgram Unit} (here : x.programAt turns b t = Program.ask a first >>= next)
    (inside : t < (x.machineAt turns b).threads.size)
    (over' : x.leftAt turns t (Program.ask a first) b d = Program.pure r) :
    ∃ e f answer, d = e + 1 + f ∧ x.Proceeds turns t first next b e answer := by
  cases goesOn : a.goesOn with
  | false =>
    -- What the thread leaves is never over.
    rw [leftAt_of_leaves goesOn] at over'
    cases over'
  | true =>
    refine (stays_or_proceeds here inside goesOn d).resolve_left fun ⟨left, _⟩ => ?_
    rw [left] at over'
    cases over'

/-- A thread is about to begin a call, or in the midst of it. -/
def Within (x : Scenario) (turns : ℕ → Turn) (c : KernelCall) (b i : ℕ) (t : Tid) : Prop :=
  x.Begins turns b t c ∧
    ∃ d, i = b + d ∧ ∀ r, x.leftAt turns t (c.program x.kernel) b d ≠ Program.pure r

theorem Begins.inside {c : KernelCall} (begins : x.Begins turns i t c) :
    t < (x.machineAt turns i).threads.size :=
  Machine.lt_size_of_status (by simp [begins.1.2.2])

theorem Begins.opens {c : KernelCall} (begins : x.Begins turns i t c) :
    ∃ first, c.program x.kernel = Program.ask c.opening first := by
  obtain ⟨-, first, -, opens, -⟩ := begins
  exact ⟨first, opens⟩

/-- The opening of a call is done at once. -/
theorem Begins.opened {c : KernelCall} (begins : x.Begins turns i t c) :
    ∃ answer, x.toldAt turns i t c.opening = some answer := by
  rw [begins.1.told]
  cases c with
  | execute | exit => exact ⟨_, rfl⟩
  | wait family pid =>
    obtain ⟨-, first, next, opens, here⟩ := begins
    rw [opens] at here
    exact ⟨(), Machine.answer?_lockRegistry ((x.sound turns i).registry_free here)⟩

/-- A thread that begins a call is in it. -/
theorem Begins.within {c : KernelCall} (begins : x.Begins turns i t c) : x.Within turns c i i t := by
  obtain ⟨first, opens⟩ := begins.opens
  exact ⟨begins, 0, rfl, fun r same => nomatch opens.symm.trans same⟩

/-- What a thread in a call has yet to do. -/
theorem Within.programAt {c : KernelCall} {b : ℕ} (within : x.Within turns c b i t) :
    ∃ d next, i = b + d ∧ (x.programAt turns i t = x.leftAt turns t (c.program x.kernel) b d >>= next ∨
      x.programAt turns i t = Program.pure () ∧ c.exits.isSome = true) ∧
      (∀ r, x.leftAt turns t (c.program x.kernel) b d ≠ Program.pure r) ∧
      (0 < d → (x.leftAt turns t (c.program x.kernel) b d).Inside x.kernel) := by
  obtain ⟨begins, d, rfl, ongoing⟩ := within
  obtain ⟨asked, -, -, next, here, -⟩ := begins.composed
  refine ⟨d, next, rfl, ?_, ongoing, fun later => ?_⟩
  · refine (programAt_add here begins.inside fun e before r over' =>
      ongoing r (leftAt_of_pure (Nat.le_of_lt before) over')).imp_right
        fun ⟨e, _, a, first, left, leaves, ends⟩ => ?_
    have may := @only_leftAt x turns b t _ _ _ _ (c.inCall_program (k := x.kernel)) e
    rw [left] at may
    cases a with
    | endThread => exact ⟨ends rfl, may.1⟩
    | goto block => exact may.1.elim
    | _ => cases leaves
  · obtain ⟨first, opens⟩ := begins.opens
    obtain ⟨e, rfl⟩ := Nat.exists_eq_add_of_le' later
    clear ongoing later
    induction e with
    | zero =>
      rw [leftAt, leftAt, opens]
      change ((x.toldAt turns b t c.opening).elim _ _ : ThreadProgram c.Result).Inside x.kernel
      obtain ⟨answer, told⟩ := begins.opened
      rw [told]
      exact KernelCall.inside_program opens answer
    | succ e ih => exact ih.advance

/-- A thread in a call begins no other. -/
theorem Within.not_begins {c : KernelCall} {b : ℕ} (within : x.Within turns c b i t) (later : b < i)
    (c' : KernelCall) : ¬x.Begins turns i t c' := by
  intro begins
  obtain ⟨d, next, rfl, here | ⟨gone, -⟩, ongoing, inside⟩ := within.programAt
  · have calls := begins.2
    rw [here] at calls
    exact (inside (Nat.pos_of_lt_add_right later)).not_calls ongoing next c' calls
  · obtain ⟨-, first, next', opens, same⟩ := begins
    rw [opens, gone] at same
    cases same

/-- A thread that is in no call and begins none does something plain, reads a system call, or goes on with a
    block. -/
theorem quiet_of_not_within (outside : ∀ c b, ¬x.Within turns c b i t) {a : Action}
    {next : a.Answer → ThreadProgram Unit} (here : x.programAt turns i t = Program.ask a next)
    (goes : x.Goes turns i t) :
    a.isPlain = true ∨ (∃ esp, a = .device (.decode esp)) ∨ ∃ block, a = .goto block := by
  obtain ⟨asked, stage, -⟩ := x.stageAt turns i t
  cases stage with
  | inCall c b d next begins now same ongoing =>
    exact absurd ⟨begins, d + 1, now, ongoing⟩ (outside c b)
  | between composed =>
    rw [here] at composed
    cases composed.head with
    | ask plain => exact .inl plain
    | decode => exact .inr (.inl ⟨_, rfl⟩)
    | goto => exact .inr (.inr ⟨_, rfl⟩)
    | call c first rest opens =>
      have begins : x.Begins turns i t c := ⟨goes, first, rest, opens, by rw [here, opens]; rfl⟩
      exact absurd begins.within (outside c i)

variable {b : ℕ} {c : KernelCall}

/-- What a call has given it has given. -/
theorem Gives.mono {r : c.Result} (gives : x.Gives turns t c b r i) (le : i ≤ j) :
    x.Gives turns t c b r j := by
  obtain ⟨begins, d, rfl, left⟩ := gives
  obtain ⟨e, rfl⟩ := Nat.exists_eq_add_of_le le
  exact ⟨begins, d + e, Nat.add_assoc .., leftAt_of_pure (Nat.le_add_right d e) left⟩

/-- A call takes time. -/
theorem Gives.lt {r : c.Result} (gives : x.Gives turns t c b r i) : b < i := by
  obtain ⟨begins, d, rfl, left⟩ := gives
  cases d with
  | zero =>
    obtain ⟨first, opens⟩ := begins.opens
    exact nomatch opens.symm.trans left
  | succ d => exact Nat.lt_add_of_pos_right (Nat.succ_pos d)

/-- A thread is in a call until it gives something. -/
theorem within_or_gives (begins : x.Begins turns b t c) (le : b ≤ i) :
    x.Within turns c b i t ∨ ∃ r, x.Gives turns t c b r i := by
  obtain ⟨d, rfl⟩ := Nat.exists_eq_add_of_le le
  cases left : x.leftAt turns t (c.program x.kernel) b d with
  | pure r => exact .inr ⟨r, begins, d, rfl, left⟩
  | ask a next => exact .inl ⟨begins, d, rfl, fun r over' => nomatch left.symm.trans over'⟩

theorem Within.not_gives (within : x.Within turns c b i t) (r : c.Result) :
    ¬x.Gives turns t c b r i := by
  rintro ⟨-, d, same, left⟩
  obtain ⟨-, e, same', ongoing⟩ := within
  obtain rfl : d = e := Nat.add_left_cancel (same.symm.trans same')
  exact ongoing r left

theorem Within.mono (within : x.Within turns c b j t) (le : b ≤ i) (le' : i ≤ j) :
    x.Within turns c b i t :=
  (within_or_gives within.1 le).resolve_right fun ⟨r, gives⟩ => within.not_gives r (gives.mono le')

/-- A call gives one result. -/
theorem Gives.unique {r r' : c.Result} (gives : x.Gives turns t c b r i)
    (gives' : x.Gives turns t c b r' i) : r = r' := by
  obtain ⟨-, d, rfl, left⟩ := gives
  obtain ⟨-, e, same, left'⟩ := gives'
  obtain rfl : d = e := Nat.add_left_cancel same
  exact Program.pure.inj (left.symm.trans left')

/-- When a thread begins a call it is over with those that it began before. -/
theorem Gives.by_begins {c' : KernelCall} {r : c.Result} (gives : x.Gives turns t c b r j)
    (before : b < i) (le : i ≤ j) (begins : x.Begins turns i t c') : x.Gives turns t c b r i := by
  rcases within_or_gives gives.1 (Nat.le_of_lt before) with within | ⟨r', gives'⟩
  · exact absurd begins (within.not_begins before c')
  · exact gives.unique (gives'.mono le) ▸ gives'

/-- A call that a thread begins at time `b` gives a result at time `i`, and not before. -/
structure Returns (x : Scenario) (turns : ℕ → Turn) (t : Tid) (c : KernelCall) (b : ℕ) (r : c.Result)
    (i : ℕ) : Prop where
  /-- It gives the result. -/
  gives : x.Gives turns t c b r i
  /-- Until then the thread is in the call. -/
  lasts : ∀ j < i, b ≤ j → x.Within turns c b j t

/-- What a call has given, it has given at some time first. -/
theorem Gives.returns {r : c.Result} (gives : x.Gives turns t c b r i) :
    ∃ j ≤ i, x.Returns turns t c b r j := by
  obtain ⟨begins, d, rfl, over'⟩ := gives
  obtain ⟨e, le, left, ongoing⟩ := leftAt_first over'
  refine ⟨b + e, Nat.add_le_add_left le b, ⟨begins, e, rfl, left⟩, fun j before later => ?_⟩
  obtain ⟨f, rfl⟩ := Nat.exists_eq_add_of_le later
  exact ⟨begins, f, rfl, ongoing f (Nat.lt_of_add_lt_add_left before)⟩

/-! ## The end of a process -/

/-- A process exits with the status that it has asked for in a system call, or with -1 if it has asked for
    none. -/
theorem Begins.exit_status {status : Int32} (begins : x.Begins turns i t (.exit status)) :
    (∃ j < i, x.AsksExit turns j t status) ∨
      status = -1 ∧ ∀ status', ∀ j < i, ¬x.AsksExit turns j t status' := by
  obtain ⟨asked, knows, may, -⟩ := begins.composed
  have same := may status rfl
  cases asked with
  | some status' =>
    obtain rfl : status = status' := same
    exact .inl ((knows status).2 rfl)
  | none => exact .inr ⟨same, fun status' j before asks => nomatch (knows status').1 ⟨j, before, asks⟩⟩

/-- A process that exits begins no further call. -/
theorem Begins.last {status : Int32} (begins : x.Begins turns i t (.exit status)) {j : ℕ} (later : i < j)
    (c : KernelCall) : ¬x.Begins turns j t c := by
  obtain ⟨d, rfl⟩ := Nat.exists_eq_add_of_le (Nat.le_of_lt later)
  exact Within.not_begins ⟨begins, d, rfl, nofun⟩ later c

/-- What a thread in a call does may be done in it. -/
theorem Within.inCall {c : KernelCall} {b : ℕ} (within : x.Within turns c b i t) {a : Action}
    {next : a.Answer → ThreadProgram Unit} (here : x.programAt turns i t = Program.ask a next) :
    a.InCall c.exits := by
  obtain ⟨d, rest, rfl, same | ⟨gone, -⟩, ongoing, -⟩ := within.programAt
  · obtain ⟨first, left, -⟩ := Program.asks_of_bind ongoing (same.symm.trans here)
    have only := @only_leftAt x turns b t _ _ _ _ (c.inCall_program (k := x.kernel)) d
    rw [left] at only
    exact only.1
  · exact nomatch here.symm.trans gone

/-- Who tells an exit status exits with it. -/
theorem exits_of_settle {c : ChannelId} {status : Int32} {next : Option Tid → ThreadProgram Unit}
    (here : x.programAt turns i t = Program.ask (Action.settle c (some (.status status))) next)
    (goes : x.Goes turns i t) : ∃ j < i, x.Begins turns j t (.exit status) := by
  by_cases outside : ∀ c b, ¬x.Within turns c b i t
  · rcases quiet_of_not_within outside here goes with plain | ⟨esp, same⟩ | ⟨block, same⟩
    · cases plain
    · cases same
    · cases same
  · obtain ⟨call, b, within⟩ : ∃ call b, x.Within turns call b i t := by simpa using outside
    have exits : call.exits = some status := within.inCall here
    cases call with
    | execute | wait => cases exits
    | exit status' =>
      obtain rfl := Option.some.inj exits
      refine ⟨b, ?_, within.1⟩
      obtain ⟨begins, d, rfl, -⟩ := within
      cases d with
      | zero =>
        have calls := begins.2
        rw [show x.programAt turns b t = _ from here] at calls
        cases calls.opening
      | succ d => exact Nat.lt_add_of_pos_right (Nat.succ_pos d)

end Scenario

end Userland

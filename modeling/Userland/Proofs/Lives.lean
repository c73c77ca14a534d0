import Userland.Proofs.Conduct
import Userland.Proofs.FailedStarts
import Userland.Proofs.Sequences
import Userland.Proofs.Starting

/-!
# The lives of processes

The thread of a child starts, then its program acts, and at last it exits (`Scenario.Life`). While its
program acts it does what a process may do (`Kernel.Conduct`), and its process keeps the name, the state,
the executable and the memory that it had when the start was over (`Scenario.Hosts`). Every thread but the
first is that of a child (`Scenario.life_of_asks`).
-/

namespace Userland

open ThreadProgram
open Program (Only)

-- Which words a line has does not matter for what is done with them.
attribute [local irreducible] Words.ofString

/-! ## What a process keeps -/

/-- What a process keeps while its program runs: its name, its state, its executable and its memory. -/
structure Process.Core where
  /-- Its name. -/
  name : String
  /-- Where it is in its life. -/
  state : ProcessState
  /-- The handle that keeps its executable from being written. -/
  executable : Option Handle
  /-- Its memory. -/
  space : Option AddressSpace

/-- What the process has of that. -/
def Process.core (p : Process) : Process.Core := ⟨p.name, p.state, p.executable, p.space⟩

namespace DeviceRequest

variable {r : DeviceRequest} {b : Belongings}

theorem core_modifyProcess (b : Belongings) {f : Process → Process} (keeps : ∀ p, (f p).core = p.core) :
    (b.modifyProcess f).process.map Process.core = b.process.map Process.core := by
  simp only [Belongings.modifyProcess, Option.map_map]
  exact congrArg (b.process.map ·) (funext keeps)

theorem core_modifyChildren (f : Children → Children) (family : Family) :
    (b.modifyChildren f family).process.map Process.core = b.process.map Process.core := by
  cases family with
  | process => exact core_modifyProcess b fun _ => rfl
  | kin | initial => rfl

theorem not_acts_of_edit? {f : Process → Process} (edits : r.edit? = some f) :
    ¬ (r.isQuiet = true ∨ r.isOrdinary = true) := by
  cases r <;> first | (cases edits; done) | simp [isQuiet, isOrdinary]

/-- What a program does, or has done for it, leaves that as it is. -/
theorem core_serve (acts : r.isQuiet = true ∨ r.isOrdinary = true) (b : Belongings) (d : Devices) :
    (r.serve b d).2.1.process.map Process.core = b.process.map Process.core := by
  have effect := effect_serve r b d
  generalize (r.serve b d).2.1 = b' at effect ⊢
  cases effect with
  | quiet | hands | level | destroyProcess => rfl
  | files => exact core_modifyProcess b fun _ => rfl
  | records f => exact core_modifyChildren f _
  | edited _ edits => exact absurd acts (not_acts_of_edit? edits)
  | newProcess | detachSpace | installSpace | detachProcess => simp [isQuiet, isOrdinary] at acts

end DeviceRequest

/-- The rules leave what a process keeps as it is, if the action is one of a program or is done for it. -/
theorem Follows.core {a : Action} {answer : a.Answer} {s s' : Standing} (follows : Follows a s answer s')
    (acts : ∀ r, a = .device r → r.isQuiet = true ∨ r.isOrdinary = true) :
    s'.own.process.map Process.core = s.own.process.map Process.core := by
  cases follows with
  | act => rfl
  | device r s d => exact DeviceRequest.core_serve (acts r rfl) s.own d

/-- The process of a thread has come out of its start with a result: it runs its program, or it has none. -/
def Standing.Hosts (start : NewProcess) : Except LoadError LoadedProgram → Standing → Prop
  | .ok program, s => ∃ space, s.own.process.map Process.core =
      some ⟨Utf8.truncate (Kernel.programName start) maxNameLength, .running, some program.executable,
        some space⟩
  | .error _, s => s.own.process.map Process.core =
      some ⟨Utf8.truncate (Kernel.programName start) maxNameLength, .loading, none, none⟩

theorem Standing.Hosts.of_core_eq {start : NewProcess} {result : Except LoadError LoadedProgram}
    {s s' : Standing} (hosts : s.Hosts start result)
    (same : s'.own.process.map Process.core = s.own.process.map Process.core) : s'.Hosts start result := by
  cases result with
  | ok program => exact hosts.imp fun _ core => same.trans core
  | error e => exact same.trans hosts

theorem Action.goesOn_of_announces {a : Action} (announces : a.announces = true) : a.goesOn = true := by
  cases a <;> first | rfl | cases announces

/-- A child does not leave what it does to announce what its load has come to. -/
theorem Kernel.remains_announcing {start : NewProcess} {result : Except LoadError LoadedProgram} :
    (announcing start result).Remains := by
  refine (announces_announcing result).mono (fun a done => ?_) fun _ => id
  rcases done with announces | ⟨text, rfl⟩
  · exact Action.goesOn_of_announces announces
  · rfl

namespace Scenario

variable {x : Scenario} {turns : ℕ → Turn} {i j k b d : ℕ} {t u : Tid} {start : NewProcess} {α β : Type}

/-! ## How threads come about -/

/-- Every thread but the first was made by another. -/
theorem exists_makes (later : 1 < u) (inside : u < (x.machineAt turns i).threads.size) :
    ∃ k < i, ∃ t start, x.Makes turns k t start u := by
  induction i with
  | zero =>
    rw [machineAt, x.size_machine] at inside
    exact absurd inside (Nat.not_lt.2 later)
  | succ i ih =>
    by_cases old : u < (x.machineAt turns i).threads.size
    · obtain ⟨k, before, made⟩ := ih old
      exact ⟨k, Nat.lt_succ_of_lt before, made⟩
    obtain ⟨t, name, priority, start, next, goes, here⟩ :
        ∃ t name priority start next, x.Goes turns i t ∧
          x.programAt turns i t = Program.ask (Action.spawn name priority start) next := by
      by_contra nobody
      refine old (Nat.lt_of_lt_of_eq inside ?_)
      rw [machineAt]
      unfold Machine.turn
      split
      · rfl
      rename_i running
      cases what : turns i with
      | wake v => exact ((x.machineAt turns i).wake_frame v).1
      | step v =>
        refine Machine.size_step fun name priority start next awake does => nobody ?_
        exact ⟨v, name, priority, start, next, ⟨by simpa using running, what, awake⟩, does⟩
    -- There was room for the thread, for it was made.
    have told := goes.told (.spawn name priority start)
    rw [Machine.answer?_spawn rfl] at told
    split at told
    · next full =>
      refine absurd (Nat.lt_of_lt_of_eq inside ?_) old
      rw [machineAt_of_goes goes, Machine.step_of_ask goes.2.2 here]
      simp only [Machine.attempt, Machine.spawnThread, if_pos full, Machine.settleAttempt,
        Machine.size_setThread]
      rfl
    · have does : x.Does turns i t (.spawn name priority start) _ := ⟨⟨next, here⟩, told⟩
      have size := (size_of_spawned does).2
      rw [size] at inside
      obtain rfl := Nat.le_antisymm (Nat.le_of_lt_succ inside) (Nat.not_lt.1 old)
      exact ⟨i, Nat.lt_succ_self i, t, start, name, priority, does⟩

/-- It was made once. -/
theorem Makes.unique {k' : ℕ} {t' : Tid} {start' : NewProcess} (makes : x.Makes turns k t start u)
    (makes' : x.Makes turns k' t' start' u) : k = k' ∧ t = t' ∧ start = start' := by
  obtain ⟨name, priority, does⟩ := id makes
  obtain ⟨name', priority', does'⟩ := id makes'
  obtain ⟨rfl, rfl⟩ := spawned_once does does'
  have same := (makes.start_eq (Nat.lt_succ_self k)).symm.trans (makes'.start_eq (Nat.lt_succ_self k))
  exact ⟨rfl, rfl, Option.some.inj same⟩

/-! ## The life of a process -/

/-- What the thread of a child does when its start has come to a result. -/
def proceeds (x : Scenario) (start : NewProcess) : Except LoadError LoadedProgram → ThreadProgram Unit :=
  Kernel.proceeding (fun name context => (x.code start name context).program x.kernel) start

/-- The start of thread `u`, which was made from `start` at time `k`, comes to a result at time `j`. -/
def Started (x : Scenario) (turns : ℕ → Turn) (u : Tid) (start : NewProcess) (k : ℕ)
    (result : Except LoadError LoadedProgram) (j : ℕ) : Prop :=
  ∃ d, j = k + 1 + d ∧ x.leftAt turns u (x.kernel.starting start) (k + 1) d = Program.pure result ∧
    ∀ e < d, ∀ r, x.leftAt turns u (x.kernel.starting start) (k + 1) e ≠ Program.pure r

/-- A thread carries out a call, the last that it has read from its stack; its program goes on with
    `code`. -/
def Serves (x : Scenario) (turns : ℕ → Turn) (i : ℕ) (t : Tid) (call : Syscall) (code : UInt32 → UserCode) :
    Prop :=
  ∃ b < i, ∃ frame : TrapFrame,
    x.programAt turns b t = (x.kernel.serve frame >>= fun value => (code value).program x.kernel) ∧
    x.Does turns b t (.device (.decode (.ofWord frame.esp))) (.ok call) ∧
    ∀ j, b < j → j < i → ∀ esp answer, ¬x.Does turns j t (.device (.decode esp)) answer

/-- Where thread `u`, which was made from `start` at time `k`, is in its life. -/
inductive Life (x : Scenario) (turns : ℕ → Turn) (u : Tid) (start : NewProcess) (k i : ℕ) : Prop where
  /-- It starts. -/
  | starting (d : ℕ) : i = k + 1 + d →
    (∀ r, x.leftAt turns u (x.kernel.starting start) (k + 1) d ≠ Program.pure r) →
    x.programAt turns i u = x.leftAt turns u (x.kernel.starting start) (k + 1) d >>= x.proceeds start →
    Life x turns u start k i
  /-- No program was loaded, and it is about to exit. -/
  | failing (e : LoadError) (j : ℕ) : x.Started turns u start k (.error e) j → j ≤ i →
    x.programAt turns i u = Kernel.exitProcess (-1) →
    (x.standingAt turns i u).Hosts start (.error e) → Life x turns u start k i
  /-- Its program acts, or it is about to exit. -/
  | acting (program : LoadedProgram) (j : ℕ) (current : Option (Syscall × (UInt32 → UserCode))) :
    x.Started turns u start k (.ok program) j → j ≤ i → x.kernel.Conduct current (x.programAt turns i u) →
    (∀ call code, current = some (call, code) → x.Serves turns i u call code) →
    (x.standingAt turns i u).Hosts start (.ok program) → Life x turns u start k i
  /-- It exits, or has ended. -/
  | exiting (result : Except LoadError LoadedProgram) (j b : ℕ) (status : Int32) :
    x.Started turns u start k result j → j ≤ b → b < i → x.Begins turns b u (.exit status) →
    x.programAt turns b u = Kernel.exitProcess status → (∀ e, result = .error e → status = -1) →
    (x.standingAt turns b u).Hosts start result → Life x turns u start k i

theorem startProcess_eq : x.environment.startProcess start = x.kernel.starting start >>= x.proceeds start :=
  @Kernel.startProcess_split x.kernel start fun name context => (x.code start name context).program x.kernel

/-- A start comes to what the load has come to. -/
theorem Started.loadGives {result : Except LoadError LoadedProgram}
    (started : x.Started turns u start k result j) : x.LoadGives turns u start k result j := by
  obtain ⟨d, rfl, left, -⟩ := started
  obtain ⟨e, result', g, rfl, over', -, left⟩ := leftAt_bind_pure left
  obtain ⟨e', r, g', -, -, -, done⟩ := leftAt_bind_pure left
  obtain rfl := Program.pure.inj (done.symm.trans (leftAt_of_pure (Nat.zero_le g') rfl))
  exact ⟨_, rfl, leftAt_of_pure (Nat.le_add_right e g) over'⟩

theorem conduct_proceeds (result : Except LoadError LoadedProgram) :
    x.kernel.Conduct none (x.proceeds start result) := by
  cases result with
  | ok program => exact UserCode.conduct rfl _
  | error e => exact .exit (-1)

/-- A child does not leave its start. -/
theorem remains_starting : (x.kernel.starting start).Remains :=
  Kernel.only_starting (fun a loads => by cases a <;> first | rfl | cases loads)
    (fun _ => Action.goesOn_of_announces) fun _ => rfl

/-- A call goes on being carried out until another is read. -/
theorem Serves.next {call : Syscall} {code : UInt32 → UserCode} (serves : x.Serves turns i t call code)
    (silent : ∀ esp answer, ¬x.Does turns i t (.device (.decode esp)) answer) :
    x.Serves turns (i + 1) t call code := by
  obtain ⟨b, before, frame, here, does, since⟩ := serves
  refine ⟨b, Nat.lt_succ_of_lt before, frame, here, does, fun j after early => ?_⟩
  rcases Nat.lt_succ_iff_lt_or_eq.1 early with early | rfl
  · exact since j after early
  · exact silent

theorem does_of_attempts {r : DeviceRequest} {next : r.Answer → ThreadProgram Unit}
    (attempts : (x.machineAt turns i).Attempts (turns i) t (.device r) next) :
    x.Does turns i t (.device r)
      (r.serve ((x.machineAt turns i).thread t).own (x.machineAt turns i).devices).1 :=
  ⟨⟨next, attempts.does⟩, ((goes_of_attempts attempts).told _).trans rfl⟩

/-- When a thread makes a request the devices serve it. -/
theorem Does.served {r : DeviceRequest} {answer : r.Answer} (does : x.Does turns i t (.device r) answer) :
    (x.standingAt turns (i + 1) t).own =
        (r.serve (x.standingAt turns i t).own (x.machineAt turns i).devices).2.1 ∧
      (x.machineAt turns (i + 1)).devices =
        (r.serve (x.standingAt turns i t).own (x.machineAt turns i).devices).2.2 ∧
      answer = (r.serve (x.standingAt turns i t).own (x.machineAt turns i).devices).1 := by
  have goes := does.goes
  have told := does.2
  obtain ⟨next, here⟩ := does.1
  have step : x.machineAt turns (i + 1) = _ :=
    (machineAt_of_goes goes).trans (congrArg Prod.fst (Machine.step_of_ask goes.2.2 here))
  refine ⟨?_, ?_, ?_⟩
  · change ((x.machineAt turns (i + 1)).thread t).own = _
    rw [step]
    simp only [Machine.attempt, Machine.settleAttempt]
    rw [Machine.thread_setThread (by simpa using goes.inside), Function.update_self]
    change ((Machine.setThread _ t _).thread t).own = _
    rw [Machine.thread_setThread goes.inside, Function.update_self]
    rfl
  · rw [step, Machine.devices_settleAttempt]
    rfl
  · rw [goes.told] at told
    exact (Option.some.inj told).symm

/-- What a thread has changes when it makes a request. -/
theorem own_succ (inside : t < (x.machineAt turns i).threads.size) :
    (x.standingAt turns (i + 1) t).own = (x.standingAt turns i t).own ∨
      ∃ r answer, x.Does turns i t (.device r) answer ∧ r.Permitted (x.standingAt turns i t) ∧
        (x.standingAt turns (i + 1) t).own =
          (r.serve (x.standingAt turns i t).own (x.machineAt turns i).devices).2.1 := by
  have advances : Advances x.environment.blocks (x.toldAt turns i t) (x.programAt turns i t)
    (x.standingAt turns i t) (x.programAt turns (i + 1) t) (x.standingAt turns (i + 1) t) :=
      (x.sound turns i).advances x.lawful (turns i) inside
  generalize here : x.programAt turns i t = p at advances
  generalize x.programAt turns (i + 1) t = p' at advances
  generalize now : x.standingAt turns i t = s at advances
  generalize after : x.standingAt turns (i + 1) t = s' at advances
  cases advances with
  | rest | goto | finish => exact .inl rfl
  | go told allowed follows =>
    cases follows with
    | act => exact .inl rfl
    | device r s d =>
      have does : x.Does turns i t (.device r) (r.serve s.own d).1 := ⟨⟨_, here⟩, told⟩
      exact .inr ⟨r, _, does, allowed.2, by rw [← after, ← now]; exact does.served.1⟩

theorem not_does {a a' : Action} {next : a.Answer → ThreadProgram Unit} {answer : a'.Answer}
    (here : x.programAt turns i t = Program.ask a next) (other : a' ≠ a) : ¬x.Does turns i t a' answer := by
  rintro ⟨⟨next', there⟩, -⟩
  exact other (Program.ask.inj (there.symm.trans here)).1

namespace Makes

variable (makes : x.Makes turns k t start u)

include makes

theorem starts : x.programAt turns (k + 1) u = x.kernel.starting start >>= x.proceeds start := by
  rw [programAt, makes.thread_eq]
  exact startProcess_eq

/-- When the start has come to a result the thread proceeds with that. -/
theorem proceeds_of_started {result : Except LoadError LoadedProgram}
    (started : x.Started turns u start k result j) :
    x.programAt turns j u = x.proceeds start result ∧ (x.standingAt turns j u).Hosts start result := by
  obtain ⟨d, rfl, left, ongoing⟩ := started
  obtain ⟨here, keeps⟩ := wp_at (Q := fun result s => s.Hosts start result) makes.starts
    (makes.inside (Nat.lt_succ_self k)) remains_starting
    (makes.stands ▸ Kernel.wp_starting (fun e => rfl) fun program space => ⟨space, rfl⟩) ongoing
  rw [left] at here keeps
  exact ⟨here, keeps⟩

end Makes

/-- A thread that is about to exit begins to, or stays as it is. -/
theorem begins_exit {status : Int32} (inside : t < (x.machineAt turns i).threads.size)
    (here : x.programAt turns i t = Kernel.exitProcess status) : x.Begins turns i t (.exit status) ∨
      x.programAt turns (i + 1) t = Kernel.exitProcess status ∧
        x.standingAt turns (i + 1) t = x.standingAt turns i t := by
  obtain ⟨next, opens⟩ : ∃ next, (Kernel.exitProcess status : ThreadProgram Unit) =
    Program.ask (Action.device .process) next := ⟨_, rfl⟩
  have advances : Advances x.environment.blocks (x.toldAt turns i t) (x.programAt turns i t)
    (x.standingAt turns i t) (x.programAt turns (i + 1) t) (x.standingAt turns (i + 1) t) :=
      (x.sound turns i).advances x.lawful (turns i) inside
  rw [here, opens] at advances
  generalize left : x.programAt turns (i + 1) t = p at advances
  generalize x.standingAt turns (i + 1) t = s at advances
  cases advances with
  | rest => exact .inr ⟨opens.symm, rfl⟩
  | go told =>
    have goes : x.Goes turns i t := Does.goes ⟨⟨next, here.trans opens⟩, told⟩
    obtain ⟨first, starts⟩ : ∃ first, (KernelCall.exit status).program x.kernel =
      Program.ask (KernelCall.exit status).opening first := ⟨_, rfl⟩
    exact .inl ⟨goes, first, Empty.elim, starts, here.trans (Kernel.exitProcess_elim status).symm⟩

/-- A process whose program acts goes on with what it may do, and keeps what it has, unless it begins to
    exit. -/
theorem acting_next {current : Option (Syscall × (UInt32 → UserCode))}
    (inside : t < (x.machineAt turns i).threads.size)
    (conduct : x.kernel.Conduct current (x.programAt turns i t))
    (serves : ∀ call code, current = some (call, code) → x.Serves turns i t call code) :
    (∃ status, x.programAt turns i t = Kernel.exitProcess status ∧ x.Begins turns i t (.exit status)) ∨
    ∃ current', x.kernel.Conduct current' (x.programAt turns (i + 1) t) ∧
      (∀ call code, current' = some (call, code) → x.Serves turns (i + 1) t call code) ∧
      (x.standingAt turns (i + 1) t).own.process.map Process.core =
        (x.standingAt turns i t).own.process.map Process.core := by
  by_cases exits : ∃ status, x.programAt turns i t = Kernel.exitProcess status
  · obtain ⟨status, here⟩ := exits
    rcases begins_exit inside here with begins | ⟨still, same⟩
    · exact .inl ⟨status, here, begins⟩
    · exact .inr ⟨none, still ▸ .exit status, nofun, by rw [same]⟩
  have advances : Advances x.environment.blocks (x.toldAt turns i t) (x.programAt turns i t)
    (x.standingAt turns i t) (x.programAt turns (i + 1) t) (x.standingAt turns (i + 1) t) :=
      (x.sound turns i).advances x.lawful (turns i) inside
  -- No other call is read.
  have goesOn (silent : ∀ esp answer, ¬x.Does turns i t (.device (.decode esp)) answer) :
      ∀ call code, current = some (call, code) → x.Serves turns (i + 1) t call code :=
    fun call code same => (serves call code same).next silent
  generalize here : x.programAt turns i t = p at conduct advances exits
  generalize x.programAt turns (i + 1) t = p' at advances
  generalize x.standingAt turns i t = s at advances
  generalize x.standingAt turns (i + 1) t = s' at advances
  refine .inr ?_
  cases advances with
  | rest silent =>
    refine ⟨current, conduct, goesOn ?_, rfl⟩
    rintro esp answer ⟨⟨next, there⟩, told⟩
    rw [silent _ next (here.symm.trans there)] at told
    cases told
  | goto =>
    cases conduct with
    | ordinary plain => cases plain
    | goto => exact ⟨none, UserCode.conduct rfl _, nofun, rfl⟩
  | finish =>
    cases conduct with
    | ordinary ends => cases ends
  | @go a next answer _ _ told allowed follows =>
    have others (other : ∀ esp, a ≠ .device (.decode esp)) :=
      goesOn fun esp answer => not_does here (other esp).symm
    cases conduct with
    | ordinary plain rest =>
      refine ⟨current, rest answer, others fun esp same => ?_, follows.core fun r same => .inr ?_⟩
      · subst same
        cases plain
      · subst same
        exact plain
    | store same rest =>
      exact ⟨current, rest answer, others fun _ => nofun, follows.core fun r same => by cases same; exact .inl rfl⟩
    | @decode _ frame code _ same rest =>
      refine ⟨_, rest answer, fun call code' now => ?_, follows.core fun r same => by cases same; exact .inl rfl⟩
      obtain ⟨call', read, both⟩ := Option.map_eq_some_iff.1 now
      cases both
      cases answer with
      | error fault => cases read
      | ok call'' =>
        obtain rfl := Option.some.inj read
        exact ⟨i, Nat.lt_succ_self i, frame, here.trans same, ⟨⟨_, here⟩, told⟩,
          fun j after early => absurd after (Nat.not_lt.2 (Nat.le_of_lt_succ early))⟩
    | copyOut _ rest =>
      exact ⟨_, rest answer, others fun _ => nofun, follows.core fun r same => by cases same; exact .inl rfl⟩
    | put _ _ rest =>
      exact ⟨_, rest, others fun _ => nofun, follows.core fun r same => by cases same; exact .inl rfl⟩
    | goto => cases answer
    | exit status => exact absurd ⟨status, rfl⟩ exits

/-- The life of a thread goes on, whatever it is told. -/
theorem Life.next (makes : x.Makes turns k t start u) (inside : u < (x.machineAt turns i).threads.size)
    (life : x.Life turns u start k i) : x.Life turns u start k (i + 1) := by
  cases life with
  | starting d now ongoing here =>
    subst now
    have onward : x.programAt turns (k + 1 + (d + 1)) u =
        x.leftAt turns u (x.kernel.starting start) (k + 1) (d + 1) >>= x.proceeds start :=
      programAt_of_remains (d := 1) here inside (only_leftAt remains_starting d) fun e before r => by
        obtain rfl := Nat.lt_one_iff.1 before
        exact ongoing r
    cases left : x.leftAt turns u (x.kernel.starting start) (k + 1) (d + 1) with
    | ask a first => exact .starting (d + 1) rfl (by rw [left]; nofun) onward
    | pure result =>
      have started : x.Started turns u start k result (k + 1 + (d + 1)) :=
        ⟨d + 1, rfl, left, fun e before r early =>
          ongoing r (leftAt_of_pure (Nat.le_of_lt_succ before) early)⟩
      obtain ⟨here, hosts⟩ := makes.proceeds_of_started started
      cases result with
      | error e => exact .failing e _ started (Nat.le_refl _) here hosts
      | ok program =>
        exact .acting program _ none started (Nat.le_refl _) (here ▸ conduct_proceeds _) nofun hosts
  | failing e j started le here hosts =>
    rcases begins_exit inside here with begins | ⟨still, same⟩
    · exact .exiting _ j i (-1) started le (Nat.lt_succ_self i) begins here (fun _ _ => rfl) hosts
    · exact .failing e j started (Nat.le_succ_of_le le) still (same ▸ hosts)
  | acting program j current started le conduct serves hosts =>
    rcases acting_next inside conduct serves with ⟨status, here, begins⟩ | ⟨current', conduct', serves', same⟩
    · exact .exiting _ j i status started le (Nat.lt_succ_self i) begins here nofun hosts
    · exact .acting program j current' started (Nat.le_succ_of_le le) conduct' serves' (hosts.of_core_eq same)
  | exiting result j b status started le before begins here killed hosts =>
    exact .exiting result j b status started le (Nat.lt_succ_of_lt before) begins here killed hosts

/-- At all times a thread that was made is somewhere in its life. -/
theorem Makes.life (makes : x.Makes turns k t start u) (later : k < i) : x.Life turns u start k i := by
  induction later with
  | refl => exact .starting 0 rfl nofun makes.starts
  | step later ih => exact ih.next makes (makes.inside later)

variable (x) (turns) in
/-- What threads do that were not made for a process is ordinary. -/
theorem ordinary_or_made (i : ℕ) (t : Tid) : (x.programAt turns i t).Ordinary ∨ 1 < t := by
  refine x.history turns (fun t p _ => p.Ordinary ∨ 1 < t) (fun _ => .inl trivial) (.inl ?_)
    (fun _ _ later => .inr later) (fun t told p s p' s' holds advances => ?_) i t
  · refine Kernel.ordinary_bind (Kernel.ordinary_bind Kernel.ordinary_execute fun result => ?_)
      fun _ => trivial
    cases result with
    | error e => trivial
    | ok child => exact Kernel.ordinary_bind Kernel.ordinary_wait fun _ => trivial
  · refine holds.imp_left fun ordinary => ?_
    cases advances with
    | rest => exact ordinary
    | go => exact ordinary.2 _
    | goto => cases ordinary.1
    | finish => trivial

/-- Who does something that is not ordinary was made for a process. -/
theorem life_of_asks {a : Action} {next : a.Answer → ThreadProgram Unit}
    (here : x.programAt turns i t = Program.ask a next) (extra : a.isOrdinary = false) :
    ∃ k < i, ∃ t' start, x.Makes turns k t' start t ∧ x.Life turns t start k i := by
  have later : 1 < t := (x.ordinary_or_made turns i t).resolve_left fun plain => by
    rw [here] at plain
    cases extra.symm.trans plain.1
  have inside : t < (x.machineAt turns i).threads.size := by
    by_contra outside
    rw [programAt, Machine.thread_of_size_le (Nat.not_lt.1 outside)] at here
    cases here
  obtain ⟨k, before, t', start, makes⟩ := exists_makes later inside
  exact ⟨k, before, t', start, makes, makes.life before⟩

/-! ## Deeds -/

/-- Thread `u`, which was made from `start` at time `k`, does something at time `i` in some part of its
    life. -/
inductive Deed (x : Scenario) (turns : ℕ → Turn) (u : Tid) (start : NewProcess) (k i : ℕ) (a : Action) :
    Prop where
  /-- It starts. -/
  | starting (d : ℕ) (first : a.Answer → ThreadProgram (Except LoadError LoadedProgram)) : i = k + 1 + d →
    x.leftAt turns u (x.kernel.starting start) (k + 1) d = Program.ask a first → Deed x turns u start k i a
  /-- Its program acts. -/
  | acting (program : LoadedProgram) (j : ℕ) (current : Option (Syscall × (UInt32 → UserCode)))
    (next : a.Answer → ThreadProgram Unit) : x.Started turns u start k (.ok program) j → j ≤ i →
    x.kernel.Conduct current (Program.ask a next) → x.programAt turns i u = Program.ask a next →
    (∀ call code, current = some (call, code) → x.Serves turns i u call code) →
    (x.standingAt turns i u).Hosts start (.ok program) → Deed x turns u start k i a
  /-- It exits. -/
  | exiting (result : Except LoadError LoadedProgram) (j b d : ℕ) (status : Int32)
    (first : a.Answer → ThreadProgram Empty) : x.Started turns u start k result j → j ≤ b → i = b + d →
    x.Begins turns b u (.exit status) →
    x.leftAt turns u (Kernel.exitProcess status : ThreadProgram Empty) b d = Program.ask a first →
    (∀ e, result = .error e → status = -1) → (x.standingAt turns b u).Hosts start result →
    Deed x turns u start k i a

/-- A thread that exits goes on with that until it ends. -/
theorem Begins.exiting {status : Int32} (begins : x.Begins turns b t (.exit status))
    {a : Action} {next : a.Answer → ThreadProgram Unit}
    (here : x.programAt turns (b + d) t = Program.ask a next) : ∃ first,
    x.leftAt turns t (Kernel.exitProcess status : ThreadProgram Empty) b d = Program.ask a first := by
  have within : x.Within turns (.exit status) b (b + d) t := ⟨begins, d, rfl, nofun⟩
  obtain ⟨d', rest, same, there | ⟨gone, -⟩, ongoing, -⟩ := within.programAt
  · obtain rfl := Nat.add_left_cancel same
    obtain ⟨first, left, -⟩ := Program.asks_of_bind ongoing (there.symm.trans here)
    exact ⟨first, left⟩
  · cases here.symm.trans gone

/-- Who does something that is not ordinary was made for a process, and does it in some part of its life. -/
theorem Does.deed {a : Action} {answer : a.Answer} (does : x.Does turns i t a answer)
    (extra : a.isOrdinary = false) :
    ∃ k < i, ∃ t' start, x.Makes turns k t' start t ∧ x.Deed turns t start k i a := by
  have goes := does.goes
  obtain ⟨⟨next, here⟩, told⟩ := does
  obtain ⟨k, before, t', start, makes, life⟩ := life_of_asks here extra
  refine ⟨k, before, t', start, makes, ?_⟩
  cases life with
  | starting d now ongoing there =>
    obtain ⟨first, left, -⟩ := Program.asks_of_bind ongoing (there.symm.trans here)
    exact .starting d first now left
  | failing e j started le there hosts =>
    -- It has not begun to exit yet, and the beginning of an exit is ordinary.
    obtain ⟨rfl⟩ := (Program.ask.inj (here.symm.trans there)).1
    cases extra
  | acting program j current started le conduct serves hosts =>
    exact .acting program j current next started le (here ▸ conduct) here serves hosts
  | exiting result j b status started le later begins there killed hosts =>
    obtain ⟨d, rfl⟩ := Nat.exists_eq_add_of_le (Nat.le_of_lt later)
    obtain ⟨first, left⟩ := begins.exiting here
    exact .exiting result j b d status first started le rfl begins left killed hosts

theorem starts_of_left {a : Action} {first : a.Answer → ThreadProgram (Except LoadError LoadedProgram)}
    (left : x.leftAt turns u (x.kernel.starting start) b d = Program.ask a first) : Kernel.InStart start a := by
  have only := @only_leftAt x turns b u _ _ _ _ (@Kernel.starts_starting x.kernel start) d
  rw [left] at only
  exact only.1

theorem exits_of_left {status : Int32} {a : Action} {first : a.Answer → ThreadProgram Empty}
    (left : x.leftAt turns u (Kernel.exitProcess status : ThreadProgram Empty) b d = Program.ask a first) :
    Kernel.InExit status a := by
  have only := @only_leftAt x turns b u _ _ _ _ (@Kernel.exits_exitProcess Empty status) d
  rw [left] at only
  exact only.1

/-- A request that is made neither in a start nor in an exit is made while a program acts. -/
theorem Deed.acts {r : DeviceRequest} (deed : x.Deed turns u start k i (.device r)) (loads : r.loads = false)
    (installs : r.installs = false) (final : r.isFinal = false) (shows : ∀ buffer, r ≠ .put buffer)
    (sets : ∀ status, r ≠ .setExitStatus status) (allows : ∀ h, r ≠ .allow h) :
    ∃ current next, x.kernel.Conduct current (Program.ask (Action.device r) next) ∧
      x.programAt turns i u = Program.ask (Action.device r) next ∧
      ∀ call code, current = some (call, code) → x.Serves turns i u call code := by
  cases deed with
  | acting program j current next started le conduct here serves => exact ⟨current, next, conduct, here, serves⟩
  | starting d first now left =>
    rcases starts_of_left left with loads' | announces | ⟨text, ⟨⟩⟩
    · cases loads.symm.trans loads'
    · cases installs.symm.trans announces
    · exact absurd rfl (shows _)
  | exiting result j b d status first started le now begins left =>
    rcases exits_of_left left with ⟨⟨⟩⟩ | ⟨⟨⟩⟩ | ⟨name, ⟨⟩⟩ | ⟨h, ⟨⟩⟩ | final'
    · cases installs
    · exact absurd rfl (sets status)
    · exact absurd rfl (shows _)
    · exact absurd rfl (allows h)
    · cases final.symm.trans final'

end Scenario

end Userland

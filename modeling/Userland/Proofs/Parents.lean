import Userland.Proofs.LoadSignals
import Userland.Proofs.Sequences
import Userland.Proofs.UserMemory

/-!
# Who starts a child

A thread that starts a child makes one thread at most, and does nothing else meanwhile but what has to
do with channels and records. What comes of it is what the load of that child has come to
(`Scenario.Gives.outcome`), and if no child is started the thread has what it had
(`Scenario.Returns.own_eq`). Nobody stores anything in its memory meanwhile
(`Scenario.Returns.page?_eq`).
-/

namespace Userland

open ThreadProgram

-- Which words a line has does not matter for the calls that are made with it.
attribute [local irreducible] Words.ofString

/-- The result of a program that is over. -/
def Program.result? {σ : Signature} {α : Type} : Program σ α → Option α
  | pure x => some x
  | ask _ _ => none

theorem Program.result?_eq_some {σ : Signature} {α : Type} {p : Program σ α} {r : α} :
    p.result? = some r ↔ p = Program.pure r := by
  cases p <;> simp [Program.result?]

/-! ## One child at most -/

/-- The action makes a thread. -/
def Action.Spawns (a : Action) : Prop := ∃ name priority start, a = .spawn name priority start

theorem Action.not_spawns {a : Action} (clerical : a.isClerical = true) : ¬a.Spawns := by
  rintro ⟨name, priority, start, rfl⟩
  cases clerical

/-- The action has to do with channels and records, or makes a thread. -/
def Action.isBooting (a : Action) : Prop := a.Spawns ∨ a.isClerical = true

theorem Action.isBooting.goesOn {a : Action} (boots : a.isBooting) : a.goesOn = true := by
  rcases boots with ⟨name, priority, start, rfl⟩ | clerical
  · rfl
  · cases a <;> first | rfl | cases clerical

namespace KernelCall

/-- To start a child a thread makes one thread at most, and all else that it does has to do with
    channels and records. -/
theorem once_execute (k : Kernel) (family : Family) (line : String) :
    ((execute family line).program k).Once Action.Spawns ∧
    ((execute family line).program k).Only Action.isBooting fun _ => True := by
  change (k.execute family line).Once _ ∧ (k.execute family line).Only _ _
  rcases (execute family line).program_cases (k := k) with ⟨first, opens⟩ | ⟨_, _, same, refused⟩
  · have opens : k.execute family line = Program.ask Action.newChannel first := opens
    obtain ⟨name, rest, shape, refused, recorded⟩ := execute_steps opens
    have clerical (loaded exit : ChannelId) (made : Option Tid) :
        (rest loaded exit made).Only (fun a : Action => a.isClerical = true) fun _ => True := by
      cases made with
      | none => exact (refused loaded exit).mono (fun _ => And.left) fun _ _ => trivial
      | some u =>
        obtain ⟨last, steps, results⟩ := recorded loaded exit u
        rw [steps]
        exact ⟨rfl, fun _ => ⟨rfl, fun _ => ⟨rfl, fun _ => ⟨rfl, fun answer =>
          (results answer).mono (fun _ => And.left) fun _ _ => trivial⟩⟩⟩⟩
    have others (loaded exit : ChannelId) (made : Option Tid) :
        (rest loaded exit made).Only (fun a : Action => ¬a.Spawns) fun _ => True :=
      (clerical loaded exit made).mono (fun a => a.not_spawns) fun _ => id
    rw [opens]
    refine ⟨fun loaded => ?_, .inr rfl, fun loaded => ?_⟩
    · rw [shape]
      exact ⟨fun spawns => absurd spawns (Action.not_spawns rfl), fun exit =>
        ⟨fun spawns => absurd spawns (Action.not_spawns rfl), fun made =>
          ⟨fun _ => others loaded exit made, .of_only (others loaded exit made)⟩⟩⟩
    · rw [shape]
      exact ⟨.inr rfl, fun exit => ⟨.inl ⟨_, _, _, rfl⟩, fun made =>
        (clerical loaded exit made).mono (fun _ => .inr) fun _ => id⟩⟩
  · obtain ⟨rfl, rfl⟩ := execute.inj same
    rw [refused]
    exact ⟨trivial, trivial⟩

end KernelCall

/-! ## The one child -/

namespace Scenario

variable {x : Scenario} {turns : ℕ → Turn} {i j k b : ℕ} {t u : Tid} {family : Family} {line : String}

/-- What a thread does in a call that does not end it, it does as a step of the call. -/
theorem Within.left {c : KernelCall} (within : x.Within turns c b i t) (stays : c.exits = none) {a : Action}
    {next : a.Answer → ThreadProgram Unit} (here : x.programAt turns i t = Program.ask a next) :
    ∃ d first, i = b + d ∧ x.leftAt turns t (c.program x.kernel) b d = Program.ask a first := by
  obtain ⟨d, next', rfl, there | ⟨-, exits⟩, ongoing, -⟩ := within.programAt
  · obtain ⟨first, left, -⟩ := Program.asks_of_bind ongoing (there.symm.trans here)
    exact ⟨d, first, rfl, left⟩
  · rw [stays] at exits
    cases exits

/-- A thread that does something of which a call does one thing at most, does nothing of the kind in
    that call later. -/
theorem Within.not_again {c : KernelCall} {P : Action → Prop} (within : x.Within turns c b i t)
    (stays : c.exits = none) (once : (c.program x.kernel).Once P) {a a' : Action} {answer : a.Answer}
    (does : x.Does turns i t a answer) (so : P a) (later : i < j) (within' : x.Within turns c b j t)
    {next : a'.Answer → ThreadProgram Unit} (here : x.programAt turns j t = Program.ask a' next) :
    ¬P a' := by
  obtain ⟨⟨next', there⟩, told⟩ := does
  obtain ⟨d, first, rfl, left⟩ := within.left stays there
  obtain ⟨e, first', rfl, left'⟩ := within'.left stays here
  exact not_done_again once left told so (Nat.lt_of_add_lt_add_left later) left'

/-- A thread that starts a child makes thread `u` for it from `start` at time `k`. -/
structure Bears (x : Scenario) (turns : ℕ → Turn) (t : Tid) (family : Family) (line : String) (b k : ℕ)
    (start : NewProcess) (u : Tid) : Prop where
  /-- The thread is in the call. -/
  within : x.Within turns (.execute family line) b k t
  /-- It makes the child. -/
  makes : x.Makes turns k t start u

/-- A thread does one thing at a time, and gets one answer. -/
theorem Does.unique {a : Action} {answer answer' : a.Answer} (does : x.Does turns i t a answer)
    (does' : x.Does turns i t a answer') : answer = answer' :=
  Option.some.inj (does.2.symm.trans does'.2)

/-- A thread that starts a child tries to make a thread once. -/
theorem Within.spawns_once (within : x.Within turns (.execute family line) b i t)
    (within' : x.Within turns (.execute family line) b j t) {name name' : String} {priority priority' : UInt8}
    {start start' : NewProcess} {made made' : Option Tid}
    (does : x.Does turns i t (.spawn name priority start) made)
    (does' : x.Does turns j t (.spawn name' priority' start') made') :
    i = j ∧ start = start' ∧ made = made' := by
  obtain ⟨next, here⟩ := id does.1
  obtain ⟨next', here'⟩ := id does'.1
  have once := (KernelCall.once_execute x.kernel family line).1
  rcases Nat.lt_trichotomy i j with later | rfl | later
  · exact absurd ⟨_, _, _, rfl⟩ (within.not_again rfl once does ⟨_, _, _, rfl⟩ later within' here')
  · cases (Program.ask.inj (here.symm.trans here')).1
    exact ⟨rfl, rfl, does.unique does'⟩
  · exact absurd ⟨_, _, _, rfl⟩ (within'.not_again rfl once does' ⟨_, _, _, rfl⟩ later within here)

/-- It makes one child at most. -/
theorem Bears.unique {k' : ℕ} {start start' : NewProcess} {u' : Tid}
    (bears : x.Bears turns t family line b k start u) (bears' : x.Bears turns t family line b k' start' u') :
    k = k' ∧ start = start' ∧ u = u' := by
  obtain ⟨within, name, priority, does⟩ := bears
  obtain ⟨within', name', priority', does'⟩ := bears'
  obtain ⟨same, from', made⟩ := within.spawns_once within' does does'
  exact ⟨same, from', Option.some.inj made⟩

/-- What starting a child comes to, by what the load of its program has come to. -/
def outcome (u : Tid) : Except LoadError LoadedProgram → Except ExecError Tid
  | .ok _ => .ok u
  | .error _ => .error .loadFailed

/-- What starting a child gives is what the load of its program has come to by then, unless no thread
    was made for it. -/
theorem Gives.outcome {r : Except ExecError Tid} (gives : x.Gives turns t (.execute family line) b r i) :
    (r = .error .spawn ∧ ∀ k start u, ¬x.Bears turns t family line b k start u) ∨
      ∃ k start u result j, x.Bears turns t family line b k start u ∧ j < i ∧
        start.command = Utf8.truncate line Kernel.maxCommandLength ∧
        x.LoadGives turns u start k result j ∧ r = outcome u result := by
  obtain ⟨k, name, priority, start, made, within, before, does, command, refused, started⟩ := gives.steps
  cases made with
  | none =>
    refine .inl ⟨refused rfl, fun k' start' u bears => ?_⟩
    obtain ⟨within', name', priority', does'⟩ := bears
    cases (within.spawns_once within' does does').2.2
  | some u =>
    obtain ⟨j, answer, after, early, receives, settles⟩ := started u rfl
    have makes : x.Makes turns k t start u := ⟨name, priority, does⟩
    obtain ⟨result, rfl, load⟩ := makes.loadGives_of_receive after receives
    refine .inr ⟨k, start, u, result, j, ⟨within, makes⟩, early, command, load, ?_⟩
    cases result with
    | ok p => exact (settles.resolve_right fun other => other.1 rfl).2
    | error e => exact (settles.resolve_left fun other => nomatch other.1).2

/-! ## What the thread has -/

/-- If no child is started the thread has what it had. -/
theorem Returns.own_eq {e : ExecError} (returns : x.Returns turns t (.execute family line) b (.error e) i) :
    (x.standingAt turns i t).own = (x.standingAt turns b t).own :=
  (returns.along (KernelCall.along_execute rfl (nodup_keys_at family))).1 e rfl

/-- If a child is started it is on record, and the thread has what it had besides. -/
theorem Returns.gains (returns : x.Returns turns t (.execute family line) b (.ok u) i) :
    (x.standingAt turns b t).own.Gains family u (x.standingAt turns i t).own :=
  (returns.along (KernelCall.along_execute rfl (nodup_keys_at family))).2 u rfl

/-- Meanwhile the thread has the frames that it had. -/
theorem Within.frames_eq (within : x.Within turns (.execute family line) b i t) :
    (x.standingAt turns i t).own.frames = (x.standingAt turns b t).own.frames := by
  rcases within.along (KernelCall.along_execute rfl (nodup_keys_at family)) with same | ⟨u, -, -, exit, same⟩
  · rw [same]
  · rw [same, Belongings.frames_modifyChildren]

end Scenario

/-! ## What others store -/

theorem AddressSpace.page?_store {s : AddressSpace} {f : Frame} (notMem : f ∉ s.frames) (pool : FramePool)
    (a : Nat) (data : Bytes) : (s.store pool a data).2.page? f = pool.page? f := by
  induction data generalizing pool a with
  | nil => rfl
  | cons byte data ih =>
    simp only [store]
    split
    · rfl
    · next t found =>
      have other : f ≠ t.frame := fun same => notMem (same ▸ mem_frames_of_translate found)
      split
      · rw [ih, FramePool.page?_write, if_neg other]
      · rfl

namespace DeviceRequest

variable {b : Belongings} {d : Devices} {f : Frame}

/-- The requests that store bytes in a frame of the thread. -/
def stores : DeviceRequest → Bool
  | copyOut .. | store .. | writeBytes .. | fill .. | clear _ => true
  | _ => false

theorem stores_of_isClerical {r : DeviceRequest} (clerical : (Action.device r).isClerical = true) :
    r.stores = false := by
  cases r <;> first | rfl | cases clerical

/-- A thread stores nothing in a frame that is another's, and nothing at all with other requests. -/
theorem page?_serve (r : DeviceRequest) (notMem : r.stores = true → f ∉ b.frames)
    (used : d.pool.inUse f = true) : (r.serve b d).2.2.pool.page? f = d.pool.page? f := by
  have apart {s : AddressSpace} (stores : r.stores = true) (space : b.space? = some s) : f ∉ s.frames :=
    fun mem => notMem stores (by simp [Belongings.frames, Belongings.framesOf, space, mem])
  have effect := poolEffect_serve r b d
  generalize (r.serve b d).2.2.pool = pool at effect ⊢
  cases effect with
  | same => rfl
  | @copied s start data space =>
    simp only [AddressSpace.copyOut]
    split
    · rfl
    · exact AddressSpace.page?_writeFrom _ (apart rfl space) _ _ _
  | stored _ _ space => exact AddressSpace.page?_store (apart rfl space) _ _ _
  | written _ _ space => exact AddressSpace.page?_writeFrom _ (apart rfl space) _ _ _
  | @filled g _ _ held | @cleared g _ held =>
    have other : f ≠ g := fun same => notMem rfl (by simp [Belongings.frames, held, same])
    exact (FramePool.page?_modify ..).trans (if_neg other)
  | @allocated g _ given =>
    have other : f ≠ g := fun same => by
      rw [same, (FramePool.allocate?_eq_some given).2.1] at used
      cases used
    exact (FramePool.page?_allocate? given f).trans (if_neg other)
  | released => exact FramePool.page?_release ..

end DeviceRequest

namespace Scenario

variable {x : Scenario} {turns : ℕ → Turn} {i j b : ℕ} {t : Tid} {family : Family} {line : String} {f : Frame}

/-- What a thread that starts a child asks for itself has to do with channels and records only. -/
theorem Within.isClerical {r : DeviceRequest} {next : r.Answer → ThreadProgram Unit}
    (within : x.Within turns (.execute family line) b i t)
    (here : x.programAt turns i t = Program.ask (Action.device r) next) :
    (Action.device r).isClerical = true := by
  obtain ⟨d, first, rfl, left⟩ := within.left rfl here
  have only := @only_leftAt x turns b t _ _ _ _ (KernelCall.once_execute x.kernel family line).2 d
  rw [left] at only
  rcases only.1 with ⟨_, _, _, spawns⟩ | clerical
  · cases spawns
  · exact clerical

/-- Nobody else stores anything in the frames of a thread. -/
theorem page?_succ (mem : f ∈ (x.standingAt turns i t).own.frames)
    (still : ∀ r next, (x.machineAt turns i).Attempts (turns i) t (.device r) next → r.stores = false) :
    (x.machineAt turns (i + 1)).devices.pool.page? f = (x.machineAt turns i).devices.pool.page? f := by
  have sound := x.sound turns i
  rcases (x.machineAt turns i).serve_turn x.environment (turns i) with
    ⟨u, r, next, attempts, turned⟩ | idle
  · have turned : (x.machineAt turns (i + 1)).devices = _ := turned
    rw [turned]
    refine r.page?_serve (fun stores mem' => ?_) ((sound.frames.live f).2 ⟨t, mem⟩)
    obtain rfl : u = t := by
      by_contra other
      exact other (sound.frames.apart u t f mem' mem)
    cases (still r next attempts).symm.trans stores
  · exact congrArg (·.page? f) idle.pool

/-- While a thread starts a child, nobody stores anything in its frames. -/
theorem Within.page?_succ (within : x.Within turns (.execute family line) b i t)
    (mem : f ∈ (x.standingAt turns i t).own.frames) :
    (x.machineAt turns (i + 1)).devices.pool.page? f = (x.machineAt turns i).devices.pool.page? f :=
  Scenario.page?_succ mem fun _ _ attempts =>
    DeviceRequest.stores_of_isClerical (within.isClerical attempts.does)

/-- Until a child is started, or cannot be started, the memory of the thread holds what it held. -/
theorem Returns.page?_eq {r : Except ExecError Tid} (returns : x.Returns turns t (.execute family line) b r i)
    (mem : f ∈ (x.standingAt turns b t).own.frames) (le : b ≤ j) (le' : j ≤ i) :
    (x.machineAt turns j).devices.pool.page? f = (x.machineAt turns b).devices.pool.page? f := by
  induction le with
  | refl => rfl
  | @step j later ih =>
    have within := returns.lasts j le' later
    rw [within.page?_succ (within.frames_eq ▸ mem), ih (Nat.le_of_lt le')]

/-! ## The first thread -/

/-- The first thread begins to start the command line at once, if that has a word. -/
theorem begins_run (first : turns 0 = .step 1)
    (some : Words.ofString (Utf8.truncate x.line Kernel.maxCommandLength) ≠ []) :
    x.Begins turns 0 1 (.execute .initial x.line) := by
  have ready : (x.machineAt turns 0).thread 1 = .ready 1 (discard (x.kernel.run x.line)) := x.thread_machine 1
  refine ⟨⟨rfl, first, by rw [ready]; rfl⟩, ?_⟩
  have here : x.programAt turns 0 1 = discard (x.kernel.run x.line) := congrArg Thread.program ready
  rcases KernelCall.program_cases (k := x.kernel) (.execute .initial x.line) with
    ⟨next, opens⟩ | ⟨family, line, same, refused⟩
  · exact ⟨next, _, opens, here.trans (bind_assoc (x.kernel.execute .initial x.line) _ _)⟩
  · obtain ⟨rfl, rfl⟩ := KernelCall.execute.inj same
    refine absurd ?_ some
    unfold Kernel.execute at refused
    dsimp only at refused
    cases words : Words.ofString (Utf8.truncate x.line Kernel.maxCommandLength) with
    | nil => rfl
    | cons w rest =>
      rw [words] at refused
      cases refused

/-- A call whose program is over with a step, and was not before, gives its result then. -/
theorem Begins.returns_of_left {c : KernelCall} {r : c.Result} {d : ℕ} (begins : x.Begins turns b t c)
    (ongoing : (x.leftAt turns t (c.program x.kernel) b d).result? = none)
    (over' : (x.leftAt turns t (c.program x.kernel) b (d + 1)).result? = some r) :
    x.Returns turns t c b r (b + (d + 1)) := by
  refine ⟨⟨begins, d + 1, rfl, Program.result?_eq_some.1 over'⟩, fun j early le => ?_⟩
  refine (within_or_gives begins le).resolve_right ?_
  rintro ⟨r', -, e, rfl, done⟩
  rw [leftAt_of_pure (by omega : e ≤ d) done] at ongoing
  cases ongoing

end Scenario

end Userland

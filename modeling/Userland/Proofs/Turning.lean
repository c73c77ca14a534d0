import Userland.Proofs.Phases
import Userland.Proofs.Releasing

/-!
# How processes move

In a turn the slot of a thread stays as it is, or the thread makes a request that fits it (`Scenario.turned`). So
a process is loading, then it runs its program, and then it exits, and if its program cannot be loaded it exits
at once (`Process.Outline.Moves`). It goes on until it is gone, and then the thread does not get another
(`Scenario.moves_at`).
-/

namespace Userland

open ThreadProgram
open Belongings (Slot)

-- Which words a line has does not matter for what is done with them.
attribute [local irreducible] Words.ofString

/-- What may become of the process of thread `t` in a turn. -/
inductive Process.Outline.Moves (t : Tid) : Option Process.Outline → Option Process.Outline → Prop where
  /-- There is none. -/
  | nothing : Moves t none none
  /-- One is made, to be loaded. -/
  | enters (p : Process.Outline) : p.pid = t.toPid → p.state = .loading → Moves t none (some p)
  /-- It stays where it is in its life. -/
  | stays (p p' : Process.Outline) : p'.pid = p.pid → p'.state = p.state → Moves t (some p) (some p')
  /-- It goes on. -/
  | proceeds (p p' : Process.Outline) : p'.pid = p.pid → p.state.Precedes p'.state → Moves t (some p) (some p')
  /-- It goes, when it has exited. -/
  | leaves (p : Process.Outline) : p.state = .exiting → Moves t (some p) none

theorem ProcessState.Precedes.trans {s s' s'' : ProcessState} (first : s.Precedes s') (second : s'.Precedes s'') :
    s.Precedes s'' := by
  cases s <;> cases s' <;> cases s'' <;> first | exact first | exact second

open Process.Outline (Moves)

/-- A request that fits a slot moves the process in it. -/
theorem DeviceRequest.Fits.moves {r : DeviceRequest} {o : Slot} (fits : r.Fits o) :
    Moves o.tid o.process (r.redraw o).process := by
  obtain ⟨tid, level, process, doomed⟩ := o
  cases r with
  | newProcess =>
    obtain ⟨-, rfl⟩ := fits
    exact .enters _ rfl rfl
  | setState =>
    obtain ⟨-, p, rfl, precedes, -⟩ := fits
    exact .proceeds _ _ rfl precedes
  | detachProcess =>
    obtain ⟨-, p, rfl, exiting⟩ := fits
    exact .leaves p exiting
  | _ =>
    cases process with
    | none => exact .nothing
    | some p => exact .stays p _ rfl rfl

namespace Kernel

theorem not_newProcess_of_inExit {status : Int32} {name : String} {limit : Nat} {exit : ChannelId} :
    ¬InExit status (.device (.newProcess name limit exit)) := by
  rintro (⟨⟨⟩⟩ | ⟨⟨⟩⟩ | ⟨_, ⟨⟩⟩ | ⟨_, ⟨⟩⟩ | ⟨⟨⟩⟩)

end Kernel

namespace Scenario

variable {x : Scenario} {turns : ℕ → Turn} {i j b n : ℕ} {t u : Tid} {status : Int32}

/-! ## Slots turn by turn -/

variable (x) (turns) in
/-- The slot of a thread at a time. -/
abbrev slotAt (i : ℕ) (t : Tid) : Slot := (x.standingAt turns i t).own.slot

/-- What becomes of the slot of thread `t` in a turn. -/
inductive Turned (x : Scenario) (turns : ℕ → Turn) (i : ℕ) (t : Tid) : Slot → Slot → Prop where
  /-- It stays as it is. -/
  | same (o : Slot) : Turned x turns i t o o
  /-- The thread is made. -/
  | made (u : Tid) : Turned x turns i t ⟨u, .on, none, none⟩ ⟨t, .on, none, none⟩
  /-- Memory is installed. -/
  | installs (o : Slot) (space : Option AddressSpace) : x.Does turns i t (.device .installSpace) () →
    Turned x turns i t o { o with process := o.process.map ({ · with space := space }) }
  /-- The thread makes another request. -/
  | asks (r : DeviceRequest) (answer : r.Answer) (o : Slot) : x.Does turns i t (.device r) answer →
    r.Fits o → o.tid = t → Turned x turns i t o (r.redraw o)

variable (x) (turns) in
/-- The number of a thread that has something to do is its own. -/
theorem tid_at (i : ℕ) (t : Tid) : x.programAt turns i t = Program.pure () ∨ (x.slotAt turns i t).tid = t := by
  refine x.history turns (fun t p s => p = Program.pure () ∨ s.own.slot.tid = t) (fun _ => .inl rfl) (.inr rfl)
    (fun _ _ _ => .inr rfl) (fun t told p s p' s' holds advances => ?_) i t
  cases advances with
  | rest => exact holds
  | finish => exact .inl rfl
  | goto => exact .inr (holds.resolve_left nofun)
  | go _ _ follows => exact .inr (follows.redraws.tid_eq.trans (holds.resolve_left nofun))

variable (x) (turns) in
/-- What a thread has changes when the thread is made, and when it makes a request. -/
theorem own_turned (i : ℕ) (t : Tid) :
    (x.standingAt turns (i + 1) t).own = (x.standingAt turns i t).own ∨
    (x.standingAt turns i t).own = .fresh 0 ∧ (x.standingAt turns (i + 1) t).own = .fresh t ∨
    ∃ r answer, x.Does turns i t (.device r) answer ∧
      (x.standingAt turns (i + 1) t).own =
        (r.serve (x.standingAt turns i t).own (x.machineAt turns i).devices).2.1 := by
  by_cases inside : t < (x.machineAt turns i).threads.size
  · rcases own_succ inside with same | ⟨r, answer, does, -, own⟩
    · exact .inl same
    · exact .inr (.inr ⟨r, answer, does, own⟩)
  have absent : (x.machineAt turns i).thread t = .absent := Machine.thread_of_size_le (Nat.not_lt.1 inside)
  have before : (x.standingAt turns i t).own = .fresh 0 := congrArg Thread.own absent
  by_cases inside' : t < (x.machineAt turns (i + 1)).threads.size
  · have later : 1 < t := by
      refine Nat.lt_of_lt_of_le ?_ (Nat.not_lt.1 inside)
      exact Nat.lt_of_lt_of_le (by rw [machineAt, x.size_machine]; decide) (x.size_le turns (Nat.zero_le i))
    -- It is there after the turn only, so this is the turn in which it was made.
    obtain ⟨k, early, t', start, makes⟩ := exists_makes later inside'
    obtain rfl : k = i := by
      by_contra other
      exact inside (makes.inside (by omega))
    exact .inr (.inl ⟨before, by rw [makes.stands]⟩)
  · have absent' : (x.machineAt turns (i + 1)).thread t = .absent :=
      Machine.thread_of_size_le (Nat.not_lt.1 inside')
    exact .inl ((congrArg Thread.own absent').trans before.symm)

variable (x) (turns) in
/-- At first nobody has anything. -/
theorem own_zero (t : Tid) : ∃ u, (x.standingAt turns 0 t).own = .fresh u := by
  rw [standingAt, machineAt]
  change ∃ u, (x.machine.thread t).own = _
  rw [thread_machine]
  split
  · exact ⟨1, rfl⟩
  · exact ⟨0, rfl⟩

variable (x) (turns) in
theorem turned (i : ℕ) (t : Tid) : x.Turned turns i t (x.slotAt turns i t) (x.slotAt turns (i + 1) t) := by
  rw [slotAt, slotAt]
  rcases x.own_turned turns i t with same | ⟨before, made⟩ | ⟨r, answer, does, own⟩
  · rw [same]
    exact .same _
  · rw [before, made]
    exact .made 0
  · obtain ⟨next, here⟩ := id does.1
    rw [own]
    by_cases installs : r = .installSpace
    · subst installs
      rw [DeviceRequest.slot_installSpace]
      exact .installs _ _ does
    · rw [DeviceRequest.slot_serve installs]
      refine .asks r answer _ does (fits here) ((x.tid_at turns i t).resolve_left fun gone => ?_)
      cases here.symm.trans gone

variable (x) (turns) in
theorem slotAt_zero (t : Tid) : ∃ u, x.slotAt turns 0 t = ⟨u, .on, none, none⟩ :=
  (x.own_zero turns t).imp fun _ fresh => congrArg Belongings.slot fresh

theorem Turned.moves {o o' : Slot} (turned : x.Turned turns i t o o') : Moves t o.process o'.process := by
  cases turned with
  | same =>
    cases o.process with
    | none => exact .nothing
    | some p => exact .stays p p rfl rfl
  | made => exact .nothing
  | installs o space =>
    cases o.process with
    | none => exact .nothing
    | some p => exact .stays p _ rfl rfl
  | asks r answer o does fits own => exact own ▸ fits.moves

theorem Does.redraws {r : DeviceRequest} {answer : r.Answer} (does : x.Does turns i t (.device r) answer) :
    Action.Redraws (.device r) (x.slotAt turns i t) answer (x.slotAt turns (i + 1) t) := by
  obtain ⟨own, -, rfl⟩ := does.served
  rw [slotAt, slotAt, own]
  exact .device r _ _

/-- Who looks for its process finds it. -/
theorem Does.finds {answer : Option Process} (does : x.Does turns i t (.device .process) answer) :
    ∃ p, answer = some p := by
  obtain ⟨next, here⟩ := does.1
  obtain ⟨p, hosts⟩ := Option.isSome_iff_exists.1 (fits here).2
  obtain ⟨q, found, -⟩ := Option.map_eq_some_iff.1 (does.redraws.process_eq.trans hosts)
  exact ⟨q, found⟩

/-- A thread that comes to something else has done what it was about to do. -/
theorem passes {a a' : Action} {next : a.Answer → ThreadProgram Unit} {next' : a'.Answer → ThreadProgram Unit}
    (here : x.programAt turns i t = Program.ask a next) (stays : a.goesOn = true)
    (there : x.programAt turns n t = Program.ask a' next') (other : a ≠ a') (le : i ≤ n) :
    ∃ m answer, i ≤ m ∧ m < n ∧ (∀ j, i ≤ j → j ≤ m → x.programAt turns j t = Program.ask a next) ∧
      x.Does turns m t a answer ∧ x.programAt turns (m + 1) t = next answer :=
  (goes_on here stays le).resolve_left fun still => other (Program.ask.inj (still.symm.trans there)).1

/-! ## Requests in exits -/

/-- Some requests are made only in an exit. -/
theorem Does.exits {r : DeviceRequest} {answer : r.Answer} (does : x.Does turns i t (.device r) answer)
    (extra : r.isOrdinary = false) (loads : r.loads = false) (installs : r.installs = false)
    (regards : r.regardsSlot = true) : ∃ b < i, ∃ status, x.Begins turns b t (.exit status) := by
  obtain ⟨k, -, t', start, makes, deed⟩ := does.deed extra
  cases deed with
  | starting d first now left =>
    rcases starts_of_left left with loads' | announces | ⟨text, ⟨⟩⟩
    · cases loads.symm.trans loads'
    · cases installs.symm.trans announces
    · cases regards
  | acting program j current next started le conduct =>
    rcases conduct.head rfl with apart | ⟨⟨⟩⟩
    · cases regards.symm.trans apart
    · cases extra
  | exiting result j b d status first started le now begins =>
    -- The exit began before this request: it begins with another one.
    refine ⟨b, Nat.lt_of_le_of_ne (now ▸ Nat.le_add_right b d) fun same => ?_, status, begins⟩
    subst same
    obtain ⟨first, here, -⟩ := begins.looks
    obtain ⟨next, there⟩ := does.1
    cases (Program.ask.inj (here.symm.trans there)).1
    cases extra

/-- Who has decided on an exit status has begun to exit. -/
theorem exits_of_decided {p : Process.Outline} (hosts : (x.slotAt turns i t).process = some p)
    (decided : p.exitStatus.isSome = true ∨ p.state = .exiting) :
    ∃ b < i, ∃ status, x.Begins turns b t (.exit status) := by
  induction i generalizing p with
  | zero =>
    obtain ⟨u, fresh⟩ := x.slotAt_zero turns t
    rw [fresh] at hosts
    cases hosts
  | succ i ih =>
    have earlier {q : Process.Outline} (before : (x.slotAt turns i t).process = some q)
        (decided : q.exitStatus.isSome = true ∨ q.state = .exiting) :
        ∃ b < i + 1, ∃ status, x.Begins turns b t (.exit status) :=
      (ih before decided).imp fun b exits => ⟨Nat.lt_succ_of_lt exits.1, exits.2⟩
    have turned := x.turned turns i t
    generalize x.slotAt turns i t = o at turned earlier
    generalize x.slotAt turns (i + 1) t = o' at turned hosts
    cases turned with
    | same => exact earlier hosts decided
    | made => cases hosts
    | installs o space =>
      obtain ⟨q, before, rfl⟩ := Option.map_eq_some_iff.1 hosts
      exact earlier before decided
    | asks r answer o does fits =>
      cases r with
      | newProcess =>
        obtain rfl := Option.some.inj hosts
        exact decided.elim nofun nofun
      | setExitStatus status' =>
        exact (does.exits rfl rfl rfl rfl).imp fun b exits => ⟨Nat.lt_succ_of_lt exits.1, exits.2⟩
      | setState state =>
        -- The state tells whether an exit status has been decided on, so that was decided before.
        obtain ⟨-, q, before, -, when⟩ := fits
        obtain rfl : _ = p := Option.some.inj ((congrArg (Option.map _) before).symm.trans hosts)
        exact earlier before (.inl (decided.elim id when.2))
      | detachProcess => cases hosts
      | takeExitSignal | takeExecutable | installExecutable | detachSpace =>
        obtain ⟨q, before, rfl⟩ := Option.map_eq_some_iff.1 hosts
        exact earlier before decided
      | _ => exact earlier hosts decided

/-- Who has no process any more does not get another. -/
theorem Begins.no_process (begins : x.Begins turns b u (.exit status)) (le : b ≤ j)
    (gone : (x.slotAt turns j u).process = none) (le' : j ≤ n) : (x.slotAt turns n u).process = none := by
  induction le' with
  | refl => exact gone
  | @step n le' ih =>
    have turned := x.turned turns n u
    generalize x.slotAt turns n u = o at turned ih
    generalize x.slotAt turns (n + 1) u = o' at turned
    cases turned with
    | same => exact ih
    | made => rfl
    | installs o space => exact Option.map_eq_none_iff.2 ih
    | asks r answer o does =>
      obtain ⟨tid, level, process, doomed⟩ := o
      obtain rfl : process = none := ih
      cases r with
      | newProcess =>
        exact absurd (begins.inExit does (Nat.le_trans le le')) Kernel.not_newProcess_of_inExit
      | _ => rfl

/-- From then on a process goes on, until it is gone. -/
theorem moves_at {p : Process.Outline} (hosts : (x.slotAt turns i t).process = some p) (le : i ≤ j) :
    (∃ p', (x.slotAt turns j t).process = some p' ∧ p'.pid = p.pid ∧
      (p'.state = p.state ∨ p.state.Precedes p'.state)) ∨
    (x.slotAt turns j t).process = none ∧ ∃ b < j, ∃ status, x.Begins turns b t (.exit status) := by
  induction le with
  | refl => exact .inl ⟨p, hosts, rfl, .inl rfl⟩
  | @step j le ih =>
    rcases ih with ⟨p', now, same, state⟩ | ⟨gone, b, before, status, begins⟩
    swap
    · exact .inr ⟨begins.no_process (Nat.le_of_lt before) gone (Nat.le_succ j), b, Nat.lt_succ_of_lt before, status,
        begins⟩
    have moves := (x.turned turns j t).moves
    generalize after : (x.slotAt turns (j + 1) t).process = o at moves
    rw [now] at moves
    cases moves with
    | stays _ p'' pid state' => exact .inl ⟨p'', rfl, pid.trans same, state' ▸ state⟩
    | proceeds _ p'' pid precedes =>
      refine .inl ⟨p'', rfl, pid.trans same, .inr ?_⟩
      rcases state with state | earlier
      · exact state ▸ precedes
      · exact earlier.trans precedes
    | leaves _ exiting =>
      obtain ⟨b, before, exits⟩ := exits_of_decided now (.inr exiting)
      exact .inr ⟨rfl, b, Nat.lt_succ_of_lt before, exits⟩

end Scenario

end Userland

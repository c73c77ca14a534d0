import Userland.Proofs.CallContract
import Userland.Proofs.Soundness

/-!
# Whole runs

A run is settled by who makes a step, and who is woken, at each time (`Turn`). Since the threads of the
kernel keep to the rules, the machine is in order at all times (`Scenario.sound`), whatever the turns
are; and a machine is reachable if it is what some run comes to (`Scenario.reachable_iff`).
-/

namespace Userland

/-! ## Steps -/

/-- Threads that are made keep to the rules, and none is destroyed before it runs. -/
structure Environment.Lawful (env : Environment) : Prop where
  /-- A new thread keeps to the rules. -/
  starts : ∀ start t,
    (env.startProcess start).wp (fun _ s => s.Done) ⟨.fresh t, .fresh (some start)⟩
  /-- A new thread runs. -/
  lives : env.stillborn = []
  /-- A thread that goes on with a block keeps to the rules. -/
  blocks : ∀ block s, Allowed (.goto block) s → (env.blocks block).wp (fun _ s => s.Done) s

namespace Action

/-- The thread that an action has made, with what it was started from. -/
def child? : (a : Action) → a.Answer → Option (Tid × NewProcess)
  | .spawn _ _ start, child => child.map (·, start)
  | _, _ => none

/-- What all threads have to see to after an action of thread `t`. -/
def dutiesAfter (a : Action) (answer : a.Answer) (t : Tid) (γ : Tid → Duties) : Tid → Duties :=
  let γ' := Function.update γ t (a.after answer (γ t))
  match a.child? answer with
  | some (child, start) => Function.update γ' child (.fresh (some start))
  | none => γ'

end Action

namespace Machine

variable {env : Environment} {m : Machine} {γ : Tid → Duties} {t : Tid}

/-- The answer to an action of thread `t`, if it is done. -/
def answer? (env : Environment) (m : Machine) (t : Tid) (a : Action) : Option a.Answer :=
  match m.attempt env t a with
  | .done answer _ _ => some answer
  | .wait _ | .unanswered _ => none

/-- A new thread gets the next number, if there is room for it. -/
theorem answer?_spawn (lives : env.stillborn = []) (name : String) (priority : UInt8)
    (start : NewProcess) : m.answer? env t (.spawn name priority start) =
      some (if env.spawnFails m.asked ∨ m.threads.size ≥ threadLimit then none
        else some m.threads.size) := by
  by_cases full : env.spawnFails m.asked ∨ m.threads.size ≥ threadLimit
  · simp only [answer?, attempt, spawnThread, if_pos full]
  · simp only [answer?, attempt, spawnThread, if_neg full, lives, List.not_mem_nil, if_false]
    rfl

/-- The lock on a registry is to be had if it is free. -/
theorem answer?_lockRegistry {family : Family} (free : (t, family) ∉ m.registries) :
    m.answer? env t (.lockRegistry family) = some () := by
  simp only [answer?, attempt, if_neg free]

/-- What threads have to see to after a step of thread `t`. -/
def dutiesAfter (env : Environment) (m : Machine) (t : Tid) (γ : Tid → Duties) : Tid → Duties :=
  match (m.thread t).status, (m.thread t).program with
  | .awake, Program.ask a _ => (m.answer? env t a).elim γ fun answer => a.dutiesAfter answer t γ
  | _, _ => γ

end Machine

namespace Sound

variable {env : Environment} {m : Machine} {γ : Tid → Duties} {t : Tid} {a : Action}
  {next : a.Answer → ThreadProgram Unit}

/-- Whatever a thread does, the machine stays in order. -/
theorem attempt (h : Sound m γ) (lawful : env.Lawful) (awake : (m.thread t).status = .awake)
    (does : (m.thread t).program = Program.ask a next) :
    Sound (Machine.settleAttempt t next (m.attempt env t a)).1 (m.dutiesAfter env t γ) := by
  have duties : m.dutiesAfter env t γ =
      (m.answer? env t a).elim γ fun answer => a.dutiesAfter answer t γ := by
    simp only [Machine.dutiesAfter, awake, does]
  rw [duties]
  cases a with
  | device r => exact h.device awake does
  | yield =>
    have inside := m.lt_size_of_status (t := t) (by simp [awake])
    have out := h.sleepers.notMem_waiters (t := t) (by simp [aim_eq does])
    exact h.act (a := .yield) _ () awake does nofun trivial rfl rfl rfl rfl
      (h.registered.update rfl rfl) (h.channels_same inside rfl rfl rfl rfl rfl)
      fun th up => still h.sleepers _ out (.inl up) (h.allowed does).1 rfl
  | spawn name priority start =>
    rw [Machine.answer?_spawn lawful.lives]
    split
    · rename_i full
      exact h.spawnNothing awake does full
    · rename_i room
      exact h.spawn (lawful.starts start) lawful.lives awake does room
  | newChannel => exact h.newChannel awake does
  | hasReceiver c => exact h.hasReceiver awake does
  | settle c value => exact h.settle awake does
  | receive c =>
    -- Whether there is an answer or the thread has to wait is for the channel to say.
    have received := h.receive env awake does
    have answer : m.answer? env t (.receive c) = ((m.channel c).receive t).1 := by
      simp only [Machine.answer?, Machine.attempt]
      rcases (m.channel c).receive t with ⟨_ | value, x⟩ <;> rfl
    rw [answer]
    revert received
    cases ((m.channel c).receive t).1 <;> exact id
  | dropReceiver c => exact h.dropReceiver awake does
  | lock l =>
    -- It is for the lock to say whether the thread has to wait.
    have locked := h.lock env awake does
    have answer : m.answer? env t (.lock l) = if ((m.lock l).tryLock t).1 then some () else none := by
      simp only [Machine.answer?, Machine.attempt]
      rcases (m.lock l).tryLock t with ⟨_ | _, x⟩ <;> rfl
    rw [answer]
    revert locked
    cases ((m.lock l).tryLock t).1 <;> exact id
  | release l => exact h.release awake does
  | lockRegistry family =>
    rw [Machine.answer?_lockRegistry (h.registry_free does)]
    exact h.lockRegistry env awake does
  | unlockRegistry family => exact h.unlockRegistry awake does
  | unblock u => exact h.unblock awake does
  | endThread => exact h.finish awake (by simp [aim_eq does]) (h.allowed does).1
  | goto block => exact h.goto awake does (lawful.blocks block _ (h.allowed does).1)
  | stop how =>
    exact { h with }
  | isReady | claimSender | claimReceiver | offersReceiver | isHeld | getCell | setCell =>
    exact (h.allowed does).1.elim

/-- A machine in order stays in order when a thread makes a step. -/
theorem step (h : Sound m γ) (lawful : env.Lawful) (t : Tid) :
    Sound (m.step env t).1 (m.dutiesAfter env t γ) := by
  cases status : (m.thread t).status with
  | asleep | ended | parking =>
    have rested := h.rest env (t := t) (by simp [status])
    rwa [show m.dutiesAfter env t γ = γ by simp only [Machine.dutiesAfter, status]]
  | awake =>
    cases does : (m.thread t).program with
    | pure result =>
      have done := h.keeps t
      rw [does] at done
      have aim : (m.thread t).aim = none := by rw [Thread.aim, does]
      simpa only [Machine.step, Machine.dutiesAfter, status, does] using
        h.finish status (by simp [aim]) done
    | ask a next => simpa only [Machine.step, status, does] using h.attempt lawful status does

end Sound

/-! ## Runs -/

/-- What may happen at a time. -/
inductive Turn where
  /-- A thread makes a step, if it can. -/
  | step (t : Tid)
  /-- A thread is woken, for no reason. -/
  | wake (t : Tid)

/-- Each thread makes steps again and again. -/
def Fair (turns : ℕ → Turn) : Prop := ∀ t i, ∃ j ≥ i, turns j = .step t

/-- What stays true until a thread makes a step is true when it makes a step. -/
theorem Fair.leadsTo {turns : ℕ → Turn} (fair : Fair turns) (holds : ℕ → Prop) {i : ℕ} (now : holds i)
    (t : Tid) (keeps : ∀ j ≥ i, holds j → turns j ≠ .step t → holds (j + 1)) :
    ∃ j ≥ i, holds j ∧ turns j = .step t := by
  obtain ⟨j, le, here⟩ := fair t i
  obtain ⟨d, rfl⟩ := Nat.exists_eq_add_of_le le
  induction d generalizing i with
  | zero => exact ⟨i, Nat.le_refl i, now, here⟩
  | succ d ih =>
    by_cases first : turns i = .step t
    · exact ⟨i, Nat.le_refl i, now, first⟩
    have here' : turns (i + 1 + d) = .step t := by rwa [Nat.add_right_comm, Nat.add_assoc]
    obtain ⟨j, le', holds, steps⟩ := ih (keeps i (Nat.le_refl i) now first)
      (fun j le => keeps j (Nat.le_of_succ_le le)) (Nat.le_add_right ..) here'
    exact ⟨j, Nat.le_of_succ_le le', holds, steps⟩

/-- The machine after a turn. A machine that has stopped stays as it is. -/
def Machine.turn (env : Environment) (m : Machine) (turn : Turn) : Machine :=
  if m.stopped.isSome then m
  else
    match turn with
    | .step t => (m.step env t).1
    | .wake t => (m.wake t).1

/-- What threads have to see to after a turn. -/
def Machine.dutiesAfterTurn (env : Environment) (m : Machine) (turn : Turn) (γ : Tid → Duties) :
    Tid → Duties :=
  if m.stopped.isSome then γ
  else
    match turn with
    | .step t => m.dutiesAfter env t γ
    | .wake _ => γ

theorem Sound.turn {env : Environment} {m : Machine} {γ : Tid → Duties} (h : Sound m γ)
    (lawful : env.Lawful) (turn : Turn) :
    Sound (m.turn env turn) (m.dutiesAfterTurn env turn γ) := by
  unfold Machine.turn Machine.dutiesAfterTurn
  split
  · exact h
  · cases turn with
    | step t => exact h.step lawful t
    | wake t => exact h.wake t

namespace Scenario

variable (x : Scenario) (turns : ℕ → Turn)

/-- The machine at each time. -/
def machineAt : ℕ → Machine
  | 0 => x.machine
  | i + 1 => (machineAt i).turn x.environment (turns i)

/-- What threads have to see to at each time. -/
def dutiesAt : ℕ → Tid → Duties
  | 0 => fun _ => .fresh none
  | i + 1 => (x.machineAt turns i).dutiesAfterTurn x.environment (turns i) (dutiesAt i)

variable {turns} in
/-- What will be done later makes no difference. -/
theorem machineAt_congr {turns' : ℕ → Turn} {i : ℕ} (same : ∀ j < i, turns' j = turns j) :
    x.machineAt turns' i = x.machineAt turns i := by
  induction i with
  | zero => rfl
  | succ i ih =>
    rw [machineAt, machineAt, ih fun j before => same j (Nat.lt_succ_of_lt before),
      same i (Nat.lt_succ_self i)]

/-- The threads of the kernel keep to the rules. -/
theorem lawful : x.environment.Lawful where
  starts _ _ := Kernel.wp_startProcess fun _ _ _ => UserCode.wp_program rfl _
  lives := rfl
  blocks := fun _ _ ⟨_, _, running⟩ => UserCode.wp_program rfl _ running

/-- At first there is the first thread. -/
theorem thread_machine (t : Tid) : x.machine.thread t =
    if t = 1 then .ready 1 (discard (x.kernel.run x.line)) else .absent := by
  have others (u : Tid) : (Machine.fresh x.devices 1).thread u = .absent := by
    simp only [Machine.thread, Machine.fresh, Array.getD_eq_getD_getElem?]
    rcases u with _ | u <;> rfl
  rw [machine, Machine.thread_addThread, Function.update_apply, others]
  rfl

theorem size_machine : x.machine.threads.size = 2 := by
  simp [machine, Machine.addThread, Machine.fresh]

/-- At first nobody has anything. -/
theorem own_machine (t : Tid) : ∃ u, (x.machine.thread t).own = .fresh u := by
  rw [thread_machine]
  split
  · exact ⟨1, rfl⟩
  · exact ⟨0, rfl⟩

/-- What a thread does not have from its start, nobody has at first. -/
theorem nothing_machine {α : Type} (f : Standing → List α)
    (fresh : ∀ t, f ⟨.fresh t, .fresh none⟩ = []) :
    (fun t => f (x.machine.standing (fun _ => .fresh none) t)) = fun _ => [] := by
  funext t
  obtain ⟨u, same⟩ := x.own_machine t
  rw [Machine.standing, same, fresh]

theorem channels_machine : Channels (x.machine.standing fun _ => .fresh none) x.machine.channel?
    x.machine.threads.size where
  consistent t := by
    obtain ⟨u, same⟩ := x.own_machine t
    rw [Machine.standing, same]
    exact ⟨by rintro _ ⟨⟩, by rintro _ ⟨⟩, by rintro _ ⟨⟩, List.nodup_nil, fun hosts => absurd rfl hosts⟩
  receivers := by
    rw [x.nothing_machine Standing.receivers fun _ => rfl]
    exact .empty fun _ => rfl
  pending := by rintro _ _ ⟨⟩
  known := by rintro _ _ ⟨⟩
  parted := by intros; contradiction
  unmade := by intros; contradiction
  unsettled := by rintro _ _ ⟨⟩
  kin := by intros; contradiction
  exits := by rintro _ _ ⟨⟩
  born := by intros; contradiction
  beyond t le := by
    rw [size_machine] at le
    rw [Machine.standing, thread_machine, if_neg (Nat.ne_of_gt le)]
    rfl

theorem sleepers_machine : Sleepers x.machine.thread x.machine.channel?
    (x.machine.lock Kernel.volumeLock) fun _ => .fresh none := by
  refine ⟨fun t rests => ?_, by rintro _ ⟨⟩, by rintro _ _ ⟨⟩, fun t => ⟨by rintro ⟨⟩, by rintro ⟨⟩⟩⟩
  rw [thread_machine] at rests
  split at rests
  · exact absurd rfl rests.ne_awake
  · exact absurd rfl rests.ne_ended

/-- At first the machine is in order: only the first thread was made, and nobody has anything. -/
theorem sound_machine : Sound x.machine fun _ => .fresh none where
  keeps t := by
    rw [Machine.standing, thread_machine]
    split
    · have boots : Kernel.Boots (discard (x.kernel.run x.line)) := Kernel.boots_run
      generalize discard (x.kernel.run x.line) = program at boots ⊢
      exact boots.wp
    · exact ⟨rfl, rfl, rfl, rfl, rfl, rfl, rfl, rfl, rfl, rfl⟩
  ended t gone := by
    rw [thread_machine] at gone ⊢
    split at gone
    · cases gone
    · rename_i other
      rw [if_neg other]
      rfl
  orderly t := by
    obtain ⟨u, same⟩ := x.own_machine t
    rw [same]
    exact Belongings.orderly_of_empty rfl
  frames := by
    have unused (f : Frame) : x.pool.inUse f = false := by
      simp only [FramePool.inUse, pool, Array.getElem?_map]
      cases x.leftovers[f.index]? <;> rfl
    rw [show (fun t => (x.machine.thread t).own.frames) = fun _ => [] from
      x.nothing_machine (fun s => s.own.frames) fun _ => rfl]
    exact .empty unused
  handles := by
    have closed (h : Handle) : x.volume.isOpen h = false := by
      simp [Volume.isOpen, Volume.opened?, volume]
    rw [show (fun t => (x.machine.thread t).own.handles) = fun _ => [] from
      x.nothing_machine (fun s => s.own.handles) fun _ => rfl]
    exact .empty closed
  addressable i slot found used := by
    change (x.leftovers.map _)[i]? = some slot at found
    rw [Array.getElem?_map] at found
    obtain ⟨page, -, rfl⟩ := Option.map_eq_some_iff.1 found
    cases used
  counted := rfl
  channels := x.channels_machine
  sleepers := x.sleepers_machine
  registered t family := ⟨nofun, nofun⟩
  locks := by simp [machine, Machine.addThread, Machine.fresh]
  small := by
    rw [size_machine]
    decide

/-- At all times the machine is in order. -/
theorem sound (i : ℕ) : Sound (x.machineAt turns i) (x.dutiesAt turns i) := by
  induction i with
  | zero => exact x.sound_machine
  | succ i ih => exact ih.turn x.lawful (turns i)

variable {x}

/-- A machine is reachable if some run comes to it. -/
theorem reachable_iff {m : Machine} : x.Reachable m ↔ ∃ turns i, x.machineAt turns i = m := by
  constructor
  · intro reachable
    induction reachable with
    | refl => exact ⟨fun _ => .wake 0, 0, rfl⟩
    | next _ step ih =>
      obtain ⟨turns, i, rfl⟩ := ih
      -- One turn more can be put at the end of a run.
      have extend (turn : Turn) : x.machineAt (Function.update turns i turn) (i + 1) =
          (x.machineAt turns i).turn x.environment turn := by
        rw [machineAt, Function.update_self]
        refine congrArg (Machine.turn _ · turn) (x.machineAt_congr fun j before => ?_)
        exact Function.update_of_ne (Nat.ne_of_lt before) ..
      cases step with
      | step t running can =>
        refine ⟨Function.update turns i (.step t), i + 1, ?_⟩
        rw [extend, Machine.turn, running]
        rfl
      | wake t running =>
        refine ⟨Function.update turns i (.wake t), i + 1, ?_⟩
        rw [extend, Machine.turn, running]
        rfl
  · rintro ⟨turns, i, rfl⟩
    induction i with
    | zero => exact .refl
    | succ i ih =>
      rw [machineAt]
      unfold Machine.turn
      split
      · exact ih
      · rename_i running
        have running : (x.machineAt turns i).stopped = none := by simpa using running
        cases turns i with
        | wake t => exact ih.next (.wake t running)
        | step t =>
          by_cases can : ((x.machineAt turns i).thread t).canStep = true
          · exact ih.next (.step t running can)
-- A step of a thread that can make none changes nothing.
          · suffices same : ((x.machineAt turns i).step x.environment t).1 = x.machineAt turns i by
              simpa only [same]
            cases status : ((x.machineAt turns i).thread t).status <;>
              simp_all [Machine.step, Thread.canStep]

end Scenario

end Userland

import Userland.Proofs.ChildRecords

/-!
# What waits give

The first wait for a child gives the status with which the child exits (`Scenario.exits_of_wait`); any
other wait gives -1, and the thread does not sleep (`Scenario.refuses`). A child has one parent, which
waits for it once (`Scenario.owed_unique`).
-/

namespace Userland

open ThreadProgram

namespace Scenario

variable {x : Scenario} {turns : ℕ → Turn} {i j b : ℕ} {t u : Tid} {family : Family} {pid : Int32}

/-! ## Waits for children -/

/-- The record that a thread takes is the one that it has. -/
theorem Goes.record (goes : x.Goes turns i t) : x.toldAt turns i t (.device (.takeChild family pid)) =
    some ((((x.standingAt turns i t).own.children family).find? pid).map (·.2)) := by
  rw [goes.told]
  change some (DeviceRequest.serve (.takeChild family pid) _ _).1 = _
  simp only [DeviceRequest.serve, standingAt, Machine.standing]
  split
  · rename_i found
    rw [found]
    rfl
  · rename_i found
    rw [found]
    rfl

/-- When a wait begins, the thread gets the lock on the registry at once, and goes on to look for the
    record. -/
theorem Begins.seeks (begins : x.Begins turns b t (.wait family pid)) :
    (∃ next, x.programAt turns (b + 1) t = KernelCall.looking family pid >>= next) ∧
      (x.standingAt turns (b + 1) t).own = (x.standingAt turns b t).own ∧
      ∀ d, x.leftAt turns t (Kernel.wait family pid) b (d + 1) =
        x.leftAt turns t (KernelCall.looking family pid) (b + 1) d := by
  have told : x.toldAt turns b t (.lockRegistry family) = some () := begins.opened.choose_spec
  obtain ⟨-, -, -, next, here, -⟩ := begins.composed
  replace here : x.programAt turns b t = Program.ask (Action.lockRegistry family) fun _ =>
      KernelCall.looking family pid >>= next := by
    rw [here, KernelCall.program, KernelCall.wait_eq]
    rfl
  have does : x.Does turns b t (.lockRegistry family) () := ⟨⟨_, here⟩, told⟩
  refine ⟨⟨next, does.next here⟩, does.follows.2.own_eq (fun _ same => by cases same), fun d => ?_⟩
  rw [leftAt_succ, KernelCall.wait_eq, Program.advance, told, Option.elim_some]

/-- A wait for a child on record gives a status that it receives from the exit channel of the child. -/
theorem receives_of_wait {r : Int32} (gives : x.Gives turns t (.wait family pid) b r i)
    (listed : u ∈ ((x.standingAt turns b t).own.children family).keys) (number : (u : Int) = pid.toInt) :
    ∃ j < i, ∃ exit, x.Does turns j t (.receive exit) (some (.status r)) ∧
      (u, exit) ∈ (x.standingAt turns j t).duties.born := by
  have later := gives.lt
  obtain ⟨begins, d, rfl, left⟩ := gives
  obtain ⟨d, rfl⟩ := Nat.exists_eq_add_of_le' (Nat.pos_of_lt_add_right later)
  have inside {j : ℕ} (le : b ≤ j) := Nat.lt_of_lt_of_le begins.inside (x.size_le turns le)
  obtain ⟨⟨next, here⟩, own, onward⟩ := begins.seeks
  replace left : x.leftAt turns t (Kernel.wait family pid) b (d + 1) = Program.pure r := left
  rw [onward, KernelCall.looking] at left
  rw [KernelCall.looking] at here
  -- The record is taken, then the lock is freed, and then the status is received.
  obtain ⟨e₁, f₁, record, rfl, takes⟩ := done_of_over here (inside (Nat.le_succ b)) left
  rw [takes.onward] at left
  obtain ⟨e₂, f₂, _, rfl, frees⟩ := done_of_over takes.here (inside (by omega)) left
  rw [frees.onward] at left
  have found := Option.some.inj (takes.does.2.symm.trans takes.does.goes.record)
  rw [takes.same, own] at found
  cases found' : ((x.standingAt turns b t).own.children family).find? pid with
  | none => exact absurd number (Children.find?_eq_none.1 found' u listed)
  | some entry =>
    obtain ⟨v, exit⟩ := entry
    obtain ⟨recorded, same⟩ := Children.mem_of_find? found'
    obtain rfl : u = v := Int.ofNat_inj.1 (number.trans same.symm)
    obtain rfl : record = some exit := found.trans (by rw [found']; rfl)
    obtain ⟨e₃, f₃, answer, rfl, receives⟩ := done_of_over frees.here (inside (by omega)) left
    replace left := (receives.onward f₃).symm.trans left
    -- A channel on record is that of a child, so what comes from there is an exit status.
    have born : (u, exit) ∈ (x.standingAt turns b t).duties.born :=
      ((x.sound turns b).channels.consistent t).recorded _ (Belongings.records_of_children recorded)
    have born' := (standingAt_lasts begins.inside
      (by omega : b ≤ b + 1 + e₁ + 1 + e₂ + 1 + e₃)).born _ born
    obtain ⟨status, rfl, -⟩ := status_of_receive receives.does born'
    obtain rfl : status = r := Program.pure.inj ((leftAt_of_pure (Nat.zero_le f₃) rfl).symm.trans left)
    exact ⟨b + 1 + e₁ + 1 + e₂ + 1 + e₃, by omega, exit, receives.does, born'⟩

/-- It is the status with which the child exits. -/
theorem exits_of_wait {r : Int32} (gives : x.Gives turns t (.wait family pid) b r i)
    (listed : u ∈ ((x.standingAt turns b t).own.children family).keys) (number : (u : Int) = pid.toInt) :
    ∃ j < i, x.Begins turns j u (.exit r) := by
  obtain ⟨j, before, exit, receives, born⟩ := receives_of_wait gives listed number
  obtain ⟨status, same, k, before', exits⟩ := exits_of_receive receives born
  obtain rfl := Signal.status.inj (Option.some.inj same)
  exact ⟨k, Nat.lt_trans before' before, exits⟩

/-! ## Other waits -/

/-- A thread that is not about to take a lock or to receive is awake. -/
theorem awake_of_asks {a : Action} {next : a.Answer → ThreadProgram Unit}
    (here : x.programAt turns i t = Program.ask a next) (locks : a ≠ .lock Kernel.volumeLock)
    (receives : ∀ c, a ≠ .receive c) : ((x.machineAt turns i).thread t).status = .awake := by
  have sound := x.sound turns i
  have aim : ((x.machineAt turns i).thread t).aim = some a := Sound.aim_eq here
  have notResting : ¬((x.machineAt turns i).thread t).Rests := fun rests => by
    rcases sound.sleepers.rests t rests with queued | ⟨c, awaits⟩
    · exact locks (Option.some.inj (aim.symm.trans (sound.sleepers.queues t queued).2))
    · exact receives c (Option.some.inj (aim.symm.trans awaits.receives))
  cases status : ((x.machineAt turns i).thread t).status with
  | awake => rfl
  | parking => exact absurd (.inl status) notResting
  | asleep => exact absurd (.inr status) notResting
  | ended => exact nomatch here.symm.trans (sound.ended t status)

/-- What is left of a wait for a process that is not on record, when so many steps are yet to be made. -/
def refusing (family : Family) (pid : Int32) : ℕ → ThreadProgram Int32
  | 0 => Program.pure (-1)
  | 1 => KernelCall.receiving pid none
  | 2 => Program.ask (Action.unlockRegistry family) fun _ => KernelCall.receiving pid none
  | _ => KernelCall.looking family pid

/-- A wait that began at time `b` is refused with at most `n` steps more. As long as it is to look for the
    record, the thread has what it had. -/
def Refusing (x : Scenario) (turns : ℕ → Turn) (t : Tid) (family : Family) (pid : Int32) (b n i : ℕ) : Prop :=
  ∃ d m, i = b + (d + 1) ∧ m ≤ n ∧
    x.leftAt turns t (Kernel.wait family pid) b (d + 1) = refusing family pid m ∧
    (m = 3 → (x.standingAt turns i t).own = (x.standingAt turns b t).own)

namespace Refusing

variable {n : ℕ}

/-- A step brings a wait that is refused closer to its end; at other turns it stays where it is. -/
theorem next (begins : x.Begins turns b t (.wait family pid))
    (unlisted : ∀ u ∈ ((x.standingAt turns b t).own.children family).keys, (u : Int) ≠ pid.toInt)
    (few : n ≤ 3) (h : x.Refusing turns t family pid b n i) :
    (x.Goes turns i t → x.Refusing turns t family pid b (n - 1) (i + 1)) ∧
      (¬x.Goes turns i t → x.Refusing turns t family pid b n (i + 1)) := by
  obtain ⟨d, m, rfl, le, left, own⟩ := h
  refine ⟨fun goes => ?_, fun rests => ?_⟩
  · refine ⟨d + 1, m - 1, rfl, Nat.sub_le_sub_right le 1, ?_, fun same => by omega⟩
    rcases m with _ | _ | _ | _ | m
    · rw [leftAt, left]
      rfl
    · exact leftAt_succ_of_told left (goes.told _)
    · exact leftAt_succ_of_told left (goes.told _)
    · refine leftAt_succ_of_told left ?_
      rw [goes.record, own rfl, Children.find?_eq_none.2 unlisted]
      rfl
    · omega
  · have silent (a : Action) : x.toldAt turns (b + (d + 1)) t a = none := by
      cases told : x.toldAt turns (b + (d + 1)) t a with
      | none => rfl
      | some answer => exact absurd (goes_of_told told) rests
    refine ⟨d + 1, m, rfl, le, (leftAt_succ_of_silent fun a _ _ => silent a).trans left, fun first => ?_⟩
    rw [← own first]
    exact congrArg Standing.own (standingAt_succ_of_silent
      (Nat.lt_of_lt_of_le begins.inside (x.size_le turns (Nat.le_add_right ..))) fun a _ _ => silent a)

theorem later (begins : x.Begins turns b t (.wait family pid))
    (unlisted : ∀ u ∈ ((x.standingAt turns b t).own.children family).keys, (u : Int) ≠ pid.toInt)
    (few : n ≤ 3) (h : x.Refusing turns t family pid b n i) (le : i ≤ j) :
    x.Refusing turns t family pid b n j := by
  induction le with
  | refl => exact h
  | @step j _ ih =>
    by_cases goes : x.Goes turns j t
    · obtain ⟨d, m, now, le, rest⟩ := (ih.next begins unlisted few).1 goes
      exact ⟨d, m, now, Nat.le_trans le (Nat.sub_le n 1), rest⟩
    · exact (ih.next begins unlisted few).2 goes

end Refusing

/-- A wait for a process that is not on record gives -1. The thread does not sleep, and has the result
    with the third step that it makes from then on, if not before. -/
theorem refused_of_unlisted (begins : x.Begins turns b t (.wait family pid))
    (unlisted : ∀ u ∈ ((x.standingAt turns b t).own.children family).keys, (u : Int) ≠ pid.toInt) :
    (∀ i r, x.Gives turns t (.wait family pid) b r i → r = -1) ∧
      (∀ i, x.Within turns (.wait family pid) b i t → ((x.machineAt turns i).thread t).status = .awake) ∧
      ∀ i j k, b < i → i < j → j < k → x.Goes turns i t → x.Goes turns j t → x.Goes turns k t →
        x.Gives turns t (.wait family pid) b (-1) (k + 1) := by
  have always {i : ℕ} (later : b < i) : x.Refusing turns t family pid b 3 i := by
    obtain ⟨-, own, onward⟩ := begins.seeks
    have first : x.Refusing turns t family pid b 3 (b + 1) :=
      ⟨0, 3, rfl, Nat.le_refl 3, onward 0, fun _ => own⟩
    exact first.later begins unlisted (Nat.le_refl 3) later
  refine ⟨fun i r gives => ?_, fun i within => ?_, fun i j k early before late goes goes' goes'' => ?_⟩
  · obtain ⟨d, m, rfl, le, same, -⟩ := always gives.lt
    obtain ⟨-, d', now, left⟩ := gives
    obtain rfl : d + 1 = d' := Nat.add_left_cancel now
    replace same := left.symm.trans same
    rcases m with _ | _ | _ | m
    · exact Program.pure.inj same
    all_goals cases same
  · rcases Nat.eq_or_lt_of_le within.le with rfl | later
    · exact begins.1.2.2
    obtain ⟨d, m, rfl, le, left, -⟩ := always later
    obtain ⟨d', next, now, here, ongoing, -⟩ := within.programAt
    obtain rfl : d + 1 = d' := Nat.add_left_cancel now
    replace here := here.resolve_right fun ⟨_, ends⟩ => nomatch ends
    replace left : x.leftAt turns t (KernelCall.program x.kernel (.wait family pid)) b (d + 1) =
      refusing family pid m := left
    rw [left] at here
    rcases m with _ | _ | _ | m
    · exact absurd left (ongoing (-1))
    all_goals exact awake_of_asks here nofun fun _ => nofun
  · -- Each of the three steps brings it closer to the end.
    have second := (((always early).next begins unlisted (by decide)).1 goes).later begins unlisted (by decide) before
    have third := ((second.next begins unlisted (by decide)).1 goes').later begins unlisted (by decide) late
    obtain ⟨d, m, now, le, left, -⟩ := (third.next begins unlisted (by decide)).1 goes''
    obtain rfl := Nat.le_zero.1 le
    exact ⟨begins, d + 1, now, left⟩

/-! ## Parents -/

/-- A thread that was made got the next number, and starts from what it was made for. -/
theorem spawns_of_does {name : String} {priority : UInt8} {start : NewProcess}
    (does : x.Does turns i t (.spawn name priority start) (some u)) :
    u = (x.machineAt turns i).threads.size ∧ x.dutiesAt turns (i + 1) u = .fresh (some start) ∧ ∃ program,
      Sound.Spawns x.environment (x.machineAt turns i) (x.machineAt turns (i + 1)) t start program := by
  have goes := does.goes
  obtain ⟨⟨next, here⟩, told⟩ := does
  have answered := (goes.told _).symm.trans told
  rw [Machine.answer?_spawn rfl] at answered
  split at answered
  · cases answered
  rename_i room
  obtain rfl := Option.some.inj (Option.some.inj answered)
  rw [goes.told] at told
  obtain ⟨running, steps, awake⟩ := goes
  have inside := Machine.lt_size_of_status (m := x.machineAt turns i) (t := t) (by simp [awake])
  have spawned := @Sound.spawns _ t x.environment name priority start next rfl inside room
  have does : ((x.machineAt turns i).thread t).program = _ := here
  refine ⟨rfl, ?_, next (some (x.machineAt turns i).threads.size), ?_⟩
  · change (x.machineAt turns i).dutiesAfterTurn x.environment (turns i) (x.dutiesAt turns i) _ = _
    simp only [Machine.dutiesAfterTurn, running, steps, Option.isSome_none, Bool.false_eq_true, if_false,
      Machine.dutiesAfter, awake, does, told, Option.elim_some]
    exact Function.update_self ..
  · change Sound.Spawns _ _ ((x.machineAt turns i).turn x.environment (turns i)) _ _ _
    simp only [Machine.turn, running, steps, Option.isSome_none, Bool.false_eq_true, if_false, Machine.step,
      awake, does]
    exact spawned

theorem size_of_spawned {name : String} {priority : UInt8} {start : NewProcess}
    (does : x.Does turns i t (.spawn name priority start) (some u)) :
    u = (x.machineAt turns i).threads.size ∧ (x.machineAt turns (i + 1)).threads.size = u + 1 := by
  obtain ⟨rfl, -, program, spawns⟩ := spawns_of_does does
  exact ⟨rfl, spawns.size⟩

/-- No two threads are the same thread. -/
theorem spawned_once {name name' : String} {priority priority' : UInt8} {start start' : NewProcess}
    {t' : Tid} (does : x.Does turns i t (.spawn name priority start) (some u))
    (does' : x.Does turns j t' (.spawn name' priority' start') (some u)) : i = j ∧ t = t' := by
  obtain ⟨size, more⟩ := size_of_spawned does
  obtain ⟨size', more'⟩ := size_of_spawned does'
  have same : i = j := by
    rcases Nat.lt_trichotomy i j with before | same | later
    · have : (x.machineAt turns (i + 1)).threads.size ≤ (x.machineAt turns j).threads.size :=
        x.size_le turns before
      rw [more, ← size'] at this
      exact absurd this (Nat.not_succ_le_self u)
    · exact same
    · have : (x.machineAt turns (j + 1)).threads.size ≤ (x.machineAt turns i).threads.size :=
        x.size_le turns later
      rw [more', ← size] at this
      exact absurd this (Nat.not_succ_le_self u)
  subst same
  exact ⟨rfl, Turn.step.inj (does.goes.2.1.symm.trans does'.goes.2.1)⟩

/-- Who starts a child tries to make a thread. If none is made that is the result; else the thread
    receives what the child tells of its load, and that settles the result. -/
theorem Gives.steps {line : String} {r : Except ExecError Tid}
    (gives : x.Gives turns t (.execute family line) b r i) :
    ∃ k name priority start made, x.Within turns (.execute family line) b k t ∧ k < i ∧
      x.Does turns k t (.spawn name priority start) made ∧
      start.command = Utf8.truncate line Kernel.maxCommandLength ∧ (made = none → r = .error .spawn) ∧
      ∀ u, made = some u → ∃ j answer, k < j ∧ j < i ∧ x.Does turns j t (.receive start.loaded) answer ∧
        (answer = some (.loaded true) ∧ r = .ok u ∨
          answer ≠ some (.loaded true) ∧ r = .error .loadFailed) := by
  obtain ⟨begins, d, rfl, left⟩ := gives
  obtain ⟨first, opens⟩ := begins.opens
  have opens : x.kernel.execute family line = Program.ask Action.newChannel first := opens
  obtain ⟨name, rest, shape, refused, recorded⟩ := KernelCall.execute_steps opens
  obtain ⟨-, -, -, next, here, -⟩ := begins.composed
  have left : x.leftAt turns t (x.kernel.execute family line) b d = Program.pure r := left
  have here : x.programAt turns b t = x.kernel.execute family line >>= next := here
  have inside {j : ℕ} (later : b ≤ j) : t < (x.machineAt turns j).threads.size :=
    Nat.lt_of_lt_of_le begins.inside (x.size_le turns later)
  rw [opens] at left here
  -- Two channels are made, then the thread.
  obtain ⟨e₁, f₁, loaded, rfl, -, -, -, here₁, onward₁⟩ := done_of_over here begins.inside left
  rw [shape] at here₁ onward₁
  obtain ⟨e₂, f₂, exit, rfl, -, -, -, here₂, onward₂⟩ := done_of_over here₁ (inside (by omega))
    ((onward₁ f₁).symm.trans left)
  have left₂ := (onward₂ f₂).symm.trans ((onward₁ _).symm.trans left)
  obtain ⟨e₃, f₃, made, rfl, does, still, -, here₃, onward₃⟩ := done_of_over here₂ (inside (by omega)) left₂
  have left₃ := (onward₃ f₃).symm.trans left₂
  refine ⟨_, _, _, _, made, ⟨begins, e₁ + 1 + (e₂ + 1 + e₃), by omega, fun r' over' => ?_⟩, by omega, does,
    rfl, fun nobody => ?_, fun u child => ?_⟩
  · have over' : x.leftAt turns t (x.kernel.execute family line) b (e₁ + 1 + (e₂ + 1 + e₃)) =
      Program.pure r' := over'
    rw [opens, onward₁, onward₂, still] at over'
    cases over'
  · subst nobody
    have only := @only_leftAt x turns (b + e₁ + 1 + e₂ + 1 + e₃ + 1) t _ _ _ _ (refused loaded exit) f₃
    rw [left₃] at only
    exact only
  · subst child
    -- The child is put on record, and then it is awaited whether its program is loaded.
    obtain ⟨last, steps, results⟩ := recorded loaded exit u
    rw [steps] at here₃ left₃
    obtain ⟨e₄, f₄, _, rfl, locks⟩ := done_of_over here₃ (inside (by omega)) left₃
    rw [locks.onward] at left₃
    obtain ⟨e₅, f₅, _, rfl, records⟩ := done_of_over locks.here (inside (by omega)) left₃
    rw [records.onward] at left₃
    obtain ⟨e₆, f₆, _, rfl, frees⟩ := done_of_over records.here (inside (by omega)) left₃
    rw [frees.onward] at left₃
    obtain ⟨e₇, f₇, answer, rfl, receives⟩ := done_of_over frees.here (inside (by omega)) left₃
    rw [receives.onward] at left₃
    have only := @only_leftAt x turns (b + e₁ + 1 + e₂ + 1 + e₃ + 1 + e₄ + 1 + e₅ + 1 + e₆ + 1 + e₇ + 1) t _ _ _ _
      (results answer) f₇
    rw [left₃] at only
    exact ⟨_, answer, by omega, by omega, receives.does, only⟩

/-- A child that was started was made meanwhile. -/
theorem spawned_of_gives {line : String} (gives : x.Gives turns t (.execute family line) b (.ok u) i) :
    ∃ j, x.Within turns (.execute family line) b j t ∧ ∃ name priority start,
      x.Does turns j t (.spawn name priority start) (some u) := by
  obtain ⟨j, name, priority, start, made, within, -, does, -, refused, started⟩ := gives.steps
  cases made with
  | none => cases refused rfl
  | some v =>
    obtain ⟨-, -, -, -, -, ⟨-, same⟩ | ⟨-, same⟩⟩ := started v rfl <;> cases same
    exact ⟨j, within, name, priority, start, does⟩

/-- A child has one parent, which has started it once. -/
theorem Gives.parent_unique {line line' : String} {family' : Family} {t' : Tid} {b' : ℕ}
    (gives : x.Gives turns t (.execute family line) b (.ok u) i)
    (gives' : x.Gives turns t' (.execute family' line') b' (.ok u) j) :
    t = t' ∧ family = family' ∧ b = b' := by
  obtain ⟨k, within, _, _, _, does⟩ := spawned_of_gives gives
  obtain ⟨k', within', _, _, _, does'⟩ := spawned_of_gives gives'
  obtain ⟨rfl, rfl⟩ := spawned_once does does'
  obtain rfl : b = b' := by
    rcases Nat.lt_trichotomy b b' with before | same | later
    · exact absurd within'.1 ((within.mono (Nat.le_of_lt before) within'.le).not_begins before _)
    · exact same
    · exact absurd within.1 ((within'.mono (Nat.le_of_lt later) within.le).not_begins later _)
  exact ⟨rfl, (gives.execute_congr gives'.1).1, rfl⟩

/-- The first wait for a child is one wait of one thread. -/
theorem owed_unique {family' : Family} {t' : Tid} (owed : x.Owed turns family u i t)
    (waits : x.Begins turns i t (.wait family u.toPid)) (owed' : x.Owed turns family' u j t')
    (waits' : x.Begins turns j t' (.wait family' u.toPid)) : t = t' ∧ family = family' ∧ i = j := by
  obtain ⟨line, b, gives, unwaited⟩ := owed
  obtain ⟨line', b', gives', unwaited'⟩ := owed'
  obtain ⟨rfl, rfl, rfl⟩ := gives.parent_unique gives'
  refine ⟨rfl, rfl, ?_⟩
  rcases Nat.lt_trichotomy i j with before | same | later
  · exact absurd waits (unwaited' i before (Nat.le_of_lt gives.lt))
  · exact same
  · exact absurd waits' (unwaited j later (Nat.le_of_lt gives'.lt))

/-! ## First waits -/

/-- A thread begins to wait for a child that it has started and not waited for yet. -/
def FirstWait (x : Scenario) (turns : ℕ → Turn) (family : Family) (u : Tid) (i : ℕ) (t : Tid) : Prop :=
  x.Owed turns family u i t ∧ x.Begins turns i t (.wait family u.toPid)

/-- When a thread begins a call, it has on record whom it has started and not waited for. -/
theorem Begins.records {c : KernelCall} (begins : x.Begins turns i t c) :
    (x.standingAt turns i t).Records fun f u => x.Owed turns f u i t := by
  refine records_exact (fun c' b within => ?_) fun status j before exits => exits.last before c begins
  exact (Nat.eq_or_lt_of_le within.le).resolve_right fun before => within.not_begins before c begins

theorem Owed.small (owed : x.Owed turns family u i t) (begins : x.Begins turns i t (.wait family pid)) :
    u < threadLimit := small_of_mem_keys ((begins.records family u).2 owed)

/-- A process exits once. -/
theorem Begins.exit_unique {status status' : Int32} (begins : x.Begins turns i u (.exit status))
    (begins' : x.Begins turns j u (.exit status')) : i = j ∧ status = status' := by
  rcases Nat.lt_trichotomy i j with before | rfl | later
  · exact absurd begins' (begins.last before _)
  · refine ⟨rfl, ?_⟩
    rcases KernelCall.eq_of_calls begins.2 begins'.2 with same | ⟨_, _, _, same, -⟩
    · exact KernelCall.exit.inj same
    · cases same
  · exact absurd begins (begins'.last later _)

end Scenario

end Userland

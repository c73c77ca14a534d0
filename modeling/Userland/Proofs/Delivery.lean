import Userland.Proofs.Endings

/-!
# Exit statuses come to parents

A child that was started is on record with its parent until the parent first waits for it, or exits. That
wait gives the status with which the child exits; all other waits give -1 at once. So each status comes to
the parent once, or to nobody (`Scenario.delivers`).
-/

namespace Userland

namespace Scenario

variable {x : Scenario} {turns : ℕ → Turn} {i j b : ℕ} {t u : Tid} {family : Family} {pid : Int32}

/-- A wait gives something in the end, if the child that it is for begins to exit. -/
theorem Begins.waits_in_time (fair : Fair turns) (running : x.Unstopped turns)
    (begins : x.Begins turns b t (.wait family pid)) (exits : ∀ u : Tid, u.toPid = pid →
      x.Owed turns family u b t → ∃ j status, x.Begins turns j u (.exit status)) :
    ∃ i r, x.Gives turns t (.wait family pid) b r i := by
  have prompt {a : Action} (prompt : a.isPrompt = true) : x.Attains turns t a :=
    attains_of_isPrompt fair running prompt
  obtain ⟨⟨next, here⟩, own, onward⟩ := begins.seeks
  suffices completes : x.Completes turns t (b + 1) (KernelCall.looking family pid) by
    obtain ⟨d, r, left⟩ := completes
    exact ⟨b + (d + 1), r, begins, d + 1, rfl, (onward d).trans left⟩
  rw [KernelCall.looking] at here ⊢
  obtain ⟨e₁, record, takes⟩ := (prompt rfl).proceeds here
  obtain ⟨e₂, _, frees⟩ := (prompt rfl).proceeds takes.here
  refine takes.completes (frees.completes ?_)
  cases record with
  | none =>
    obtain ⟨e₃, _, logs⟩ := (prompt rfl).proceeds frees.here
    exact logs.completes ⟨0, _, rfl⟩
  | some exit =>
    have found := Option.some.inj (takes.does.goes.record.symm.trans takes.does.2)
    rw [takes.same, own] at found
    obtain ⟨⟨u, exit'⟩, found', rfl⟩ := Option.map_eq_some_iff.1 found
    obtain ⟨recorded, number⟩ := Children.mem_of_find? found'
    have listed : u ∈ ((x.standingAt turns b t).own.children family).keys :=
      List.mem_map.2 ⟨_, recorded, rfl⟩
    obtain ⟨j, status, exits⟩ := exits u ((Tid.coe_eq_toInt (small_of_mem_keys listed) pid).1 number).symm
      ((begins.records family u).1 listed)
    obtain ⟨k, t', start, m, makes, -, fires⟩ := exits.fires_in_time fair running
    -- The channel on record is the exit signal of the child.
    have born := ((x.sound turns b).channels.consistent t).recorded _ (Belongings.records_of_children recorded)
    replace born := (standingAt_lasts begins.inside (Nat.le_max_left b (k + 1))).born _ born
    obtain ⟨-, start', started, same⟩ := (x.sound turns _).channels.born t u exit' born
    obtain rfl := Option.some.inj ((makes.start_eq (Nat.le_max_right b (k + 1))).symm.trans started)
    obtain ⟨e₃, answer, receives⟩ := (same ▸ fires.attains fair running).proceeds frees.here
    exact receives.completes ⟨0, _, rfl⟩

/-- How exit statuses come to parents in a run. -/
structure Delivers (x : Scenario) (turns : ℕ → Turn) : Prop where
  /-- A child that was started is on record until its parent begins to wait for it, or to exit. -/
  stays : ∀ t family line b u i, x.Gives turns t (.execute family line) b (.ok u) i →
    (∀ j < i, b ≤ j → ¬x.Begins turns j t (.wait family u.toPid)) →
    (∀ status, ∀ j < i, ¬x.Begins turns j t (.exit status)) →
    u ∈ (((x.machineAt turns i).thread t).own.children family).keys
  /-- What the first wait for a child gives is the status with which the child exits. -/
  gives : ∀ t family u b r i, x.FirstWait turns family u b t →
    x.Gives turns t (.wait family u.toPid) b r i → ∃ j < i, x.Begins turns j u (.exit r)
  /-- A process exits once. -/
  exits : ∀ u i j status status', x.Begins turns i u (.exit status) →
    x.Begins turns j u (.exit status') → i = j ∧ status = status'
  /-- It exits with the status that it has asked for, or with -1 if it has asked for none, for then it was
      killed. -/
  status : ∀ u i status, x.Begins turns i u (.exit status) → (∃ j < i, x.AsksExit turns j u status) ∨
    status = -1 ∧ ∀ status', ∀ j < i, ¬x.AsksExit turns j u status'
  /-- A wait gives something in the end, if the child that it is for, if there is one, begins to exit, each
      thread makes steps again and again, and the machine is not stopped. -/
  returns : Fair turns → x.Unstopped turns → ∀ t family pid b, x.Begins turns b t (.wait family pid) →
    (∀ u : Tid, u.toPid = pid → x.Owed turns family u b t → ∃ j status, x.Begins turns j u (.exit status)) →
    ∃ i r, x.Gives turns t (.wait family pid) b r i
  /-- Any other wait gives -1. The thread does not sleep, and has the result with the third step that it
      makes from then on, if not before. -/
  refuses : ∀ t family pid b, x.Begins turns b t (.wait family pid) →
    (∀ u : Tid, u.toPid = pid → ¬x.Owed turns family u b t) →
    (∀ i r, x.Gives turns t (.wait family pid) b r i → r = -1) ∧
      (∀ i, x.Within turns (.wait family pid) b i t → ((x.machineAt turns i).thread t).status = .awake) ∧
      ∀ i j k, b < i → i < j → j < k → x.Goes turns i t → x.Goes turns j t → x.Goes turns k t →
        x.Gives turns t (.wait family pid) b (-1) (k + 1)
  /-- Nobody else waits for a child with success, and nobody does so twice. -/
  once : ∀ t t' family family' u i j, x.FirstWait turns family u i t →
    x.FirstWait turns family' u j t' → t = t' ∧ family = family' ∧ i = j
  /-- When a parent has exited nobody gets the status of its child any more. The child ends all the same once
      it begins to exit, if it gets the lock of the volume. -/
  orphans : ∀ t family line b u i k status, x.Gives turns t (.execute family line) b (.ok u) i →
    x.Begins turns k t (.exit status) →
    (∀ j ≥ k, ∀ t' family', ¬x.FirstWait turns family' u j t') ∧
      (Fair turns → x.Unstopped turns → x.Attains turns u (.lock Kernel.volumeLock) →
        ∀ l status', x.Begins turns l u (.exit status') →
          ∃ n, ∀ j ≥ n, ((x.machineAt turns j).thread u).status = .ended)

/-- Each exit status comes to the parent once, or to nobody. -/
theorem delivers (x : Scenario) (turns : ℕ → Turn) : x.Delivers turns where
  stays t family line b u i gives unwaited remains :=
    recorded_of_owed ⟨line, b, gives, unwaited⟩ remains
  gives t family u b r i first gives := by
    have number := Tid.toInt_toPid (first.1.small first.2)
    exact exits_of_wait gives ((first.2.records family u).2 first.1) number.symm
  exits u i j status status' exits exits' := exits.exit_unique exits'
  status u i status exits := exits.exit_status
  returns fair running t family pid b begins exits := begins.waits_in_time fair running exits
  refuses t family pid b begins unowed := by
    refine refused_of_unlisted begins fun u listed number => ?_
    exact unowed u ((Tid.coe_eq_toInt (small_of_mem_keys listed) pid).1 number).symm
      ((begins.records family u).1 listed)
  once t t' family family' u i j first first' := owed_unique first.1 first.2 first'.1 first'.2
  orphans t family line b u i k status gives exits := by
    refine ⟨fun j le t' family' first => ?_, fun fair running granted l status' exits' =>
      exits'.ends_for_good fair running granted⟩
    -- Only the parent could wait so, but it exits.
    obtain ⟨line', b', gives', -⟩ := first.1
    obtain ⟨rfl, -, -⟩ := gives.parent_unique gives'
    rcases Nat.eq_or_lt_of_le le with rfl | later
    · rcases KernelCall.eq_of_calls exits.2 first.2.2 with same | ⟨_, _, _, same, -⟩ <;> cases same
    · exact exits.last later _ first.2

end Scenario

end Userland

import Mathlib.Data.Nat.Pairing
import Userland.Proofs.LockSteps

/-!
# Runs of scripts for locks

Threads that follow scripts keep to every lock, so whatever happens the state of a lock agrees with the
record (`SyncPlan.contended`). What that means is said by `LockRecord.Explains`: nobody has a guard but the
holder, what the holder knows of the number stays true, the queue is in the order of the first failed
attempts, and while the lock is free the front of the queue goes on or is about to be woken.

If each thread makes steps again and again, a free lock for which threads wait is taken
(`SyncPlan.taken_of_fair`): at first the front of the queue may have to be woken, then it goes on, and then
it gets the lock, if no other thread does.
-/

namespace Userland

/-- What the record says of a lock and of the threads that want it. -/
structure LockRecord.Explains (r : LockRecord) (l : LockId) (m : Machine) : Prop where
  /-- The holder has the only guard. -/
  guards : ∀ t, r.guards t = if (m.lock l).holder = some t then 1 else 0
  /-- What the holder has read or stored last is still there. -/
  unchanged : ∀ t value, (m.lock l).holder = some t → r.seen t = some value →
    m.cells.getD l.index 0 = value
  /-- Nobody is in the queue twice. -/
  distinct : (m.lock l).waiters.Nodup
  /-- Those are in the queue who have failed and do not have the lock yet. -/
  waiting : ∀ t, t ∈ (m.lock l).waiters ↔ (r.failedAt t).isSome = true
  /-- Who failed first is first. -/
  ordered : (m.lock l).waiters.Pairwise fun t u =>
    ∃ j k, r.failedAt t = some j ∧ r.failedAt u = some k ∧ j < k
  /-- If the lock is free, the front of the queue can go on, or the thread that has freed the lock is about
      to wake it. -/
  front : (m.lock l).holder = none → ∀ t, (m.lock l).waiters.head? = some t →
    (m.thread t).Runnable ∨ ∃ u, r.freedBy = some u ∧ (m.thread u).status = .awake ∧
      (m.thread u).aim = some (.unblock t)

theorem Contended.explains {l : LockId} {i : ℕ} {r : LockRecord} {φ : Tid → LockPhase} {m : Machine}
    (h : Contended l i r φ m) : r.Explains l m where
  guards t := by
    rw [h.tells.guards t]
    simp only [h.tells.holder]
  unchanged t value holder := h.seen t value ((h.tells.holder t).1 holder)
  distinct := h.tells.distinct
  waiting := h.tells.waiting
  ordered := h.tells.ordered
  front free t first := (h.front free t first).imp_right fun ⟨u, freed, leaving⟩ =>
    ⟨u, freed, h.aim_of_leaving leaving⟩

namespace SyncPlan

variable (p : SyncPlan) (turns : ℕ → Turn) (l : LockId)

/-! ## At all times -/

/-- The machine at each time. -/
def machineAt : ℕ → Machine
  | 0 => p.machine
  | i + 1 => (machineAt i).turn environment (turns i)

/-- What is recorded of a lock at each time. -/
def recordAt : ℕ → LockRecord
  | 0 => .start
  | i + 1 => (recordAt i).afterTurn environment l i (p.machineAt turns i) (turns i)

/-- At first each thread is about to follow its script, and locks are fresh. -/
theorem machine_start : p.machine.stopped = none ∧
    p.machine.locks = Array.replicate p.locks SleepLock.fresh ∧
    p.machine.cells = Array.replicate p.locks 0 ∧ ∀ t, p.machine.thread t = Thread.absent ∨
      ∃ script, p.machine.thread t = Thread.ready t (SyncOp.performAll ⟨[], []⟩ 0 script) := by
  rw [machine]
  induction p.threads using List.reverseRecOn with
  | nil =>
    refine ⟨rfl, rfl, rfl, fun t => .inl ?_⟩
    rcases t with _ | t <;> rfl
  | append_singleton scripts script ih =>
    rw [List.foldl_append]
    obtain ⟨stopped, locks, cells, threads⟩ := ih
    refine ⟨stopped, locks, cells, fun t => ?_⟩
    rw [List.foldl_cons, List.foldl_nil, Machine.thread_addThread]
    by_cases new : t = (scripts.foldl (fun m script =>
        (m.addThread (SyncOp.performAll ⟨[], []⟩ 0 script)).2) p.bare).threads.size
    · rw [← new, Function.update_self]
      exact .inr ⟨script, rfl⟩
    · rw [Function.update_of_ne new]
      exact threads t

variable {l} in
theorem contended_start (there : l.index < p.locks) :
    Contended l 0 .start (fun _ => .outside) p.machine := by
  obtain ⟨stopped, locks, cells, threads⟩ := p.machine_start
  have lock : p.machine.lock l = SleepLock.fresh := by
    simp [Machine.lock, locks, Array.getD_eq_getD_getElem?, there]
  refine
    { running := stopped
      lock := by simpa [locks]
      cell := by simpa [cells]
      fits := fun t => ?_
      tells := ?_
      front := ?_
      seen := by simp }
  · have queued : ¬ t ∈ (p.machine.lock l).waiters := by simp [lock, SleepLock.fresh]
    refine ⟨?_, fun mem => absurd mem queued, by simp, fun rests => ?_⟩
    · rcases threads t with absent | ⟨script, ready⟩
      · rw [absent]
        rintro _ ⟨⟩
      · rw [ready]
        exact SyncOp.keepsTo_performAll (.inl ⟨rfl, rfl⟩) 0 script
    · rcases threads t with absent | ⟨script, ready⟩
      · rw [absent] at rests
        exact absurd rfl rests.ne_ended
      · rw [ready] at rests
        exact absurd rfl rests.ne_awake
  · rw [lock]
    exact ⟨fun t => ⟨by rintro ⟨⟩, by simp⟩, fun _ => rfl, List.nodup_nil,
      by simp [SleepLock.fresh, LockRecord.start],
      .nil, by rintro _ _ ⟨⟩⟩
  · rw [lock]
    rintro _ _ ⟨⟩

variable {l} in
theorem contended (there : l.index < p.locks) (i : ℕ) :
    ∃ φ, Contended l i (p.recordAt turns l i) φ (p.machineAt turns i) := by
  induction i with
  | zero => exact ⟨_, p.contended_start there⟩
  | succ i ih =>
    obtain ⟨φ, contended⟩ := ih
    exact contended.turn (turns i)

/-! ## Fair runs -/

variable {turns} {p} {l}

/-- As long as the lock is free nobody comes to or leaves the queue. -/
theorem lock_of_free (there : l.index < p.locks) {i : ℕ}
    (free : ∀ j ≥ i, ((p.machineAt turns j).lock l).holder = none) {j : ℕ} (le : i ≤ j) :
    (p.machineAt turns j).lock l = (p.machineAt turns i).lock l := by
  obtain ⟨d, rfl⟩ := Nat.exists_eq_add_of_le le
  clear le
  induction d with
  | zero => rfl
  | succ d ih =>
    obtain ⟨φ, contended⟩ := p.contended turns there (i + d)
    rcases contended.lock_turn environment (free _ (Nat.le_add_right ..)) (turns (i + d)) with
      same | taken
    · exact same.trans ih
    · exact absurd (free (i + d + 1) (by omega)) taken

theorem going (there : l.index < p.locks) (i : ℕ) : (p.machineAt turns i).Going :=
  have ⟨_, contended⟩ := p.contended turns there i
  contended.going

/-- If each thread makes steps again and again, whoever can go on, or is about to be woken, goes on in the
    end. -/
theorem awakes_of_fair (going : ∀ i, (p.machineAt turns i).Going) (fair : Fair turns) {t : Tid} {i : ℕ}
    (due : ((p.machineAt turns i).thread t).Runnable ∨
      ∃ u, ((p.machineAt turns i).thread u).status = .awake ∧
        ((p.machineAt turns i).thread u).aim = some (.unblock t))
    (other : ((p.machineAt turns i).thread t).aim ≠ some (.unblock t))
    (lasts : ∀ j ≥ i, ((p.machineAt turns j).thread t).status ≠ .ended) :
    ∃ j ≥ i, ((p.machineAt turns j).thread t).status = .awake ∧ turns j = .step t := by
  have goes {i : ℕ} (runnable : ((p.machineAt turns i).thread t).Runnable) :
      ∃ j ≥ i, ((p.machineAt turns j).thread t).status = .awake ∧ turns j = .step t := by
    let th (j : ℕ) := (p.machineAt turns j).thread t
    have upholds (j : ℕ) (other : turns j ≠ .step t) : (th j).Upholds (th (j + 1)) :=
      (going j).upholds_turn other
    have stirs (j : ℕ) (kept : (th j).Stirs) (here : turns j = .step t) : (th (j + 1)).status = .awake := by
      change (((p.machineAt turns j).turn environment (turns j)).thread t).status = .awake
      rw [here]
      exact (going j).awake_turn kept
    exact fair.awakes (fun j _ _ => upholds j) (fun j _ => stirs j) runnable
  rcases due with runnable | ⟨u, awake, aim⟩
  · exact goes runnable
  · have ne : t ≠ u := fun same => other (same ▸ aim)
    -- Thread `u` stays about to wake the thread until it does so.
    obtain ⟨k, le, ⟨awake, aim⟩, here⟩ := fair.leadsTo
      (fun k => ((p.machineAt turns k).thread u).status = .awake ∧
        ((p.machineAt turns k).thread u).aim = some (.unblock t)) ⟨awake, aim⟩ u fun k _ due other =>
        have upholds := (going k).upholds_turn other
        ⟨upholds.awake due.1, upholds.aim ▸ due.2⟩
    have runnable : ((p.machineAt turns (k + 1)).thread t).Runnable := by
      rw [machineAt, here]
      exact (going k).runnable_turn ne awake aim (lasts k le)
    obtain ⟨j, le', goes⟩ := goes runnable
    exact ⟨j, Nat.le_trans le (Nat.le_of_succ_le le'), goes⟩

/-- If each thread makes steps again and again, a free lock for which threads wait is taken. -/
theorem taken_of_fair (there : l.index < p.locks) (fair : Fair turns) {i : ℕ}
    (wanted : ((p.machineAt turns i).lock l).waiters ≠ []) :
    ∃ j ≥ i, ((p.machineAt turns j).lock l).holder ≠ none := by
  by_contra never
  have free (j : ℕ) (le : j ≥ i) : ((p.machineAt turns j).lock l).holder = none := by
    by_contra taken
    exact never ⟨j, le, taken⟩
  obtain ⟨t, rest, queue⟩ := List.exists_cons_of_ne_nil wanted
  have wants (j : ℕ) (le : j ≥ i) : ((p.machineAt turns j).thread t).status ≠ .ended ∧
      ((p.machineAt turns j).thread t).aim = some (.lock l) := by
    obtain ⟨φ, contended⟩ := p.contended turns there j
    refine (contended.fits t).wants ?_
    rw [lock_of_free there free le, queue]
    exact List.mem_cons_self
  -- The front of the queue can go on, or the thread that has freed the lock is about to wake it.
  obtain ⟨φ, contended⟩ := p.contended turns there i
  have due := (contended.explains.front (free i (Nat.le_refl i)) t (by rw [queue]; rfl)).imp_right
    fun ⟨u, _, wakes⟩ => Exists.intro u wakes
  obtain ⟨j, le, awake, here⟩ := awakes_of_fair (going there) fair due
    (by rw [(wants i (Nat.le_refl i)).2]; simp) fun j le => (wants j le).1
  -- When it makes a step it gets the lock.
  obtain ⟨φ, contended⟩ := p.contended turns there j
  have taken := contended.holder_turn environment (free j le) awake (wants j le).2
  rw [← here] at taken
  exact nomatch (free (j + 1) (Nat.le_succ_of_le le)).symm.trans taken

variable (turns) in
/-- Threads that follow scripts use locks as they should, and nobody sleeps for ever on a free lock. -/
theorem locks_in_order (there : l.index < p.locks) :
    (∀ i, (p.recordAt turns l i).Explains l (p.machineAt turns i)) ∧
      (Fair turns → ∀ i, ((p.machineAt turns i).lock l).waiters ≠ [] →
        ∃ j ≥ i, ((p.machineAt turns j).lock l).holder ≠ none) :=
  ⟨fun i => have ⟨_, contended⟩ := p.contended turns there i; contended.explains,
    fun fair _ wanted => taken_of_fair there fair wanted⟩

/-- A thread frees the lock while another sleeps for it. -/
theorem locks_in_order_handedOn : ∃ (p : SyncPlan) (turns : ℕ → Turn), Fair turns ∧
    (p.machineAt turns 6).lock ⟨0⟩ = ⟨none, [2]⟩ ∧ ((p.machineAt turns 6).thread 2).status = .asleep ∧
    (p.recordAt turns ⟨0⟩ 6).Explains ⟨0⟩ (p.machineAt turns 6) ∧
    ∃ j ≥ 6, ((p.machineAt turns j).lock ⟨0⟩).holder ≠ none := by
  let p : SyncPlan := ⟨0, 1, [[.lock ⟨0⟩, .unlock ⟨0⟩], [.lock ⟨0⟩]]⟩
  -- Thread 1 gets the lock, reports, and frees it; in between thread 2 fails to get it, and sleeps.
  let turns (i : ℕ) : Turn :=
    if i < 6 then [.step 1, .step 2, .step 2, .step 1, .step 1, .step 1].getD i (.step 0)
    else .step i.unpair.1
  have fair : Fair turns := fun t i => by
    refine ⟨Nat.pair t (i + 6), Nat.le_trans (Nat.le_add_right ..) (Nat.right_le_pair ..), ?_⟩
    have late : ¬Nat.pair t (i + 6) < 6 :=
      Nat.not_lt.2 (Nat.le_trans (Nat.le_add_left ..) (Nat.right_le_pair ..))
    simp only [turns, if_neg late, Nat.unpair_pair]
  have queue : ((p.machineAt turns 6).lock ⟨0⟩).waiters = [2] := by decide +kernel
  have free : ((p.machineAt turns 6).lock ⟨0⟩).holder = none := by decide +kernel
  have asleep : ((p.machineAt turns 6).thread 2).status = .asleep := by decide +kernel
  have there : (⟨0⟩ : LockId).index < p.locks := by decide
  obtain ⟨explains, taken⟩ := locks_in_order turns there
  refine ⟨p, turns, fair, ?_, asleep, explains 6, taken fair 6 (by rw [queue]; nofun)⟩
  rw [← queue, ← free]

end SyncPlan

end Userland

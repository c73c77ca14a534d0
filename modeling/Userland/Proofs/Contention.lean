import Userland.Proofs.Locking
import Userland.Proofs.Progress

/-!
# Threads that contend for a lock

While a machine runs, a record is kept of each lock: who has guards, since when threads have been trying
in vain, who freed the lock last, and what threads know of the number that it guards (`LockRecord`). The
state of the lock agrees with the record, and a thread that waits for a free lock is not forgotten
(`Contended`), as long as all threads keep to the lock. Each step of a thread and each wakeup keeps it so.

That a wakeup is not lost rests on the front of the queue. While the lock is free the queue does not
change, for who fails to get the lock fails because it is held. The thread that freed the lock has seen the
front of the queue, and wakes it next.
-/

namespace Userland

/-! ## Records -/

/-- What is recorded of a lock. -/
structure LockRecord where
  /-- How many guards a thread has: one more for each attempt that succeeds, one less for each release. -/
  guards : Tid → Nat
  /-- The time of a thread's first failed attempt, from then until it has the lock. -/
  failedAt : Tid → Option ℕ
  /-- The thread that freed the lock last. -/
  freedBy : Option Tid
  /-- The number that a thread has read or stored last, since it got the lock. -/
  seen : Tid → Option Int64

namespace LockRecord

/-- Nothing has happened yet. -/
def start : LockRecord := ⟨fun _ => 0, fun _ => none, none, fun _ => none⟩

/-- The record after thread `t` has tried an action at time `i`. There is no answer if it has to wait. -/
def note (l : LockId) (i : ℕ) (t : Tid) (r : LockRecord) : (a : Action) → Option a.Answer → LockRecord
  | .lock l', some _ =>
    if l' = l then
      { r with
        guards := Function.update r.guards t (r.guards t + 1)
        failedAt := Function.update r.failedAt t none
        seen := Function.update r.seen t none }
    else r
  | .lock l', none =>
    if l' = l then
      { r with failedAt := Function.update r.failedAt t ((r.failedAt t).or (some i)) }
    else r
  | .release l', some _ =>
    if l' = l then
      { r with guards := Function.update r.guards t (r.guards t - 1), freedBy := some t }
    else r
  | .getCell l', some value =>
    if l' = l then { r with seen := Function.update r.seen t (some value) } else r
  | .setCell l' value, some _ =>
    if l' = l then { r with seen := Function.update r.seen t (some value) } else r
  | _, _ => r

/-- The record after a turn at time `i`. -/
def afterTurn (env : Environment) (l : LockId) (i : ℕ) (m : Machine) (turn : Turn) (r : LockRecord) :
    LockRecord :=
  if m.stopped.isSome then r
  else
    match turn with
    | .wake _ => r
    | .step t =>
      match (m.thread t).status, (m.thread t).program with
      | .awake, Program.ask a _ => r.note l i t a (m.answer? env t a)
      | _, _ => r

theorem note_of_isApart {l : LockId} {i : ℕ} {t : Tid} {r : LockRecord} {a : Action}
    (apart : a.IsApart l) (answer : Option a.Answer) : r.note l i t a answer = r := by
  cases a <;> first | rfl | (cases answer <;> first | rfl | exact if_neg apart)

/-- What the state of the lock has to do with the record by time `i`, if `φ` says where threads are with
    the lock. -/
structure Tells (r : LockRecord) (s : SleepLock Tid) (φ : Tid → LockPhase) (i : ℕ) : Prop where
  /-- The holder is the thread that is inside. -/
  holder : ∀ t, s.holder = some t ↔ φ t = .inside
  /-- Who is inside has one guard, nobody else has any. -/
  guards : ∀ t, r.guards t = if φ t = .inside then 1 else 0
  /-- Nobody is in the queue twice. -/
  distinct : s.waiters.Nodup
  /-- Those are in the queue who have failed and do not have the lock yet. -/
  waiting : ∀ t, t ∈ s.waiters ↔ (r.failedAt t).isSome = true
  /-- Who failed first is first. -/
  ordered : s.waiters.Pairwise fun t u =>
    ∃ j k, r.failedAt t = some j ∧ r.failedAt u = some k ∧ j < k
  /-- What is recorded lies in the past. -/
  past : ∀ t j, r.failedAt t = some j → j < i

namespace Tells

variable {r : LockRecord} {s : SleepLock Tid} {φ : Tid → LockPhase} {i : ℕ} {t u : Tid}

theorem ne_inside (h : r.Tells s φ i) (free : s.holder = none) (t : Tid) : φ t ≠ .inside := fun inside => by
  have holder := (h.holder t).2 inside
  rw [free] at holder
  cases holder

/-- One thread is inside. -/
theorem alone (h : r.Tells s φ i) (inside : φ t = .inside) (inside' : φ u = .inside) : u = t :=
  Option.some.inj (((h.holder u).2 inside').symm.trans ((h.holder t).2 inside))

end Tells

end LockRecord

/-! ## Threads and the lock -/

namespace Thread

/-- Where a thread is with a lock fits what it is about to do, and whether it is in the queue. -/
structure Fits (l : LockId) (th : Thread) (queued : Prop) (p : LockPhase) : Prop where
  /-- The thread keeps to the lock. -/
  keeps : th.program.KeepsTo l (fun _ p => ∀ u, p ≠ .leaving u) p
  /-- Who is in the queue wants the lock. -/
  wants : queued → th.status ≠ .ended ∧ th.aim = some (.lock l)
  /-- Who has somebody to wake is awake. -/
  awake : ∀ u, p = .leaving u → th.status = .awake
  /-- Who rests for want of the lock is in the queue. -/
  rests : th.Rests → th.aim = some (.lock l) → queued

/-- A thread that is as before, or has been woken. -/
structure Upholds (th th' : Thread) : Prop where
  /-- It has the same to do. -/
  program : th'.program = th.program
  /-- If it was awake it still is. -/
  awake : th.status = .awake → th'.status = .awake
  /-- If a wakeup was kept, it still is, or the thread is awake. -/
  stirs : th.Stirs → th'.Runnable
  /-- It has not ended. -/
  ended : th.status ≠ .ended → th'.status ≠ .ended
  /-- It does not rest if it did not before. -/
  rests : th'.Rests → th.Rests

variable {l : LockId} {th th' : Thread} {queued : Prop} {p : LockPhase}

theorem Upholds.refl (th : Thread) : th.Upholds th := ⟨rfl, id, .inr, id, id⟩

theorem Upholds.runnable (h : th.Upholds th') (runnable : th.Runnable) : th'.Runnable :=
  runnable.elim (fun awake => .inl (h.awake awake)) h.stirs

theorem Upholds.aim (h : th.Upholds th') : th'.aim = th.aim := by
  rw [Thread.aim, Thread.aim, h.program]

theorem upholds_woken (th : Thread) : th.Upholds th.woken := by
  refine ⟨th.program_woken, ?_, ?_, ?_, ?_⟩ <;> cases status : th.status <;>
    simp [woken, status, Runnable, Stirs, Rests]

theorem Upholds.of_woken (same : th' = th ∨ th' = th.woken) : th.Upholds th' := by
  rcases same with rfl | rfl
  · exact .refl _
  · exact th.upholds_woken

/-- A thread that is not awake is not worse off after a step. -/
theorem Dozes.upholds (h : th.Dozes th') : th.Upholds th' := by
  cases h with
  | stay => exact .refl th
  | stir parking kept =>
    exact ⟨rfl, fun _ => rfl, fun _ => .inl rfl, fun _ => nofun, fun _ => .inl parking⟩
  | sleep parking none =>
    refine ⟨rfl, fun awake => ?_, fun stirs => ?_, fun _ => nofun, fun _ => .inl parking⟩
    · cases parking.symm.trans awake
    · cases none.symm.trans stirs.2

theorem Fits.upheld (h : th.Fits l queued p) (upholds : th.Upholds th') : th'.Fits l queued p where
  keeps := upholds.program ▸ h.keeps
  wants mem := ⟨upholds.ended (h.wants mem).1, upholds.aim ▸ (h.wants mem).2⟩
  awake u leaving := upholds.awake (h.awake u leaving)
  rests rests aim := h.rests (upholds.rests rests) (upholds.aim ▸ aim)

end Thread

/-- Lock `l` and its number are the same in two machines, and both go on if one does. -/
structure Machine.AgreesOn (l : LockId) (m m' : Machine) : Prop where
  /-- They have stopped in the same way. -/
  stopped : m'.stopped = m.stopped
  /-- They have as many locks. -/
  locks : m'.locks.size = m.locks.size
  /-- They have as many numbers. -/
  cells : m'.cells.size = m.cells.size
  /-- The lock is the same. -/
  lock : m'.lock l = m.lock l
  /-- The number is the same. -/
  cell : m'.cells.getD l.index 0 = m.cells.getD l.index 0

/-- A machine at time `i`, as far as lock `l` is concerned. -/
structure Contended (l : LockId) (i : ℕ) (r : LockRecord) (φ : Tid → LockPhase) (m : Machine) : Prop where
  /-- The machine goes on. -/
  running : m.stopped = none
  /-- There is such a lock. -/
  lock : l.index < m.locks.size
  /-- It guards a number. -/
  cell : l.index < m.cells.size
  /-- Each thread is where it should be. -/
  fits : ∀ t, (m.thread t).Fits l (t ∈ (m.lock l).waiters) (φ t)
  /-- The state of the lock agrees with the record. -/
  tells : r.Tells (m.lock l) φ i
  /-- If the lock is free, the front of the queue goes on, or is woken by the thread that freed it. -/
  front : (m.lock l).holder = none → ∀ t, (m.lock l).waiters.head? = some t →
    (m.thread t).Runnable ∨ ∃ u, r.freedBy = some u ∧ φ u = .leaving t
  /-- What the thread inside has seen is still there. -/
  seen : ∀ t value, φ t = .inside → r.seen t = some value → m.cells.getD l.index 0 = value

namespace Contended

variable {env : Environment} {l : LockId} {i : ℕ} {r r' : LockRecord} {φ : Tid → LockPhase}
  {m m' : Machine} {t u : Tid} {p : LockPhase}

/-- What has to be shown when only thread `t` has done something. -/
theorem change (h : Contended l i r φ m) (stopped : m'.stopped = m.stopped)
    (locks : m'.locks.size = m.locks.size) (cells : m'.cells.size = m.cells.size)
    (others : ∀ u, u ≠ t → (m.thread u).Upholds (m'.thread u))
    (queue : ∀ u, u ≠ t → (u ∈ (m'.lock l).waiters ↔ u ∈ (m.lock l).waiters))
    (self : (m'.thread t).Fits l (t ∈ (m'.lock l).waiters) p)
    (tells : r'.Tells (m'.lock l) (Function.update φ t p) (i + 1))
    (front : (m'.lock l).holder = none → ∀ u, (m'.lock l).waiters.head? = some u →
      (m'.thread u).Runnable ∨ ∃ v, r'.freedBy = some v ∧ Function.update φ t p v = .leaving u)
    (seen : ∀ u value, Function.update φ t p u = .inside → r'.seen u = some value →
      m'.cells.getD l.index 0 = value) : Contended l (i + 1) r' (Function.update φ t p) m' where
  running := stopped ▸ h.running
  lock := locks ▸ h.lock
  cell := cells ▸ h.cell
  fits u := by
    by_cases same : u = t
    · rwa [same, Function.update_self]
    · rw [Function.update_of_ne same, propext (queue u same)]
      exact (h.fits u).upheld (others u same)
  tells := tells
  front := front
  seen := seen

/-- The lock is as it was, and so is who is inside. -/
theorem tells_same (h : Contended l i r φ m) (inside : p = .inside ↔ φ t = .inside) :
    r.Tells (m.lock l) (Function.update φ t p) (i + 1) := by
  have same (u : Tid) : Function.update φ t p u = .inside ↔ φ u = .inside := by
    by_cases here : u = t
    · rw [here, Function.update_self, inside]
    · rw [Function.update_of_ne here]
  refine ⟨fun u => (h.tells.holder u).trans (same u).symm, fun u => ?_, h.tells.distinct,
    h.tells.waiting, h.tells.ordered, fun u j failed => Nat.lt_succ_of_lt (h.tells.past u j failed)⟩
  rw [h.tells.guards u]
  simp only [same]

/-- Thread `t`, which is not in the queue, has done something that leaves the lock as it was. If it had
    to wake a thread, that has been done. -/
theorem go (h : Contended l i r φ m) (same : m.AgreesOn l m')
    (others : ∀ u, u ≠ t → (m.thread u).Upholds (m'.thread u)) (out : t ∉ (m.lock l).waiters)
    (self : (m'.thread t).Fits l False p) (inside : p = .inside ↔ φ t = .inside)
    (woken : ∀ u, φ t = .leaving u → u ∈ (m.lock l).waiters → (m'.thread u).Runnable) :
    Contended l (i + 1) r (Function.update φ t p) m' := by
  refine h.change same.stopped same.locks same.cells others (fun u _ => by rw [same.lock]) ?_
    (same.lock ▸ h.tells_same inside) ?_ ?_
  · rwa [same.lock, eq_false out]
  · rw [same.lock]
    intro free u front
    -- The front of the queue is another thread. If it was `t` that had to wake it, that has been done now.
    have mem := List.mem_of_mem_head? front
    have other : u ≠ t := fun here => out (here ▸ mem)
    rcases h.front free u front with (awake | stirs) | ⟨v, freed, leaving⟩
    · exact .inl (.inl ((others u other).awake awake))
    · exact .inl ((others u other).stirs stirs)
    · by_cases here : v = t
      · exact .inl (woken u (here ▸ leaving) mem)
      · exact .inr ⟨v, freed, by rwa [Function.update_of_ne here]⟩
  · rw [same.cell]
    intro u value within
    refine h.seen u value ?_
    by_cases here : u = t
    · rw [here, Function.update_self] at within
      rw [here]
      exact inside.1 within
    · rwa [Function.update_of_ne here] at within

/-- All threads are as they were, or have been woken. -/
theorem uphold (h : Contended l i r φ m) (same : m.AgreesOn l m')
    (threads : ∀ u, (m.thread u).Upholds (m'.thread u)) : Contended l (i + 1) r φ m' where
  running := same.stopped ▸ h.running
  lock := same.locks ▸ h.lock
  cell := same.cells ▸ h.cell
  fits u := by
    rw [same.lock]
    exact (h.fits u).upheld (threads u)
  tells := by
    rw [same.lock]
    exact { h.tells with past := fun u j failed => Nat.lt_succ_of_lt (h.tells.past u j failed) }
  front := by
    rw [same.lock]
    intro free u front
    -- Whoever had to wake the front of the queue still has to, or the front has been woken.
    rcases h.front free u front with (awake | stirs) | leaving
    · exact .inl (.inl ((threads u).awake awake))
    · exact .inl ((threads u).stirs stirs)
    · exact .inr leaving
  seen := by
    rw [same.cell]
    exact h.seen

/-- The record of a failed attempt of thread `t`. -/
theorem tells_fail (h : Contended l i r φ m) : (r.note l i t (.lock l) none).Tells
    { m.lock l with
      waiters := if t ∈ (m.lock l).waiters then (m.lock l).waiters else (m.lock l).waiters ++ [t] }
    φ (i + 1) := by
  have tells := h.tells
  have noted : r.note l i t (.lock l) none =
      { r with failedAt := Function.update r.failedAt t ((r.failedAt t).or (some i)) } := if_pos rfl
  rw [noted]
  by_cases queued : t ∈ (m.lock l).waiters
  · -- It has failed before, and what is recorded stays.
    obtain ⟨j, before⟩ := Option.isSome_iff_exists.1 ((tells.waiting t).1 queued)
    have same : Function.update r.failedAt t ((r.failedAt t).or (some i)) = r.failedAt := by
      rw [before, Option.some_or, ← before, Function.update_eq_self]
    rw [same, if_pos queued]
    exact { tells with past := fun u j failed => Nat.lt_succ_of_lt (tells.past u j failed) }
  have before : r.failedAt t = none := by
    rw [← Option.not_isSome_iff_eq_none, ← tells.waiting t]
    exact queued
  rw [before, Option.none_or, if_neg queued]
  have others {u : Tid} (mem : u ∈ (m.lock l).waiters) :
      Function.update r.failedAt t (some i) u = r.failedAt u :=
    Function.update_of_ne (fun same : u = t => queued (same ▸ mem)) ..
  refine ⟨tells.holder, tells.guards, ?_, fun u => ?_, ?_, fun u j failed => ?_⟩
  · exact List.nodup_append_comm.1 (List.nodup_cons.2 ⟨queued, tells.distinct⟩)
  · by_cases here : u = t
    · simp [here]
    · simp [here, tells.waiting u]
  · refine List.pairwise_append.2 ⟨?_, List.pairwise_singleton .., fun u mem v last => ?_⟩
    · -- Those in the queue failed before, at times that stay as they are. This thread fails now, so it is last.
      refine tells.ordered.imp_of_mem fun {u v} mem mem' earlier => ?_
      simp only [others mem, others mem']
      exact earlier
    · obtain rfl := List.mem_singleton.1 last
      obtain ⟨j, failed⟩ := Option.isSome_iff_exists.1 ((tells.waiting u).1 mem)
      exact ⟨j, i, (others mem).trans failed, Function.update_self .., tells.past u j failed⟩
  · by_cases here : u = t
    · rw [here] at failed
      change Function.update r.failedAt t (some i) t = some j at failed
      rw [Function.update_self] at failed
      obtain rfl := Option.some.inj failed
      exact Nat.lt_succ_self i
    · change Function.update r.failedAt t (some i) u = some j at failed
      rw [Function.update_of_ne here] at failed
      exact Nat.lt_succ_of_lt (tells.past u j failed)

/-- A thread that finds the lock held is in the queue, and about to sleep. -/
theorem fail (h : Contended l i r φ m) (aim : (m.thread t).aim = some (.lock l))
    (held : (m.lock l).holder ≠ none) (stays : ∀ u, φ t ≠ .leaving u)
    (stopped : m'.stopped = m.stopped)
    (locks : m'.locks.size = m.locks.size) (cells : m'.cells = m.cells)
    (lock : m'.lock l = { m.lock l with
      waiters := if t ∈ (m.lock l).waiters then (m.lock l).waiters else (m.lock l).waiters ++ [t] })
    (threads : m'.thread = Function.update m.thread t { m.thread t with status := .parking }) :
    Contended l (i + 1) (r.note l i t (.lock l) none) φ m' := by
  have noted : (r.note l i t (.lock l) none).seen = r.seen := by
    rw [LockRecord.note, if_pos rfl]
  have self : Function.update φ t (φ t) = φ := Function.update_eq_self ..
  have mem : t ∈ (m'.lock l).waiters := by
    rw [lock]
    simp only []
    split
    · assumption
    · simp
  rw [← self]
  refine h.change stopped locks (by rw [cells]) (fun u other => ?_) (fun u other => ?_) ?_ ?_ ?_ ?_
  · rw [threads, Function.update_of_ne other]
    exact .refl _
  · rw [lock]
    simp only []
    split
    · rfl
    · simp [other]
  · rw [threads, Function.update_self]
    exact ⟨(h.fits t).keeps, fun _ => ⟨nofun, aim⟩, fun u leaving => absurd leaving (stays u),
      fun _ _ => mem⟩
  · rw [self, lock]
    exact h.tells_fail
  · rw [lock]
    exact fun free => absurd free held
  · rw [self, cells, noted]
    exact h.seen

/-- The record of a successful attempt of thread `t`. -/
theorem tells_take (h : Contended l i r φ m) (free : (m.lock l).holder = none) :
    (r.note l i t (.lock l) (some ())).Tells ⟨some t, (m.lock l).waiters.filter (· ≠ t)⟩
      (Function.update φ t .inside) (i + 1) := by
  have tells := h.tells
  have noted : r.note l i t (.lock l) (some ()) =
      { r with
        guards := Function.update r.guards t (r.guards t + 1)
        failedAt := Function.update r.failedAt t none
        seen := Function.update r.seen t none } := if_pos rfl
  have nobody := tells.ne_inside free
  rw [noted]
  refine ⟨fun u => ?_, fun u => ?_, tells.distinct.filter _, fun u => ?_, ?_, fun u j failed => ?_⟩
  · by_cases here : u = t
    · simp [here]
    · simp [here, nobody u, Ne.symm here]
  · by_cases here : u = t
    · simp [here, tells.guards t, nobody t]
    · simp [here, tells.guards u]
  · by_cases here : u = t
    · simp [here]
    · simp [here, tells.waiting u]
  · refine (tells.ordered.filter _).imp_of_mem fun {u v} mem mem' earlier => ?_
    have other : u ≠ t := by simpa using (List.mem_filter.1 mem).2
    have other' : v ≠ t := by simpa using (List.mem_filter.1 mem').2
    simp only [Function.update_of_ne other, Function.update_of_ne other']
    exact earlier
  · change Function.update r.failedAt t none u = some j at failed
    by_cases here : u = t
    · rw [here, Function.update_self] at failed
      cases failed
    · rw [Function.update_of_ne here] at failed
      exact Nat.lt_succ_of_lt (tells.past u j failed)

/-- A thread that finds the lock free has it, and leaves the queue. -/
theorem take (h : Contended l i r φ m) (free : (m.lock l).holder = none)
    (stopped : m'.stopped = m.stopped)
    (locks : m'.locks.size = m.locks.size) (cells : m'.cells = m.cells)
    (lock : m'.lock l = ⟨some t, (m.lock l).waiters.filter (· ≠ t)⟩)
    (others : ∀ u, u ≠ t → m'.thread u = m.thread u)
    (self : (m'.thread t).Fits l False .inside) :
    Contended l (i + 1) (r.note l i t (.lock l) (some ())) (Function.update φ t .inside) m' := by
  have noted : (r.note l i t (.lock l) (some ())).seen = Function.update r.seen t none := by
    rw [LockRecord.note, if_pos rfl]
  have left : ¬ t ∈ (m'.lock l).waiters := by simp [lock]
  refine h.change stopped locks (by rw [cells]) (fun u other => others u other ▸ .refl _)
    (fun u other => by simp [lock, other]) (by rwa [eq_false left]) (lock ▸ h.tells_take free) ?_ ?_
  · rw [lock]
    exact nofun
  · intro u value within
    rw [noted]
    by_cases here : u = t
    · simp [here]
    · rw [Function.update_of_ne here] at within
      exact absurd within (h.tells.ne_inside free u)

/-- The record of a release by thread `t`. -/
theorem tells_free (h : Contended l i r φ m) (inside : φ t = .inside) (answer : Option Tid)
    (p' : LockPhase) (outside : p' ≠ .inside) :
    (r.note l i t (.release l) (some answer)).Tells { m.lock l with holder := none }
      (Function.update φ t p') (i + 1) := by
  have tells := h.tells
  have noted : r.note l i t (.release l) (some answer) =
      { r with guards := Function.update r.guards t (r.guards t - 1), freedBy := some t } := if_pos rfl
  have alone {u : Tid} (other : u ≠ t) : φ u ≠ .inside := fun inside' => other (tells.alone inside inside')
  rw [noted]
  refine ⟨fun u => ?_, fun u => ?_, tells.distinct, tells.waiting, tells.ordered,
    fun u j failed => Nat.lt_succ_of_lt (tells.past u j failed)⟩
  · by_cases here : u = t
    · simp [here, outside]
    · simp [here, alone here]
  · by_cases here : u = t
    · simp [here, tells.guards t, inside, outside]
    · simp [here, tells.guards u]

/-- A thread that frees the lock has to wake the front of the queue. -/
theorem free (h : Contended l i r φ m) (inside : φ t = .inside) (out : t ∉ (m.lock l).waiters)
    (stopped : m'.stopped = m.stopped)
    (locks : m'.locks.size = m.locks.size) (cells : m'.cells = m.cells)
    (lock : m'.lock l = { m.lock l with holder := none })
    (others : ∀ u, u ≠ t → m'.thread u = m.thread u)
    (self : (m'.thread t).Fits l False (Option.elim (m.lock l).waiters.head? .outside .leaving)) :
    Contended l (i + 1) (r.note l i t (.release l) (some (m.lock l).waiters.head?))
      (Function.update φ t (Option.elim (m.lock l).waiters.head? .outside .leaving)) m' := by
  have outside : Option.elim (m.lock l).waiters.head? .outside .leaving ≠ LockPhase.inside := by
    cases (m.lock l).waiters.head? <;> nofun
  have noted : (r.note l i t (.release l) (some (m.lock l).waiters.head?)).freedBy = some t := by
    rw [LockRecord.note, if_pos rfl]
  refine h.change stopped locks (by rw [cells]) (fun u other => others u other ▸ .refl _)
    (fun u other => by rw [lock]) ?_ (lock ▸ h.tells_free inside _ _ outside) ?_ ?_
  · rwa [lock, eq_false out]
  · rw [lock]
    intro _ u front
    refine .inr ⟨t, noted, ?_⟩
    -- The answer is the front of the queue as it was, and the release leaves the queue alone.
    rw [Function.update_self, show (m.lock l).waiters.head? = some u from front]
    rfl
  · intro u value within
    by_cases here : u = t
    · rw [here, Function.update_self] at within
      exact absurd within outside
    · rw [Function.update_of_ne here] at within
      exact absurd (h.tells.alone inside within) here

/-- The thread inside has read or stored the number. -/
theorem know (h : Contended l i r φ m) (inside : φ t = .inside) (out : t ∉ (m.lock l).waiters)
    (stopped : m'.stopped = m.stopped)
    (locks : m'.locks.size = m.locks.size) (cells : m'.cells.size = m.cells.size)
    (lock : m'.lock l = m.lock l) {value : Int64} (cell : m'.cells.getD l.index 0 = value)
    (others : ∀ u, u ≠ t → m'.thread u = m.thread u) (self : (m'.thread t).Fits l False .inside) :
    Contended l (i + 1) { r with seen := Function.update r.seen t (some value) } φ m' := by
  have same : Function.update φ t .inside = φ := by rw [← inside, Function.update_eq_self]
  have tells := h.tells_same (t := t) (p := .inside) (by simp [inside])
  rw [← same]
  refine h.change stopped locks cells (fun u other => others u other ▸ .refl _) (fun u _ => by rw [lock])
    ?_ ?_ ?_ ?_
  · rwa [lock, eq_false out]
  · rw [lock]
    exact { tells with }
  · rw [lock]
    exact fun free => absurd inside (h.tells.ne_inside free t)
  · intro u value' within seen
    rw [same] at within
    obtain rfl := h.tells.alone inside within
    change Function.update r.seen u (some value) u = some value' at seen
    rw [Function.update_self] at seen
    exact cell.trans (Option.some.inj seen)

end Contended

end Userland

import Userland.Proofs.Contention
import Userland.Proofs.Histories

/-!
# Steps of threads that contend for a lock

Whatever a thread that keeps to a lock does, and whoever is woken, the state of the lock goes on to agree
with the record (`Contended.turn`). A step changes other threads in no way, save that they may be woken,
and an action that does not concern the lock leaves it as it is (`Machine.AgreesOn`).
-/

namespace Userland

open ThreadProgram

/-! ## Actions -/

theorem Action.goesOn_of_isAnswered {a : Action} (answered : a.isAnswered = true) : a.goesOn = true := by
  cases a with
  | endThread | goto => cases answered
  | _ => rfl

namespace Machine

variable {env : Environment} {l l' : LockId} {m m' : Machine} {t u : Tid} {a : Action}

theorem lock_setLock_of_lt (inside : l.index < m.locks.size) (x : SleepLock Tid) :
    (m.setLock l x).lock l = x := by
  simp [lock, setLock, Array.getD_eq_getD_getElem?, inside]

theorem lock_setLock_of_ne (other : l' ≠ l) (x : SleepLock Tid) :
    (m.setLock l' x).lock l = m.lock l := by
  have index : l'.index ≠ l.index := fun same => other (by cases l'; cases l; cases same; rfl)
  simp [lock, setLock, Array.getD_eq_getD_getElem?, index]

theorem upholds_wake (m : Machine) (t u : Tid) : (m.thread u).Upholds ((m.wake t).1.thread u) :=
  .of_woken (m.thread_wake_eq u t)

/-- In an attempt other threads stay as they are, or are woken. -/
theorem upholds_attempt (makesNone : ∀ name priority start, a ≠ .spawn name priority start)
    (other : u ≠ t) : (m.thread u).Upholds ((m.attempt env t a).machine.thread u) :=
  .of_woken <| thread_attempt (.inl other) fun name priority start spawns =>
    absurd spawns (makesNone name priority start)

/-- An attempt makes the thread that makes it neither sleep nor end, save by ending it. -/
theorem awake_attempt (makesNone : ∀ name priority start, a ≠ .spawn name priority start)
    (answered : a.isAnswered = true) (awake : (m.thread t).status = .awake) :
    ((m.attempt env t a).machine.thread t).status = .awake := by
  by_cases device : ∃ r, a = .device r
  · obtain ⟨r, rfl⟩ := device
    have inside := m.lt_size_of_status (t := t) (by simp [awake])
    change ((m.setThread t _).thread t).status = .awake
    rw [thread_setThread inside, Function.update_self]
    exact awake
  · have apart : (∀ r, a ≠ .device r) ∧ a.goesOn = true :=
      ⟨fun r same => device ⟨r, same⟩, Action.goesOn_of_isAnswered answered⟩
    have upholds : (m.thread t).Upholds ((m.attempt env t a).machine.thread t) :=
      .of_woken <| thread_attempt (.inr apart) fun name priority start spawns =>
        absurd spawns (makesNone name priority start)
    exact upholds.awake awake

/-- A thread that has to wait is as it was, and so are the others. -/
theorem thread_of_wait (waits : m.attempt env t a = .wait m') : m'.thread = m.thread := by
  cases a with
  | receive c =>
    simp only [attempt] at waits
    split at waits <;> cases waits
    rfl
  | lock l =>
    simp only [attempt] at waits
    split at waits <;> cases waits
    rfl
  | spawn name priority start =>
    simp only [attempt, spawnThread] at waits
    split at waits
    · cases waits
    · split at waits <;> cases waits
  | lockRegistry family =>
    simp only [attempt] at waits
    split at waits <;> cases waits
  | _ => cases waits

theorem attempt_ne_unanswered (answered : a.isAnswered = true) :
    m.attempt env t a ≠ .unanswered m' := by
  intro ends
  cases a with
  | endThread | goto | stop | lockRegistry => cases answered
  | receive c =>
    simp only [attempt] at ends
    split at ends <;> cases ends
  | lock l =>
    simp only [attempt] at ends
    split at ends <;> cases ends
  | spawn name priority start =>
    simp only [attempt, spawnThread] at ends
    split at ends
    · cases ends
    · split at ends <;> cases ends
  | _ => cases ends

theorem lock_settleAttempt {α : Type} (next : α → ThreadProgram Unit) (attempt : Attempt α) :
    (settleAttempt t next attempt).1.lock l = attempt.machine.lock l := by
  cases attempt <;> rfl

/-- A step of a thread that is not awake leaves all threads as they were, or wakes them. -/
theorem upholds_dozes {th : Thread} (dozes : (m.thread t).Dozes th) (u : Tid) :
    (m.thread u).Upholds ((m.setThread t th).thread u) := by
  by_cases same : u = t
  · subst same
    by_cases inside : u < m.threads.size
    · rw [thread_setThread inside, Function.update_self]
      exact dozes.upholds
    · have outside := Nat.le_of_not_lt inside
      rw [thread_of_size_le outside, thread_of_size_le (by simpa using outside)]
      exact .refl _
  · rw [thread_setThread_of_ne same]
    exact .refl _

/-- When a thread that makes no thread makes a step, the others stay as they are, or are woken. -/
theorem upholds_step (makesNone : ∀ a next, (m.thread u).program = Program.ask a next →
    ∀ name priority start, a ≠ .spawn name priority start) (other : t ≠ u) :
    (m.thread t).Upholds ((m.step env u).1.thread t) :=
  .of_woken <| thread_step other fun a next does name priority start spawns =>
    absurd spawns (makesNone a next does name priority start)

/-- A thread that has been woken can go on. -/
theorem runnable_step (other : t ≠ u) (awake : (m.thread u).status = .awake)
    (aim : (m.thread u).aim = some (.unblock t)) (left : (m.thread t).status ≠ .ended) :
    ((m.step env u).1.thread t).Runnable := by
  cases does : (m.thread u).program with
  | pure result =>
    rw [Thread.aim, does] at aim
    cases aim
  | ask a next =>
    rw [Sound.aim_eq does] at aim
    obtain rfl := Option.some.inj aim
    rw [step_of_ask awake does, thread_settleAttempt next _ other]
    change ((m.wake t).1.thread t).Runnable
    rw [thread_wake, Function.update_self]
    rcases (m.thread t).woken_up with up | ⟨stirs, -⟩ | ⟨ended, same⟩
    · exact .inl up
    · exact .inr stirs
    · exact absurd (same ▸ ended) left

/-- A thread that is about to sleep does not, if a wakeup is kept. -/
theorem awake_step (stirs : (m.thread t).Stirs) : ((m.step env t).1.thread t).status = .awake := by
  have inside := m.lt_size_of_status (t := t) (by simp [stirs.1])
  simp only [step, stirs.1, stirs.2, if_true, thread_setThread inside, Function.update_self]

/-- The machine goes on, and nobody is about to make a thread. -/
structure Going (m : Machine) : Prop where
  /-- It has not stopped. -/
  running : m.stopped = none
  /-- Nobody is about to make a thread. -/
  makesNone : ∀ t name priority start, (m.thread t).aim ≠ some (.spawn name priority start)

namespace Going

theorem turn_step (h : m.Going) (t : Tid) : m.turn env (.step t) = (m.step env t).1 := by
  simp [turn, h.running]

theorem turn_wake (h : m.Going) (t : Tid) : m.turn env (.wake t) = (m.wake t).1 := by
  simp [turn, h.running]

/-- When another thread makes a step, or some thread is woken, a thread stays as it is, or is woken. -/
theorem upholds_turn (h : m.Going) {turn : Turn} (other : turn ≠ .step t) :
    (m.thread t).Upholds ((m.turn env turn).thread t) := by
  cases turn with
  | wake u =>
    rw [h.turn_wake]
    exact m.upholds_wake u t
  | step u =>
    rw [h.turn_step]
    refine upholds_step (fun a next does name priority start same => ?_) fun same => other (same ▸ rfl)
    exact h.makesNone u name priority start (same ▸ Sound.aim_eq does)

theorem awake_turn (h : m.Going) (stirs : (m.thread t).Stirs) :
    ((m.turn env (.step t)).thread t).status = .awake := by
  rw [h.turn_step]
  exact awake_step stirs

/-- A thread that has been woken can go on. -/
theorem runnable_turn (h : m.Going) (other : t ≠ u) (awake : (m.thread u).status = .awake)
    (aim : (m.thread u).aim = some (.unblock t)) (left : (m.thread t).status ≠ .ended) :
    ((m.turn env (.step u)).thread t).Runnable := by
  rw [h.turn_step]
  exact runnable_step other awake aim left

end Going

namespace AgreesOn

theorem refl (l : LockId) (m : Machine) : m.AgreesOn l m := ⟨rfl, rfl, rfl, rfl, rfl⟩

theorem setThread (h : m.AgreesOn l m') (t : Tid) (th : Thread) : m.AgreesOn l (m'.setThread t th) :=
  ⟨h.stopped, h.locks, h.cells, h.lock, h.cell⟩

theorem wake (l : LockId) (m : Machine) (t : Tid) : m.AgreesOn l (m.wake t).1 := by
  unfold Machine.wake
  dsimp only
  split
  · exact (refl l m).setThread ..
  · exact refl l m
  · exact (refl l m).setThread ..
  · exact (refl l m).setThread ..

/-- An action that does not concern the lock leaves it as it is. -/
theorem attempt (apart : a.IsApart l) : m.AgreesOn l (m.attempt env t a).machine := by
  have locked (l' : LockId) (other : l' ≠ l) (x : SleepLock Tid) : m.AgreesOn l (m.setLock l' x) :=
    ⟨rfl, by simp, rfl, lock_setLock_of_ne other x, rfl⟩
  cases a with
  | spawn | lockRegistry | goto | stop => exact apart.elim
  | receive c =>
    simp only [Machine.attempt]
    rcases (m.channel c).receive t with ⟨_ | value, x⟩ <;> exact ⟨rfl, rfl, rfl, rfl, rfl⟩
  | lock l' =>
    simp only [Machine.attempt]
    rcases (m.lock l').tryLock t with ⟨_ | _, x⟩ <;> exact locked l' apart x
  | release l' => exact locked l' apart _
  | setCell l' value =>
    have index : l'.index ≠ l.index := fun same => apart (by cases l'; cases l; cases same; rfl)
    exact ⟨rfl, rfl, by simp [Machine.attempt, Attempt.machine], rfl,
      by simp [Machine.attempt, Attempt.machine, Array.getD_eq_getD_getElem?, index]⟩
  | unblock u => exact .wake l m u
  | _ => exact ⟨rfl, rfl, rfl, rfl, rfl⟩

end AgreesOn

end Machine

/-- If each thread makes steps again and again, a thread that can go on does so in the end. If it is about to
    sleep, a wakeup is kept for it, and it is awake after its next step. -/
theorem Fair.awakes {turns : ℕ → Turn} (fair : Fair turns) {th : ℕ → Thread} {t : Tid} {i : ℕ}
    (upholds : ∀ j ≥ i, (th j).Runnable → turns j ≠ .step t → (th j).Upholds (th (j + 1)))
    (stirs : ∀ j ≥ i, (th j).Stirs → turns j = .step t → (th (j + 1)).status = .awake)
    (runnable : (th i).Runnable) : ∃ j ≥ i, (th j).status = .awake ∧ turns j = .step t := by
  have goes {i' : ℕ} (le : i ≤ i') (awake : (th i').status = .awake) :
      ∃ j ≥ i', (th j).status = .awake ∧ turns j = .step t :=
    fair.leadsTo (fun j => (th j).status = .awake) awake t fun j le' up other =>
      (upholds j (Nat.le_trans le le') (.inl up) other).awake up
  obtain ⟨j, le, up, here⟩ := fair.leadsTo (fun j => (th j).Runnable) runnable t
    fun j le up other => (upholds j le up other).runnable up
  rcases up with awake | kept
  · exact ⟨j, le, awake, here⟩
  · obtain ⟨k, le', goes⟩ := goes (Nat.le_succ_of_le le) (stirs j le kept here)
    exact ⟨k, Nat.le_trans le (Nat.le_of_succ_le le'), goes⟩

/-! ## Steps -/

theorem Action.IsApart.makesNone {l : LockId} {a : Action} (apart : a.IsApart l) (name : String)
    (priority : UInt8) (start : NewProcess) : a ≠ .spawn name priority start := by
  rintro rfl
  exact apart

theorem Action.IsApart.isAnswered {l : LockId} {a : Action} (apart : a.IsApart l)
    (goesOn : a ≠ .endThread) : a.isAnswered = true := by
  cases a with
  | spawn | lockRegistry | goto | stop => exact apart.elim
  | endThread => exact absurd rfl goesOn
  | _ => rfl

namespace Contended

variable {env : Environment} {l : LockId} {i : ℕ} {r : LockRecord} {φ : Tid → LockPhase}
  {m : Machine} {t u : Tid} {a : Action} {next : a.Answer → ThreadProgram Unit}

/-- A thread that is about to do something else is not in the queue. -/
theorem notMem_waiters (h : Contended l i r φ m) (busy : (m.thread t).aim ≠ some (.lock l)) :
    t ∉ (m.lock l).waiters := fun mem => busy ((h.fits t).wants mem).2

/-- A thread that goes on with a program is awake and not in the queue. -/
theorem fits_next {th : Thread} {p : LockPhase} {program : ThreadProgram Unit}
    (awake : th.status = .awake) (keeps : program.KeepsTo l (fun _ p => ∀ u, p ≠ .leaving u) p) :
    Thread.Fits l { th with program := program } False p where
  keeps := keeps
  wants := False.elim
  awake _ _ := awake
  rests rests := absurd awake rests.ne_awake

/-- Thread `t` ends. -/
theorem finish (h : Contended l i r φ m) (inside : t < m.threads.size) (out : t ∉ (m.lock l).waiters)
    (stays : ∀ u, φ t ≠ .leaving u) : Contended l (i + 1) r φ (m.finish t) := by
  rw [← Function.update_eq_self t φ]
  refine h.go ⟨rfl, rfl, rfl, rfl, rfl⟩ (fun u ne => ?_) out ?_ .rfl fun u leaving => absurd leaving (stays u)
  · rw [Machine.thread_finish_of_ne ne]
    exact .refl _
  · rw [Machine.thread_finish inside]
    exact ⟨stays, False.elim, fun u leaving => absurd leaving (stays u), fun rests =>
      absurd rfl rests.ne_ended⟩

/-- Thread `t` tries something that does not concern the lock. -/
theorem attempt_apart (h : Contended l i r φ m) (awake : (m.thread t).status = .awake)
    (does : (m.thread t).program = Program.ask a next) (apart : a.IsApart l)
    (stays : ∀ u, φ t ≠ .leaving u) :
    Contended l (i + 1) r φ (Machine.settleAttempt t next (m.attempt env t a)).1 := by
  have inside := m.lt_size_of_status (t := t) (by simp [awake])
  have other : a ≠ .lock l := fun same => by
    subst same
    exact apart rfl
  have busy : (m.thread t).aim ≠ some (.lock l) := by
    rw [Sound.aim_eq does]
    exact fun same => other (Option.some.inj same)
  have agrees : m.AgreesOn l (m.attempt env t a).machine := .attempt apart
  have others (u : Tid) (ne : u ≠ t) :
      (m.thread u).Upholds ((m.attempt env t a).machine.thread u) :=
    Machine.upholds_attempt apart.makesNone ne
  have size : (m.attempt env t a).machine.threads.size = m.threads.size :=
    Machine.size_attempt_of_ne_spawn apart.makesNone
  -- To end does not concern the lock either, but leaves no program to go on with.
  by_cases ends : a = .endThread
  · subst ends
    exact h.finish inside (h.notMem_waiters busy) stays
  rw [← Function.update_eq_self t φ]
  have still : ((m.attempt env t a).machine.thread t).status = .awake :=
    Machine.awake_attempt apart.makesNone (apart.isAnswered ends) awake
  cases attempted : m.attempt env t a with
  | done answer m' ready =>
    rw [attempted] at agrees others size still
    have inside' : t < m'.threads.size := by rwa [show m'.threads.size = m.threads.size from size]
    refine h.go (agrees.setThread ..) (fun u ne => ?_) (h.notMem_waiters busy) ?_ .rfl
      fun u leaving => absurd leaving (stays u)
    · rw [Machine.settleAttempt, Machine.thread_setThread_of_ne ne]
      exact others u ne
    · rw [Machine.settleAttempt, Machine.thread_setThread inside', Function.update_self]
      have keeps := (h.fits t).keeps
      rw [does] at keeps
      have after := keeps.2 answer fun _ => other
      rw [LockPhase.after_of_isApart apart stays] at after
      exact fits_next still after
  | wait m' =>
    have same := Machine.thread_of_wait attempted
    rw [attempted] at agrees others size
    have inside' : t < m'.threads.size := by rwa [show m'.threads.size = m.threads.size from size]
    refine h.go (agrees.setThread ..) (fun u ne => ?_) (h.notMem_waiters busy) ?_ .rfl
      fun u leaving => absurd leaving (stays u)
    · rw [Machine.settleAttempt, Machine.thread_setThread_of_ne ne]
      exact others u ne
    · rw [Machine.settleAttempt, Machine.thread_setThread inside', Function.update_self, same]
      exact ⟨(h.fits t).keeps, False.elim, fun u leaving => absurd leaving (stays u),
        fun _ wants => absurd wants busy⟩
  | unanswered m' => exact absurd attempted (Machine.attempt_ne_unanswered (apart.isAnswered ends))

/-- Thread `t` goes on with an answer. -/
theorem fits_answer (h : Contended l i r φ m) (awake : (m.thread t).status = .awake)
    (does : (m.thread t).program = Program.ask a next) (m' : Machine)
    (threads : m'.threads = m.threads) (answer : a.Answer) {p : LockPhase}
    (after : (φ t).after l a answer = p) (free : φ t = .inside → a ≠ .lock l) :
    ((m'.setThread t { m'.thread t with program := next answer }).thread t).Fits l False p := by
  have inside := m.lt_size_of_status (t := t) (by simp [awake])
  have keeps := (h.fits t).keeps
  rw [does] at keeps
  rw [Machine.thread_setThread (by rwa [threads]), Function.update_self]
  refine fits_next ?_ (after ▸ keeps.2 answer free)
  rwa [Machine.thread, threads]

/-- Thread `t` wakes the front of the queue. -/
theorem attempt_unblock (h : Contended l i r φ m) (awake : (m.thread t).status = .awake)
    {next : Unit → ThreadProgram Unit} (does : (m.thread t).program = Program.ask (Action.unblock u) next)
    (leaving : φ t = .leaving u) :
    Contended l (i + 1) r (Function.update φ t .outside)
      ((m.wake u).1.setThread t { (m.wake u).1.thread t with program := next () }) := by
  have out := h.notMem_waiters (t := t) (by rw [Sound.aim_eq does]; nofun)
  have keeps := (h.fits t).keeps
  rw [does, leaving] at keeps
  have inside := m.lt_size_of_status (t := t) (by simp [awake])
  have size := (m.wake_frame u).1
  refine h.go ((Machine.AgreesOn.wake l m u).setThread ..) (fun v ne => ?_) out ?_ (by simp [leaving])
    fun v same mem => ?_
  · rw [Machine.thread_setThread_of_ne ne]
    exact m.upholds_wake u v
  · rw [Machine.thread_setThread (by rwa [size]), Function.update_self]
    exact fits_next ((m.upholds_wake u t).awake awake) (keeps.2 () nofun)
  · obtain rfl := LockPhase.leaving.inj (leaving.symm.trans same)
    have ne : u ≠ t := fun here => out (here ▸ mem)
    rw [Machine.thread_setThread_of_ne ne, Machine.thread_wake, Function.update_self]
    -- The front of the queue is up, or about to be. It has not ended, as it wants the lock.
    rcases (m.thread u).woken_up with up | ⟨stirs, -⟩ | ⟨ended, same⟩
    · exact .inl up
    · exact .inr stirs
    · exact absurd (same ▸ ended) ((h.fits u).wants mem).1

/-- Thread `t` tries to get the lock. -/
theorem attempt_lock (h : Contended l i r φ m) (awake : (m.thread t).status = .awake)
    {next : Unit → ThreadProgram Unit} (does : (m.thread t).program = Program.ask (Action.lock l) next)
    (stays : ∀ u, φ t ≠ .leaving u) :
    ∃ φ', Contended l (i + 1) (r.note l i t (.lock l) (m.answer? env t (.lock l))) φ'
      (Machine.settleAttempt t next (m.attempt env t (.lock l))).1 := by
  have inside := m.lt_size_of_status (t := t) (by simp [awake])
  cases holder : (m.lock l).holder with
  | none =>
    have attempted : m.attempt env t (.lock l) =
        .done () (m.setLock l ⟨some t, (m.lock l).waiters.filter (· ≠ t)⟩) [] := by
      simp only [Machine.attempt, SleepLock.tryLock, holder]
    have answered : m.answer? env t (.lock l) = some () := by
      simp only [Machine.answer?, attempted]
    have outside : φ t ≠ .inside := h.tells.ne_inside holder t
    rw [answered, attempted]
    exact ⟨_, h.take holder rfl (by simp [Machine.settleAttempt, Machine.setThread]) rfl
      (Machine.lock_setLock_of_lt h.lock _) (fun u ne => Machine.thread_setThread_of_ne ne _)
      (h.fits_answer awake does _ rfl () (if_pos rfl) fun within => absurd within outside)⟩
  | some u =>
    have attempted : m.attempt env t (.lock l) = .wait (m.setLock l { m.lock l with
        waiters := if t ∈ (m.lock l).waiters then (m.lock l).waiters
          else (m.lock l).waiters ++ [t] }) := by
      simp only [Machine.attempt, SleepLock.tryLock, holder]
      split
      · rw [← holder]
      · rfl
    have answered : m.answer? env t (.lock l) = none := by
      simp only [Machine.answer?, attempted]
    rw [answered, attempted]
    exact ⟨φ, h.fail (Sound.aim_eq does) (by rw [holder]; simp) stays rfl
      (by simp [Machine.settleAttempt, Machine.setThread]) rfl (Machine.lock_setLock_of_lt h.lock _)
      (Machine.thread_setThread inside _)⟩

/-- Thread `t` frees the lock. -/
theorem attempt_release (h : Contended l i r φ m) (awake : (m.thread t).status = .awake)
    {next : Option Tid → ThreadProgram Unit}
    (does : (m.thread t).program = Program.ask (Action.release l) next) (within : φ t = .inside) :
    Contended l (i + 1) (r.note l i t (.release l) (some (m.lock l).waiters.head?))
      (Function.update φ t (Option.elim (m.lock l).waiters.head? .outside .leaving))
      (Machine.settleAttempt t next (m.attempt env t (.release l))).1 :=
  have out := h.notMem_waiters (t := t) (by rw [Sound.aim_eq does]; nofun)
  have fits := h.fits_answer awake does (m.setLock l { m.lock l with holder := none }) rfl
    (m.lock l).waiters.head? (if_pos rfl) fun _ => nofun
  h.free within out rfl (m.size_setLock l _) rfl (Machine.lock_setLock_of_lt h.lock _)
    (fun u ne => Machine.thread_setThread_of_ne ne _) fits

/-- Thread `t` reads the number. -/
theorem attempt_getCell (h : Contended l i r φ m) (awake : (m.thread t).status = .awake)
    {next : Int64 → ThreadProgram Unit}
    (does : (m.thread t).program = Program.ask (Action.getCell l) next) (within : φ t = .inside) :
    Contended l (i + 1) (r.note l i t (.getCell l) (some (m.cells.getD l.index 0))) φ
      (Machine.settleAttempt t next (m.attempt env t (.getCell l))).1 := by
  have out := h.notMem_waiters (t := t) (by rw [Sound.aim_eq does]; nofun)
  have fits := h.fits_answer awake does m rfl (m.cells.getD l.index 0) (by rw [within])
    fun _ => nofun
  rw [LockRecord.note, if_pos rfl]
  refine h.know within out ?_ ?_ ?_ ?_ ?_ (fun u ne => Machine.thread_setThread_of_ne ne _) fits <;> rfl

/-- Thread `t` stores a number. -/
theorem attempt_setCell (h : Contended l i r φ m) (awake : (m.thread t).status = .awake)
    {value : Int64} {next : Unit → ThreadProgram Unit}
    (does : (m.thread t).program = Program.ask (Action.setCell l value) next) (within : φ t = .inside) :
    Contended l (i + 1) (r.note l i t (.setCell l value) (some ())) φ
      (Machine.settleAttempt t next (m.attempt env t (.setCell l value))).1 := by
  have out := h.notMem_waiters (t := t) (by rw [Sound.aim_eq does]; nofun)
  let m' := { m with cells := m.cells.setIfInBounds l.index value }
  have fits := h.fits_answer awake does m' rfl () (by rw [within]) fun _ => nofun
  have size : m'.cells.size = m.cells.size := Array.size_setIfInBounds ..
  have cell : m'.cells.getD l.index 0 = value := by
    simp [m', Array.getD_eq_getD_getElem?, h.cell]
  rw [LockRecord.note, if_pos rfl]
  refine h.know within out ?_ ?_ ?_ ?_ ?_ (fun u ne => Machine.thread_setThread_of_ne ne _) fits
  · rfl
  · rfl
  · exact size
  · rfl
  · exact cell

/-- Whatever thread `t` tries, if it keeps to the lock. -/
theorem attempt (h : Contended l i r φ m) (awake : (m.thread t).status = .awake)
    (does : (m.thread t).program = Program.ask a next) :
    ∃ φ', Contended l (i + 1) (r.note l i t a (m.answer? env t a)) φ'
      (Machine.settleAttempt t next (m.attempt env t a)).1 := by
  have keeps := (h.fits t).keeps
  rw [does] at keeps
  -- What a thread may do is known from how far it has come with the lock.
  rcases keeps.1.cases with
    ⟨u, leaving, rfl⟩ | ⟨stays, apart | rfl | ⟨within, rfl | rfl | ⟨value, rfl⟩⟩⟩
  · exact ⟨_, h.attempt_unblock awake does leaving⟩
  · rw [LockRecord.note_of_isApart apart]
    exact ⟨φ, h.attempt_apart awake does apart stays⟩
  · exact h.attempt_lock awake does stays
  · exact ⟨_, h.attempt_release awake does within⟩
  · exact ⟨φ, h.attempt_getCell awake does within⟩
  · exact ⟨φ, h.attempt_setCell awake does within⟩

/-- Whoever makes a step, or is woken. -/
theorem turn (h : Contended l i r φ m) (turn : Turn) :
    ∃ φ', Contended l (i + 1) (r.afterTurn env l i m turn) φ' (m.turn env turn) := by
  have running : m.stopped.isSome = false := by rw [h.running]; rfl
  simp only [Machine.turn, LockRecord.afterTurn, running, Bool.false_eq_true, if_false]
  cases turn with
  | wake t => exact ⟨φ, h.uphold (.wake l m t) (m.upholds_wake t)⟩
  | step t =>
    cases status : (m.thread t).status with
    | asleep | ended | parking =>
      obtain ⟨th, dozes, stepped⟩ := Machine.step_of_ne_awake env (m := m) (t := t) (by simp [status])
      simp only [status, stepped]
      exact ⟨φ, h.uphold ((Machine.AgreesOn.refl l m).setThread ..) (Machine.upholds_dozes dozes)⟩
    | awake =>
      cases does : (m.thread t).program with
      | ask a next =>
        simp only [Machine.step, status, does]
        exact h.attempt status does
      | pure result =>
        have inside := m.lt_size_of_status (t := t) (by simp [status])
        have stays := (h.fits t).keeps
        rw [does] at stays
        simp only [Machine.step, status, does]
        exact ⟨_, h.finish inside (h.notMem_waiters (by rw [Thread.aim, does]; simp)) stays⟩

/-! ## Going on, and a free lock -/

variable (env)

/-- The machine is not stopped, and a thread that keeps to the lock makes no thread. -/
theorem going (h : Contended l i r φ m) : m.Going where
  running := h.running
  makesNone t name priority start aim := by
    have keeps := (h.fits t).keeps
    cases does : (m.thread t).program with
    | pure result => simp [Thread.aim, does] at aim
    | ask a next =>
      obtain rfl : a = .spawn name priority start := by simpa [Thread.aim, does] using aim
      rw [does] at keeps
      rcases keeps.1.cases with ⟨u, -, same⟩ | ⟨-, apart | same | ⟨-, same | same | ⟨value, same⟩⟩⟩
      · cases same
      · exact apart
      all_goals cases same

/-- A free lock stays as it is, or some thread gets it. -/
theorem lock_turn (h : Contended l i r φ m) (free : (m.lock l).holder = none) (turn : Turn) :
    (m.turn env turn).lock l = m.lock l ∨ ((m.turn env turn).lock l).holder ≠ none := by
  cases turn with
  | wake u =>
    rw [h.going.turn_wake]
    exact .inl (Machine.AgreesOn.wake l m u).lock
  | step u =>
    rw [h.going.turn_step]
    by_cases status : (m.thread u).status = .awake
    swap
    · obtain ⟨th, -, stepped⟩ := Machine.step_of_ne_awake env status
      rw [stepped]
      exact .inl rfl
    cases does : (m.thread u).program with
    | pure result =>
      simp only [Machine.step, status, does]
      exact .inl rfl
    | ask a next =>
      rw [Machine.step_of_ask status does, Machine.lock_settleAttempt]
      have keeps := (h.fits u).keeps
      rw [does] at keeps
      rcases keeps.1.cases with ⟨v, -, rfl⟩ | ⟨-, apart | rfl | ⟨within, -⟩⟩
      · exact .inl (Machine.AgreesOn.wake l m v).lock
      · exact .inl (Machine.AgreesOn.attempt apart).lock
      · right
        simp only [Machine.attempt, SleepLock.tryLock, free, Machine.Attempt.machine,
          Machine.lock_setLock_of_lt h.lock]
        simp
      · -- Only the holder does anything else with the lock, and there is none.
        exact absurd within (h.tells.ne_inside free u)

/-- A thread that is awake gets the free lock that it wants. -/
theorem holder_turn (h : Contended l i r φ m) (free : (m.lock l).holder = none)
    (awake : (m.thread t).status = .awake) (aim : (m.thread t).aim = some (.lock l)) :
    ((m.turn env (.step t)).lock l).holder = some t := by
  cases does : (m.thread t).program with
  | pure result =>
    rw [Thread.aim, does] at aim
    cases aim
  | ask a next =>
    rw [Sound.aim_eq does] at aim
    obtain rfl := Option.some.inj aim
    rw [h.going.turn_step, Machine.step_of_ask awake does, Machine.lock_settleAttempt]
    simp only [Machine.attempt, SleepLock.tryLock, free, Machine.Attempt.machine,
      Machine.lock_setLock_of_lt h.lock]

/-- The thread that has to wake the front of the queue is about to do so. -/
theorem aim_of_leaving (h : Contended l i r φ m) (leaving : φ u = .leaving t) :
    (m.thread u).status = .awake ∧ (m.thread u).aim = some (.unblock t) := by
  have fits := h.fits u
  refine ⟨fits.awake t leaving, ?_⟩
  have keeps := fits.keeps
  rw [leaving] at keeps
  cases does : (m.thread u).program with
  | pure result =>
    rw [does] at keeps
    exact absurd rfl (keeps t)
  | ask a next =>
    rw [does] at keeps
    rw [Sound.aim_eq does, show a = .unblock t from keeps.1]

end Contended

end Userland

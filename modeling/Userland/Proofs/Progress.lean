import Mathlib.Logic.Relation
import Userland.Proofs.Runs

/-!
# Threads do not wait in vain

A thread that cannot go on waits for another: the one that holds the lock, the one at the front of the
queue, the child that is to tell something, or the one that is about to wake it (`Sound.WaitsFor`). The
one that holds the lock, or is about to wake another, does not wait itself, and children are younger than
their parents; so behind every thread that waits there is one that can go on (`Sound.exists_runnable`).
-/

namespace Userland

/-- A thread that can go on, and not only to sleep. -/
def Thread.Runnable (th : Thread) : Prop := th.status = .awake ∨ th.Stirs

theorem Thread.Runnable.canStep {th : Thread} (runnable : th.Runnable) : th.canStep = true := by
  rcases runnable with awake | ⟨parking, -⟩
  · simp [Thread.canStep, awake]
  · simp [Thread.canStep, parking]

/-- A thread has ended, can go on, or rests. -/
theorem Thread.runnable_or_rests (th : Thread) (left : th.status ≠ .ended) :
    th.Runnable ∨ th.Rests := by
  cases status : th.status with
  | awake => exact .inl (.inl status)
  | parking => exact .inr (.inl status)
  | asleep => exact .inr (.inr status)
  | ended => exact absurd status left

namespace Sound

variable {m : Machine} {γ : Tid → Duties} {t u : Tid} {c : ChannelId}

/-- A thread may have to wait for another. -/
inductive WaitsFor (m : Machine) (γ : Tid → Duties) (t u : Tid) : Prop where
  /-- The other holds the lock. -/
  | holder : t ∈ (m.lock Kernel.volumeLock).waiters → (γ u).locked = true → WaitsFor m γ t u
  /-- The other is first in the queue. -/
  | front : t ∈ (m.lock Kernel.volumeLock).waiters →
    (m.lock Kernel.volumeLock).waiters.head? = some u → WaitsFor m γ t u
  /-- The other is to settle the channel. -/
  | sender (c : ChannelId) : (m.thread t).aim = some (.receive c) →
    c ∈ (m.standing γ u).senders → WaitsFor m γ t u
  /-- The other is about to wake it. -/
  | waker : (γ u).wakes = some t → WaitsFor m γ t u

/-- A thread with something to see to has not ended. -/
theorem left_of_not_free (h : Sound m γ) (busy : ¬(γ t).Free) : (m.thread t).status ≠ .ended :=
  fun ended => busy (h.done_of_ended ended).free

/-- A thread that rests holds no lock and wakes nobody. -/
theorem idle_of_rests (h : Sound m γ) (rests : (m.thread t).Rests) :
    (γ t).locked = false ∧ (γ t).wakes = none ∧ (γ t).registry = none := by
  have waits {a : Action} (aim : (m.thread t).aim = some a) : Allowed a (m.standing γ t) := by
    cases does : (m.thread t).program with
    | pure result => simp [Thread.aim, does] at aim
    | ask b next =>
      obtain rfl : b = a := by simpa [Thread.aim, does] using aim
      exact (h.allowed does).1
  rcases h.sleepers.rests t rests with queued | ⟨c, awaits⟩
  · obtain ⟨free, unlocked, -, outside⟩ := waits (h.sleepers.queues t queued).2
    exact ⟨unlocked, free, outside⟩
  · obtain ⟨free, unlocked, -, -, outside⟩ := waits awaits.receives
    exact ⟨unlocked, free, outside⟩

theorem runnable_of_locked (h : Sound m γ) (locked : (γ t).locked = true) :
    (m.thread t).Runnable := by
  refine ((m.thread t).runnable_or_rests (h.left_of_not_free fun free => ?_)).resolve_right
    fun rests => ?_
  · exact nomatch locked.symm.trans free.locked
  · exact nomatch locked.symm.trans (h.idle_of_rests rests).1

theorem runnable_of_wakes (h : Sound m γ) (due : (γ t).wakes = some u) :
    (m.thread t).Runnable := by
  refine ((m.thread t).runnable_or_rests (h.left_of_not_free fun free => ?_)).resolve_right
    fun rests => ?_
  · exact nomatch due.symm.trans free.wakes
  · exact nomatch due.symm.trans (h.idle_of_rests rests).2.1

/-- In the queue one waits for a thread that can go on, or for the first, which is about to be woken. -/
theorem runnable_of_queued (h : Sound m γ) (queued : t ∈ (m.lock Kernel.volumeLock).waiters) :
    ∃ u, Relation.ReflTransGen (WaitsFor m γ) t u ∧ (m.thread u).Runnable := by
  cases holder : (m.lock Kernel.volumeLock).holder with
  | some u =>
    have locked := (h.sleepers.holder u).1 holder
    exact ⟨u, .single (.holder queued locked), h.runnable_of_locked locked⟩
  | none =>
    cases front : (m.lock Kernel.volumeLock).waiters.head? with
    | none =>
      rw [List.head?_eq_none_iff.1 front] at queued
      cases queued
    | some u =>
      rcases h.sleepers.front holder u front with awake | stirs | ⟨v, due⟩
      · exact ⟨u, .single (.front queued front), .inl awake⟩
      · exact ⟨u, .single (.front queued front), .inr stirs⟩
      · exact ⟨v, .tail (.single (.front queued front)) (.waker due), h.runnable_of_wakes due⟩

/-- Who is to settle a channel from which another thread receives is a child of that thread, and has
    not ended. -/
theorem sender_of_receives (h : Sound m γ) (receives : (m.thread t).aim = some (.receive c))
    {x : Channel} (found : m.channel? c = some x) (empty : x.state = .empty) :
    ∃ u, t < u ∧ c ∈ (m.standing γ u).senders ∧ (m.thread u).status ≠ .ended := by
  obtain ⟨made, awaited⟩ : (γ t).made = [] ∧ c ∈ (γ t).awaited := by
    cases does : (m.thread t).program with
    | pure result => simp [Thread.aim, does] at receives
    | ask a next =>
      obtain rfl : a = .receive c := by simpa [Thread.aim, does] using receives
      obtain ⟨-, -, made, awaited, -⟩ : (γ t).wakes = none ∧ (γ t).locked = false ∧
        (γ t).made = [] ∧ c ∈ (γ t).awaited ∧ (γ t).registry = none := (h.allowed does).1
      exact ⟨made, awaited⟩
  have received : c ∈ (m.standing γ t).receivers := List.mem_append_left _ awaited
  obtain ⟨y, found', live⟩ := h.channels.of_receivers received
  obtain rfl := Option.some.inj (found'.symm.trans found)
  obtain ⟨u, mine | mem⟩ := h.channels.pending c y found live empty
  · -- The channel would be of the thread's own making, but it has made none.
    obtain rfl := h.channels.receivers.apart t u c received (h.channels.receivers_of_made mine)
    rw [Machine.standing, made] at mine
    cases mine
  · have source := (h.channels.consistent u).senders c mem
    obtain ⟨e, born⟩ := h.channels.kin t u c source received
    refine ⟨u, (h.channels.born t u e born).1, mem, fun ended => ?_⟩
    have done := h.done_of_ended ended
    have nothing : (m.standing γ u).senders = [] := by
      rw [Standing.senders, done.free.given, Belongings.exits, done.process]
      rfl
    rw [nothing] at mem
    cases mem

/-- Behind every thread that has not ended there is one that can go on. -/
theorem exists_runnable (h : Sound m γ) (left : (m.thread t).status ≠ .ended) :
    ∃ u, Relation.ReflTransGen (WaitsFor m γ) t u ∧ (m.thread u).Runnable := by
  -- A chain that starts with the wait for a child goes on among younger threads, of which there are few.
  induction rank : m.threads.size - t using Nat.strongRecOn generalizing t with
  | ind n ih =>
  rcases (m.thread t).runnable_or_rests left with runnable | rests
  · exact ⟨t, .refl, runnable⟩
  rcases h.sleepers.rests t rests with queued | ⟨c, receives, stirs | ⟨u, due, -⟩ | ⟨x, found, empty, -⟩⟩
  · exact h.runnable_of_queued queued
  · exact ⟨t, .refl, .inr stirs⟩
  · exact ⟨u, .single (.waker due), h.runnable_of_wakes due⟩
  · obtain ⟨u, younger, mem, left'⟩ := h.sender_of_receives receives found empty
    have fewer : m.threads.size - u < n :=
      rank ▸ Nat.sub_lt_sub_left (m.lt_size_of_status left) younger
    obtain ⟨v, chain, runnable⟩ := ih _ fewer left' rfl
    exact ⟨v, .head (.sender c receives mem) chain, runnable⟩

end Sound

namespace Scenario

variable {x : Scenario} {m : Machine} {t : Tid}

/-- What a run comes to is in order. -/
theorem Reachable.sound (reachable : x.Reachable m) : ∃ γ, Sound m γ := by
  obtain ⟨turns, i, rfl⟩ := reachable_iff.1 reachable
  exact ⟨_, x.sound turns i⟩

/-- There is no deadlock: as long as some thread has not ended, some thread can go on. -/
theorem runnable_of_left (reachable : x.Reachable m) (left : (m.thread t).status ≠ .ended) :
    ∃ u, (m.thread u).Runnable :=
  have ⟨_, sound⟩ := reachable.sound
  have ⟨u, _, runnable⟩ := sound.exists_runnable left
  ⟨u, runnable⟩

/-- The first thread sleeps while its child is to load a program. -/
theorem runnable_of_left_asleep : ∃ m, (blank "program").Reachable m ∧
    (m.thread 1).status = .asleep ∧ ∃ u, (m.thread u).Runnable := by
  let m := (blank "program").machineAt (fun _ => .step 1) 8
  have asleep : (m.thread 1).status = .asleep := by decide +kernel
  have reachable : (blank "program").Reachable m := reachable_iff.2 ⟨_, _, rfl⟩
  exact ⟨m, reachable, asleep, runnable_of_left reachable (t := 1) (by rw [asleep]; nofun)⟩

end Scenario

end Userland

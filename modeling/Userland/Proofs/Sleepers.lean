import Mathlib.Logic.Function.Basic
import Userland.Proofs.Channels

/-!
# Why threads sleep

A thread sleeps for one of two reasons: it is in the queue of the lock, or it waits for a channel to be
settled. In both cases somebody sees to it that it is woken in time. A thread that waits for a channel
has left its name there, until the channel is settled and the thread that did that wakes it. When the
lock is free the thread at the front of the queue is awake, or will be woken (`Sleepers`).
-/

namespace Userland

/-- What a thread is about to do. -/
def Thread.aim (th : Thread) : Option Action :=
  match th.program with
  | Program.ask a _ => some a
  | Program.pure _ => none

/-- A wakeup is kept for a thread that is about to sleep. -/
def Thread.Stirs (th : Thread) : Prop := th.status = .parking ∧ th.wakeup = true

/-- A thread that has not ended and is not awake. -/
def Thread.Rests (th : Thread) : Prop := th.status = .parking ∨ th.status = .asleep

theorem Thread.Rests.ne_awake {th : Thread} (rests : th.Rests) : th.status ≠ .awake := by
  rcases rests with parking | asleep
  · simp [parking]
  · simp [asleep]

theorem Thread.Rests.ne_ended {th : Thread} (rests : th.Rests) : th.status ≠ .ended := by
  rcases rests with parking | asleep
  · simp [parking]
  · simp [asleep]

/-- A thread waits for a channel, and somebody sees to it that it is woken. -/
structure Awaits (th : Tid → Thread) (ch : ChannelMap) (γ : Tid → Duties) (t : Tid)
    (c : ChannelId) : Prop where
  /-- It is about to receive. -/
  receives : (th t).aim = some (.receive c)
  /-- A wakeup is kept, or the thread that has settled the channel wakes it, or its name is left
      there. -/
  woken : (th t).Stirs ∨ (∃ u, (γ u).wakes = some t ∧ c ∈ (γ u).sources) ∨
    ∃ x, ch c = some x ∧ x.state = .empty ∧ x.waiter = some t

/-- What a thread that stays as it is waits for, when another thread has changed. -/
theorem Awaits.of_other {th : Tid → Thread} {ch : ChannelMap} {γ : Tid → Duties} {t u : Tid}
    {c : ChannelId} {th' : Thread} (h : Awaits th ch γ u c) (other : u ≠ t) :
    Awaits (Function.update th t th') ch γ u c := by
  have same : Function.update th t th' u = th u := Function.update_of_ne other ..
  exact ⟨same ▸ h.receives, same ▸ h.woken⟩

/-- A thread that has nobody to wake is not the one that somebody is woken by. -/
theorem Duties.update_of_wakes {γ : Tid → Duties} {t u v : Tid} (free : (γ t).wakes = none)
    (due : (γ u).wakes = some v) (g : Duties) : Function.update γ t g u = γ u := by
  refine Function.update_of_ne (fun same => ?_) ..
  rw [same, free] at due
  cases due

/-- Nor is it the one that sees to a thread that waits. -/
theorem Awaits.of_wakes {th : Tid → Thread} {ch : ChannelMap} {γ : Tid → Duties} {t u : Tid}
    {c : ChannelId} (h : Awaits th ch γ u c) (free : (γ t).wakes = none) (g : Duties) :
    Awaits th ch (Function.update γ t g) u c where
  receives := h.receives
  woken := by
    refine h.woken.imp_right (Or.imp_left fun ⟨v, due, source⟩ => ⟨v, ?_⟩)
    rw [Duties.update_of_wakes free due]
    exact ⟨due, source⟩

/-- Threads that rest have a reason, and somebody sees to it that they are woken. -/
structure Sleepers (th : Tid → Thread) (ch : ChannelMap) (l : SleepLock Tid) (γ : Tid → Duties) :
    Prop where
  /-- A thread rests in the queue or at a channel. -/
  rests : ∀ t, (th t).Rests → t ∈ l.waiters ∨ ∃ c, Awaits th ch γ t c
  /-- Threads in the queue want the lock. -/
  queues : ∀ t ∈ l.waiters, (th t).status ≠ .ended ∧ (th t).aim = some (.lock Kernel.volumeLock)
  /-- If the lock is free the front of the queue is awake or will be woken. -/
  front : l.holder = none → ∀ t, l.waiters.head? = some t →
    (th t).status = .awake ∨ (th t).Stirs ∨ ∃ u, (γ u).wakes = some t
  /-- A thread knows whether it holds the lock. -/
  holder : ∀ t, l.holder = some t ↔ (γ t).locked = true

namespace Sleepers

variable {th : Tid → Thread} {ch ch' : ChannelMap} {l : SleepLock Tid} {γ : Tid → Duties}
  {t u : Tid} {c : ChannelId} {x x' : Channel} {th' : Thread} {g : Duties}

/-- A thread that is about to do something else is not in the queue. -/
theorem notMem_waiters (h : Sleepers th ch l γ)
    (busy : (th t).aim ≠ some (.lock Kernel.volumeLock)) : t ∉ l.waiters := fun mem =>
  busy (h.queues t mem).2

theorem notMem_waiters_of_ended (h : Sleepers th ch l γ) (ended : (th t).status = .ended) :
    t ∉ l.waiters := fun mem => (h.queues t mem).1 ended

/-- A thread that is not in the queue goes on or ends. What it does to channels on which others wait
    is to settle them, and then it wakes who waits. -/
theorem go (h : Sleepers th ch l γ) (out : t ∉ l.waiters)
    (status : th'.status = .awake ∨ th'.status = .ended) (free : (γ t).wakes = none)
    (locked : g.locked = (γ t).locked)
    (channels : ∀ u c x, u ≠ t → (th u).aim = some (.receive c) →
      ch c = some x → x.state = .empty → x.waiter = some u →
      (∃ x', ch' c = some x' ∧ x'.state = .empty ∧ x'.waiter = some u) ∨
        g.wakes = some u ∧ c ∈ g.sources) :
    Sleepers (Function.update th t th') ch' l (Function.update γ t g) := by
  have others {u : Tid} (other : u ≠ t) : Function.update th t th' u = th u :=
    Function.update_of_ne other ..
  have waker {u v : Tid} (due : (γ u).wakes = some v) : Function.update γ t g u = γ u :=
    Duties.update_of_wakes free due g
  have inQueue {u : Tid} (mem : u ∈ l.waiters) : u ≠ t := fun same => out (same ▸ mem)
  refine ⟨fun u rests => ?_, fun u mem => ?_, fun noHolder u front => ?_, fun u => ?_⟩
  · by_cases same : u = t
    · rw [same, Function.update_self] at rests
      rcases status with awake | ended
      · exact absurd awake rests.ne_awake
      · exact absurd ended rests.ne_ended
    · rw [others same] at rests
      refine (h.rests u rests).imp_right fun ⟨c, receives, woken⟩ => ⟨c, ?_, ?_⟩
      · rwa [others same]
      · rw [others same]
        -- Only a name that is left at a channel is affected by what becomes of channels.
        rcases woken with stirs | ⟨v, due, source⟩ | ⟨x, found, empty, waiter⟩
        · exact .inl stirs
        · exact .inr (.inl ⟨v, by rwa [waker due], by rwa [waker due]⟩)
        · rcases channels u c x same receives found empty waiter with kept | due
          · exact .inr (.inr kept)
          · exact .inr (.inl ⟨t, by rwa [Function.update_self]⟩)
  · rw [others (inQueue mem)]
    exact h.queues u mem
  · rw [others (inQueue (List.mem_of_mem_head? front))]
    refine (h.front noHolder u front).imp_right (Or.imp_right fun ⟨v, due⟩ => ⟨v, ?_⟩)
    rwa [waker due]
  · by_cases same : u = t
    · rw [same, Function.update_self, locked]
      exact h.holder t
    · rw [Function.update_of_ne same]
      exact h.holder u

/-- A thread that is woken goes on, or does not go to sleep. -/
theorem rouse (h : Sleepers th ch l γ) (same : th'.program = (th t).program)
    (up : th'.status = .awake ∨ th'.Stirs ∧ (th t).status = .parking) :
    Sleepers (Function.update th t th') ch l γ := by
  have aim : th'.aim = (th t).aim := by rw [Thread.aim, Thread.aim, same]
  have self : Function.update th t th' t = th' := Function.update_self ..
  have others {u : Tid} (other : u ≠ t) : Function.update th t th' u = th u :=
    Function.update_of_ne other ..
  refine ⟨fun u rests => ?_, fun u mem => ?_, fun noHolder u front => ?_, h.holder⟩
  · by_cases at' : u = t
    · subst at'
      rw [self] at rests
      rcases up with awake | ⟨stirs, parking⟩
      · exact absurd awake rests.ne_awake
      · refine (h.rests u (.inl parking)).imp_right fun ⟨c, awaits⟩ => ⟨c, ?_, ?_⟩
        · rw [self, aim]
          exact awaits.receives
        · rw [self]
          exact .inl stirs
    · rw [others at'] at rests
      exact (h.rests u rests).imp_right fun ⟨c, awaits⟩ => ⟨c, awaits.of_other at'⟩
  · by_cases at' : u = t
    · subst at'
      rw [self, aim]
      refine ⟨fun ended => ?_, (h.queues u mem).2⟩
      rcases up with awake | ⟨⟨parking, -⟩, -⟩ <;> simp_all
    · rw [others at']
      exact h.queues u mem
  · by_cases at' : u = t
    · subst at'
      rw [self]
      exact up.imp_right fun ⟨stirs, _⟩ => .inl stirs
    · rw [others at']
      exact h.front noHolder u front

/-- A thread for which no wakeup is kept may go to sleep. -/
theorem sleep (h : Sleepers th ch l γ) (parking : (th t).status = .parking)
    (noWakeup : (th t).wakeup = false) :
    Sleepers (Function.update th t { th t with status := .asleep }) ch l γ := by
  have self : Function.update th t { th t with status := .asleep } t =
      { th t with status := .asleep } := Function.update_self ..
  have others {u : Tid} (other : u ≠ t) :
      Function.update th t { th t with status := .asleep } u = th u := Function.update_of_ne other ..
  -- If no wakeup is kept, the other reasons why the thread will be woken hold when it sleeps, too.
  have still : ¬(th t).Stirs := fun stirs => by simp [stirs.2] at noWakeup
  refine ⟨fun u rests => ?_, fun u mem => ?_, fun noHolder u front => ?_, h.holder⟩
  · by_cases at' : u = t
    · subst at'
      refine (h.rests u (.inl parking)).imp_right fun ⟨c, awaits⟩ => ⟨c, ?_, ?_⟩
      · rw [self]
        exact awaits.receives
      · exact .inr (awaits.woken.resolve_left still)
    · rw [others at'] at rests
      exact (h.rests u rests).imp_right fun ⟨c, awaits⟩ => ⟨c, awaits.of_other at'⟩
  · by_cases at' : u = t
    · subst at'
      rw [self]
      exact ⟨nofun, (h.queues u mem).2⟩
    · rw [others at']
      exact h.queues u mem
  · by_cases at' : u = t
    · subst at'
      refine .inr (.inr ?_)
      rcases h.front noHolder u front with awake | stirs | due
      · exact nomatch awake.symm.trans parking
      · exact absurd stirs still
      · exact due
    · rw [others at']
      exact h.front noHolder u front

/-- A wakeup that has come is due no more. -/
theorem woke (h : Sleepers th ch l γ) (due : (γ t).wakes = some u)
    (up : (th u).status = .awake ∨ (th u).Stirs ∨ (th u).status = .ended)
    (same : g = { (γ t) with wakes := none }) : Sleepers th ch l (Function.update γ t g) := by
  -- Threads other than `u` are woken by threads other than `t`.
  have waker {v w : Tid} (dueW : (γ v).wakes = some w) (other : w ≠ u) :
      Function.update γ t g v = γ v := by
    refine Function.update_of_ne (fun same => ?_) ..
    rw [same, due] at dueW
    exact other (Option.some.inj dueW).symm
  refine ⟨fun v rests => ?_, h.queues, fun noHolder v front => ?_, fun v => ?_⟩
  · refine (h.rests v rests).imp_right fun ⟨c, awaits⟩ => ⟨c, awaits.receives, ?_⟩
    by_cases at' : v = u
    · subst at'
      rcases up with awake | stirs | ended
      · exact absurd awake rests.ne_awake
      · exact .inl stirs
      · exact absurd ended rests.ne_ended
    · refine awaits.woken.imp_right (Or.imp_left fun ⟨w, dueW, source⟩ => ⟨w, ?_⟩)
      rw [waker dueW at']
      exact ⟨dueW, source⟩
  · by_cases at' : v = u
    · subst at'
      rcases up with awake | stirs | ended
      · exact .inl awake
      · exact .inr (.inl stirs)
      · exact absurd ended (h.queues v (List.mem_of_mem_head? front)).1
    · refine (h.front noHolder v front).imp_right (Or.imp_right fun ⟨w, dueW⟩ => ⟨w, ?_⟩)
      rwa [waker dueW at']
  · by_cases at' : v = t
    · rw [at', Function.update_self, same]
      exact h.holder t
    · rw [Function.update_of_ne at']
      exact h.holder v

/-- A thread that finds a channel not settled leaves its name there and is about to sleep. Nobody else
    receives from the channel. -/
theorem park (h : Sleepers th ch l γ) (receives : (th t).aim = some (.receive c))
    (empty : x.state = .empty) (alone : ∀ u, u ≠ t → (th u).aim ≠ some (.receive c)) :
    Sleepers (Function.update th t { th t with status := .parking })
      (Function.update ch c (some { x with waiter := some t })) l γ := by
  have out : t ∉ l.waiters := h.notMem_waiters (by simp [receives])
  have inQueue {u : Tid} (mem : u ∈ l.waiters) : u ≠ t := fun same => out (same ▸ mem)
  have others {u : Tid} (other : u ≠ t) :
      Function.update th t { th t with status := .parking } u = th u := Function.update_of_ne other ..
  refine ⟨fun u rests => ?_, fun u mem => ?_, fun noHolder u front => ?_, h.holder⟩
  · by_cases at' : u = t
    · subst at'
      refine .inr ⟨c, ?_, .inr (.inr ⟨_, Function.update_self .., empty, rfl⟩)⟩
      rw [Function.update_self]
      exact receives
    · rw [others at'] at rests
      refine (h.rests u rests).imp_right fun ⟨b, awaits⟩ => ⟨b, ?_, ?_⟩
      · rw [others at']
        exact awaits.receives
      · rw [others at']
        have other : b ≠ c := fun same => alone u at' (same ▸ awaits.receives)
        rw [Function.update_of_ne other]
        exact awaits.woken
  · rw [others (inQueue mem)]
    exact h.queues u mem
  · rw [others (inQueue (List.mem_of_mem_head? front))]
    exact h.front noHolder u front

/-- A thread that finds the lock held queues up and is about to sleep. -/
theorem queue (h : Sleepers th ch l γ) (wants : (th t).aim = some (.lock Kernel.volumeLock))
    {holder : Tid} (held : l.holder = some holder) {waiters : List Tid}
    (more : ∀ u, u ∈ waiters ↔ u ∈ l.waiters ∨ u = t) :
    Sleepers (Function.update th t { th t with status := .parking }) ch
      { l with waiters := waiters } γ := by
  have others {u : Tid} (other : u ≠ t) :
      Function.update th t { th t with status := .parking } u = th u := Function.update_of_ne other ..
  refine ⟨fun u rests => ?_, fun u mem => ?_, fun noHolder => ?_, h.holder⟩
  · by_cases at' : u = t
    · exact .inl ((more u).2 (.inr at'))
    · rw [others at'] at rests
      exact (h.rests u rests).imp (fun mem => (more u).2 (.inl mem))
        fun ⟨c, awaits⟩ => ⟨c, awaits.of_other at'⟩
  · by_cases at' : u = t
    · subst at'
      rw [Function.update_self]
      exact ⟨nofun, wants⟩
    · rw [others at']
      exact h.queues u (((more u).1 mem).resolve_right at')
  · exact nomatch noHolder.symm.trans held

/-- A thread that finds the lock free has it, and leaves the queue. -/
theorem take (h : Sleepers th ch l γ) (noHolder : l.holder = none) (awake : th'.status = .awake)
    (wasAwake : (th t).status = .awake) (free : (γ t).wakes = none)
    (same : g = { γ t with locked := true }) :
    Sleepers (Function.update th t th') ch ⟨some t, l.waiters.filter (· ≠ t)⟩
      (Function.update γ t g) := by
  have others {u : Tid} (other : u ≠ t) : Function.update th t th' u = th u :=
    Function.update_of_ne other ..
  refine ⟨fun u rests => ?_, fun u mem => ?_, nofun, fun u => ?_⟩
  · by_cases at' : u = t
    · subst at'
      rw [Function.update_self] at rests
      exact absurd awake rests.ne_awake
    · rw [others at'] at rests
      exact (h.rests u rests).imp (fun mem => List.mem_filter.2 ⟨mem, by simpa using at'⟩)
        fun ⟨c, awaits⟩ => ⟨c, (awaits.of_other at').of_wakes free g⟩
  · obtain ⟨mem, other⟩ := List.mem_filter.1 mem
    rw [others (by simpa using other)]
    exact h.queues u mem
  · by_cases at' : u = t
    · rw [at', Function.update_self, same]
      simp
    · rw [Function.update_of_ne at', ← h.holder, noHolder]
      simp [Ne.symm at']

/-- A thread that frees the lock wakes the front of the queue. -/
theorem release (h : Sleepers th ch l γ) (out : t ∉ l.waiters) (awake : th'.status = .awake)
    (held : (γ t).locked = true) (free : (γ t).wakes = none)
    (same : g = { γ t with locked := false, wakes := l.waiters.head? }) :
    Sleepers (Function.update th t th') ch { l with holder := none } (Function.update γ t g) := by
  have others {u : Tid} (other : u ≠ t) : Function.update th t th' u = th u :=
    Function.update_of_ne other ..
  have inQueue {u : Tid} (mem : u ∈ l.waiters) : u ≠ t := fun same => out (same ▸ mem)
  have holder := (h.holder t).2 held
  refine ⟨fun u rests => ?_, fun u mem => ?_, fun _ u front => ?_, fun u => ?_⟩
  · by_cases at' : u = t
    · subst at'
      rw [Function.update_self] at rests
      exact absurd awake rests.ne_awake
    · rw [others at'] at rests
      exact (h.rests u rests).imp_right fun ⟨c, awaits⟩ => ⟨c, (awaits.of_other at').of_wakes free g⟩
  · rw [others (inQueue mem)]
    exact h.queues u mem
  · exact .inr (.inr ⟨t, by rw [Function.update_self, same]; exact front⟩)
  · by_cases at' : u = t
    · rw [at', Function.update_self, same]
      simp
    · rw [Function.update_of_ne at', ← h.holder, holder]
      simp [Ne.symm at']

end Sleepers

end Userland

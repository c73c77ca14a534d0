import Userland.Proofs.Sleepers
import Userland.Proofs.Volumes

/-!
# A machine in order

In a machine that is in order every thread keeps to the rules, each frame and each handle is one
thread's, channels have their ends, and threads that sleep will be woken (`Sound`). When one thread does
something and the parts that it touches stay in order, so does the machine (`Sound.change`).
-/

namespace Userland

/-- What becomes of a thread that is woken. -/
def Thread.woken (th : Thread) : Thread :=
  match th.status with
  | .asleep => { th with status := .awake }
  | .ended => th
  | .awake | .parking => { th with wakeup := true }

@[simp] theorem Thread.program_woken (th : Thread) : th.woken.program = th.program := by
  unfold woken
  split <;> rfl

@[simp] theorem Thread.own_woken (th : Thread) : th.woken.own = th.own := by
  unfold woken
  split <;> rfl

theorem Thread.woken_up (th : Thread) :
    th.woken.status = .awake ∨ th.woken.Stirs ∧ th.status = .parking ∨
      th.woken.status = .ended ∧ th.woken = th := by
  cases status : th.status <;> simp [woken, Stirs, status]

/-- What a step makes of a thread that is not awake. -/
inductive Thread.Dozes (th : Thread) : Thread → Prop
  /-- It sleeps on, or has ended. -/
  | stay : th.Dozes th
  /-- It finds a wakeup, and does not sleep. -/
  | stir : th.status = .parking → th.wakeup = true →
    th.Dozes { th with status := .awake, wakeup := false }
  /-- It falls asleep. -/
  | sleep : th.status = .parking → th.wakeup = false → th.Dozes { th with status := .asleep }

namespace Machine

variable {m : Machine} {t u : Tid} {c : ChannelId} {x x' : Channel}

/-- The channels by their numbers. -/
def channel? (m : Machine) : ChannelMap := fun c => m.channels[c.index]?

/-- How each thread stands. -/
def standing (m : Machine) (γ : Tid → Duties) (t : Tid) : Standing := ⟨(m.thread t).own, γ t⟩

/-- The locks on registries that are held are those that threads know that they hold. -/
def Registered (m : Machine) (γ : Tid → Duties) : Prop :=
  ∀ t family, (t, family) ∈ m.registries ↔ (γ t).registry = some family

/-! ## What changes change -/

theorem thread_setThread (inside : t < m.threads.size) (th : Thread) :
    (m.setThread t th).thread = Function.update m.thread t th := by
  funext u
  simp only [thread, setThread, Array.getD_eq_getD_getElem?, Array.getElem?_setIfInBounds]
  by_cases same : u = t
  · rw [same, Function.update_self, if_pos rfl, if_pos inside, Option.getD_some]
  · rw [Function.update_of_ne same, if_neg (Ne.symm same)]
    simp [thread]

theorem thread_setThread_of_ne (other : u ≠ t) (th : Thread) :
    (m.setThread t th).thread u = m.thread u := by
  simp [thread, setThread, Array.getD_eq_getD_getElem?, Ne.symm other]

@[simp] theorem size_setThread (m : Machine) (t : Tid) (th : Thread) :
    (m.setThread t th).threads.size = m.threads.size := by
  simp [setThread]

theorem setThread_thread (m : Machine) (t : Tid) : m.setThread t (m.thread t) = m := by
  have same : m.threads.setIfInBounds t (m.thread t) = m.threads := by
    refine Array.ext_getElem? fun i => ?_
    rw [Array.getElem?_setIfInBounds]
    split
    · rename_i here
      subst here
      split
      · rename_i inside
        simp [thread, inside]
      · rename_i outside
        rw [Array.getElem?_eq_none (Nat.not_lt.1 outside)]
    · rfl
  rw [setThread, same]

theorem thread_of_size_le (outside : m.threads.size ≤ t) : m.thread t = Thread.absent := by
  simp [thread, Array.getD_eq_getD_getElem?, Array.getElem?_eq_none outside]

/-- A thread that can make a step was made. -/
theorem lt_size_of_status (there : (m.thread t).status ≠ .ended) : t < m.threads.size := by
  by_contra outside
  rw [thread_of_size_le (Nat.le_of_not_lt outside)] at there
  exact there rfl

/-- A thread that is not awake attempts nothing. -/
theorem step_of_ne_awake (env : Environment) (idle : (m.thread t).status ≠ .awake) :
    ∃ th, (m.thread t).Dozes th ∧ m.step env t = (m.setThread t th, []) := by
  cases status : (m.thread t).status with
  | awake => exact absurd status idle
  | asleep | ended =>
    refine ⟨_, .stay, ?_⟩
    rw [setThread_thread]
    simp only [step, status]
  | parking =>
    by_cases kept : (m.thread t).wakeup = true
    · exact ⟨_, .stir status kept, by simp only [step, status, if_pos kept]⟩
    · exact ⟨_, .sleep status (Bool.eq_false_iff.2 kept), by simp only [step, status, if_neg kept]⟩

theorem thread_addThread (program : ThreadProgram Unit) : (m.addThread program).2.thread =
    Function.update m.thread m.threads.size (Thread.ready m.threads.size program) := by
  funext u
  simp only [thread, addThread, Array.getD_eq_getD_getElem?, Array.getElem?_push]
  by_cases same : u = m.threads.size
  · rw [same, Function.update_self, if_pos rfl, Option.getD_some]
  · rw [Function.update_of_ne same, if_neg same]
    simp [thread]

theorem thread_wake (m : Machine) (t : Tid) :
    (m.wake t).1.thread = Function.update m.thread t (m.thread t).woken := by
  cases status : (m.thread t).status with
  | ended => simp only [wake, Thread.woken, status, Function.update_eq_self]
  | asleep | awake | parking =>
    have inside := m.lt_size_of_status (t := t) (by simp [status])
    simp only [wake, Thread.woken, status]
    exact thread_setThread inside _

/-- Waking a thread changes nothing but the thread. -/
theorem wake_frame (m : Machine) (t : Tid) : (m.wake t).1.threads.size = m.threads.size ∧
    (m.wake t).1.devices = m.devices ∧ (m.wake t).1.channels = m.channels ∧
    (m.wake t).1.locks = m.locks ∧ (m.wake t).1.registries = m.registries := by
  cases status : (m.thread t).status <;> simp [wake, status, setThread]

theorem channel_eq (found : m.channel? c = some x) : m.channel c = x := by
  simp only [channel?] at found
  simp [channel, Array.getD_eq_getD_getElem?, found]

theorem channel?_setChannel (found : m.channel? c = some x) :
    (m.setChannel c x').channel? = Function.update m.channel? c (some x') := by
  funext b
  simp only [channel?] at found
  obtain ⟨inside, -⟩ := Array.getElem?_eq_some_iff.1 found
  simp only [channel?, setChannel, Array.getElem?_setIfInBounds]
  by_cases same : b = c
  · rw [same, Function.update_self, if_pos rfl, if_pos inside]
  · have other : c.index ≠ b.index := fun same' => same (by cases b; cases c; simp_all)
    rw [Function.update_of_ne same, if_neg other]
    simp [channel?]

theorem channel?_addChannel :
    m.addChannel.2.channel? = Function.update m.channel? ⟨m.channels.size⟩ (some .fresh) := by
  funext b
  simp only [channel?, addChannel, Array.getElem?_push]
  by_cases same : b = ⟨m.channels.size⟩
  · rw [same, Function.update_self, if_pos rfl]
  · have other : b.index ≠ m.channels.size := fun same' => same (by cases b; simp_all)
    rw [Function.update_of_ne same, if_neg other]
    simp [channel?]

theorem channel?_size : m.channel? ⟨m.channels.size⟩ = none := by
  simp [channel?]

@[simp] theorem size_setLock (m : Machine) (l : LockId) (x : SleepLock Tid) :
    (m.setLock l x).locks.size = m.locks.size := by
  simp [setLock]

theorem lock_setLock (inside : 0 < m.locks.size) (x : SleepLock Tid) :
    (m.setLock Kernel.volumeLock x).lock Kernel.volumeLock = x := by
  simp [lock, setLock, Kernel.volumeLock, Array.getD_eq_getD_getElem?, inside]

/-! ## Locks on registries -/

namespace Registered

variable {m' : Machine} {γ : Tid → Duties} {g : Duties}

/-- A thread goes on, and holds the locks that it held. -/
theorem update (h : m.Registered γ) (same : m'.registries = m.registries)
    (keeps : g.registry = (γ t).registry) : m'.Registered (Function.update γ t g) := by
  intro u family
  rw [same, h u family]
  by_cases here : u = t
  · rw [here, Function.update_self, keeps]
  · rw [Function.update_of_ne here]

/-- A thread that holds no lock takes one. -/
theorem take {family : Family} (h : m.Registered γ) (outside : (γ t).registry = none)
    (held : m'.registries = (t, family) :: m.registries) (takes : g.registry = some family) :
    m'.Registered (Function.update γ t g) := by
  intro u other
  rw [held, List.mem_cons, h u other]
  by_cases here : u = t
  · simp [here, takes, outside, eq_comm (a := family)]
  · simp [here]

/-- A thread frees the lock that it holds. -/
theorem free {family : Family} (h : m.Registered γ) (inside : (γ t).registry = some family)
    (left : m'.registries = m.registries.filter (· ≠ (t, family))) (gives : g.registry = none) :
    m'.Registered (Function.update γ t g) := by
  intro u other
  rw [left, List.mem_filter, h u other]
  by_cases here : u = t
  · simp [here, gives, inside, eq_comm (a := family)]
  · simp [here]

end Registered

end Machine

/-! ## Order -/

/-- A machine in order, with what each thread has to see to. -/
structure Sound (m : Machine) (γ : Tid → Duties) : Prop where
  /-- Every thread keeps to the rules, and in the end it has nothing. -/
  keeps : ∀ t, (m.thread t).program.wp (fun _ s => s.Done) (m.standing γ t)
  /-- A thread that has ended does nothing more. -/
  ended : ∀ t, (m.thread t).status = .ended → (m.thread t).program = Program.pure ()
  /-- What threads have in hand is in order. -/
  orderly : ∀ t, (m.thread t).own.Orderly
  /-- Each frame is one thread's. -/
  frames : Ledger (fun t => (m.thread t).own.frames) (m.devices.pool.inUse ·)
  /-- Each handle is one thread's. -/
  handles : Ledger (fun t => (m.thread t).own.handles) (m.devices.volume.isOpen ·)
  /-- Frames that are handed out have an address. -/
  addressable : m.devices.pool.Addressable
  /-- The volume counts its handles. -/
  counted : m.devices.volume.Counted
  /-- Channels have their two ends, or are settled. -/
  channels : Channels (m.standing γ) m.channel? m.threads.size
  /-- Threads that sleep will be woken. -/
  sleepers : Sleepers m.thread m.channel? (m.lock Kernel.volumeLock) γ
  /-- Each thread knows which lock on a registry it holds. -/
  registered : m.Registered γ
  /-- The lock exists. -/
  locks : 0 < m.locks.size
  /-- All threads have a number that programs can see. -/
  small : m.threads.size ≤ threadLimit

namespace Sound

variable {m m' : Machine} {γ : Tid → Duties} {t : Tid} {th : Thread} {g : Duties}

theorem standing_update {own : Belongings} (threads : m'.thread = Function.update m.thread t th)
    (same : th.own = own) :
    m'.standing (Function.update γ t g) = Function.update (m.standing γ) t ⟨own, g⟩ := by
  funext u
  rw [Machine.standing, threads]
  by_cases at' : u = t
  · rw [at', Function.update_self, Function.update_self, Function.update_self, same]
  · rw [Function.update_of_ne at', Function.update_of_ne at', Function.update_of_ne at']
    rfl

/-- One thread changes, and all the rest stays in order. -/
theorem change (h : Sound m γ) (th : Thread) (threads : m'.thread = Function.update m.thread t th)
    (size : m'.threads.size = m.threads.size) (locks : m'.locks.size = m.locks.size)
    (registered : m'.Registered (Function.update γ t g))
    (keeps : th.program.wp (fun _ s => s.Done) ⟨th.own, g⟩)
    (ended : th.status = .ended → th.program = Program.pure ()) (orderly : th.own.Orderly)
    (frames : Flow (m.thread t).own.frames th.own.frames (m.devices.pool.inUse ·)
      (m'.devices.pool.inUse ·))
    (handles : Flow (m.thread t).own.handles th.own.handles (m.devices.volume.isOpen ·)
      (m'.devices.volume.isOpen ·))
    (addressable : m'.devices.pool.Addressable) (counted : m'.devices.volume.Counted)
    (channels : Channels (Function.update (m.standing γ) t ⟨th.own, g⟩) m'.channel? m.threads.size)
    (sleepers : Sleepers (Function.update m.thread t th) m'.channel?
      (m'.lock Kernel.volumeLock) (Function.update γ t g)) :
    Sound m' (Function.update γ t g) := by
  have standing : m'.standing (Function.update γ t g) =
      Function.update (m.standing γ) t ⟨th.own, g⟩ := standing_update threads rfl
  have belongings {α : Type} (f : Belongings → List α) :
      (fun u => f (m'.thread u).own) = Function.update (fun u => f (m.thread u).own) t (f th.own) := by
    rw [threads]
    exact Function.comp_update (fun th : Thread => f th.own) m.thread t th
  refine
    { keeps := fun u => ?_
      ended := by
        rw [threads]
        exact (Function.forall_update_iff m.thread fun _ th => th.status = .ended → th.program = Program.pure ()).2
          ⟨ended, fun u _ => h.ended u⟩
      orderly := by
        rw [threads]
        exact (Function.forall_update_iff m.thread fun _ th => th.own.Orderly).2 ⟨orderly, fun u _ => h.orderly u⟩
      frames := ?_
      handles := ?_
      addressable := addressable
      counted := counted
      channels := by rwa [standing, size]
      sleepers := by rwa [threads]
      registered := registered
      locks := by
        rw [locks]
        exact h.locks
      small := by
        rw [size]
        exact h.small }
  · rw [standing, threads]
    by_cases same : u = t
    · rw [same, Function.update_self, Function.update_self]
      exact keeps
    · rw [Function.update_of_ne same, Function.update_of_ne same]
      exact h.keeps u
  · rw [belongings Belongings.frames]
    exact h.frames.flow frames
  · rw [belongings Belongings.handles]
    exact h.handles.flow handles

/-- One thread changes and has what it had, and nothing comes in use. -/
theorem change_alike (h : Sound m γ) (th : Thread) (threads : m'.thread = Function.update m.thread t th)
    (size : m'.threads.size = m.threads.size) (locks : m'.locks.size = m.locks.size)
    (registered : m'.Registered (Function.update γ t g))
    (own : th.own = (m.thread t).own)
    (keeps : th.program.wp (fun _ s => s.Done) ⟨(m.thread t).own, g⟩)
    (ended : th.status = .ended → th.program = Program.pure ())
    (pool : m'.devices.pool = m.devices.pool) (volume : m'.devices.volume = m.devices.volume)
    (channels : Channels (Function.update (m.standing γ) t ⟨(m.thread t).own, g⟩) m'.channel?
      m.threads.size)
    (sleepers : Sleepers (Function.update m.thread t th) m'.channel?
      (m'.lock Kernel.volumeLock) (Function.update γ t g)) :
    Sound m' (Function.update γ t g) := by
  rw [← own] at keeps channels
  refine h.change th threads size locks registered keeps ended (own ▸ h.orderly t) ?_ ?_ ?_ ?_ channels
    sleepers
  · rw [own, pool]
    exact .keep (.refl _) fun _ => rfl
  · rw [own, volume]
    exact .keep (.refl _) fun _ => rfl
  · rw [pool]
    exact h.addressable
  · rw [volume]
    exact h.counted

/-- A thread that has ended has nothing, and nothing to see to. -/
theorem done_of_ended (h : Sound m γ) (ended : (m.thread t).status = .ended) :
    (m.standing γ t).Done := by
  have keeps := h.keeps t
  rwa [h.ended t ended] at keeps

end Sound

end Userland

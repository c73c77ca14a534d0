import Userland.Proofs.Order
import Userland.Proofs.Rearranging
import Userland.Proofs.Requests

/-!
# The machine stays in order

Whatever a thread does that keeps to the rules, the machine stays in order: requests to devices,
channels, the lock, making threads, waking and ending. There is one lemma for each action, which says
what threads have to see to afterwards; `Userland.Proofs.Runs` puts them together.
-/

namespace Userland

namespace Sound

variable {m m' : Machine} {γ : Tid → Duties} {t : Tid} {th : Thread} {g : Duties}

variable {env : Environment} {a : Action} {next : a.Answer → ThreadProgram Unit}

/-- What a thread is about to do is allowed. -/
theorem allowed (h : Sound m γ) (does : (m.thread t).program = Program.ask a next) :
    Allowed a (m.standing γ t) ∧ ∀ answer s', Follows a (m.standing γ t) answer s' →
      (next answer).wp (fun _ s => s.Done) s' := by
  have keeps := h.keeps t
  rw [does] at keeps
  exact keeps (h.handles.once t)

theorem aim_eq (does : (m.thread t).program = Program.ask a next) :
    (m.thread t).aim = some a := by
  rw [Thread.aim, does]

theorem registry_after (r : DeviceRequest) (answer : r.Answer) (g : Duties) :
    (r.after answer g).registry = g.registry := by
  cases r <;> rfl

theorem locked_after (r : DeviceRequest) (answer : r.Answer) (g : Duties) :
    (r.after answer g).locked = g.locked := by
  cases r <;> rfl

/-- Nothing has become of the channels. -/
theorem still {ch : ChannelMap} {γ : Tid → Duties} {th : Tid → Thread} {l : SleepLock Tid}
    (h : Sleepers th ch l γ) {t : Tid} (th' : Thread) {g : Duties} (out : t ∉ l.waiters)
    (status : th'.status = .awake ∨ th'.status = .ended) (free : (γ t).wakes = none)
    (locked : g.locked = (γ t).locked) :
    Sleepers (Function.update th t th') ch l (Function.update γ t g) :=
  h.go out status free locked fun _ _ x _ _ found empty waiter => .inl ⟨x, found, empty, waiter⟩

/-- A request to a device. -/
theorem device (h : Sound m γ) {r : DeviceRequest} {next : r.Answer → ThreadProgram Unit}
    (awake : (m.thread t).status = .awake)
    (does : (m.thread t).program = Program.ask (Action.device r) next) :
    Sound (Machine.settleAttempt t next (m.attempt env t (.device r))).1
      (Function.update γ t (r.after (r.serve (m.thread t).own m.devices).1 (γ t))) := by
  have inside := m.lt_size_of_status (t := t) (by simp [awake])
  obtain ⟨⟨free, permitted⟩, next'⟩ := h.allowed does
  have out := h.sleepers.notMem_waiters (t := t) (by simp [aim_eq does])
  have moved := DeviceRequest.rearranged_serve (d := m.devices) permitted (h.channels.consistent t)
  simp only [Machine.attempt, Machine.settleAttempt]
  -- First what has become of the threads, then what is asked of this one, and at last what all share.
  refine h.change { m.thread t with
      program := next (r.serve (m.thread t).own m.devices).1
      own := (r.serve (m.thread t).own m.devices).2.1 } ?_ ?_ rfl (h.registered.update rfl (registry_after ..)) ?_ ?_
      ?_ ?_ ?_ ?_ ?_ ?_ ?_
  · rw [Machine.thread_setThread (by simpa using inside)]
    change Function.update (m.setThread t _).thread t { (m.setThread t _).thread t with program := _ } = _
    rw [Machine.thread_setThread inside, Function.update_self, Function.update_idem]
  · simp
  · exact next' _ _ (.device r (m.standing γ t) m.devices)
  · exact fun gone => nomatch awake.symm.trans gone
  · exact DeviceRequest.orderly_serve permitted (h.orderly t)
  · exact DeviceRequest.frames_flow permitted
  · exact DeviceRequest.handles_flow permitted (h.handles.once t)
  · exact DeviceRequest.addressable_serve _ h.addressable
  · exact DeviceRequest.counted_serve _ h.counted
  · exact moved.channels h.channels inside
  · exact still h.sleepers _ out (.inl awake) free (locked_after ..)

/-- An action that is no request to a device, if it is done: its thread goes on, and other threads are
    as they were. -/
theorem act (h : Sound m γ) (m' : Machine) (answer : a.Answer)
    (awake : (m.thread t).status = .awake)
    (does : (m.thread t).program = Program.ask a next) (other : ∀ r, a ≠ .device r)
    (promise : a.Promise (m.standing γ t) answer)
    (threads : m'.threads = m.threads) (locks : m'.locks.size = m.locks.size)
    (pool : m'.devices.pool = m.devices.pool) (volume : m'.devices.volume = m.devices.volume)
    (registered : m'.Registered (Function.update γ t (a.after answer (γ t))))
    (channels : Channels (Function.update (m.standing γ) t
      ⟨(m.thread t).own, a.after answer (γ t)⟩) m'.channel? m.threads.size)
    (sleepers : ∀ th : Thread, th.status = .awake → Sleepers (Function.update m.thread t th) m'.channel?
      (m'.lock Kernel.volumeLock) (Function.update γ t (a.after answer (γ t)))) :
    Sound (m'.setThread t { m'.thread t with program := next answer })
      (Function.update γ t (a.after answer (γ t))) := by
  have inside := m.lt_size_of_status (t := t) (by simp [awake])
  have thread : m'.thread = m.thread := by
    funext u
    rw [Machine.thread, threads, Machine.thread]
  refine h.change_alike { m.thread t with program := next answer } ?_ ?_ locks registered rfl
    ?_ ?_ pool volume channels (sleepers _ awake)
  · rw [Machine.thread_setThread (by rwa [threads]), thread]
  · rw [Machine.size_setThread, threads]
  · exact (h.allowed does).2 _ _ (.act a _ answer other promise)
  · exact fun gone => by cases awake.symm.trans gone

/-- An action for which the thread has to wait. -/
theorem wait (h : Sound m γ) (m' : Machine) (awake : (m.thread t).status = .awake)
    (threads : m'.threads = m.threads) (locks : m'.locks.size = m.locks.size)
    (devices : m'.devices = m.devices) (registries : m'.registries = m.registries)
    (channels : Channels (m.standing γ) m'.channel? m.threads.size)
    (sleepers : Sleepers (Function.update m.thread t { m.thread t with status := .parking })
      m'.channel? (m'.lock Kernel.volumeLock) γ) :
    Sound (m'.setThread t { m'.thread t with status := .parking }) γ := by
  have inside := m.lt_size_of_status (t := t) (by simp [awake])
  have thread : m'.thread = m.thread := by
    funext u
    rw [Machine.thread, threads, Machine.thread]
  have changed : Sound (m'.setThread t { m'.thread t with status := .parking })
      (Function.update γ t (γ t)) :=
    h.change_alike { m.thread t with status := .parking } ?_ ?_ locks
    (h.registered.update registries rfl) rfl (h.keeps t) (by simp) (congrArg Devices.pool devices) (congrArg Devices.volume devices) ?_ ?_
  · rwa [Function.update_eq_self] at changed
  · rw [Machine.thread_setThread (by rwa [threads]), thread]
  · rw [Machine.size_setThread, threads]
  · rw [show (⟨(m.thread t).own, γ t⟩ : Standing) = m.standing γ t from rfl, Function.update_eq_self]
    exact channels
  · rw [Function.update_eq_self]
    exact sleepers

/-- The channel that a thread settles or asks about. -/
theorem found_given (h : Sound m γ) {c : ChannelId} (given : c ∈ (γ t).given) :
    c ∈ (γ t).sources ∧ ∃ x, m.channel? c = some x := by
  have source := (h.channels.consistent t).senders c (List.mem_append_left _ given)
  exact ⟨source, Option.isSome_iff_exists.1 (h.channels.known t c source)⟩

/-- A thread that makes a channel did not make it before. -/
theorem unmade (h : Sound m γ) (t : Tid) : (⟨m.channels.size⟩ : ChannelId) ∉ (γ t).made := fun made => by
  obtain ⟨x, found, -⟩ := h.channels.of_receivers (h.channels.receivers_of_made (S := m.standing γ) made)
  rw [Machine.channel?_size] at found
  cases found

theorem newChannel (h : Sound m γ) {next : ChannelId → ThreadProgram Unit}
    (awake : (m.thread t).status = .awake)
    (does : (m.thread t).program = Program.ask Action.newChannel next) :
    Sound (Machine.settleAttempt t next (m.attempt env t .newChannel)).1
      (Function.update γ t (Action.newChannel.after (⟨m.channels.size⟩ : ChannelId) (γ t))) := by
  have inside := m.lt_size_of_status (t := t) (by simp [awake])
  have free : (γ t).wakes = none := (h.allowed does).1
  have out := h.sleepers.notMem_waiters (t := t) (by simp [aim_eq does])
  refine h.act m.addChannel.2 _ awake does nofun (h.unmade t) rfl rfl rfl rfl
    (h.registered.update rfl rfl) ?_ fun th up => h.sleepers.go out (.inl up) free rfl fun u c x _ _ found empty waiter => .inl ?_
  · rw [Machine.channel?_addChannel]
    exact h.channels.newChannel Machine.channel?_size inside
  · refine ⟨x, ?_, empty, waiter⟩
    rw [Machine.channel?_addChannel, Function.update_of_ne fun same => ?_, found]
    rw [same, Machine.channel?_size] at found
    cases found

theorem hasReceiver (h : Sound m γ) {c : ChannelId} {next : Bool → ThreadProgram Unit}
    (awake : (m.thread t).status = .awake)
    (does : (m.thread t).program = Program.ask (Action.hasReceiver c) next) :
    Sound (Machine.settleAttempt t next (m.attempt env t (.hasReceiver c))).1
      (Function.update γ t ((Action.hasReceiver c).after (m.channel c).receiver (γ t))) := by
  have inside := m.lt_size_of_status (t := t) (by simp [awake])
  obtain ⟨free, given⟩ : (γ t).wakes = none ∧ c ∈ (γ t).given := (h.allowed does).1
  have out := h.sleepers.notMem_waiters (t := t) (by simp [aim_eq does])
  obtain ⟨source, x, found⟩ := h.found_given given
  refine h.act m _ awake does nofun trivial rfl rfl rfl rfl
    (h.registered.update rfl ?_) ?_ fun th up =>
    still h.sleepers _ out (.inl up) free ?_
  · cases (m.channel c).receiver <;> rfl
  · rw [Machine.channel_eq found]
    cases receives : x.receiver with
    | true =>
      rw [show (⟨(m.thread t).own, (Action.hasReceiver c).after true (γ t)⟩ : Standing) =
        m.standing γ t from rfl, Function.update_eq_self]
      exact h.channels
    | false => exact h.channels.forget (by simp [alive, found, receives]) inside
  · cases (m.channel c).receiver <;> rfl

/-- A channel that a thread settles is settled with what the channel is for. -/
theorem settle_exits {g : Duties} {c : ChannelId} {value : Option Signal} {x : Channel}
    (fit : g.MaySettle c value) (ends : ∀ start, g.start = some start → start.loaded ≠ start.exit ∧
      (start.exit = c → x.receiver = true →
        x.state = .empty ∨ ∃ status, x.state = .full (.status status)))
    (start : NewProcess) (started : g.start = some start) (exit : start.exit = c)
    (receives : (x.settle value).2.receiver = true) :
    ∃ status, (x.settle value).2.state = .full (.status status) := by
  obtain ⟨start', started', what⟩ := fit
  obtain rfl := Option.some.inj (started.symm.trans started')
  obtain ⟨apart, before⟩ := ends start started
  rcases before exit receives with empty | ⟨status, full⟩
  · rcases what with ⟨loaded, -⟩ | ⟨-, status, rfl⟩
    · exact absurd (loaded.symm.trans exit.symm) apart
    · exact ⟨status, by simp [Oneshot.settle, empty]⟩
  · exact ⟨status, by simp [Oneshot.settle, full]⟩

theorem settled_ne_empty (x : Channel) (value : Option Signal) :
    (x.settle value).2.state ≠ .empty := by
  cases state : x.state <;> cases value <;> simp [Oneshot.settle, state]

theorem settle (h : Sound m γ) {c : ChannelId} {value : Option Signal}
    {next : Option Tid → ThreadProgram Unit} (awake : (m.thread t).status = .awake)
    (does : (m.thread t).program = Program.ask (Action.settle c value) next) :
    Sound (Machine.settleAttempt t next (m.attempt env t (.settle c value))).1
      (Function.update γ t ((Action.settle c value).after (m.channel c).waiter (γ t))) := by
  have inside := m.lt_size_of_status (t := t) (by simp [awake])
  obtain ⟨free, given, fit⟩ :
    (γ t).wakes = none ∧ c ∈ (γ t).given ∧ (γ t).MaySettle c value := (h.allowed does).1
  have out := h.sleepers.notMem_waiters (t := t) (by simp [aim_eq does])
  obtain ⟨source, x, found⟩ := h.found_given given
  have channel := Machine.channel_eq found
  have channels : (m.settleChannel c value).2.channel? =
      Function.update m.channel? c (some (x.settle value).2) := by
    rw [Machine.settleChannel, channel]
    exact Machine.channel?_setChannel found
  refine h.act (a := .settle c value) (m.settleChannel c value).2 _ awake does nofun
    trivial rfl rfl rfl rfl (h.registered.update rfl rfl) ?_ fun th up => h.sleepers.go out (.inl up) free rfl
      fun u b y other _ found' empty waiter => ?_
  · rw [channels, channel]
    refine h.channels.settle found source rfl (settled_ne_empty x value)
      (fun start started exit receives => settle_exits fit (fun start started => ?_) start started
        exit receives) inside
    obtain ⟨apart, before⟩ := h.channels.exits t start started
    exact ⟨apart, fun exit => before x (exit ▸ found)⟩
  · rw [channels]
    by_cases same : b = c
    · obtain rfl := Option.some.inj (found.symm.trans (same ▸ found'))
      refine .inr ⟨?_, same ▸ source⟩
      rw [channel]
      exact waiter
    · exact .inl ⟨y, by rwa [Function.update_of_ne same], empty, waiter⟩

/-- Nobody else is about to receive from a channel from which a thread may receive. -/
theorem receives_alone (h : Sound m γ) {c : ChannelId} (awaited : c ∈ (γ t).awaited) {u : Tid}
    (other : u ≠ t) : (m.thread u).aim ≠ some (.receive c) := fun receives => by
  rw [Thread.aim] at receives
  split at receives
  · rename_i a next does
    obtain rfl := Option.some.inj receives
    obtain ⟨-, -, -, awaited', -⟩ : (γ u).wakes = none ∧ (γ u).locked = false ∧ (γ u).made = [] ∧
      c ∈ (γ u).awaited ∧ (γ u).registry = none := (h.allowed does).1
    exact other (h.channels.receivers.apart u t c (List.mem_append_left _ awaited')
      (List.mem_append_left _ awaited))
  · cases receives

theorem found_awaited (h : Sound m γ) {c : ChannelId} (awaited : c ∈ (γ t).awaited) :
    ∃ x, m.channel? c = some x :=
  have ⟨x, found, _⟩ := h.channels.of_receivers (S := m.standing γ) (t := t)
    (List.mem_append_left _ awaited)
  ⟨x, found⟩

variable (env) in
theorem receive (h : Sound m γ) {c : ChannelId} {next : Option Signal → ThreadProgram Unit}
    (awake : (m.thread t).status = .awake)
    (does : (m.thread t).program = Program.ask (Action.receive c) next) :
    Sound (Machine.settleAttempt t next (m.attempt env t (.receive c))).1
      (match ((m.channel c).receive t).1 with
        | some value => Function.update γ t ((Action.receive c).after value (γ t))
        | none => γ) := by
  have inside := m.lt_size_of_status (t := t) (by simp [awake])
  obtain ⟨free, -, made, awaited, -⟩ : (γ t).wakes = none ∧ (γ t).locked = false ∧
    (γ t).made = [] ∧ c ∈ (γ t).awaited ∧ (γ t).registry = none := (h.allowed does).1
  have out := h.sleepers.notMem_waiters (t := t) (by simp [aim_eq does])
  obtain ⟨x, found⟩ := h.found_awaited awaited
  have channel := Machine.channel_eq found
  have unmade : c ∉ (γ t).made := by simp [made]
  -- Settled or closed, the channel has no receiving end when the thread goes on.
  have done {x' : Channel} (gone : x'.receiver = false) (value : Option Signal) :
      Sound ((m.setChannel c x').setThread t
        { (m.setChannel c x').thread t with program := next value })
        (Function.update γ t ((Action.receive c).after value (γ t))) := by
    refine h.act (a := .receive c) (m.setChannel c x') _ awake does nofun trivial rfl rfl
      rfl rfl (h.registered.update rfl rfl) ?_ fun th up => h.sleepers.go out (.inl up) free rfl
        fun u b y other receives found' empty waiter => .inl ?_
    · rw [Machine.channel?_setChannel found]
      exact h.channels.drop gone awaited unmade inside
    · have elsewhere : b ≠ c := fun same => h.receives_alone awaited other (same ▸ receives)
      rw [Machine.channel?_setChannel found, Function.update_of_ne elsewhere]
      exact ⟨y, found', empty, waiter⟩
  cases state : x.state with
  | full value =>
    have answer : (m.channel c).receive t =
        (some (some value), { x with state := .closed, receiver := false }) := by
      rw [channel, Oneshot.receive, state]
    simp only [Machine.attempt, answer]
    exact done rfl (some value)
  | closed =>
    have answer : (m.channel c).receive t = (some none, { x with receiver := false }) := by
      rw [channel, Oneshot.receive, state]
    simp only [Machine.attempt, answer]
    exact done rfl none
  | empty =>
    have answer : (m.channel c).receive t = (none, { x with waiter := some t }) := by
      rw [channel, Oneshot.receive, state]
    simp only [Machine.attempt, answer]
    refine h.wait (m.setChannel c { x with waiter := some t }) awake rfl rfl rfl rfl ?_ ?_
    · rw [Machine.channel?_setChannel found]
      exact h.channels.leaveName found rfl rfl
    · rw [Machine.channel?_setChannel found]
      -- The name that is left is overwritten by nobody, since nobody else may receive here.
      exact h.sleepers.park (aim_eq does) state fun u other => h.receives_alone awaited other

theorem dropReceiver (h : Sound m γ) {c : ChannelId} {next : Unit → ThreadProgram Unit}
    (awake : (m.thread t).status = .awake)
    (does : (m.thread t).program = Program.ask (Action.dropReceiver c) next) :
    Sound (Machine.settleAttempt t next (m.attempt env t (.dropReceiver c))).1
      (Function.update γ t ((Action.dropReceiver c).after () (γ t))) := by
  have inside := m.lt_size_of_status (t := t) (by simp [awake])
  obtain ⟨free, awaited, unmade⟩ :
    (γ t).wakes = none ∧ c ∈ (γ t).awaited ∧ c ∉ (γ t).made := (h.allowed does).1
  have out := h.sleepers.notMem_waiters (t := t) (by simp [aim_eq does])
  obtain ⟨x, found⟩ := h.found_awaited awaited
  refine h.act (a := .dropReceiver c) (m.setChannel c (m.channel c).dropReceiver) _ awake
    does nofun trivial rfl rfl rfl rfl (h.registered.update rfl rfl) ?_ fun th up => h.sleepers.go out (.inl up) free rfl
      fun u b y other receives found' empty waiter => .inl ?_
  · rw [Machine.channel?_setChannel found]
    exact h.channels.drop rfl awaited unmade inside
  · have elsewhere : b ≠ c := fun same => h.receives_alone awaited other (same ▸ receives)
    rw [Machine.channel?_setChannel found, Function.update_of_ne elsewhere]
    exact ⟨y, found', empty, waiter⟩

/-- Taking the lock, or having to wait for it, does not concern channels. -/
theorem channels_same (h : Sound m γ) (inside : t < m.threads.size) (made : g.made = (γ t).made)
    (given : g.given = (γ t).given) (awaited : g.awaited = (γ t).awaited)
    (born : g.born = (γ t).born) (start : g.start = (γ t).start) :
    Channels (Function.update (m.standing γ) t ⟨(m.thread t).own, g⟩) m.channel? m.threads.size :=
  (Standing.Rearranged.of_ends (h.channels.consistent t) made given awaited born start).channels
    h.channels inside

variable (env) in
theorem lock (h : Sound m γ) {l : LockId} {next : Unit → ThreadProgram Unit}
    (awake : (m.thread t).status = .awake)
    (does : (m.thread t).program = Program.ask (Action.lock l) next) :
    Sound (Machine.settleAttempt t next (m.attempt env t (.lock l))).1
      (if ((m.lock l).tryLock t).1 then Function.update γ t ((Action.lock l).after () (γ t))
        else γ) := by
  have inside := m.lt_size_of_status (t := t) (by simp [awake])
  obtain ⟨free, unlocked, rfl, -⟩ : (γ t).wakes = none ∧ (γ t).locked = false ∧
    l = Kernel.volumeLock ∧ (γ t).registry = none := (h.allowed does).1
  cases holder : (m.lock Kernel.volumeLock).holder with
  | none =>
    have answer : (m.lock Kernel.volumeLock).tryLock t =
        (true, ⟨some t, (m.lock Kernel.volumeLock).waiters.filter (· ≠ t)⟩) := by
      rw [SleepLock.tryLock, holder]
    simp only [Machine.attempt, answer]
    refine h.act (a := .lock Kernel.volumeLock) _ () awake does nofun trivial rfl
      (Machine.size_setLock ..) rfl rfl (h.registered.update rfl rfl)
      (h.channels_same inside rfl rfl rfl rfl rfl) fun th up => ?_
    rw [Machine.lock_setLock h.locks]
    exact h.sleepers.take holder up awake free rfl
  | some u =>
    have answer : (m.lock Kernel.volumeLock).tryLock t = (false,
        if t ∈ (m.lock Kernel.volumeLock).waiters then m.lock Kernel.volumeLock
        else { m.lock Kernel.volumeLock with
          waiters := (m.lock Kernel.volumeLock).waiters ++ [t] }) := by
      unfold SleepLock.tryLock
      split
      · rename_i vacant
        exact nomatch vacant.symm.trans holder
      · rfl
    simp only [Machine.attempt, answer]
    refine h.wait _ awake rfl (Machine.size_setLock ..) rfl rfl h.channels ?_
    rw [Machine.lock_setLock h.locks]
    split
    · rename_i queued
      exact h.sleepers.queue (aim_eq does) holder fun v =>
        ⟨.inl, fun mem => mem.elim id fun same => same ▸ queued⟩
    · exact h.sleepers.queue (aim_eq does) holder fun v => by simp

theorem release (h : Sound m γ) {l : LockId} {next : Option Tid → ThreadProgram Unit}
    (awake : (m.thread t).status = .awake)
    (does : (m.thread t).program = Program.ask (Action.release l) next) :
    Sound (Machine.settleAttempt t next (m.attempt env t (.release l))).1
      (Function.update γ t ((Action.release l).after (m.lock l).waiters.head? (γ t))) := by
  have inside := m.lt_size_of_status (t := t) (by simp [awake])
  obtain ⟨free, locked, rfl⟩ :
    (γ t).wakes = none ∧ (γ t).locked = true ∧ l = Kernel.volumeLock := (h.allowed does).1
  have out := h.sleepers.notMem_waiters (t := t) (by simp [aim_eq does])
  refine h.act (a := .release Kernel.volumeLock) _ _ awake does nofun trivial rfl
    (Machine.size_setLock ..) rfl rfl (h.registered.update rfl rfl)
      (h.channels_same inside rfl rfl rfl rfl rfl) fun th up => ?_
  rw [Machine.lock_setLock h.locks]
  exact h.sleepers.release out up locked free rfl

/-! ## Locks on registries -/

/-- A thread that asks for the lock on a registry finds it free. -/
theorem registry_free (h : Sound m γ) {family : Family} {next : Unit → ThreadProgram Unit}
    (does : (m.thread t).program = Program.ask (Action.lockRegistry family) next) :
    (t, family) ∉ m.registries := fun held => by
  obtain ⟨-, outside⟩ : (γ t).wakes = none ∧ (γ t).registry = none := (h.allowed does).1
  exact nomatch outside.symm.trans ((h.registered t family).1 held)

variable (env) in
theorem lockRegistry (h : Sound m γ) {family : Family} {next : Unit → ThreadProgram Unit}
    (awake : (m.thread t).status = .awake)
    (does : (m.thread t).program = Program.ask (Action.lockRegistry family) next) :
    Sound (Machine.settleAttempt t next (m.attempt env t (.lockRegistry family))).1
      (Function.update γ t ((Action.lockRegistry family).after () (γ t))) := by
  have inside := m.lt_size_of_status (t := t) (by simp [awake])
  obtain ⟨free, outside⟩ : (γ t).wakes = none ∧ (γ t).registry = none := (h.allowed does).1
  have out := h.sleepers.notMem_waiters (t := t) (by simp [aim_eq does])
  simp only [Machine.attempt, if_neg (h.registry_free does)]
  exact h.act (a := .lockRegistry family) _ () awake does nofun trivial rfl rfl rfl rfl
    (h.registered.take outside rfl rfl) (h.channels_same inside rfl rfl rfl rfl rfl)
    fun th up => still h.sleepers _ out (.inl up) free rfl

theorem unlockRegistry (h : Sound m γ) {family : Family} {next : Unit → ThreadProgram Unit}
    (awake : (m.thread t).status = .awake)
    (does : (m.thread t).program = Program.ask (Action.unlockRegistry family) next) :
    Sound (Machine.settleAttempt t next (m.attempt env t (.unlockRegistry family))).1
      (Function.update γ t ((Action.unlockRegistry family).after () (γ t))) := by
  have inside := m.lt_size_of_status (t := t) (by simp [awake])
  obtain ⟨free, held⟩ : (γ t).wakes = none ∧ (γ t).registry = some family := (h.allowed does).1
  have out := h.sleepers.notMem_waiters (t := t) (by simp [aim_eq does])
  exact h.act (a := .unlockRegistry family) _ () awake does nofun trivial rfl rfl rfl rfl
    (h.registered.free held rfl rfl) (h.channels_same inside rfl rfl rfl rfl rfl)
    fun th up => still h.sleepers _ out (.inl up) free rfl

/-! ## Making threads -/

theorem channel?_settleChannel {c : ChannelId} {x : Channel} (found : m.channel? c = some x)
    (value : Option Signal) : (m.settleChannel c value).2.channel? =
      Function.update m.channel? c (some (x.settle value).2) := by
  rw [Machine.settleChannel, Machine.channel_eq found]
  exact Machine.channel?_setChannel found

/-- If no thread is made, what was to be given to it is settled, and the parent learns of it. -/
theorem spawnNothing (h : Sound m γ) {name : String} {priority : UInt8} {start : NewProcess}
    {next : Option Tid → ThreadProgram Unit} (awake : (m.thread t).status = .awake)
    (does : (m.thread t).program = Program.ask (Action.spawn name priority start) next)
    (full : env.spawnFails m.asked ∨ m.threads.size ≥ threadLimit) :
    Sound (Machine.settleAttempt t next (m.attempt env t (.spawn name priority start))).1
      (Function.update γ t ((Action.spawn name priority start).after none (γ t))) := by
  have inside := m.lt_size_of_status (t := t) (by simp [awake])
  obtain ⟨free, apart, made⟩ : (γ t).wakes = none ∧ start.loaded ≠ start.exit ∧
    (γ t).made = [start.exit, start.loaded] := (h.allowed does).1
  have out := h.sleepers.notMem_waiters (t := t) (by simp [aim_eq does])
  have mine {c : ChannelId} (mem : c ∈ [start.exit, start.loaded]) : c ∈ (γ t).made := made ▸ mem
  have found {c : ChannelId} (mem : c ∈ [start.exit, start.loaded]) :
      ∃ x, m.channel? c = some x ∧ x.receiver = true :=
    h.channels.of_receivers (h.channels.receivers_of_made (S := m.standing γ) (mine mem))
  obtain ⟨x, foundX, -⟩ := found (List.mem_cons_of_mem _ (List.mem_singleton_self start.loaded))
  obtain ⟨y, foundY, -⟩ := found (List.mem_cons_self (a := start.exit))
  -- The signal that tells of loading is settled first, then the one that tells of the exit.
  let m₁ : Machine := { m with
    asked := m.asked + 1
    devices := m.devices.note t (.spawn name priority none) }
  let m₂ := (m₁.settleChannel start.loaded none).2
  let m₃ := (m₂.settleChannel start.exit none).2
  have after₂ : m₂.channel? = Function.update m.channel? start.loaded (some (x.settle none).2) :=
    channel?_settleChannel (m := m₁) foundX none
  have after : m₃.channel? = Function.update (Function.update m.channel? start.loaded
      (some (x.settle none).2)) start.exit (some (y.settle none).2) := by
    rw [channel?_settleChannel (x := y) ?_ none, after₂]
    rwa [after₂, Function.update_of_ne apart.symm]
  have others {c : ChannelId} (other : c ∉ (γ t).made) : m₃.channel? c = m.channel? c := by
    have other : c ≠ start.exit ∧ c ≠ start.loaded := by simpa [made] using other
    rw [after, Function.update_of_ne other.1, Function.update_of_ne other.2]
  simp only [Machine.attempt, Machine.spawnThread, if_pos full]
  refine h.act (a := .spawn name priority start) m₃ none awake does nofun nofun
    rfl rfl rfl rfl (h.registered.update rfl rfl) ?_ fun th up => h.sleepers.go out (.inl up) free rfl
      fun u c z other receives found' empty waiter => .inl ⟨z, ?_, empty, waiter⟩
  · refine h.channels.spawnNothing ?_ (fun c mem z found' => ?_) (fun c other => others other)
      (fun c exists' => ?_) inside
    · rw [after]
      have kept (z : Channel) : (z.settle none).2.receiver = z.receiver := rfl
      refine (Channels.alive_update (x := y) ?_ (kept y)).trans
        (Channels.alive_update foundX (kept x))
      rwa [Function.update_of_ne apart.symm]
    · rw [after] at found'
      have mem : c = start.exit ∨ c = start.loaded := by
        simpa [Machine.standing, made] using mem
      rcases mem with rfl | rfl
      · rw [Function.update_self] at found'
        exact Option.some.inj found' ▸ settled_ne_empty y none
      · rw [Function.update_of_ne apart, Function.update_self] at found'
        exact Option.some.inj found' ▸ settled_ne_empty x none
    · rw [after]
      exact Channels.isSome_update (Channels.isSome_update exists')
  · rw [others fun mem => ?_, found']
    have awaited := (h.channels.consistent t).made c mem
    exact h.receives_alone awaited other receives

/-- A thread that was not made yet is nobody's child. -/
theorem unrecorded (h : Sound m γ) (t : Tid) :
    m.threads.size ∉ (m.thread t).own.records.map (·.1) := fun mem => by
  obtain ⟨⟨child, exit⟩, recorded, same⟩ := List.mem_map.1 mem
  obtain ⟨-, start, started, -⟩ := h.channels.born t child exit
    ((h.channels.consistent t).recorded _ recorded)
  rw [h.channels.beyond child (Nat.le_of_eq same.symm)] at started
  cases started

/-- A machine and what has come of it when thread `t` has made a thread and goes on with `program`. -/
structure Spawns (env : Environment) (m m' : Machine) (t : Tid) (start : NewProcess)
    (program : ThreadProgram Unit) : Prop where
  /-- The new thread is ready, and its maker goes on. -/
  thread : m'.thread = Function.update (Function.update m.thread m.threads.size
    (Thread.ready m.threads.size (env.startProcess start))) t { m.thread t with program := program }
  /-- There is one thread more. -/
  size : m'.threads.size = m.threads.size + 1
  /-- No frame has changed hands. -/
  pool : m'.devices.pool = m.devices.pool
  /-- No file was opened or closed. -/
  volume : m'.devices.volume = m.devices.volume
  /-- No channel has changed. -/
  channels : m'.channels = m.channels
  /-- No lock was taken or freed. -/
  locks : m'.locks = m.locks
  /-- Nor was that of a registry. -/
  registries : m'.registries = m.registries

theorem spawns (name : String) (priority : UInt8) (start : NewProcess)
    (next : Option Tid → ThreadProgram Unit) (lives : env.stillborn = [])
    (inside : t < m.threads.size)
    (room : ¬(env.spawnFails m.asked ∨ m.threads.size ≥ threadLimit)) :
    Spawns env m (Machine.settleAttempt t next (m.attempt env t (.spawn name priority start))).1 t
      start (next (some m.threads.size)) := by
  have added : (Machine.settleAttempt t next (m.attempt env t (.spawn name priority start))).1 =
      ({ (m.addThread (env.startProcess start)).2 with
        asked := m.asked + 1
        devices := m.devices.note t (.spawn name priority (some m.threads.size)) } : Machine).setThread
          t { (m.addThread (env.startProcess start)).2.thread t with
            program := next (some m.threads.size) } := by
    simp only [Machine.attempt, Machine.spawnThread, if_neg room, lives, List.not_mem_nil,
      if_false, Machine.settleAttempt, Machine.addThread]
    rfl
  rw [added]
  have before := m.thread_addThread (env.startProcess start)
  refine ⟨?_, ?_, rfl, rfl, rfl, rfl, rfl⟩
  · rw [Machine.thread_setThread, before, Function.update_of_ne (Nat.ne_of_lt inside)]
    · exact congrArg (Function.update · t _) before
    · simpa [Machine.addThread] using Nat.lt_succ_of_lt inside
  · rw [Machine.size_setThread]
    simp [Machine.addThread]

namespace Spawns

variable {start : NewProcess} {program : ThreadProgram Unit}

theorem parent (h : Spawns env m m' t start program) :
    m'.thread t = { m.thread t with program := program } := by
  rw [h.thread, Function.update_self]

theorem child (h : Spawns env m m' t start program) (inside : t < m.threads.size) :
    m'.thread m.threads.size = Thread.ready m.threads.size (env.startProcess start) := by
  rw [h.thread, Function.update_of_ne (Nat.ne_of_gt inside), Function.update_self]

theorem others (h : Spawns env m m' t start program) {u : Tid} (notChild : u ≠ m.threads.size)
    (notParent : u ≠ t) : m'.thread u = m.thread u := by
  rw [h.thread, Function.update_of_ne notParent, Function.update_of_ne notChild]

/-- What holds of the new thread, of its maker and of the others as they were holds of all threads. -/
theorem each (h : Spawns env m m' t start program) (inside : t < m.threads.size)
    {P : Tid → Thread → Prop}
    (child : P m.threads.size (.ready m.threads.size (env.startProcess start)))
    (parent : P t { m.thread t with program := program })
    (others : ∀ u, u ≠ m.threads.size → u ≠ t → P u (m.thread u)) (u : Tid) :
    P u (m'.thread u) := by
  by_cases notChild : u = m.threads.size
  · rw [notChild, h.child inside]
    exact child
  · by_cases notParent : u = t
    · rw [notParent, h.parent]
      exact parent
    · rw [h.others notChild notParent]
      exact others u notChild notParent

theorem channel? (h : Spawns env m m' t start program) : m'.channel? = m.channel? := by
  funext c
  rw [Machine.channel?, h.channels, Machine.channel?]

/-- The new thread has nothing, like a thread that was not made yet. -/
theorem belongings {α : Type} (h : Spawns env m m' t start program) (inside : t < m.threads.size)
    (f : Belongings → List α) (nothing : ∀ t, f (.fresh t) = []) :
    (fun u => f (m'.thread u).own) = fun u => f (m.thread u).own := by
  funext u
  refine h.each inside (P := fun u th => f th.own = f (m.thread u).own) ?_ rfl (fun _ _ _ => rfl) u
  rw [m.thread_of_size_le (Nat.le_refl _)]
  exact (nothing m.threads.size).trans (nothing 0).symm

/-- The maker gives the new thread what it had made for it, and keeps the record. -/
theorem spawned (h : Spawns env m m' t start program) (inside : t < m.threads.size)
    (name : String) (priority : UInt8) (made : (γ t).made = [start.exit, start.loaded])
    (apart : start.loaded ≠ start.exit) :
    Spawned (m.standing γ) (m'.standing (Function.update (Function.update γ t
      ((Action.spawn name priority start).after (some m.threads.size) (γ t))) m.threads.size
        (.fresh (some start)))) t m.threads.size start where
  child := by
    simp only [Machine.standing, h.child inside, Function.update_self, Thread.ready]
  parent := by
    simp only [Machine.standing, h.parent, Function.update_of_ne (Nat.ne_of_lt inside),
      Function.update_self]
    rfl
  others u notChild notParent := by
    simp only [Machine.standing, h.others notChild notParent, Function.update_of_ne notChild,
      Function.update_of_ne notParent]
  younger := inside
  made := made
  apart := apart

/-- A new thread holds no lock on a registry. -/
theorem registered (h : Spawns env m m' t start program) (sound : Sound m γ)
    (same : g.registry = (γ t).registry) : m'.Registered
      (Function.update (Function.update γ t g) m.threads.size (.fresh (some start))) := by
  have fresh : γ m.threads.size = .fresh none :=
    congrArg Standing.duties (sound.channels.beyond _ (Nat.le_refl _))
  have gone : m.Registered (Function.update γ t g) := sound.registered.update rfl same
  refine gone.update h.registries ?_
  by_cases other : m.threads.size = t
  · rw [other, Function.update_self, same, ← other, fresh]
    rfl
  · rw [Function.update_of_ne other, fresh]
    rfl

/-- A new thread waits for nothing, and its maker goes on. -/
theorem sleepers (h : Spawns env m m' t start program) (sound : Sound m γ)
    (awake : (m.thread t).status = .awake) (out : t ∉ (m.lock Kernel.volumeLock).waiters)
    (free : (γ t).wakes = none) (locked : g.locked = (γ t).locked) :
    Sleepers m'.thread m'.channel? (m'.lock Kernel.volumeLock)
      (Function.update (Function.update γ t g) m.threads.size (.fresh (some start))) := by
  have inside := m.lt_size_of_status (t := t) (by simp [awake])
  have other : t ≠ m.threads.size := Nat.ne_of_lt inside
  have absent : m.thread m.threads.size = Thread.absent := m.thread_of_size_le (Nat.le_refl _)
  have fresh : γ m.threads.size = .fresh none :=
    congrArg Standing.duties (sound.channels.beyond _ (Nat.le_refl _))
  -- The new thread takes the place of one that was not there; then its maker goes on.
  have born := still sound.sleepers (.ready m.threads.size (env.startProcess start))
    (g := .fresh (some start))
    (sound.sleepers.notMem_waiters_of_ended (by rw [absent]; rfl)) (.inl rfl) (by rw [fresh]; rfl)
    (by rw [fresh]; rfl)
  have gone := still born { m.thread t with program := program } (g := g) out (.inl awake)
    (by rw [Function.update_of_ne other, free]) (by rw [Function.update_of_ne other, locked])
  rw [h.thread, h.channel?, Machine.lock, h.locks, Function.update_comm other]
  exact gone

end Spawns

/-- Making a thread leaves the others as they are. -/
theorem spawn (h : Sound m γ) {name : String} {priority : UInt8} {start : NewProcess}
    {next : Option Tid → ThreadProgram Unit}
    (starts : ∀ t, (env.startProcess start).wp (fun _ s => s.Done) ⟨.fresh t, .fresh (some start)⟩)
    (lives : env.stillborn = []) (awake : (m.thread t).status = .awake)
    (does : (m.thread t).program = Program.ask (Action.spawn name priority start) next)
    (room : ¬(env.spawnFails m.asked ∨ m.threads.size ≥ threadLimit)) :
    Sound (Machine.settleAttempt t next (m.attempt env t (.spawn name priority start))).1
      (Function.update (Function.update γ t ((Action.spawn name priority start).after
        (some m.threads.size) (γ t))) m.threads.size (.fresh (some start))) := by
  have inside := m.lt_size_of_status (t := t) (by simp [awake])
  obtain ⟨free, apart, made⟩ : (γ t).wakes = none ∧ start.loaded ≠ start.exit ∧
    (γ t).made = [start.exit, start.loaded] := (h.allowed does).1
  have out := h.sleepers.notMem_waiters (t := t) (by simp [aim_eq does])
  have small : m.threads.size < threadLimit := Nat.not_le.1 fun le => room (.inr le)
  have spawns := spawns name priority start next lives inside room
  have spawned := spawns.spawned inside name priority made apart
  generalize (Machine.settleAttempt t next (m.attempt env t (.spawn name priority start))).1 = m'
    at spawns spawned ⊢
  exact
    { keeps := fun u => by
        -- The new thread follows its start, its maker goes on with the answer, and others do what they did.
        by_cases notChild : u = m.threads.size
        · rw [notChild, spawned.child, spawns.child inside]
          exact starts _
        · by_cases notParent : u = t
          · rw [notParent, spawned.parent, spawns.parent]
            refine (h.allowed does).2 _ _ (.act (.spawn name priority start) _ (some m.threads.size)
              (by simp) fun u same => ?_)
            obtain rfl := Option.some.inj same
            exact ⟨small, h.unrecorded t⟩
          · rw [spawned.others u notChild notParent, spawns.others notChild notParent]
            exact h.keeps u
      ended := spawns.each inside (P := fun _ th => th.status = .ended → th.program = .pure ())
        nofun (fun gone => nomatch awake.symm.trans gone) fun u _ _ => h.ended u
      orderly := spawns.each inside (P := fun _ th => th.own.Orderly)
        (Belongings.orderly_of_empty rfl) (h.orderly t) fun u _ _ => h.orderly u
      frames := by
        rw [spawns.belongings inside Belongings.frames fun _ => rfl, spawns.pool]
        exact h.frames
      handles := by
        rw [spawns.belongings inside Belongings.handles fun _ => rfl, spawns.volume]
        exact h.handles
      addressable := spawns.pool ▸ h.addressable
      counted := spawns.volume ▸ h.counted
      channels := by
        rw [spawns.channel?, spawns.size]
        exact spawned.channels h.channels
      sleepers := spawns.sleepers h awake out free rfl
      registered := spawns.registered h rfl
      locks := spawns.locks ▸ h.locks
      small := spawns.size ▸ small }

/-! ## Waking and ending -/

/-- A thread may be woken at any time. -/
theorem wake (h : Sound m γ) (t : Tid) : Sound (m.wake t).1 γ := by
  obtain ⟨size, devices, channels, locks, registries⟩ := m.wake_frame t
  have channel? : (m.wake t).1.channel? = m.channel? := by
    funext c
    rw [Machine.channel?, channels, Machine.channel?]
  have lock : (m.wake t).1.lock Kernel.volumeLock = m.lock Kernel.volumeLock := by
    rw [Machine.lock, locks, Machine.lock]
  have same : Function.update (m.standing γ) t ⟨(m.thread t).own, γ t⟩ = m.standing γ :=
    Function.update_eq_self ..
  have changed := h.change_alike (m.thread t).woken (g := γ t) (m.thread_wake t) size
    (congrArg Array.size locks) (h.registered.update registries rfl) (Thread.own_woken _) (by rw [Thread.program_woken]; exact h.keeps t) (fun gone => ?_)
    (congrArg Devices.pool devices) (congrArg Devices.volume devices) ?_ ?_
  · rwa [Function.update_eq_self] at changed
  · rcases (m.thread t).woken_up with up | ⟨up, -⟩ | ⟨gone, same⟩
    · cases up.symm.trans gone
    · cases up.1.symm.trans gone
    · rw [same] at gone ⊢
      exact h.ended t gone
  · rw [same, channel?]
    exact h.channels
  · rw [channel?, lock, Function.update_eq_self]
    rcases (m.thread t).woken_up with up | ⟨up, parking⟩ | ⟨-, same⟩
    · exact h.sleepers.rouse (Thread.program_woken _) (.inl up)
    · exact h.sleepers.rouse (Thread.program_woken _) (.inr ⟨up, parking⟩)
    · rw [same, Function.update_eq_self]
      exact h.sleepers

theorem unblock (h : Sound m γ) {v : Tid} {next : Unit → ThreadProgram Unit}
    (awake : (m.thread t).status = .awake)
    (does : (m.thread t).program = Program.ask (Action.unblock v) next) :
    Sound (Machine.settleAttempt t next (m.attempt env t (.unblock v))).1
      (Function.update γ t ((Action.unblock v).after () (γ t))) := by
  have inside := m.lt_size_of_status (t := t) (by simp [awake])
  have due : (γ t).wakes = some v := (h.allowed does).1
  have woken := h.wake v
  -- A thread may wake itself, so what is known of `t` has to be known after the wakeup.
  have awake' : ((m.wake v).1.thread t).status = .awake := by
    rw [m.thread_wake]
    by_cases same : t = v
    · rw [← same, Function.update_self, Thread.woken, awake]
    · rwa [Function.update_of_ne same]
  have does' : ((m.wake v).1.thread t).program = Program.ask (Action.unblock v) next := by
    rw [m.thread_wake]
    by_cases same : t = v
    · subst same
      rw [Function.update_self, Thread.program_woken, does]
    · rwa [Function.update_of_ne same]
  have out := woken.sleepers.notMem_waiters (t := t) (by simp [aim_eq does'])
  have up : ((m.wake v).1.thread v).status = .awake ∨ ((m.wake v).1.thread v).Stirs ∨
      ((m.wake v).1.thread v).status = .ended := by
    rw [m.thread_wake, Function.update_self]
    exact (m.thread v).woken_up.imp_right (Or.imp And.left And.left)
  refine woken.act (a := .unblock v) _ () awake' does' (by simp) trivial rfl rfl rfl rfl
    (woken.registered.update rfl rfl) (woken.channels_same (by rwa [(m.wake_frame v).1]) rfl rfl rfl rfl rfl) fun th status => ?_
  have forgotten := woken.sleepers.woke due up rfl
  have gone := still forgotten (t := t) th (g := { γ t with wakes := none }) out (.inl status)
    (by rw [Function.update_self]) (by rw [Function.update_self])
  rwa [Function.update_idem] at gone

/-- Channels are as they were if a thread has, and has to see to, what it had. -/
theorem channels_kept (h : Sound m γ) (t : Tid) :
    Channels (Function.update (m.standing γ) t ⟨(m.thread t).own, γ t⟩) m.channel? m.threads.size := by
  rw [show (⟨(m.thread t).own, γ t⟩ : Standing) = m.standing γ t from rfl, Function.update_eq_self]
  exact h.channels

/-- A thread that has nothing may end. -/
theorem finish (h : Sound m γ) (awake : (m.thread t).status = .awake)
    (aim : (m.thread t).aim ≠ some (.lock Kernel.volumeLock)) (done : (m.standing γ t).Done) :
    Sound (m.finish t) γ := by
  have inside := m.lt_size_of_status (t := t) (by simp [awake])
  have changed : Sound (m.finish t) (Function.update γ t (γ t)) := h.change_alike
    { m.thread t with program := .pure (), status := .ended, wakeup := false }
    (Machine.thread_setThread inside _) (Machine.size_setThread ..) rfl
    (h.registered.update rfl rfl) rfl done (fun _ => rfl) rfl
    rfl (h.channels_kept t)
    (still h.sleepers _ (h.sleepers.notMem_waiters aim) (.inr rfl) done.free.wakes rfl)
  rwa [Function.update_eq_self] at changed

/-- A thread in user mode may go on with a block, if the block keeps to the rules. -/
theorem goto (h : Sound m γ) {block : ℕ} {next : Empty → ThreadProgram Unit}
    (awake : (m.thread t).status = .awake)
    (does : (m.thread t).program = Program.ask (Action.goto block) next)
    (keeps : (env.blocks block).wp (fun _ s => s.Done) (m.standing γ t)) :
    Sound (Machine.settleAttempt t next (m.attempt env t (.goto block))).1 γ := by
  have inside := m.lt_size_of_status (t := t) (by simp [awake])
  have free : (γ t).wakes = none := by
    obtain ⟨u, start, running⟩ := (h.allowed does).1
    exact running.wakes
  have out := h.sleepers.notMem_waiters (t := t) (by simp [aim_eq does])
  have changed : Sound (m.setThread t { m.thread t with program := env.blocks block })
      (Function.update γ t (γ t)) := h.change_alike { m.thread t with program := env.blocks block }
    (Machine.thread_setThread inside _) (Machine.size_setThread ..) rfl
    (h.registered.update rfl rfl) rfl keeps (fun gone => nomatch awake.symm.trans gone) rfl
    rfl (h.channels_kept t) (still h.sleepers _ out (.inl awake) free rfl)
  rwa [Function.update_eq_self] at changed

variable (env) in
/-- A thread that is not awake sleeps on, falls asleep, or finds a wakeup. -/
theorem rest (h : Sound m γ) (idle : (m.thread t).status ≠ .awake) : Sound (m.step env t).1 γ := by
  have keeps := h.keeps t
  have change {th : Thread} (parking : (m.thread t).status = .parking)
      (program : th.program = (m.thread t).program) (own : th.own = (m.thread t).own)
      (status : th.status ≠ .ended) (sleepers : Sleepers (Function.update m.thread t th) m.channel?
        (m.lock Kernel.volumeLock) γ) : Sound (m.setThread t th) γ := by
    have inside := m.lt_size_of_status (t := t) (by simp [parking])
    have changed : Sound (m.setThread t th) (Function.update γ t (γ t)) := h.change_alike th
      (Machine.thread_setThread inside _) (Machine.size_setThread ..) rfl
      (h.registered.update rfl rfl) own (program ▸ keeps)
      (fun gone => absurd gone status) rfl rfl (h.channels_kept t)
      (by rw [Function.update_eq_self]; exact sleepers)
    rwa [Function.update_eq_self] at changed
  obtain ⟨th, dozes, stepped⟩ := Machine.step_of_ne_awake env idle
  rw [stepped]
  cases dozes with
  | stay => rwa [Machine.setThread_thread]
  | stir parking kept => exact change parking rfl rfl nofun (h.sleepers.rouse rfl (.inl rfl))
  | sleep parking none => exact change parking rfl rfl nofun (h.sleepers.sleep parking none)

end Sound

end Userland

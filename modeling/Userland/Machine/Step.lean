import Userland.Machine.Action

/-!
# The machine

A machine has devices, threads, channels and locks. One step of a thread (`Machine.step`) does one
action, or one half of going to sleep: a thread that cannot go on first leaves its name where it will
be woken from, and sleeps in a further step, unless a wakeup has come in between. A wakeup for a
thread that does not sleep is kept, at most one.

Which thread makes the next step is not settled here. `Machine.Next` lets any thread go on that can,
and lets threads be woken for no reason; `Userland.Machine.Host` runs one thread until it waits.
-/

namespace Userland

/-- Whether a thread can go on. -/
inductive ThreadStatus where
  /-- It can. -/
  | awake
  /-- It has left its name to be woken and is about to sleep. -/
  | parking
  /-- It sleeps. -/
  | asleep
  /-- It has ended, or never was. -/
  | ended
deriving DecidableEq

/-- A thread. -/
structure Thread where
  /-- What it has yet to do. -/
  program : ThreadProgram Unit
  /-- Whether it can go on. -/
  status : ThreadStatus
  /-- Whether a wakeup is kept for it. -/
  wakeup : Bool
  /-- What it has for itself. -/
  own : Belongings

namespace Thread

/-- A thread that never was. -/
def absent : Thread := ⟨.pure (), .ended, false, .fresh 0⟩

/-- A thread that is about to run a program. -/
def ready (t : Tid) (program : ThreadProgram Unit) : Thread := ⟨program, .awake, false, .fresh t⟩

/-- Whether the thread can make a step. -/
def canStep (th : Thread) : Bool := th.status = .awake || th.status = .parking

end Thread

/-- What is fixed while a machine runs. -/
structure Environment where
  /-- What the thread of a new process does. -/
  startProcess : NewProcess → ThreadProgram Unit
  /-- Which requests for a thread, counted from zero, are refused. -/
  spawnFails : Nat → Bool
  /-- Which of the others make a thread that is destroyed before it runs. -/
  stillborn : List Nat
  /-- The blocks of code, by number. -/
  blocks : Nat → ThreadProgram Unit

/-- Thread numbers are positive signed words, so they are below this number. -/
abbrev threadLimit : Nat := 0x80000000

/-- A machine. -/
structure Machine where
  /-- What all threads share. -/
  devices : Devices
  /-- All threads, by number. -/
  threads : Array Thread
  /-- All channels, by number. -/
  channels : Array Channel
  /-- All locks, by number. -/
  locks : Array (SleepLock Tid)
  /-- The number that each lock guards. -/
  cells : Array Int64
  /-- Channels whose senders lie there for anyone to take. -/
  loneSenders : List Nat
  /-- Channels whose receivers lie there for anyone to take. -/
  loneReceivers : List Nat
  /-- How many threads were asked for since the start. -/
  asked : Nat
  /-- The locks on registries that are held, each by the thread whose registry it is. -/
  registries : List (Tid × Family)
  /-- How the machine stopped, if it did. -/
  stopped : Option Stop

namespace Machine

/-! ## Parts -/

/-- A machine without threads and channels. -/
def fresh (devices : Devices) (locks : Nat) : Machine :=
  { devices := devices
    threads := #[Thread.absent]
    channels := #[]
    locks := Array.replicate locks SleepLock.fresh
    cells := Array.replicate locks 0
    loneSenders := []
    loneReceivers := []
    asked := 0
    registries := []
    stopped := none }

/-- A thread. -/
def thread (m : Machine) (t : Tid) : Thread := m.threads.getD t Thread.absent

/-- The machine with a thread changed. -/
def setThread (m : Machine) (t : Tid) (th : Thread) : Machine :=
  { m with threads := m.threads.setIfInBounds t th }

/-- A channel. -/
def channel (m : Machine) (c : ChannelId) : Channel := m.channels.getD c.index Oneshot.fresh

/-- The machine with a channel changed. -/
def setChannel (m : Machine) (c : ChannelId) (x : Channel) : Machine :=
  { m with channels := m.channels.setIfInBounds c.index x }

/-- A lock. -/
def lock (m : Machine) (l : LockId) : SleepLock Tid := m.locks.getD l.index SleepLock.fresh

/-- The machine with a lock changed. -/
def setLock (m : Machine) (l : LockId) (x : SleepLock Tid) : Machine :=
  { m with locks := m.locks.setIfInBounds l.index x }

/-- The machine with one more thread, ready to run a program, and its number. -/
def addThread (m : Machine) (program : ThreadProgram Unit) : Tid × Machine :=
  let t := m.threads.size
  (t, { m with threads := m.threads.push (Thread.ready t program) })

/-- The machine with one more channel, and its number. -/
def addChannel (m : Machine) : ChannelId × Machine :=
  (⟨m.channels.size⟩, { m with channels := m.channels.push Oneshot.fresh })

/-- Settle a channel: the thread to be woken, and the machine afterwards. -/
def settleChannel (m : Machine) (c : ChannelId) (value : Option Signal) : Option Tid × Machine :=
  let (waiter, x) := (m.channel c).settle value
  (waiter, m.setChannel c x)

/-- Wake a thread: a sleeper goes on, for any other thread that lives the wakeup is kept. Gives the
    threads that go on. -/
def wake (m : Machine) (t : Tid) : Machine × List Tid :=
  let th := m.thread t
  match th.status with
  | .asleep => (m.setThread t { th with status := .awake }, [t])
  | .ended => (m, [])
  | .awake | .parking => (m.setThread t { th with wakeup := true }, [])

/-! ## Actions -/

/-- What comes of an attempt at an action. -/
inductive Attempt (α : Type) where
  /-- It is done, with an answer, and some threads can go on. -/
  | done (answer : α) (m : Machine) (ready : List Tid)
  /-- The thread has to wait, and then try again. -/
  | wait (m : Machine)
  /-- There is no answer: the thread has ended, goes on elsewhere, or tries again. -/
  | unanswered (m : Machine)

/-- Make a thread for a process. If its program is dropped unrun, so are the senders in it. -/
def spawnThread (env : Environment) (m : Machine) (t : Tid) (name : String) (priority : UInt8)
    (start : NewProcess) : Attempt (Option Tid) :=
  if env.spawnFails m.asked ∨ m.threads.size ≥ threadLimit then
    let m := { m with
      asked := m.asked + 1
      devices := m.devices.note t (.spawn name priority none) }
    let m := (m.settleChannel start.loaded none).2
    .done none (m.settleChannel start.exit none).2 []
  else
    let (child, m) := m.addThread (env.startProcess start)
    let number := m.asked
    let m := { m with
      asked := number + 1
      devices := m.devices.note t (.spawn name priority (some child)) }
    if number ∈ env.stillborn then
      let m := m.setThread child { Thread.absent with own := .fresh child }
      let m := (m.settleChannel start.loaded none).2
      .done (some child) (m.settleChannel start.exit none).2 []
    else .done (some child) m [child]

/-- End a thread. -/
def finish (m : Machine) (t : Tid) : Machine :=
  let th := m.thread t
  { m.setThread t { th with program := .pure (), status := .ended, wakeup := false } with
    devices := m.devices.report ⟨t, none⟩ }

/-- Try an action of thread `t`. -/
def attempt (env : Environment) (m : Machine) (t : Tid) : (a : Action) → Attempt a.Answer
  | .device r =>
    let th := m.thread t
    let (answer, own, devices) := r.serve th.own m.devices
    .done answer { m.setThread t { th with own := own } with devices := devices } []
  | .yield => .done () m []
  | .spawn name priority start => spawnThread env m t name priority start
  | .newChannel =>
    let (c, m) := m.addChannel
    .done c m []
  | .hasReceiver c => .done (m.channel c).receiver m []
  | .settle c value =>
    let (waiter, m) := m.settleChannel c value
    .done waiter m []
  | .receive c =>
    match (m.channel c).receive t with
    | (some value, x) => .done value (m.setChannel c x) []
    | (none, x) => .wait (m.setChannel c x)
  | .isReady c => .done (m.channel c).isReady m []
  | .dropReceiver c => .done () (m.setChannel c (m.channel c).dropReceiver) []
  | .claimSender c =>
    .done (decide (c.index ∈ m.loneSenders))
      { m with loneSenders := m.loneSenders.filter (· ≠ c.index) } []
  | .claimReceiver c =>
    .done (decide (c.index ∈ m.loneReceivers))
      { m with loneReceivers := m.loneReceivers.filter (· ≠ c.index) } []
  | .offersReceiver c => .done (decide (c.index ∈ m.loneReceivers)) m []
  | .lock l =>
    match (m.lock l).tryLock t with
    | (true, x) => .done () (m.setLock l x) []
    | (false, x) => .wait (m.setLock l x)
  | .release l =>
    let (next, x) := (m.lock l).release
    .done next (m.setLock l x) []
  | .isHeld l => .done (m.lock l).isHeld m []
  | .getCell l => .done (m.cells.getD l.index 0) m []
  | .setCell l value => .done () { m with cells := m.cells.setIfInBounds l.index value } []
  | .unblock u =>
    let (m, ready) := m.wake u
    .done () m ready
  | .lockRegistry family =>
    if (t, family) ∈ m.registries then .unanswered m
    else .done () { m with registries := (t, family) :: m.registries } []
  | .unlockRegistry family =>
    .done () { m with registries := m.registries.filter (· ≠ (t, family)) } []
  | .endThread => .unanswered (m.finish t)
  | .goto block => .unanswered (m.setThread t { m.thread t with program := env.blocks block })
  | .stop how => .unanswered { m with stopped := some how }

/-! ## Steps -/

/-- The machine after thread `t` has got an answer, has to wait, or gets no answer. -/
def settleAttempt (t : Tid) {α : Type} (next : α → ThreadProgram Unit) :
    Attempt α → Machine × List Tid
  | .done answer m ready => (m.setThread t { m.thread t with program := next answer }, ready)
  | .wait m => (m.setThread t { m.thread t with status := .parking }, [])
  | .unanswered m => (m, [])

/-- One step of a thread: the machine afterwards, and the threads that can go on because of it. -/
def step (env : Environment) (m : Machine) (t : Tid) : Machine × List Tid :=
  let th := m.thread t
  match th.status with
  | .asleep | .ended => (m, [])
  | .parking =>
    if th.wakeup then (m.setThread t { th with status := .awake, wakeup := false }, [])
    else (m.setThread t { th with status := .asleep }, [])
  | .awake =>
    match th.program with
    | Program.pure () => (m.finish t, [])
    | Program.ask a next => settleAttempt t next (m.attempt env t a)

/-- What may happen next: a thread goes on, or one is woken for no reason. -/
inductive Next (env : Environment) (m : Machine) : Machine → Prop where
  /-- Thread `t` makes a step. -/
  | step (t : Tid) : m.stopped = none → (m.thread t).canStep = true → Next env m (m.step env t).1
  /-- Thread `t` is woken. -/
  | wake (t : Tid) : m.stopped = none → Next env m (m.wake t).1

/-- What may have happened since a machine was started. -/
inductive Reaches (env : Environment) (m : Machine) : Machine → Prop where
  /-- Nothing yet. -/
  | refl : Reaches env m m
  /-- One thing more. -/
  | next {m₁ m₂ : Machine} : Reaches env m m₁ → Next env m₁ m₂ → Reaches env m m₂

end Machine

end Userland

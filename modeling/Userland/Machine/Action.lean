import Userland.Machine.Request
import Userland.Sync.Oneshot
import Userland.Sync.SleepLock

/-!
# What a thread does

Besides requests to devices, threads act on each other: they make threads, wake each other, take and
free locks, and settle and receive from channels. Two actions may have to wait (`lock` and
`receive`), and one may be tried in vain, over and over (`lockRegistry`); all others are done in one
step. Waking a thread is an action of its own, apart from the change of state that makes it due, so that
other threads may act in between.

What a thread does is a tree, which comes to an end wherever one goes down in it. A thread that goes on for
ever does so by blocks: it leaves one tree for another (`goto`).
-/

namespace Userland

/-- What travels through a channel of the kernel. -/
inductive Signal where
  /-- Whether a child has loaded its program. -/
  | loaded (ok : Bool)
  /-- The exit status of a child. -/
  | status (value : Int32)

/-- The channels of a machine. -/
abbrev Channel := Oneshot Tid Signal

/-- What a thread for a new process starts from. -/
structure NewProcess where
  /-- The command line. -/
  command : String
  /-- Where it tells whether its program is loaded. -/
  loaded : ChannelId
  /-- Where it tells its exit status. -/
  exit : ChannelId

/-- How the machine stops before all threads have ended. -/
inductive Stop where
  /-- Power goes off. -/
  | halted
  /-- The kernel gives up, with a message. -/
  | panic (message : String)

/-- What a thread can do in one step, or wait for. -/
inductive Action where
  /-- A request that is served at once. -/
  | device (request : DeviceRequest)
  /-- Let other threads go first. -/
  | yield
  /-- Make a thread for a process. -/
  | spawn (name : String) (priority : UInt8) (start : NewProcess)
  /-- Make a channel. -/
  | newChannel
  /-- Whether the receiver of a channel still exists. -/
  | hasReceiver (channel : ChannelId)
  /-- Settle a channel. -/
  | settle (channel : ChannelId) (value : Option Signal)
  /-- Receive from a channel, as soon as it is settled. -/
  | receive (channel : ChannelId)
  /-- Whether a channel is settled. -/
  | isReady (channel : ChannelId)
  /-- Drop the receiver of a channel. -/
  | dropReceiver (channel : ChannelId)
  /-- Take the sender of a channel that lies there for anyone. -/
  | claimSender (channel : ChannelId)
  /-- Take the receiver of a channel that lies there for anyone. -/
  | claimReceiver (channel : ChannelId)
  /-- Whether the receiver of a channel lies there for anyone. -/
  | offersReceiver (channel : ChannelId)
  /-- Take a lock, as soon as it is free. -/
  | lock (lock : LockId)
  /-- Free a lock. -/
  | release (lock : LockId)
  /-- Whether a lock is held. -/
  | isHeld (lock : LockId)
  /-- The number that a lock guards. -/
  | getCell (lock : LockId)
  /-- Change the number that a lock guards. -/
  | setCell (lock : LockId) (value : Int64)
  /-- Take the lock on a registry of the thread's children. A thread that finds it held does not sleep,
      but tries again. -/
  | lockRegistry (family : Family)
  /-- Free the lock on a registry. -/
  | unlockRegistry (family : Family)
  /-- Wake a thread. -/
  | unblock (thread : Tid)
  /-- End the thread. -/
  | endThread
  /-- Go on with a block of code, whatever was to come. -/
  | goto (block : Nat)
  /-- Stop the machine. -/
  | stop (how : Stop)

namespace Action

/-- The kind of answer to each action. After some there is none. -/
abbrev Answer : Action → Type
  | device r => r.Answer
  | spawn .. => Option Tid
  | newChannel => ChannelId
  | hasReceiver _ => Bool
  | settle .. => Option Tid
  | receive _ => Option Signal
  | isReady _ => Bool
  | claimSender _ => Bool
  | claimReceiver _ => Bool
  | offersReceiver _ => Bool
  | release _ => Option Tid
  | isHeld _ => Bool
  | getCell _ => Int64
  | endThread => Empty
  | goto _ => Empty
  | stop _ => Empty
  | _ => Unit

/-- Actions and their answers. -/
abbrev signature : Signature := ⟨Action, Answer⟩

end Action

/-- A program for a thread. -/
abbrev ThreadProgram := Program Action.signature

namespace ThreadProgram

/-- Do one thing. -/
def act (a : Action) : ThreadProgram a.Answer := Program.request (σ := Action.signature) a

/-- A routine as a part of what a thread does. -/
def ofRoutine {α : Type} : Routine α → ThreadProgram α
  | Program.pure x => Program.pure x
  | Program.ask r next => Program.ask (Action.device r) fun answer => ofRoutine (next answer)

instance : MonadLift Routine ThreadProgram := ⟨ofRoutine⟩

/-- Ask for something that is served at once. -/
def ask (r : DeviceRequest) : ThreadProgram r.Answer := act (Action.device r)

/-- End the thread; nothing comes after. -/
def endThread {α : Type} : ThreadProgram α := Program.ask Action.endThread Empty.elim

/-- Go on with a block of code; nothing of this program comes after. -/
def goto {α : Type} (block : Nat) : ThreadProgram α := Program.ask (Action.goto block) Empty.elim

/-- Stop the machine; nothing comes after. -/
def stop {α : Type} (how : Stop) : ThreadProgram α := Program.ask (Action.stop how) Empty.elim

/-- Wake a thread, if there is one to wake. -/
def wake : Option Tid → ThreadProgram Unit
  | some t => act (.unblock t)
  | none => return ()

/-! ## Channels -/

/-- Settle a channel and wake its receiver. -/
def settle (c : ChannelId) (value : Option Signal) : ThreadProgram Unit := do
  wake (← act (.settle c value))

/-- Send a value. If the receiver is gone nothing happens, and the answer is no. -/
def send (c : ChannelId) (value : Signal) : ThreadProgram Bool := do
  if ← act (.hasReceiver c) then
    settle c (some value)
    return true
  else return false

/-- Drop a sender that has not sent. -/
def dropSender (c : ChannelId) : ThreadProgram Unit := settle c none

/-! ## Locks -/

/-- Free a lock and wake the thread that is next. -/
def unlock (l : LockId) : ThreadProgram Unit := do
  wake (← act (.release l))

/-- Run a routine while holding a lock. -/
def withLock {α : Type} (l : LockId) (body : Routine α) : ThreadProgram α := do
  act (.lock l)
  let x ← body
  unlock l
  return x

/-- Do something while holding the lock on a registry. -/
def withRegistry {α : Type} (family : Family) (body : ThreadProgram α) : ThreadProgram α := do
  act (.lockRegistry family)
  let x ← body
  act (.unlockRegistry family)
  return x

end ThreadProgram

end Userland

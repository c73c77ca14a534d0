import Userland.Machine.Host

/-!
# Scripts for locks and channels

Threads without processes follow scripts that use shared locks and channels. Each lock guards a
number. The ends of the channels lie there for anyone to take, once. At its end a thread lets
interrupts in again as far as it has kept them out, and then frees the locks that it holds.
-/

namespace Userland

/-- An operation on locks and channels. -/
inductive SyncOp where
  /-- Take a sender and send. -/
  | send (channel : ChannelId) (value : Int32)
  /-- Take a receiver and receive. -/
  | receive (channel : ChannelId)
  /-- Take a sender and drop it. -/
  | dropSender (channel : ChannelId)
  /-- Take a receiver and drop it. -/
  | dropReceiver (channel : ChannelId)
  /-- Whether a receiver would receive at once. -/
  | isReady (channel : ChannelId)
  /-- Take a lock, and tell the number that it guards. -/
  | lock (lock : LockId)
  /-- Free a lock, if the thread holds it. -/
  | unlock (lock : LockId)
  /-- Add to the number that a lock guards. -/
  | add (lock : LockId) (amount : Int64)
  /-- Whether a lock is held. -/
  | isHeld (lock : LockId)
  /-- Let other threads go first. -/
  | yield
  /-- Wake a thread. -/
  | unblock (thread : Tid)
  /-- Keep interrupts out. -/
  | disableInterrupts
  /-- Go back to the level before the newest section without interrupts. -/
  | restoreNewest
  /-- Go back to the level before the oldest section without interrupts. -/
  | restoreOldest

/-- What a thread has while it follows a script. -/
structure SyncState where
  /-- The locks that it holds. -/
  held : List LockId
  /-- The levels before its sections without interrupts, the oldest first. -/
  levels : List InterruptLevel

namespace SyncOp

open ThreadProgram

/-- Go back to a level, if there is one to go back to. -/
def restore : Option InterruptLevel → ThreadProgram Unit
  | some level => ask (.setInterrupts level)
  | none => return ()

/-- Whether interrupts are let in. -/
def levelReply : ThreadProgram Reply := do
  return .flag (← ask .interrupts).isOn

/-- What an operation does, and what it answers. -/
def perform (s : SyncState) : SyncOp → ThreadProgram (Reply × SyncState)
  | send c value => do
    if ← act (.claimSender c) then
      if ← ThreadProgram.send c (.status value) then return (.sent, s)
      else return (.returned value, s)
    else return (.gone, s)
  | receive c => do
    if ← act (.claimReceiver c) then
      match ← act (.receive c) with
      | some (.status value) => return (.received value, s)
      | _ => return (.closed, s)
    else return (.gone, s)
  | dropSender c => do
    let there ← act (.claimSender c)
    if there then ThreadProgram.dropSender c
    return (.flag there, s)
  | dropReceiver c => do
    let there ← act (.claimReceiver c)
    if there then act (.dropReceiver c)
    return (.flag there, s)
  | isReady c => do
    if ← act (.offersReceiver c) then return (.flag (← act (.isReady c)), s)
    else return (.gone, s)
  | lock l => do
    act (.lock l)
    let value ← act (.getCell l)
    return (.number value.toInt, { s with held := l :: s.held })
  | unlock l => do
    if l ∈ s.held then
      ThreadProgram.unlock l
      return (.flag true, { s with held := s.held.filter (· ≠ l) })
    else return (.flag false, s)
  | add l amount => do
    if l ∈ s.held then
      let value := (← act (.getCell l)) + amount
      act (.setCell l value)
      return (.number value.toInt, s)
    else return (.notHeld, s)
  | isHeld l => do return (.flag (← act (.isHeld l)), s)
  | yield => do
    act .yield
    return (.nothing, s)
  | unblock t => do
    act (.unblock t)
    return (.nothing, s)
  | disableInterrupts => do
    let before ← ask .disableInterrupts
    return (← levelReply, { s with levels := s.levels ++ [before] })
  | restoreNewest => do
    restore s.levels.getLast?
    return (← levelReply, { s with levels := s.levels.dropLast })
  | restoreOldest => do
    restore s.levels.head?
    return (← levelReply, { s with levels := s.levels.tail })

/-- Let go of everything. -/
def letGo (s : SyncState) : ThreadProgram Unit := do
  s.levels.forM fun level => ask (.setInterrupts level)
  (s.held.mergeSort fun a b => a.index ≤ b.index).forM ThreadProgram.unlock

/-- Do operations, the first of which has number `i`, and report their answers. -/
def performAll (s : SyncState) (i : Nat) : List SyncOp → ThreadProgram Unit
  | [] => letGo s
  | op :: rest => do
    let (reply, s) ← perform s op
    ask (.report i reply)
    performAll s (i + 1) rest

end SyncOp

/-- What a run of locks and channels starts from. -/
structure SyncPlan where
  /-- How many channels there are. -/
  channels : Nat
  /-- How many locks there are. -/
  locks : Nat
  /-- What the threads do. -/
  threads : List (List SyncOp)

namespace SyncPlan

/-- Nothing is made during the run. -/
def environment : Environment := ⟨fun _ => pure (), fun _ => true, [], fun _ => pure ()⟩

/-- The machine at the start, without threads. -/
def bare (p : SyncPlan) : Machine :=
  { Machine.fresh (Devices.fresh (Volume.empty .bounded) (.ofFrames 0) []) p.locks with
    channels := Array.replicate p.channels Oneshot.fresh
    loneSenders := List.range p.channels
    loneReceivers := List.range p.channels }

/-- The machine at the start. -/
def machine (p : SyncPlan) : Machine :=
  p.threads.foldl (fun m script => (m.addThread (SyncOp.performAll ⟨[], []⟩ 0 script)).2) p.bare

/-- Run the machine until it is over. -/
def run (p : SyncPlan) : Machine × RunOutcome :=
  let ready := (List.range p.threads.length).map (· + 1)
  let (h, outcome) := (Host.ofMachine p.machine ready false).run environment
  (h.machine, outcome)

end SyncPlan

end Userland

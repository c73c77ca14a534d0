import Userland.Machine.Step

/-!
# A cooperative host

The host runs one thread at a time, until it waits, lets others go first, or ends; then the thread
that has been ready for longest goes on. The volume may be slow: then a thread that is about to use
it lets the others go first, once for each use.

A run ends when every thread has ended (`RunOutcome.done`), when no thread can go on although some
sleep (`RunOutcome.deadlock`), or when the machine stops.
-/

namespace Userland

/-- A machine and the order in which its threads go on. -/
structure Host where
  /-- The machine. -/
  machine : Machine
  /-- The thread that runs. -/
  running : Tid
  /-- The other threads that can go on, in the order in which they became ready. -/
  ready : List Tid
  /-- Whether the volume is slow. -/
  slowVolume : Bool
  /-- Threads that have let others go first and may use the volume. -/
  admitted : List Tid

/-- How a run ends. -/
inductive RunOutcome where
  /-- Every thread has ended. -/
  | done
  /-- Some threads sleep, and none can go on. -/
  | deadlock
  /-- The machine was stopped. -/
  | stopped (how : Stop)
  /-- The run was given up. -/
  | unfinished

namespace Host

/-- Whether what a program does first is to use the volume. -/
def usesVolume : ThreadProgram Unit → Bool
  | Program.ask (Action.device r) _ => r.usesVolume
  | _ => false

/-- Whether what a program does first is to let other threads go. -/
def yields : ThreadProgram Unit → Bool
  | Program.ask Action.yield _ => true
  | _ => false

/-- Let the thread go on that has been ready for longest; if there is none the run is over. -/
def switch (h : Host) : Host × Option RunOutcome :=
  match h.ready with
  | t :: rest => ({ h with running := t, ready := rest }, none)
  | [] =>
    if h.machine.threads.any fun th => th.status = .asleep then (h, some .deadlock)
    else (h, some .done)

/-- Let the running thread go on after all others that can. -/
def rotate (h : Host) : Host × Option RunOutcome := switch { h with ready := h.ready ++ [h.running] }

/-- Let the running thread make a step. -/
def advance (env : Environment) (h : Host) : Host × Option RunOutcome :=
  let program := (h.machine.thread h.running).program
  let (machine, ready) := h.machine.step env h.running
  let next := { h with machine := machine, ready := h.ready ++ ready }
  match machine.stopped with
  | some how => (next, some (.stopped how))
  | none =>
    if yields program then next.rotate
    else if (machine.thread h.running).canStep then (next, none)
    else next.switch

/-- Let the running thread make a step, or wait for the volume. -/
def turn (env : Environment) (h : Host) : Host × Option RunOutcome :=
  if h.slowVolume && usesVolume (h.machine.thread h.running).program then
    if h.running ∈ h.admitted then
      advance env { h with admitted := h.admitted.filter (· ≠ h.running) }
    else rotate { h with admitted := h.running :: h.admitted }
  else advance env h

/-- At most so many turns are made. -/
def turns (env : Environment) : Nat → Host → Host × RunOutcome
  | 0, h => (h, .unfinished)
  | n + 1, h =>
    match turn env h with
    | (h, none) => turns env n h
    | (h, some outcome) => (h, outcome)

/-- A host for a machine whose threads are ready in a given order. -/
def ofMachine (machine : Machine) (ready : List Tid) (slowVolume : Bool) : Host :=
  ⟨machine, 0, ready, slowVolume, []⟩

/-- The number of turns after which a run is given up. -/
def patience : Nat := 0x10000000000

/-- Run the machine until it is over. -/
def run (env : Environment) (h : Host) : Host × RunOutcome :=
  match h.switch with
  | (h, none) => turns env patience h
  | (h, some outcome) => (h, outcome)

end Host

end Userland

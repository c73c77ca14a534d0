/-!
# One-shot channels

A one-shot channel carries one value from one sender to one receiver. Sending a value and dropping
the sender both settle the channel, once; the receiver then gets the value, or learns that there is
none. A receiver that comes early leaves its name and sleeps.

The operations here are the atomic steps on the state of a channel. Waking the receiver is a further
step, taken after the state has changed (`Userland.Machine.Step`).
-/

namespace Userland

/-- What has become of the value. -/
inductive OneshotState (α : Type) where
  /-- The channel is not settled. -/
  | empty
  /-- A value waits for the receiver. -/
  | full (value : α)
  /-- There is no value, and there will be none. -/
  | closed

/-- A channel. `τ` names threads. -/
structure Oneshot (τ α : Type) where
  /-- What has become of the value. -/
  state : OneshotState α
  /-- The thread that sleeps until the channel is settled. -/
  waiter : Option τ
  /-- Whether the receiver still exists. -/
  receiver : Bool

namespace Oneshot

variable {τ α : Type}

/-- A channel that has just been made. -/
def fresh : Oneshot τ α := ⟨.empty, none, true⟩

/-- Whether the channel is settled. -/
def isReady (c : Oneshot τ α) : Bool :=
  match c.state with
  | .empty => false
  | _ => true

/-- Settle the channel with a value, or without one, and give the thread to be woken. A channel that
    is settled already keeps its state. -/
def settle (c : Oneshot τ α) (value : Option α) : Option τ × Oneshot τ α :=
  let settled := match value with
    | some v => .full v
    | none => .closed
  let state := match c.state with
    | .empty => settled
    | other => other
  (c.waiter, { c with state := state, waiter := none })

/-- One attempt of thread `t` to receive. If the channel is settled the receiver is used up and gives
    the value, if there is one; else the thread is noted as waiting, and there is no answer. -/
def receive (c : Oneshot τ α) (t : τ) : Option (Option α) × Oneshot τ α :=
  match c.state with
  | .full v => (some (some v), { c with state := .closed, receiver := false })
  | .closed => (some none, { c with receiver := false })
  | .empty => (none, { c with waiter := some t })

/-- The receiver is dropped. -/
def dropReceiver (c : Oneshot τ α) : Oneshot τ α := { c with receiver := false }

end Oneshot

end Userland

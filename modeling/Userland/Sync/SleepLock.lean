/-!
# Sleeping locks

A sleeping lock has at most one holder. A thread that finds it held queues up and sleeps. Releasing
the lock frees it and names the thread at the front of the queue, which is to be woken; that thread
stays in the queue until it has the lock, and another thread may take the lock before it does.

The operations here are the atomic steps on the state of a lock. Sleeping and waking are further
steps (`Userland.Machine.Step`).
-/

namespace Userland

/-- The state of a lock. `τ` names threads. -/
structure SleepLock (τ : Type) where
  /-- The thread that holds the lock. -/
  holder : Option τ
  /-- The threads that want it, in the order in which they first failed to get it. -/
  waiters : List τ

namespace SleepLock

variable {τ : Type} [DecidableEq τ]

/-- A lock that nobody holds or wants. -/
def fresh : SleepLock τ := ⟨none, []⟩

/-- Whether some thread holds the lock. -/
def isHeld (l : SleepLock τ) : Bool := l.holder.isSome

/-- One attempt of thread `t` to take the lock: whether it succeeds, and the state after it. A thread
    that fails is in the queue. -/
def tryLock (l : SleepLock τ) (t : τ) : Bool × SleepLock τ :=
  match l.holder with
  | none => (true, ⟨some t, l.waiters.filter (· ≠ t)⟩)
  | some _ => (false, if t ∈ l.waiters then l else { l with waiters := l.waiters ++ [t] })

/-- Free the lock and give the thread to be woken. -/
def release (l : SleepLock τ) : Option τ × SleepLock τ :=
  (l.waiters.head?, { l with holder := none })

end SleepLock

end Userland

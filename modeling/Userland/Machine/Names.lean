/-!
# Names of things in the machine

Threads, channels and locks are named by numbers, given out in order and never given out again.
Thread 0 does not exist. A process has the number of the thread that hosts it, which programs see
as a signed word.
-/

namespace Userland

/-- A thread. -/
abbrev Tid := Nat

/-- A thread's number as programs see it. -/
def Tid.toPid (t : Tid) : Int32 := Int32.ofNat t

/-- A one-shot channel. -/
structure ChannelId where
  /-- Its number. -/
  index : Nat
deriving DecidableEq

/-- A sleeping lock. -/
structure LockId where
  /-- Its number. -/
  index : Nat
deriving DecidableEq

end Userland

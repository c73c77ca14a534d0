import Userland.Kernel.Settings
import Userland.Process.Basic
import Userland.Syscall.Call
import Userland.Trap

/-!
# What scripts are told

A thread that follows a script reports what each operation of the script answered. The reports of all
threads form one transcript, in the order in which the operations ended; the end of a thread is
reported as well.
-/

namespace Userland

/-- The answer to an operation of a script. -/
inductive Reply where
  /-- There is nothing to tell. -/
  | nothing
  /-- Yes or no. -/
  | flag (value : Bool)
  /-- A number. -/
  | number (value : Int)
  /-- How many, if there was anything to count. -/
  | count (value : Option Nat)
  /-- Bytes. -/
  | bytes (value : Bytes)
  /-- Several byte strings. -/
  | texts (values : List Bytes)
  /-- The state in which a program was started. -/
  | context (value : UserContext)
  /-- A process, as it is. -/
  | process (value : Process)
  /-- The mapped pages. -/
  | pages (values : List AddressSpace.PageSummary)
  /-- What a system call comes to. -/
  | dispatched (value : Except UserFault Outcome)
  /-- The exit status of the initial process. -/
  | ran (value : Except ExecError Int32)
  /-- The number of a child. -/
  | started (value : Except ExecError Tid)
  /-- The exit status of a child. -/
  | waited (value : Except WaitError Int32)
  /-- The children, as they are. -/
  | children (value : Children)
  /-- The registers after a trap. -/
  | frame (value : TrapFrame)
  /-- The limits of the kernel. -/
  | settings (value : Settings)
  /-- A value was sent. -/
  | sent
  /-- A value came back, since nobody would receive it. -/
  | returned (value : Int32)
  /-- A value was received. -/
  | received (value : Int32)
  /-- No value will come. -/
  | closed
  /-- The end of the channel was taken before. -/
  | gone
  /-- The thread does not hold the lock. -/
  | notHeld

/-- A line of the transcript. -/
structure Report where
  /-- Who reports. -/
  thread : Tid
  /-- The operation and its answer; nothing at the end of the thread. -/
  answer : Option (Nat × Reply)

end Userland

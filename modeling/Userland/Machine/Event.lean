import Userland.Bytes
import Userland.Machine.Names

/-!
# Traces and logs

Calls on devices and on the scheduler leave events behind, each with the thread that made the call.
Log records are the kernel's own remarks.
-/

namespace Userland

/-- A call on a device or on the scheduler. -/
inductive Event where
  /-- A thread was asked for; it has a number if it was made. -/
  | spawn (name : String) (priority : UInt8) (made : Option Tid)
  /-- User mode was entered. -/
  | enter
  /-- The thread asked to be ended. -/
  | exit
  /-- The machine was to be powered off. -/
  | halt
  /-- Page tables were activated, by their directory, or the kernel's own. -/
  | activate (root : Option Nat)
  /-- Interrupts were turned off. -/
  | disableInterrupts
  /-- The interrupt level was set. -/
  | setInterrupts (on : Bool)
  /-- A frame was asked for. -/
  | allocate (given : Bool)
  /-- A frame came back. -/
  | free
  /-- A file was to be opened. -/
  | openFile (path : String) (done : Bool)
  /-- A file was to be made. -/
  | create (path : String) (size : UInt32) (done : Bool)
  /-- A name was to be taken away. -/
  | remove (path : String) (done : Bool)
  /-- A file was read. -/
  | read (name : String) (asked got : Nat)
  /-- A file was written. -/
  | write (name : String) (asked got : Nat)
  /-- A position was moved. -/
  | seek (name : String) (position : UInt32)
  /-- Writes were denied. -/
  | deny (name : String)
  /-- Writes were allowed. -/
  | allow (name : String)
  /-- A handle was closed. -/
  | close (name : String)
  /-- A buffer went to the console. -/
  | put (buffer : Bytes)

/-- Whether the event is the return of a frame. -/
def Event.isFree : Event → Bool
  | free => true
  | _ => false

/-- How serious a log record is. -/
inductive LogLevel where
  /-- Something is wrong. -/
  | error
  /-- Worth knowing. -/
  | info
  /-- What a program did. -/
  | debug
  /-- What the kernel did. -/
  | trace
deriving DecidableEq

/-- The name of a level. -/
def LogLevel.name : LogLevel → String
  | error => "error"
  | info => "info"
  | debug => "debug"
  | trace => "trace"

end Userland

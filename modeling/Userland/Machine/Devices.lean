import Userland.Console
import Userland.Machine.Event
import Userland.Machine.Transcript
import Userland.Sync.Interrupts

/-!
# What threads share, and what each has for itself

`Devices` is what all threads use without ever sleeping: the volume, the frame pool, the console, and
the records that are kept of their use. `Belongings` is what one thread has for itself: its process,
and in its hands whatever it is putting together or taking apart. A frame, a space or a handle is
always in one place, and requests move it from place to place.
-/

namespace Userland

/-- Devices and records. -/
structure Devices where
  /-- The mounted volume. -/
  volume : Volume
  /-- The frames for user pages. -/
  pool : FramePool
  /-- Keyboard and display. -/
  console : Console
  /-- How many address spaces were made. -/
  spacesMade : Nat
  /-- How many frames came back from threads with interrupts off. -/
  freedWithInterruptsOff : Nat
  /-- Events, newest first. -/
  trace : List (Tid × Event)
  /-- Log records, newest first. -/
  log : List (LogLevel × String)
  /-- The transcript, newest first. -/
  transcript : List Report
  /-- What went wrong in threads that failed, newest first. -/
  failures : List String
  /-- Whether the machine was to be powered off. -/
  halted : Bool

namespace Devices

/-- Devices of which nothing has been used. -/
def fresh (volume : Volume) (pool : FramePool) (input : Bytes) : Devices :=
  { volume := volume
    pool := pool
    console := .ofInput input
    spacesMade := 0
    freedWithInterruptsOff := 0
    trace := []
    log := []
    transcript := []
    failures := []
    halted := false }

/-- Record an event. -/
def note (d : Devices) (t : Tid) (e : Event) : Devices := { d with trace := (t, e) :: d.trace }

/-- What a thread activated, oldest first. -/
def activations (d : Devices) (t : Tid) : List (Option Nat) :=
  d.trace.reverse.filterMap fun (u, e) =>
    match e with
    | .activate root => if u = t then some root else none
    | _ => none

/-- Record a remark of the kernel. -/
def remark (d : Devices) (level : LogLevel) (text : String) : Devices :=
  { d with log := (level, text) :: d.log }

/-- Record a report. -/
def report (d : Devices) (r : Report) : Devices := { d with transcript := r :: d.transcript }

/-- Take a frame back from thread `t`, which runs at an interrupt level. -/
def releaseFrame (d : Devices) (t : Tid) (level : InterruptLevel) (f : Frame) : Devices :=
  let off := if level.isOn then 0 else 1
  { d with
    pool := d.pool.release f
    freedWithInterruptsOff := d.freedWithInterruptsOff + off }.note t .free

end Devices

/-- What a thread holds outside its process. -/
structure Hands where
  /-- A space that is being filled or emptied. -/
  space : Option AddressSpace
  /-- A frame that is being filled. -/
  frame : Option Frame
  /-- Handles that are about to be kept or closed. -/
  files : List Handle
  /-- A process that is about to be destroyed. -/
  process : Option Process

/-- Nothing in hand. -/
def Hands.empty : Hands := ⟨none, none, [], none⟩

/-- What a thread has for itself. -/
structure Belongings where
  /-- The thread's number. -/
  tid : Tid
  /-- Its interrupt level. -/
  interrupts : InterruptLevel
  /-- The process that it hosts. -/
  process : Option Process
  /-- What it holds besides. -/
  hands : Hands
  /-- The children that it started without a process of its own. -/
  kin : Children
  /-- The record of the initial process, if the thread runs that. -/
  initial : Children

namespace Belongings

/-- What a new thread has. -/
def fresh (t : Tid) : Belongings := ⟨t, .on, none, .empty, .empty, .empty⟩

/-- The belongings with the process changed, if there is one. -/
def modifyProcess (b : Belongings) (f : Process → Process) : Belongings :=
  { b with process := b.process.map f }

/-- The memory of the thread's process. -/
def space? (b : Belongings) : Option AddressSpace := b.process.bind (·.space)

end Belongings

/-- Whose children are meant. -/
inductive Family where
  /-- Those of the thread's process. -/
  | process
  /-- Those that the thread started for itself. -/
  | kin
  /-- The initial process. -/
  | initial
deriving DecidableEq

namespace Belongings

/-- The registry of a family. -/
def children (b : Belongings) : Family → Children
  | .process => ((b.process.map (·.children)).getD .empty)
  | .kin => b.kin
  | .initial => b.initial

/-- The belongings with a registry changed. -/
def modifyChildren (b : Belongings) (f : Children → Children) : Family → Belongings
  | .process => b.modifyProcess fun p => { p with children := f p.children }
  | .kin => { b with kin := f b.kin }
  | .initial => { b with initial := f b.initial }

end Belongings

end Userland

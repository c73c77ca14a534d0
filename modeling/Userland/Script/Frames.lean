import Userland.Machine.Request

/-!
# Scripts for frames, interrupts and the console

A script takes frames from a pool, holds them under numbers, and gives them back; it may do so with
interrupts off, which the devices count, and it may use the console in between.
-/

namespace Userland

/-- An operation on frames, interrupts or the console. -/
inductive FrameOp where
  /-- Take a frame and hold it. -/
  | allocate (id : Nat)
  /-- Give a frame back. -/
  | free (id : Nat)
  /-- Fill a frame with one byte. -/
  | fill (id : Nat) (b : UInt8)
  /-- Tell the digest of a frame. -/
  | digest (id : Nat)
  /-- Keep interrupts out. -/
  | disableInterrupts
  /-- Go back to the level before the newest section without interrupts. -/
  | restoreInterrupts
  /-- Read a keyboard byte. -/
  | getByte
  /-- Show a buffer. -/
  | put (buffer : Bytes)

/-- What can be told of a frame that was just taken. -/
structure TakenFrame where
  /-- Whether it starts at a page boundary. -/
  aligned : Bool
  /-- Whether all its bytes are zero. -/
  zero : Bool
  /-- Whether no other frame that is held is the same. -/
  unshared : Bool

/-- The answer to an operation. -/
inductive FrameReply where
  /-- The frame taken, if there was one. -/
  | taken (frame : Option TakenFrame)
  /-- Whether a frame was held. -/
  | held (done : Bool)
  /-- The digest of a frame, if it was held. -/
  | digest (value : Option UInt32)
  /-- The interrupt level. -/
  | level (level : InterruptLevel)
  /-- A byte. -/
  | byte (b : UInt8)
  /-- All that was shown, and in how many buffers. -/
  | shown (output : Bytes) (buffers : Nat)

/-- What a script works on. -/
structure FrameDesk where
  /-- The devices. -/
  devices : Devices
  /-- The thread. -/
  own : Belongings
  /-- Frames held, by number. -/
  held : List (Nat × Frame)
  /-- The levels before the sections without interrupts, the newest first. -/
  levels : List InterruptLevel

namespace FrameDesk

/-- A desk with a pool of frames and keyboard input. -/
def fresh (pool : FramePool) (input : Bytes) : FrameDesk :=
  ⟨.fresh (Volume.empty .bounded) pool input, .fresh 1, [], []⟩

/-- Run a routine at a desk. -/
def run {α : Type} (desk : FrameDesk) (r : Routine α) : α × FrameDesk :=
  let (x, own, devices) := r.run desk.own desk.devices
  (x, { desk with own := own, devices := devices })

/-- What can be told of a frame. -/
def describe (desk : FrameDesk) (f : Frame) : TakenFrame :=
  { aligned := f.address.isAligned
    zero := (desk.devices.pool.read f 0 pageSize).all (· = 0)
    unshared := desk.held.all fun (_, g) => g ≠ f }

end FrameDesk

namespace FrameOp

open Routine

/-- What an operation answers, and the desk afterwards. -/
def perform (desk : FrameDesk) : FrameOp → FrameReply × FrameDesk
  | allocate id =>
    let (_, desk) := desk.run (ask .allocate)
    match desk.own.hands.frame with
    | some f =>
      (.taken (some (desk.describe f)),
        { desk with
          own := { desk.own with hands := .empty }
          held := (id, f) :: desk.held.filter fun (i, _) => i ≠ id })
    | none => (.taken none, desk)
  | free id =>
    match desk.held.lookup id with
    | some f =>
      let desk := { desk with
        own := { desk.own with hands := { Hands.empty with frame := some f } }
        held := desk.held.filter fun (i, _) => i ≠ id }
      (.held true, (desk.run (ask .freeFrame)).2)
    | none => (.held false, desk)
  | fill id b =>
    match desk.held.lookup id with
    | some f =>
      let pool := desk.devices.pool.write f 0 (List.replicate pageSize b)
      (.held true, { desk with devices := { desk.devices with pool := pool } })
    | none => (.held false, desk)
  | digest id =>
    (.digest ((desk.held.lookup id).map fun f =>
      Digest.ofBytes (desk.devices.pool.read f 0 pageSize)), desk)
  | disableInterrupts =>
    let (before, desk) := desk.run (ask .disableInterrupts)
    (.level desk.own.interrupts, { desk with levels := before :: desk.levels })
  | restoreInterrupts =>
    match desk.levels with
    | before :: rest =>
      let (_, desk) := desk.run (ask (.setInterrupts before))
      (.level desk.own.interrupts, { desk with levels := rest })
    | [] => (.level desk.own.interrupts, desk)
  | getByte =>
    let (b, desk) := desk.run (ask .getByte)
    (.byte b, desk)
  | put buffer =>
    let (_, desk) := desk.run (ask (.put buffer))
    (.shown desk.devices.console.output desk.devices.console.writes, desk)

/-- What operations answer, one after the other, each with the devices afterwards. -/
def performAll (desk : FrameDesk) : List FrameOp → List (FrameReply × Devices)
  | [] => []
  | op :: rest =>
    let (reply, desk) := perform desk op
    (reply, desk.devices) :: performAll desk rest

end FrameOp

end Userland

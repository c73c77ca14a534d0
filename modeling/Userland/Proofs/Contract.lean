import Mathlib.Tactic.Common
import Userland.Kernel.Basic
import Userland.Machine.Step
import Userland.Proofs.Pages
import Userland.Proofs.Registry

/-!
# What threads may do

Threads share devices, channels and a lock, and what keeps them from harm is that each keeps to some
rules. A thread knows what it stands in for (`Standing`): its belongings, and its duties, which are
nowhere in the machine but follow from what the thread has done. The rules (`Allowed`) say what a
thread may do as it stands; `Follows` says how it stands afterwards, whatever the other threads and
the devices are up to. `wp` carries both through a whole program: a thread that stands so keeps to the
rules for as long as the program lasts, and stands as the postcondition says if it comes to an end.

That all rules together keep the machine in order is shown in `Userland.Proofs.Soundness`.
-/

namespace Userland

/-! ## What belongs to a thread -/

namespace Process

/-- The handles that a process owns. -/
def handles (p : Process) : List Handle := p.files.files ++ p.executable.toList

/-- A process whose program runs. -/
structure Runs (p : Process) (start : NewProcess) : Prop where
  /-- It says so. -/
  state : p.state = .running
  /-- It has yet to tell its exit status. -/
  told : p.exitSignal = some start.exit
  /-- No child is on record twice. -/
  distinct : p.children.keys.Nodup

/-- A process from which everything has been taken. -/
structure Bare (p : Process) : Prop where
  /-- It has no memory. -/
  space : p.space = none
  /-- It has no open files. -/
  files : p.files.files = []
  /-- It has no executable. -/
  executable : p.executable = none
  /-- It has no children. -/
  children : p.children = .empty
  /-- It has told its exit status. -/
  exitSignal : p.exitSignal = none

end Process

namespace Belongings

/-- The frames that back a space, if there is one. -/
def framesOf (s : Option AddressSpace) : List Frame := (s.map (·.frames)).getD []

/-- The frames that a thread has: in its process's space, in the space in hand, and in hand. -/
def frames (b : Belongings) : List Frame :=
  framesOf b.space? ++ framesOf b.hands.space ++ b.hands.frame.toList

/-- The handles that a thread has: its process's, and those in hand. -/
def handles (b : Belongings) : List Handle :=
  (b.process.map Process.handles).getD [] ++ b.hands.files

/-- The records of children that a thread has, of every family. -/
def records (b : Belongings) : List (Tid × ChannelId) :=
  (b.children .process).records ++ b.kin.records ++ b.initial.records

theorem records_of_children {b : Belongings} {family : Family} {t : Tid} {c : ChannelId}
    (mem : (t, c) ∈ (b.children family).records) : (t, c) ∈ b.records := by
  cases family <;> simp_all [records, children]

theorem notMem_keys {b : Belongings} {t : Tid} (new : t ∉ b.records.map (·.1)) (family : Family) :
    t ∉ (b.children family).keys := fun listed => by
  obtain ⟨⟨u, c⟩, recorded, rfl⟩ := List.mem_map.1 listed
  exact new (List.mem_map_of_mem (records_of_children recorded))

/-- The channel on which the thread's process is to tell its exit status. -/
def exits (b : Belongings) : List ChannelId := (b.process.bind (·.exitSignal)).toList

/-- What a thread has in hand is what the state of its process calls for. -/
structure Orderly (b : Belongings) : Prop where
  /-- Handles are in hand one at a time, save at the end of a process. -/
  files : b.hands.files ≠ [] →
    ∃ p, b.process = some p ∧ (p.state ≠ .exiting → b.hands.files.length ≤ 1)
  /-- A space is in hand while a program is loaded or a process is taken apart. -/
  space : b.hands.space ≠ none → ∃ p, b.process = some p ∧ p.state ≠ .running
  /-- A frame is in hand while a program is loaded. -/
  frame : b.hands.frame ≠ none → ∃ p, b.process = some p ∧ p.state = .loading
  /-- A process that is about to be destroyed has nothing left. -/
  process : ∀ p, b.hands.process = some p → p.Bare

end Belongings

/-- What a thread has to see to besides its belongings. -/
structure Duties where
  /-- Channels both of whose ends the thread has. -/
  made : List ChannelId
  /-- Channels that the thread was given to settle, apart from that of its process. -/
  given : List ChannelId
  /-- Channels from which the thread may receive, apart from those of recorded children. -/
  awaited : List ChannelId
  /-- Whether the thread holds the lock on the volume. -/
  locked : Bool
  /-- The registry whose lock the thread holds, if any. -/
  registry : Option Family
  /-- The thread that it is about to wake, if any. -/
  wakes : Option Tid
  /-- The threads that it made for children, with their exit channels. -/
  born : List (Tid × ChannelId)
  /-- What the thread was started from, if it is a child's. -/
  start : Option NewProcess

namespace Duties

/-- What a new thread has to see to. -/
def fresh (start : Option NewProcess) : Duties :=
  { made := []
    given := match start with
      | some start => [start.loaded, start.exit]
      | none => []
    awaited := []
    locked := false
    registry := none
    wakes := none
    born := []
    start := start }

/-- The duties of a thread that has only its memory of what was. -/
def idle (born : List (Tid × ChannelId)) (start : Option NewProcess) : Duties :=
  ⟨[], [], [], false, none, none, born, start⟩

/-- Nothing is left to see to, apart from what was recorded. -/
structure Free (g : Duties) : Prop where
  /-- No channel was made. -/
  made : g.made = []
  /-- No channel is to be settled. -/
  given : g.given = []
  /-- No channel is to be received from. -/
  awaited : g.awaited = []
  /-- The lock is not held. -/
  locked : g.locked = false
  /-- The lock on no registry is held. -/
  registry : g.registry = none
  /-- No thread is to be woken. -/
  wakes : g.wakes = none

theorem free_idle (born : List (Tid × ChannelId)) (start : Option NewProcess) :
    (idle born start).Free := ⟨rfl, rfl, rfl, rfl, rfl, rfl⟩

end Duties

/-- How a thread stands. -/
structure Standing where
  /-- What it has for itself. -/
  own : Belongings
  /-- What it has to see to. -/
  duties : Duties

namespace Standing

/-- A thread that may end: it has nothing, and nothing to see to. -/
structure Done (s : Standing) : Prop where
  /-- It hosts no process. -/
  process : s.own.process = none
  /-- Nothing is in hand. -/
  hands : s.own.hands = .empty
  /-- No children are recorded. -/
  kin : s.own.kin = .empty
  /-- No initial process is recorded. -/
  initial : s.own.initial = .empty
  /-- Nothing is to be seen to. -/
  free : s.duties.Free

/-- A thread with interrupts on that hosts a process and has no records of its own. -/
def host (t : Tid) (p : Process) (hands : Hands) (g : Duties) : Standing :=
  ⟨⟨t, .on, some p, hands, .empty, .empty⟩, g⟩

variable {t : Tid} {start : NewProcess} {s : Standing}

/-- A thread in user mode: it hosts a process that runs, and has nothing else. -/
def Running (t : Tid) (start : NewProcess) (s : Standing) : Prop :=
  ∃ p born, s = host t p .empty (.idle born (some start)) ∧ p.Runs start

theorem Running.wakes (running : Running t start s) : s.duties.wakes = none := by
  obtain ⟨p, born, rfl, -⟩ := running
  rfl

end Standing

/-! ## The rules -/

namespace DeviceRequest

/-- What is required of a thread that makes a request. -/
def Permitted : DeviceRequest → Standing → Prop
  | newProcess _ _ exit, s =>
    s.own.process = none ∧ s.duties.start.map (·.exit) = some exit ∧ exit ∈ s.duties.given
  | setState _, s => s.own.hands = .empty
  | takeExecutable, s | takeFiles, s => ∃ p, s.own.process = some p ∧ p.state = .exiting
  | detachSpace, s =>
    (∃ p, s.own.process = some p ∧ p.state = .exiting) ∧ s.own.hands.space = none
  | detachProcess, s => s.own.hands = .empty ∧ ∀ p, s.own.process = some p → p.Bare
  | destroyProcess, s => ∀ p, s.own.hands.process = some p → p.Bare
  | newSpace, s =>
    (∃ p, s.own.process = some p ∧ p.state = .loading) ∧ s.own.hands.space = none
  | allocate, s =>
    (∃ p, s.own.process = some p ∧ p.state = .loading) ∧ s.own.hands.frame = none
  | freeFrame, s | mapFrame .., s => s.own.interrupts = .on
  | freePage page, s =>
    s.own.interrupts = .on ∧
      ∃ space e rest, s.own.hands.space = some space ∧ space.pages = (page, e) :: rest
  | dropSpace, s => ∀ space, s.own.hands.space = some space → space.pages = []
  | installSpace, s => ∀ p, s.own.process = some p → p.space = none
  | installExecutable h, s =>
    h ∈ s.own.hands.files ∧ ∀ p, s.own.process = some p → p.executable = none
  | openFile _, s =>
    s.duties.locked = true ∧ s.own.hands.files = [] ∧ s.own.process.isSome = true
  | create .., s | remove _, s | read .., s | write .., s | seek .., s | tell _, s | length _, s =>
    s.duties.locked = true
  | deny h, s | allow h, s | close h, s => s.duties.locked = true ∧ h ∈ s.own.hands.files
  | keepFile h, s => h ∈ s.own.hands.files
  | takeFile _, s => s.own.hands.files = []
  | register family child exit, s =>
    (family = .process → s.own.process.isSome = true) ∧ (child, exit) ∈ s.duties.born ∧
      exit ∈ s.duties.awaited ∧ exit ∉ s.duties.made ∧ child ∉ s.own.records.map (·.1) ∧
      s.duties.registry = some family
  | takeChild family _, s | takeChildren family, s | children family, s =>
    s.duties.registry = some family
  | _, _ => True

/-- What a thread has to see to after a request. -/
def after : (r : DeviceRequest) → r.Answer → Duties → Duties
  | newProcess _ _ exit, _, g => { g with given := g.given.erase exit }
  | takeExitSignal, exit, g => { g with given := exit.toList ++ g.given }
  | register _ _ exit, _, g => { g with awaited := g.awaited.erase exit }
  | takeChild .., exit, g => { g with awaited := exit.toList ++ g.awaited }
  | takeChildren _, exits, g => { g with awaited := exits ++ g.awaited }
  | _, _, g => g

/-- The requests that leave a thread as it stands. -/
def isQuiet : DeviceRequest → Bool
  | newProcess .. | setState _ | setExitStatus _ | takeExitSignal | takeExecutable | takeFiles
  | detachSpace | detachProcess | destroyProcess | newSpace | allocate | freeFrame | mapFrame ..
  | freePage _ | dropSpace | installSpace | installExecutable _ | openFile _ | close _
  | keepFile _ | takeFile _ | disableInterrupts | setInterrupts _ | register .. | takeChild ..
  | takeChildren _ => false
  | _ => true

/-- A request on the memory of the process reads it only. -/
theorem own_onMemory {α : Type} (start : VirtAddr) (b : Belongings) (d : Devices)
    (f : AddressSpace → FramePool → Except UserFault α) : (onMemory start b d f).2.1 = b := by
  unfold onMemory
  split <;> rfl

theorem own_of_isQuiet {r : DeviceRequest} (quiet : r.isQuiet = true) (b : Belongings)
    (d : Devices) : (r.serve b d).2.1 = b := by
  cases r <;>
    first
    | rfl
    | exact Bool.noConfusion quiet
    | exact own_onMemory ..
    | (simp only [serve]; split <;> rfl)

theorem after_of_isQuiet {r : DeviceRequest} (quiet : r.isQuiet = true) (answer : r.Answer)
    (g : Duties) : r.after answer g = g := by
  cases r <;> first | rfl | exact Bool.noConfusion quiet

end DeviceRequest

/-- A thread settles the channels that it was started with, each with what the channel is for. -/
def Duties.MaySettle (g : Duties) (c : ChannelId) (value : Option Signal) : Prop :=
  ∃ start, g.start = some start ∧
    ((c = start.loaded ∧ ∃ ok, value = some (.loaded ok)) ∨
      (c = start.exit ∧ ∃ status, value = some (.status status)))

/-- What a thread may do as it stands. A thread that is about to wake another does that first. A thread
    that may have to wait holds no lock, and is not the one that is waited for. Blocks of code are for user
    mode. -/
def Allowed : Action → Standing → Prop
  | .device r, s => s.duties.wakes = none ∧ r.Permitted s
  | .spawn _ _ start, s =>
    s.duties.wakes = none ∧ start.loaded ≠ start.exit ∧
      s.duties.made = [start.exit, start.loaded]
  | .newChannel, s => s.duties.wakes = none
  | .yield, s => s.duties.wakes = none
  | .hasReceiver c, s => s.duties.wakes = none ∧ c ∈ s.duties.given
  | .settle c value, s =>
    s.duties.wakes = none ∧ c ∈ s.duties.given ∧ s.duties.MaySettle c value
  | .receive c, s =>
    s.duties.wakes = none ∧ s.duties.locked = false ∧ s.duties.made = [] ∧ c ∈ s.duties.awaited ∧
      s.duties.registry = none
  | .dropReceiver c, s =>
    s.duties.wakes = none ∧ c ∈ s.duties.awaited ∧ c ∉ s.duties.made
  | .lock l, s =>
    s.duties.wakes = none ∧ s.duties.locked = false ∧ l = Kernel.volumeLock ∧ s.duties.registry = none
  | .release l, s => s.duties.wakes = none ∧ s.duties.locked = true ∧ l = Kernel.volumeLock
  | .lockRegistry _, s => s.duties.wakes = none ∧ s.duties.registry = none
  | .unlockRegistry family, s => s.duties.wakes = none ∧ s.duties.registry = some family
  | .unblock t, s => s.duties.wakes = some t
  | .endThread, s => s.Done
  | .goto _, s => ∃ t start, s.Running t start
  | .stop _, s => s.duties.wakes = none
  | _, _ => False

/-- What a thread has to see to after an action. -/
def Action.after : (a : Action) → a.Answer → Duties → Duties
  | .device r, answer, g => r.after answer g
  | .spawn _ _ start, child, g =>
    { g with
      made := []
      born := child.toList.map (·, start.exit) ++ g.born }
  | .newChannel, c, g => { g with made := c :: g.made, awaited := c :: g.awaited }
  | .hasReceiver c, alive, g => if alive then g else { g with given := g.given.erase c }
  | .settle c _, waiter, g => { g with given := g.given.erase c, wakes := waiter }
  | .receive c, _, g => { g with awaited := g.awaited.erase c }
  | .dropReceiver c, _, g => { g with awaited := g.awaited.erase c }
  | .lock _, _, g => { g with locked := true }
  | .release _, next, g => { g with locked := false, wakes := next }
  | .lockRegistry family, _, g => { g with registry := some family }
  | .unlockRegistry _, _, g => { g with registry := none }
  | .unblock _, _, g => { g with wakes := none }
  | _, _, g => g

/-- What is known of the answer to an action that is no request to a device. -/
def Action.Promise : (a : Action) → Standing → a.Answer → Prop
  | .newChannel, s, c => c ∉ s.duties.made
  | .spawn .., s, child =>
    ∀ t, child = some t → t < threadLimit ∧ t ∉ s.own.records.map (·.1)
  | _, _, _ => True

/-- How a thread stands after an action. A device may be in any state. -/
inductive Follows : (a : Action) → Standing → a.Answer → Standing → Prop where
  /-- A device has served a request. -/
  | device (r : DeviceRequest) (s : Standing) (d : Devices) :
    Follows (.device r) s (r.serve s.own d).1
      ⟨(r.serve s.own d).2.1, r.after (r.serve s.own d).1 s.duties⟩
  /-- Another action is done. -/
  | act (a : Action) (s : Standing) (answer : a.Answer) : (∀ r, a ≠ .device r) →
    a.Promise s answer → Follows a s answer ⟨s.own, a.after answer s.duties⟩

/-! ## Whole programs -/

namespace ThreadProgram

variable {α β : Type}

/-- A thread that stands so, and has no handle twice, keeps to the rules while it runs a program; if
    the program ends, `Q` holds of the result and of how the thread stands then. -/
def wp : ThreadProgram α → (α → Standing → Prop) → Standing → Prop
  | Program.pure x, Q, s => Q x s
  | Program.ask a next, Q, s => s.own.handles.Nodup →
    Allowed a s ∧ ∀ answer s', Follows a s answer s' → wp (next answer) Q s'

variable {Q Q' : α → Standing → Prop} {s : Standing}

@[simp] theorem wp_pure (x : α) : wp (pure x : ThreadProgram α) Q s ↔ Q x s := Iff.rfl

theorem wp_bind (p : ThreadProgram α) (next : α → ThreadProgram β) (Q : β → Standing → Prop) :
    wp (p >>= next) Q s ↔ wp p (fun x s => wp (next x) Q s) s := by
  change wp (Program.bind p next) Q s ↔ _
  induction p generalizing s with
  | pure x => rfl
  | ask a rest ih => simp only [Program.bind, wp, ih]

theorem wp_map (f : α → β) (p : ThreadProgram α) (Q : β → Standing → Prop) :
    wp (f <$> p) Q s ↔ wp p (fun x s => Q (f x) s) s := by
  rw [map_eq_pure_bind, wp_bind]
  rfl

theorem wp_discard (p : ThreadProgram α) (Q : Unit → Standing → Prop) :
    wp (discard p) Q s ↔ wp p (fun _ s => Q () s) s := wp_map _ p Q

theorem wp_mono {p : ThreadProgram α} (weaker : ∀ x s, Q x s → Q' x s) (h : wp p Q s) :
    wp p Q' s := by
  induction p generalizing s with
  | pure x => exact weaker x s h
  | ask a rest ih =>
    intro distinct
    obtain ⟨allowed, next⟩ := h distinct
    exact ⟨allowed, fun answer s' follows => ih answer (next answer s' follows)⟩

/-- An action that is no request to a device. -/
theorem wp_act {a : Action} {Q : a.Answer → Standing → Prop} (other : ∀ r, a ≠ .device r)
    (allowed : Allowed a s)
    (next : ∀ answer, a.Promise s answer → Q answer ⟨s.own, a.after answer s.duties⟩) :
    wp (act a) Q s := by
  intro _
  refine ⟨allowed, fun answer s' follows => ?_⟩
  cases follows with
  | device r s d => exact absurd rfl (other r)
  | act a s answer _ promise => exact next answer promise

/-- A request to a device. -/
theorem wp_ask {r : DeviceRequest} {Q : r.Answer → Standing → Prop}
    (free : s.duties.wakes = none)
    (step : s.own.handles.Nodup → r.Permitted s ∧ ∀ d, Q (r.serve s.own d).1
      ⟨(r.serve s.own d).2.1, r.after (r.serve s.own d).1 s.duties⟩) :
    wp (ask r) Q s := by
  intro distinct
  refine ⟨⟨free, (step distinct).1⟩, fun answer s' follows => ?_⟩
  cases follows with
  | device r s d => exact (step distinct).2 d
  | act a s answer other _ => exact absurd rfl (other r)

/-- A request that leaves the thread as it stands. -/
theorem wp_quiet {r : DeviceRequest} {Q : r.Answer → Standing → Prop} (quiet : r.isQuiet = true)
    (free : s.duties.wakes = none) (permitted : r.Permitted s) (next : ∀ answer, Q answer s) :
    wp (ask r) Q s := by
  refine wp_ask free fun _ => ⟨permitted, fun d => ?_⟩
  rw [DeviceRequest.own_of_isQuiet quiet, DeviceRequest.after_of_isQuiet quiet]
  exact next _

/-! ## Routines and locks -/

theorem ofRoutine_bind (p : Routine α) (next : α → Routine β) :
    ofRoutine (p >>= next) = ofRoutine p >>= fun x => ofRoutine (next x) := by
  change ofRoutine (Program.bind p next) = Program.bind (ofRoutine p) fun x => ofRoutine (next x)
  induction p with
  | pure x => rfl
  | ask r rest ih => simp only [Program.bind, ofRoutine, ih]

@[simp] theorem ofRoutine_pure (x : α) : ofRoutine (pure x : Routine α) = pure x := rfl

@[simp] theorem ofRoutine_ask (r : DeviceRequest) : ofRoutine (Routine.ask r) = ask r := rfl

theorem wp_routine_bind (p : Routine α) (next : α → Routine β) (Q : β → Standing → Prop) :
    wp (ofRoutine (p >>= next)) Q s ↔ wp (ofRoutine p) (fun x s => wp (ofRoutine (next x)) Q s) s := by
  rw [ofRoutine_bind, wp_bind]

/-- Waking the thread that is due. -/
theorem wp_wake {t : Option Tid} {Q : Unit → Standing → Prop} (due : s.duties.wakes = t)
    (next : Q () ⟨s.own, { s.duties with wakes := none }⟩) : wp (wake t) Q s := by
  cases t with
  | none => simpa [wake, ← due] using next
  | some t => exact wp_act (fun _ => nofun) due fun _ _ => next

theorem wp_settle {c : ChannelId} {value : Option Signal} {Q : Unit → Standing → Prop}
    (free : s.duties.wakes = none) (given : c ∈ s.duties.given)
    (fit : s.duties.MaySettle c value)
    (next : Q () ⟨s.own, { s.duties with given := s.duties.given.erase c, wakes := none }⟩) :
    wp (settle c value) Q s := by
  rw [settle, wp_bind]
  exact wp_act (fun _ => nofun) ⟨free, given, fit⟩ fun _ _ => wp_wake rfl next

/-- Whether a value is sent or the receiver is gone, the channel need not be settled any more. -/
theorem wp_send {c : ChannelId} {value : Signal} {Q : Bool → Standing → Prop}
    (free : s.duties.wakes = none) (given : c ∈ s.duties.given)
    (fit : s.duties.MaySettle c (some value))
    (next : ∀ sent, Q sent ⟨s.own, { s.duties with given := s.duties.given.erase c }⟩) :
    wp (send c value) Q s := by
  rw [send, wp_bind]
  refine wp_act (fun _ => nofun) ⟨free, given⟩ fun alive _ => ?_
  cases alive with
  | true =>
    rw [if_pos rfl, wp_bind]
    exact wp_settle free given fit (by simpa [Action.after, free] using next true)
  | false => exact next false

/-- The lock is held for the time of the body. -/
theorem wp_withLock {body : Routine α} (free : s.duties.wakes = none)
    (unlocked : s.duties.locked = false) (outside : s.duties.registry = none)
    (inside : wp (ofRoutine body)
      (fun x s => s.duties.wakes = none ∧ s.duties.locked = true ∧
        Q x ⟨s.own, { s.duties with locked := false }⟩)
      ⟨s.own, { s.duties with locked := true }⟩) :
    wp (withLock Kernel.volumeLock body) Q s := by
  rw [withLock, wp_bind]
  refine wp_act (fun _ => nofun) ⟨free, unlocked, rfl, outside⟩ fun _ _ => ?_
  rw [wp_bind]
  refine wp_mono (fun x s' after => ?_) inside
  obtain ⟨free', held, next⟩ := after
  rw [unlock, wp_bind, wp_bind]
  refine wp_act (fun _ => nofun) ⟨free', held, rfl⟩ fun waiter _ => wp_wake rfl ?_
  simpa [Action.after, free'] using next

/-- The lock on a registry is held for the time of the body. -/
theorem wp_withRegistry {family : Family} {body : ThreadProgram α} (free : s.duties.wakes = none)
    (outside : s.duties.registry = none)
    (inside : wp body
      (fun x s => s.duties.wakes = none ∧ s.duties.registry = some family ∧
        Q x ⟨s.own, { s.duties with registry := none }⟩)
      ⟨s.own, { s.duties with registry := some family }⟩) :
    wp (withRegistry family body) Q s := by
  rw [withRegistry, wp_bind]
  refine wp_act (fun _ => nofun) ⟨free, outside⟩ fun _ _ => ?_
  rw [wp_bind]
  refine wp_mono (fun x s' after => ?_) inside
  obtain ⟨free', held, next⟩ := after
  rw [wp_bind]
  exact wp_act (fun _ => nofun) ⟨free', held⟩ fun _ _ => next

end ThreadProgram

end Userland

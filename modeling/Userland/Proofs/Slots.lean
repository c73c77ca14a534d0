import Userland.Proofs.Lives

/-!
# The slot of a thread

What becomes of a process from its start to its end shows in the slot of its thread (`Belongings.Slot`): the
process, but for its files and its children, the interrupt level, and a process that is about to be
destroyed. Few requests change a slot, and what they make of it follows from the slot alone
(`DeviceRequest.slot_serve`). So a program tells what the slot of its thread is like at each action
(`ThreadProgram.Throughout`), and in a run it is like that (`Scenario.throughout_at`).
-/

namespace Userland

open Program (Only)

/-! ## Slots -/

/-- What becomes of a process in its life, but for its files and its children. -/
structure Process.Outline where
  /-- Its number. -/
  pid : Int32
  /-- Where it is in its life. -/
  state : ProcessState
  /-- Its exit status, once that is decided. -/
  exitStatus : Option Int32
  /-- Its memory. -/
  space : Option AddressSpace
  /-- The handle that keeps its executable from being written. -/
  executable : Option Handle
  /-- Where its exit status goes. -/
  exitSignal : Option ChannelId

/-- What the process shows of that. -/
def Process.outline (p : Process) : Process.Outline :=
  ⟨p.pid, p.state, p.exitStatus, p.space, p.executable, p.exitSignal⟩

namespace Belongings

/-- What a thread shows of its process, or of that which it is about to destroy. -/
structure Slot where
  /-- The thread's number. -/
  tid : Tid
  /-- Its interrupt level. -/
  interrupts : InterruptLevel
  /-- The process that it hosts. -/
  process : Option Process.Outline
  /-- The process that it is about to destroy. -/
  doomed : Option Process.Outline

/-- The slot of a thread. -/
def slot (b : Belongings) : Slot :=
  ⟨b.tid, b.interrupts, b.process.map Process.outline, b.hands.process.map Process.outline⟩

/-- The memory of the process in a slot. -/
def Slot.space? (o : Slot) : Option AddressSpace := o.process.bind (·.space)

theorem space?_slot (b : Belongings) : b.slot.space? = b.space? := by
  cases hosts : b.process <;> simp [Slot.space?, slot, space?, hosts, Process.outline]

end Belongings

namespace DeviceRequest

open Belongings (Slot)

variable {r : DeviceRequest} {b : Belongings} {d : Devices}

/-- What a request makes of a slot. The memory that is installed does not show in the slot before. -/
def redraw : DeviceRequest → Slot → Slot
  | newProcess _ _ exit, o =>
    { o with process := some ⟨o.tid.toPid, .loading, none, none, none, some exit⟩ }
  | setState state, o => { o with process := o.process.map ({ · with state := state }) }
  | setExitStatus status, o => { o with process := o.process.map ({ · with exitStatus := some status }) }
  | takeExitSignal, o => { o with process := o.process.map ({ · with exitSignal := none }) }
  | takeExecutable, o => { o with process := o.process.map ({ · with executable := none }) }
  | installExecutable h, o => { o with process := o.process.map ({ · with executable := some h }) }
  | detachSpace, o => { o with process := o.process.map ({ · with space := none }) }
  | detachProcess, o => { o with process := none, doomed := o.process }
  | destroyProcess, o => { o with doomed := none }
  | disableInterrupts, o => { o with interrupts := .off }
  | setInterrupts level, o => { o with interrupts := level }
  | _, o => o

theorem slot_modifyChildren (f : Children → Children) (family : Family) :
    (b.modifyChildren f family).slot = b.slot := by
  cases family with
  | process => cases hosts : b.process <;>
      simp [Belongings.modifyChildren, Belongings.modifyProcess, Belongings.slot, hosts, Process.outline]
  | kin | initial => rfl

/-- The request by which a process gets the memory in hand, and so gets what its slot does not show. -/
def installsSpace : DeviceRequest → Bool
  | installSpace => true
  | _ => false

theorem redraw_of_isQuiet (quiet : r.isQuiet = true) (o : Slot) : r.redraw o = o := by
  cases r <;> first | rfl | cases quiet

theorem redraw_of_isManual (manual : r.isManual = true) (o : Slot) : r.redraw o = o := by
  cases r <;> first | rfl | cases manual

theorem redraw_of_movesFiles (moves : r.movesFiles = true) (o : Slot) : r.redraw o = o := by
  cases r <;> first | rfl | cases moves

theorem redraw_of_family? {family : Family} (works : r.family? = some family) (o : Slot) : r.redraw o = o := by
  cases r <;> first | rfl | cases works

/-- The slot after a request is what the request makes of it. -/
theorem slot_serve (other : r ≠ installSpace) (b : Belongings) (d : Devices) :
    (r.serve b d).2.1.slot = r.redraw b.slot := by
  have effect := effect_serve r b d
  generalize (r.serve b d).2.1 = b' at effect ⊢
  cases effect with
  | quiet quiet => rw [redraw_of_isQuiet quiet]
  | hands _ _ _ manual => exact (redraw_of_isManual manual _).symm
  | files _ _ moves =>
    rw [redraw_of_movesFiles moves]
    cases hosts : b.process <;> simp [Belongings.slot, Belongings.modifyProcess, hosts, Process.outline]
  | edited _ edits =>
    cases r <;> cases edits
    all_goals cases hosts : b.process <;>
      simp [redraw, Belongings.slot, Belongings.modifyProcess, hosts, Process.outline]
  | records f works => exact (slot_modifyChildren f _).trans (redraw_of_family? works _).symm
  | level sets => cases r <;> cases sets <;> rfl
  | detachSpace => cases hosts : b.process <;>
      simp [redraw, Belongings.slot, Belongings.modifyProcess, hosts, Process.outline]
  | installSpace => exact absurd rfl other
  | newProcess | detachProcess | destroyProcess => rfl

/-- What is installed is what the thread has in hand. -/
theorem slot_installSpace (b : Belongings) (d : Devices) : (installSpace.serve b d).2.1.slot =
    { b.slot with process := b.slot.process.map ({ · with space := b.hands.space }) } := by
  obtain ⟨tid, interrupts, process, hands, kin, initial⟩ := b
  cases process <;> rfl

/-- The requests that change a slot, or ask for it. -/
def regardsSlot : DeviceRequest → Bool
  | process | newProcess .. | setState _ | setExitStatus _ | takeExitSignal | takeExecutable
  | installExecutable _ | installSpace | detachSpace | detachProcess | destroyProcess | disableInterrupts
  | setInterrupts _ | activate _ => true
  | _ => false

theorem redraw_of_apart (apart : r.regardsSlot = false) (o : Slot) : r.redraw o = o := by
  cases r <;> first | rfl | cases apart

theorem ne_installSpace_of_apart (apart : r.regardsSlot = false) : r ≠ installSpace := by
  rintro rfl
  cases apart

end DeviceRequest

namespace Action

open Belongings (Slot)

/-- The actions that change a slot, or ask for it. -/
def regardsSlot : Action → Bool
  | device r => r.regardsSlot
  | _ => false

/-- What an action answers to a thread with a slot, and makes of the slot. -/
inductive Redraws : (a : Action) → Slot → a.Answer → Slot → Prop where
  /-- A device has served a request. -/
  | device (r : DeviceRequest) (b : Belongings) (d : Devices) :
    Redraws (.device r) b.slot (r.serve b d).1 (r.serve b d).2.1.slot
  /-- Another action is done. -/
  | act (a : Action) (o : Slot) (answer : a.Answer) : (∀ r, a ≠ .device r) → Redraws a o answer o

namespace Redraws

variable {a : Action} {o o' : Slot}

theorem served {r : DeviceRequest} {answer : r.Answer} (redraws : Redraws (.device r) o answer o') :
    ∃ b d, o = Belongings.slot b ∧ answer = (r.serve b d).1 ∧ o' = (r.serve b d).2.1.slot := by
  cases redraws with
  | device r b d => exact ⟨b, d, rfl, rfl, rfl⟩
  | act _ _ _ other => exact absurd rfl (other r)

theorem slot_eq {r : DeviceRequest} {answer : r.Answer} (redraws : Redraws (.device r) o answer o')
    (other : r ≠ .installSpace) : o' = r.redraw o := by
  obtain ⟨b, d, rfl, -, rfl⟩ := redraws.served
  exact DeviceRequest.slot_serve other b d

/-- The number of a thread stays. -/
theorem tid_eq {answer : a.Answer} (redraws : Redraws a o answer o') : o'.tid = o.tid := by
  cases redraws with
  | act => rfl
  | device r b d =>
    by_cases installs : r = .installSpace
    · rw [installs, DeviceRequest.slot_installSpace]
    · rw [DeviceRequest.slot_serve installs]
      cases r <;> rfl

/-- An action that has nothing to do with the slot leaves it. -/
theorem eq_of_apart {answer : a.Answer} (redraws : Redraws a o answer o') (apart : a.regardsSlot = false) :
    o' = o := by
  cases a with
  | device r =>
    rw [redraws.slot_eq (DeviceRequest.ne_installSpace_of_apart apart), DeviceRequest.redraw_of_apart apart]
  | _ =>
    cases redraws with
    | act => rfl

/-- The process that a thread finds is that in its slot. -/
theorem process_eq {answer : Option Process} (redraws : Redraws (.device .process) o answer o') :
    answer.map Process.outline = o.process := by
  obtain ⟨b, d, rfl, rfl, -⟩ := redraws.served
  rfl

theorem exitSignal_eq {answer : Option ChannelId} (redraws : Redraws (.device .takeExitSignal) o answer o') :
    answer = o.process.bind (·.exitSignal) := by
  obtain ⟨b, d, rfl, rfl, -⟩ := redraws.served
  cases hosts : b.process <;> simp [DeviceRequest.serve, Belongings.slot, hosts, Process.outline]

theorem executable_eq {answer : Option Handle} (redraws : Redraws (.device .takeExecutable) o answer o') :
    answer = o.process.bind (·.executable) := by
  obtain ⟨b, d, rfl, rfl, -⟩ := redraws.served
  cases hosts : b.process <;> simp [DeviceRequest.serve, Belongings.slot, hosts, Process.outline]

theorem detached_eq {answer : Bool} (redraws : Redraws (.device .detachSpace) o answer o') :
    answer = o.space?.isSome := by
  obtain ⟨b, d, rfl, rfl, -⟩ := redraws.served
  rw [Belongings.space?_slot]
  simp only [DeviceRequest.serve]
  split <;> simp [*]

theorem level_eq {answer : InterruptLevel} (redraws : Redraws (.device .disableInterrupts) o answer o') :
    answer = o.interrupts := by
  obtain ⟨b, d, rfl, rfl, -⟩ := redraws.served
  rfl

end Redraws

end Action

/-- The rules change the slot of a thread with each action. -/
theorem Follows.redraws {a : Action} {answer : a.Answer} {s s' : Standing} (follows : Follows a s answer s') :
    a.Redraws s.own.slot answer s'.own.slot := by
  cases follows with
  | device r s d => exact .device r s.own d
  | act a s answer other => exact .act a s.own.slot answer other

/-! ## Programs -/

namespace ThreadProgram

open Belongings (Slot)

variable {α β : Type} {F F' : Action → Slot → Prop} {Q Q' : α → Slot → Prop} {o : Slot}

/-- While a thread with a slot runs a program, `F` holds of each action and of the slot then; if the program
    ends, `Q` holds of its result and of the slot. -/
def Throughout (F : Action → Slot → Prop) (Q : α → Slot → Prop) : ThreadProgram α → Slot → Prop
  | Program.pure x, o => Q x o
  | Program.ask a next, o => F a o ∧ ∀ answer o', a.Redraws o answer o' → Throughout F Q (next answer) o'

theorem throughout_bind (p : ThreadProgram α) (next : α → ThreadProgram β) (Q : β → Slot → Prop) :
    Throughout F Q (p >>= next) o ↔ p.Throughout F (fun x => (next x).Throughout F Q) o := by
  change Throughout F Q (Program.bind p next) o ↔ _
  induction p generalizing o with
  | pure x => rfl
  | ask a rest ih => simp only [Program.bind, Throughout, ih]

theorem Throughout.mono {p : ThreadProgram α} (h : p.Throughout F Q o) (holds : ∀ a o, F a o → F' a o)
    (results : ∀ x o, Q x o → Q' x o) : p.Throughout F' Q' o := by
  induction p generalizing o with
  | pure x => exact results x o h
  | ask a next ih => exact ⟨holds a o h.1, fun answer o' redraws => ih answer (h.2 answer o' redraws)⟩

/-- A request that is not to install memory makes of the slot what it makes of it. -/
theorem throughout_ask {r : DeviceRequest} {Q : r.Answer → Slot → Prop} (other : r.installsSpace = false)
    (fits : F (.device r) o)
    (next : ∀ answer, Action.Redraws (.device r) o answer (r.redraw o) → Q answer (r.redraw o)) :
    (ask r).Throughout F Q o := by
  refine ⟨fits, fun answer o' redraws => ?_⟩
  obtain rfl := redraws.slot_eq (by rintro rfl; cases other)
  exact next answer redraws

/-- What has nothing to do with the slot leaves it. -/
theorem throughout_apart {p : ThreadProgram α} {R : α → Prop}
    (only : p.Only (fun a : Action => a.regardsSlot = false) R)
    (fits : ∀ a : Action, a.regardsSlot = false → F a o) (results : ∀ x, R x → Q x o) :
    p.Throughout F Q o := by
  induction p with
  | pure x => exact results x only
  | ask a next ih =>
    refine ⟨fits a only.1, fun answer o' redraws => ?_⟩
    obtain rfl := redraws.eq_of_apart only.1
    exact ih answer (only.2 answer)

end ThreadProgram

/-! ## Runs -/

namespace Scenario

open ThreadProgram
open Belongings (Slot)

variable {x : Scenario} {turns : ℕ → Turn} {i b d : ℕ} {t : Tid} {α : Type}

/-- As long as a part of what a thread does lasts, and the thread does not end, the slot of the thread is as the
    part tells. -/
theorem throughout_at {p : ThreadProgram α} {next : α → ThreadProgram Unit} {F : Action → Slot → Prop}
    {Q : α → Slot → Prop} (inside : t < (x.machineAt turns b).threads.size)
    (tells : p.Throughout F Q (x.standingAt turns b t).own.slot)
    (ongoing : ∀ e < d, ∀ r, x.leftAt turns t p b e ≠ Program.pure r)
    (alive : ∀ e ≤ d, x.programAt turns (b + e) t = x.leftAt turns t p b e >>= next) :
    (x.leftAt turns t p b d).Throughout F Q (x.standingAt turns (b + d) t).own.slot :=
  part_at (K := fun p s => p.Throughout F Q s.own.slot) inside tells ongoing alive
    fun _ _ _ answer s' tells _ follows => tells.2 answer s'.own.slot follows.redraws

end Scenario

end Userland

import Userland.Proofs.Denying
import Userland.Proofs.Slots

/-!
# What slots are like

A thread makes each request that regards its slot in one phase of a process, with interrupts on or off
(`DeviceRequest.Fits`). An exit takes the process apart bit by bit (`DeviceRequest.Unmakes`), whatever the
process was like when the exit began (`Kernel.throughout_exitProcess`).
-/

namespace Userland

open ThreadProgram
open Program (Leads Only)
open Belongings (Slot)

-- Which words a line has does not matter for what is done with them.
attribute [local irreducible] Words.ofString

/-- A process in the first state may come to be in the second. -/
def ProcessState.Precedes : ProcessState → ProcessState → Prop
  | .loading, .running | .loading, .exiting | .running, .exiting => True
  | _, _ => False

/-! ## The table -/

/-- A process in the slot is in a state. -/
def Belongings.Slot.Shows (o : Slot) (state : ProcessState) : Prop := ∃ p, o.process = some p ∧ p.state = state

/-- What the slot of a thread is like when it makes a request. -/
def DeviceRequest.Fits : DeviceRequest → Slot → Prop
  | process, o => o.interrupts = .on ∧ o.process.isSome = true
  | newProcess .., o => o.interrupts = .on ∧ o.process = none
  | setState state, o => o.interrupts = .on ∧
    ∃ p, o.process = some p ∧ p.state.Precedes state ∧ (p.exitStatus.isSome = true ↔ state = .exiting)
  | setExitStatus _, o =>
    o.interrupts = .on ∧ ∃ p, o.process = some p ∧ p.state ≠ .exiting ∧ p.exitStatus = none
  | takeExitSignal, o | takeExecutable, o => o.interrupts = .on ∧ o.Shows .exiting
  | installExecutable _, o => o.interrupts = .on ∧ o.Shows .loading
  | installSpace, o => o.interrupts = .off ∧ o.Shows .loading
  | detachSpace, o | detachProcess, o => o.interrupts = .off ∧ o.Shows .exiting
  | destroyProcess, o => o.interrupts = .on ∧ o.process = none ∧ o.doomed.isSome = true
  | activate root, o => o.interrupts = .off ∧ root = none ∨ o.interrupts = .on ∧ root = o.space?.map (·.root)
  | setInterrupts level, o => o.interrupts = .off ∧ level = .on
  | _, o => o.interrupts = .on

/-- What it is like when the thread does something. -/
def Action.Fits : Action → Slot → Prop
  | device r, o => r.Fits o
  | _, o => o.interrupts = .on

theorem DeviceRequest.fits_of_apart {r : DeviceRequest} {o : Slot} (apart : r.regardsSlot = false)
    (on : o.interrupts = .on) : r.Fits o := by
  cases r <;> first | exact on | cases apart

theorem Action.fits_of_apart {a : Action} {o : Slot} (apart : a.regardsSlot = false) (on : o.interrupts = .on) :
    a.Fits o := by
  cases a with
  | device r => exact DeviceRequest.fits_of_apart apart on
  | _ => exact on

/-! ## Exits -/

namespace Process.Outline

variable (p : Process.Outline) (status : Int32)

/-- The process has an exit status. -/
def sentenced : Process.Outline := { p with exitStatus := some status }

/-- It exits. -/
def leaving : Process.Outline := { p.sentenced status with state := .exiting }

/-- Its exit status is told. -/
def told : Process.Outline := { p.leaving status with exitSignal := none }

/-- It has no executable any more. -/
def released : Process.Outline := { p.told status with executable := none }

/-- It has no memory any more. -/
def bare : Process.Outline := { p.released status with space := none }

end Process.Outline

/-- What the slot of thread `t` is like when the thread makes a request in the exit of a process. -/
def DeviceRequest.Unmakes (t : Tid) (p : Process.Outline) (status : Int32) : DeviceRequest → Slot → Prop
  | process, o => o = ⟨t, .on, some p, none⟩
  | setExitStatus status', o => status' = status ∧ o = ⟨t, .on, some p, none⟩
  | setState state, o => state = .exiting ∧ o = ⟨t, .on, some (p.sentenced status), none⟩
  | takeExitSignal, o => o = ⟨t, .on, some (p.leaving status), none⟩
  | takeExecutable, o => o = ⟨t, .on, some (p.told status), none⟩
  | detachSpace, o => o = ⟨t, .off, some (p.released status), none⟩
  | activate root, o => root = none ∧ o = ⟨t, .off, some (p.bare status), none⟩
  | detachProcess, o => o = ⟨t, .off, some (p.bare status), none⟩
  | destroyProcess, o => o = ⟨t, .on, none, some (p.bare status)⟩
  | setInterrupts level, o => o.interrupts = .off ∧ level = .on
  | newProcess .., _ | installExecutable _, _ | installSpace, _ => False
  | _, o => o.interrupts = .on

/-- What it is like when the thread does something. -/
def Action.Unmakes (t : Tid) (p : Process.Outline) (status : Int32) : Action → Slot → Prop
  | device r, o => r.Unmakes t p status o
  | _, o => o.interrupts = .on

section

variable {t : Tid} {p : Process.Outline} {status : Int32} {o : Slot}

theorem Action.unmakes_of_apart {a : Action} (apart : a.regardsSlot = false) (on : o.interrupts = .on) :
    a.Unmakes t p status o := by
  cases a with
  | device r => cases r <;> first | exact on | cases apart
  | _ => exact on

/-- So an exit keeps to the table. -/
theorem Action.Unmakes.fits {a : Action} (unmakes : a.Unmakes t p status o) (before : p.state ≠ .exiting)
    (undecided : p.exitStatus = none) : a.Fits o := by
  cases a with
  | device r =>
    cases r with
    | process =>
      obtain rfl := unmakes
      exact ⟨rfl, rfl⟩
    | setExitStatus =>
      obtain ⟨-, rfl⟩ := unmakes
      exact ⟨rfl, p, rfl, before, undecided⟩
    | setState =>
      obtain ⟨rfl, rfl⟩ := unmakes
      refine ⟨rfl, p.sentenced status, rfl, ?_, iff_of_true rfl rfl⟩
      change p.state.Precedes .exiting
      cases state : p.state with
      | exiting => exact absurd state before
      | loading | running => trivial
    | takeExitSignal | takeExecutable | detachSpace | detachProcess =>
      obtain rfl := unmakes
      exact ⟨rfl, _, rfl, rfl⟩
    | destroyProcess =>
      obtain rfl := unmakes
      exact ⟨rfl, rfl, rfl⟩
    | activate =>
      obtain ⟨rfl, rfl⟩ := unmakes
      exact .inl ⟨rfl, rfl⟩
    | newProcess | installExecutable | installSpace => exact unmakes.elim
    | _ => exact unmakes
  | _ => exact unmakes

end

namespace Kernel

open DeviceRequest

variable {α β : Type} {t : Tid} {p : Process.Outline} {status : Int32} {o : Slot}

/-- A program that has nothing to do with the slot of its thread. -/
abbrev Apart (p : ThreadProgram α) : Prop := p.Only (fun a : Action => a.regardsSlot = false) fun _ => True

theorem apart_bind {p : ThreadProgram α} {next : α → ThreadProgram β} (first : Apart p)
    (rest : ∀ x, Apart (next x)) : Apart (p >>= next) := first.bind fun x _ => rest x

theorem apart_ask {r : DeviceRequest} (apart : r.regardsSlot = false) : Apart (ask r) :=
  only_ask apart fun _ => trivial

theorem apart_settle {c : ChannelId} {value : Option Signal} : Apart (settle c value) :=
  apart_bind (only_act rfl fun _ => trivial) fun t => by
    cases t with
    | none => trivial
    | some t => exact only_act (a := .unblock t) rfl fun _ => trivial

/-- To send is to do nothing that has to do with a device. -/
theorem only_send {c : ChannelId} {value : Signal} {P : Action → Prop}
    (others : ∀ a : Action, (∀ r, a ≠ .device r) → P a) :
    (discard (send c value)).Only P fun _ => True := by
  have other (a : Action) (other : ∀ r, a ≠ .device r) : (act a).Only P fun _ => True :=
    only_act (others a other) fun _ => trivial
  refine Only.bind (R := fun _ => True) ((other (.hasReceiver c) fun _ => nofun).bind fun receives _ => ?_)
    fun _ _ => trivial
  cases receives with
  | false => trivial
  | true =>
    refine Only.bind (R := fun _ => True) ((other (.settle c (some value)) fun _ => nofun).bind fun waiter _ => ?_)
      fun _ _ => trivial
    cases waiter with
    | none => trivial
    | some t => exact other (.unblock t) fun _ => nofun

theorem apart_send {c : ChannelId} {value : Signal} : Apart (discard (send c value)) :=
  only_send fun a other => by cases a <;> first | rfl | exact absurd rfl (other _)

theorem apart_dropReceivers (channels : List ChannelId) : Apart (dropReceivers channels) :=
  .forM (fun c _ => only_act (a := .dropReceiver c) rfl fun _ => trivial) trivial

theorem apart_releaseSpace : Apart (ofRoutine Loader.releaseSpace) := by
  refine (only_ofRoutine _).2 ⟨rfl, fun mapped => ?_⟩
  have freed : (mapped.forM fun page => Routine.ask (freePage page)).Only
      (fun r => Action.regardsSlot (.device r) = false) fun _ => True :=
    .forM (fun page _ => ⟨rfl, fun _ => trivial⟩) trivial
  exact freed.bind fun _ _ => ⟨rfl, fun _ => ⟨rfl, fun _ => trivial⟩⟩

theorem apart_closeAll (files : List Handle) :
    (closeAll files).Only (fun r => Action.regardsSlot (.device r) = false) fun _ => True :=
  .forM (fun _ _ => ⟨rfl, fun _ => trivial⟩) trivial

theorem apart_closeFiles (executable : Option Handle) (files : List Handle) :
    Apart (closeFiles executable files) := by
  refine only_withLock rfl rfl (fun _ => rfl) ?_
  cases executable with
  | none => exact apart_closeAll files
  | some h => exact ⟨rfl, fun _ => ⟨rfl, fun _ => apart_closeAll files⟩⟩

theorem apart_forgetChildren (family : Family) : Apart (forgetChildren family) := by
  refine apart_bind (only_withRegistry rfl rfl (apart_ask rfl)) fun orphans => ?_
  split
  · trivial
  · exact apart_bind (apart_ask rfl) fun _ => apart_dropReceivers orphans

theorem apart_exitThread : Apart (exitThread : ThreadProgram α) :=
  apart_bind (apart_ask rfl) fun _ => ⟨rfl, nofun⟩

/-- Afterwards the interrupt level is what it was. -/
theorem throughout_withoutInterrupts {F : Action → Slot → Prop} {Q : α → Slot → Prop} {body : ThreadProgram α}
    (on : o.interrupts = .on) (off : F (.device disableInterrupts) o)
    (inside : body.Throughout F
      (fun x o' => F (.device (setInterrupts .on)) o' ∧ Q x { o' with interrupts := .on })
      { o with interrupts := .off }) :
    (withoutInterrupts body).Throughout F Q o := by
  rw [withoutInterrupts, throughout_bind]
  refine throughout_ask rfl off fun level redraws => ?_
  obtain rfl : level = .on := redraws.level_eq.trans on
  rw [throughout_bind]
  refine Throughout.mono inside (fun _ _ => id) fun x o' restored => ?_
  rw [throughout_bind]
  exact throughout_ask rfl restored.1 fun _ _ => restored.2

/-- A process in hand is destroyed, and then what it still has is given back. -/
theorem destroyInHand_opens : ∃ rest : Option Leftovers → ThreadProgram Unit,
    destroyInHand = (ask destroyProcess >>= rest) ∧ ∀ left, Apart (rest left) := by
  refine ⟨_, rfl, fun left => ?_⟩
  cases left with
  | none => trivial
  | some left =>
    have rest {last : ThreadProgram Unit} (apart : Apart last) : Apart (do
        closeAll left.files
        closeAll left.executable.toList
        dropReceivers left.children
        last : ThreadProgram Unit) :=
      apart_bind ((only_ofRoutine _).2 (apart_closeAll _)) fun _ =>
        apart_bind ((only_ofRoutine _).2 (apart_closeAll _)) fun _ =>
          apart_bind (apart_dropReceivers _) fun _ => apart
    dsimp only
    split
    on_goal 1 => refine apart_bind apart_releaseSpace fun _ => ?_
    all_goals
      refine rest ?_
      split
      · exact apart_settle
      · trivial

/-- A process in hand is destroyed, and then there is none. -/
theorem throughout_destroyInHand {Q : Unit → Slot → Prop} (next : Q () ⟨t, .on, none, none⟩) :
    destroyInHand.Throughout (Action.Unmakes t p status) Q ⟨t, .on, none, some (p.bare status)⟩ := by
  obtain ⟨rest, opens, apart⟩ := destroyInHand_opens
  rw [opens, throughout_bind]
  exact throughout_ask rfl rfl fun left _ => throughout_apart (apart left)
    (fun a apart => Action.unmakes_of_apart apart rfl) fun _ _ => next

/-- The bare process goes, and its thread ends. -/
theorem throughout_vanishing {Q : α → Slot → Prop} :
    (vanishing : ThreadProgram α).Throughout (Action.Unmakes t p status) Q
      ⟨t, .on, some (p.bare status), none⟩ := by
  rw [vanishing, throughout_bind]
  refine throughout_withoutInterrupts rfl rfl (throughout_ask rfl rfl fun _ _ => ⟨⟨rfl, rfl⟩, ?_⟩)
  rw [throughout_bind]
  refine throughout_destroyInHand ?_
  exact throughout_apart (R := fun _ => False) ⟨rfl, fun _ => ⟨rfl, nofun⟩⟩
    (fun a apart => Action.unmakes_of_apart apart rfl) fun _ => False.elim

/-- The memory of the process is detached, and then given back. -/
theorem throughout_releaseMemory {Q : Unit → Slot → Prop}
    (next : Q () ⟨t, .on, some (p.bare status), none⟩) :
    releaseMemory.Throughout (Action.Unmakes t p status) Q ⟨t, .on, some (p.released status), none⟩ := by
  rw [releaseMemory, throughout_bind]
  refine throughout_withoutInterrupts rfl rfl ?_
  rw [throughout_bind]
  refine throughout_ask rfl rfl fun detached _ => ?_
  rw [throughout_bind]
  refine throughout_ask rfl ⟨rfl, rfl⟩ fun _ _ => ⟨⟨rfl, rfl⟩, ?_⟩
  refine throughout_apart (R := fun _ => True) ?_ (fun a apart => Action.unmakes_of_apart apart rfl)
    fun _ _ => next
  split
  · exact apart_releaseSpace
  · trivial

/-- A process that exits is taken apart bit by bit. -/
theorem throughout_leaving {q : Process} {Q : α → Slot → Prop} :
    (leaving q status : ThreadProgram α).Throughout (Action.Unmakes t p status) Q
      ⟨t, .on, some (p.sentenced status), none⟩ := by
  have apart {β : Type} {p' : ThreadProgram β} {next : β → ThreadProgram α} {o : Slot} (apart : Apart p')
      (on : o.interrupts = .on) (rest : ∀ x, (next x).Throughout (Action.Unmakes t p status) Q o) :
      (p' >>= next).Throughout (Action.Unmakes t p status) Q o :=
    (throughout_bind _ _ _).2 (throughout_apart apart (fun a apart => Action.unmakes_of_apart apart on)
      fun x _ => rest x)
  rw [leaving_eq, throughout_bind]
  refine throughout_ask rfl ⟨rfl, rfl⟩ fun _ _ => apart (apart_ask rfl) rfl fun _ => ?_
  rw [throughout_bind]
  refine throughout_ask rfl rfl fun signal _ => ?_
  have rest : (do
      let executable ← ask takeExecutable
      let files ← ask takeFiles
      closeFiles executable files
      departing : ThreadProgram α).Throughout (Action.Unmakes t p status) Q
        ⟨t, .on, some (p.told status), none⟩ := by
    rw [throughout_bind]
    refine throughout_ask rfl rfl fun executable _ => ?_
    refine apart (apart_ask rfl) rfl fun files => apart (apart_closeFiles executable files) rfl fun _ => ?_
    refine apart (apart_forgetChildren _) rfl fun _ => ?_
    rw [throughout_bind]
    exact throughout_releaseMemory throughout_vanishing
  cases signal with
  | none => exact rest
  | some c => exact apart apart_send rfl fun _ => rest

/-- The exit of a process takes it apart. -/
theorem throughout_exitProcess {Q : α → Slot → Prop} :
    (exitProcess status : ThreadProgram α).Throughout (Action.Unmakes t p status) Q
      ⟨t, .on, some p, none⟩ := by
  rw [exitProcess_eq, throughout_bind]
  refine throughout_ask rfl rfl fun found redraws => ?_
  obtain ⟨q, rfl, -⟩ := Option.map_eq_some_iff.1 redraws.process_eq
  dsimp only
  rw [throughout_bind]
  refine throughout_ask rfl ⟨rfl, rfl⟩ fun _ _ => ?_
  split
  · exact (throughout_bind _ _ _).2 (throughout_ask rfl rfl fun _ _ => throughout_leaving)
  · exact throughout_leaving

/-! ## Starts -/

/-- The memory in hand goes to the process. -/
theorem throughout_installSpace {F : Action → Slot → Prop} {Q : Unit → Slot → Prop}
    (fits : F (.device installSpace) o)
    (next : ∀ space, Q () { o with process := o.process.map ({ · with space := space }) }) :
    (ask installSpace).Throughout F Q o := by
  refine ⟨fits, fun answer o' redraws => ?_⟩
  obtain ⟨b, d, rfl, -, rfl⟩ := redraws.served
  rw [slot_installSpace]
  exact next b.hands.space

theorem apart_load {arguments : List String} : Apart (withVolume (Loader.load arguments)) := by
  refine only_withLock rfl rfl (fun _ => rfl) (Loader.only_load (fun _ => rfl) (fun _ => rfl)
    (fun file r fills => ?_) (fun _ => rfl) fun _ => rfl)
  cases r <;> first | rfl | cases fills

/-- A child that starts keeps to the table. -/
theorem throughout_starting {k : Kernel} {start : NewProcess} :
    (starting k start).Throughout Action.Fits (fun _ _ => True) ⟨t, .on, none, none⟩ := by
  have apart {β γ : Type} {p : ThreadProgram β} {next : β → ThreadProgram γ} {Q : γ → Slot → Prop} {o : Slot}
      (apart : Apart p) (on : o.interrupts = .on) (rest : ∀ x, (next x).Throughout Action.Fits Q o) :
      (p >>= next).Throughout Action.Fits Q o :=
    (throughout_bind _ _ _).2 (throughout_apart apart (fun a apart => Action.fits_of_apart apart on)
      fun x _ => rest x)
  unfold starting loading
  rw [bind_assoc, throughout_bind]
  refine throughout_ask rfl ⟨rfl, rfl⟩ fun _ _ => apart apart_load rfl fun result => ?_
  cases result with
  | ok program =>
    -- The process is loading until its executable and its memory are installed, and then it runs.
    simp only [announcing, install, bind_assoc]
    rw [throughout_bind]
    refine throughout_ask rfl ⟨rfl, _, rfl, rfl⟩ fun _ _ => ?_
    rw [throughout_bind]
    refine throughout_withoutInterrupts rfl rfl (throughout_installSpace ⟨rfl, _, rfl, rfl⟩ fun space =>
      ⟨⟨rfl, rfl⟩, ?_⟩)
    rw [throughout_bind]
    refine throughout_ask rfl ⟨rfl, _, rfl, trivial, by rintro ⟨⟩, by rintro ⟨⟩⟩ fun _ _ => ?_
    rw [activateOwn, bind_assoc, throughout_bind]
    refine throughout_ask rfl ⟨rfl, rfl⟩ fun found redraws => ?_
    obtain ⟨q, rfl, same⟩ := Option.map_eq_some_iff.1 redraws.process_eq
    rw [throughout_bind]
    refine throughout_ask rfl (.inr ⟨rfl, ?_⟩) fun _ _ => ?_
    · exact congrArg (fun p : Process.Outline => p.space.map (·.root)) same
    · exact apart apart_send rfl fun _ => apart (apart_ask rfl) rfl fun _ => trivial
  | error e =>
    simp only [announcing]
    cases e.diagnostic? with
    | none => exact apart apart_send rfl fun _ => trivial
    | some text =>
      dsimp only
      rw [bind_assoc]
      exact apart (apart_ask rfl) rfl fun _ => apart apart_send rfl fun _ => trivial

/-- What comes in a start after the thread has looked for its process, and after a remark. -/
structure Heeds (a : Action) (q : ThreadProgram α) : Prop where
  /-- The tables of the process are activated. -/
  finds : a = .device process → ∃ root next, q = Program.ask (Action.device (activate root)) next
  /-- Something is done, and that is not to look for the process. -/
  remarks : ∀ level text, a = .device (log level text) →
    ∃ a' next, q = Program.ask a' next ∧ a' ≠ Action.device process

theorem Heeds.bind {a : Action} {q : ThreadProgram α} (heeds : Heeds a q) (f : α → ThreadProgram β) :
    Heeds a (q >>= f) where
  finds same := by
    obtain ⟨root, next, rfl⟩ := heeds.finds same
    exact ⟨root, _, rfl⟩
  remarks level text same := by
    obtain ⟨a', next, rfl, other⟩ := heeds.remarks level text same
    exact ⟨a', _, rfl, other⟩

/-- Anything may come after other actions. -/
theorem heeds_of_ne {a : Action} (finds : a ≠ .device process)
    (remarks : ∀ level text, a ≠ .device (log level text)) (q : ThreadProgram α) : Heeds a q where
  finds same := absurd same finds
  remarks level text same := absurd same (remarks level text)

theorem heeds_load {arguments : List String} : (withVolume (Loader.load arguments)).Leads Heeds := by
  have only : (Loader.load arguments).Only (fun r => r ≠ process) fun _ => True :=
    Loader.only_load (fun _ => nofun) (fun _ => nofun) (fun file r fills same => by subst same; cases fills)
      (fun _ => nofun) fun _ => nofun
  refine leads_withLock only.leads (fun r q ⟨other, rest⟩ => ⟨fun same => ?_, fun level text _ => ?_⟩)
    fun a q other => heeds_of_ne (other _) (fun _ _ => other _) q
  · cases same
    exact absurd rfl other
  · cases q with
    | pure x => exact ⟨_, _, rfl, nofun⟩
    | ask r' next => exact ⟨_, _, rfl, fun same => rest.1 (Action.device.inj same)⟩

/-- The requests after which something particular comes. -/
def heeded : DeviceRequest → Bool
  | process | log .. => true
  | _ => false

/-- Another request may come before anything. -/
theorem heeds_ask {r : DeviceRequest} {next : r.Answer → ThreadProgram α} (other : heeded r = false)
    (rest : ∀ answer, (next answer).Leads Heeds) : (ask r >>= next).Leads Heeds := fun answer =>
  ⟨heeds_of_ne (by rintro ⟨⟩; cases other) (by rintro _ _ ⟨⟩; cases other) _, rest answer⟩

theorem heeds_send {c : ChannelId} {value : Signal} {next : Unit → ThreadProgram α}
    (rest : ∀ x, (next x).Leads Heeds) : (discard (send c value) >>= next).Leads Heeds :=
  Leads.after_only (only_send (P := fun a => ∀ r, a ≠ .device r) fun _ => id)
    (fun _ q other => heeds_of_ne (other _) (fun _ _ => other _) q) fun x _ => rest x

theorem heeds_starting {k : Kernel} {start : NewProcess} : (starting k start).Leads Heeds := by
  unfold starting loading
  rw [bind_assoc]
  refine heeds_ask rfl fun _ => heeds_load.bind (fun a q heeds => heeds.bind _) fun result => ?_
  cases result with
  | ok program =>
    simp only [announcing, install, withoutInterrupts, bind_assoc]
    refine heeds_ask rfl fun _ => heeds_ask rfl fun level => heeds_ask rfl fun _ =>
      heeds_ask rfl fun _ => heeds_ask rfl fun _ => ?_
    rw [activateOwn, bind_assoc]
    exact fun found => ⟨⟨fun _ => ⟨_, _, rfl⟩, by rintro _ _ ⟨⟩⟩, heeds_ask rfl fun _ =>
      heeds_send fun _ => heeds_ask rfl fun _ => trivial⟩
  | error e =>
    simp only [announcing]
    cases e.diagnostic? with
    | none => exact heeds_send fun _ => trivial
    | some text =>
      dsimp only
      rw [bind_assoc]
      exact heeds_ask rfl fun _ => heeds_send fun _ => trivial

end Kernel

end Userland

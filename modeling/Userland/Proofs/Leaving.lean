import Userland.Kernel.Exit
import Userland.Proofs.Asking

/-!
# How processes leave

A process that exits shows a line if its program has been running, tells its exit status and takes its
files (`Kernel.parting`), closes them, and gives the rest back (`Kernel.departing`). After the line
nothing is asked for but what takes the process apart (`Action.Final`), and the denial of writes is taken
back in one place, right before the executable is closed (`Kernel.exitProcess_eq`).
-/

namespace Userland

open ThreadProgram
open Program (Only)

/-- The requests that take a process apart, save that a denial is taken back. -/
def DeviceRequest.isFinal : DeviceRequest → Bool
  | setState _ | takeExitSignal | takeExecutable | takeFiles | close _ | takeChildren _
  | disableInterrupts | setInterrupts _ | detachSpace | activate _ | spacePages | freePage _ | dropSpace
  | detachProcess | destroyProcess | note .exit | log .. => true
  | _ => false

/-- What is done when a process is taken apart. Its exit status is told if there is one, and then the
    thread may end. -/
def Action.Final (exits : Option Int32) : Action → Prop
  | .device r => r.isFinal = true
  | .settle _ (some (.status status)) => exits = some status
  | .endThread => exits.isSome = true
  | .settle _ none | .hasReceiver _ | .unblock _ | .lock _ | .release _ | .lockRegistry _
  | .unlockRegistry _ | .dropReceiver _ => True
  | _ => False

namespace Kernel

open DeviceRequest

variable {α β : Type} {exits : Option Int32}

/-! ## Giving up -/

/-- A program that only gives things up. -/
abbrev Finishes (exits : Option Int32) (p : ThreadProgram α) : Prop :=
  p.Only (Action.Final exits) fun _ => True

theorem finishes_bind {p : ThreadProgram α} {next : α → ThreadProgram β} (first : Finishes exits p)
    (rest : ∀ x, Finishes exits (next x)) : Finishes exits (p >>= next) := first.bind fun x _ => rest x

theorem finishes_ask {r : DeviceRequest} (final : r.isFinal = true) : Finishes exits (ask r) :=
  only_ask final fun _ => trivial

theorem finishes_wake (t : Option Tid) : Finishes exits (wake t) := by
  cases t with
  | none => trivial
  | some t => exact only_act (a := .unblock t) trivial fun _ => trivial

theorem finishes_settle {c : ChannelId} {value : Option Signal} (fits : (Action.settle c value).Final exits) :
    Finishes exits (settle c value) :=
  finishes_bind (only_act fits fun _ => trivial) fun t => finishes_wake t

theorem finishes_send {c : ChannelId} {status : Int32} :
    Finishes (some status) (discard (send c (.status status))) := by
  refine finishes_bind (finishes_bind (only_act (a := .hasReceiver c) trivial fun _ => trivial)
    fun receives => ?_) fun _ => trivial
  split
  · exact finishes_bind (finishes_settle rfl) fun _ => trivial
  · trivial

theorem finishes_dropReceivers (channels : List ChannelId) : Finishes exits (dropReceivers channels) :=
  .forM (fun c _ => only_act (a := .dropReceiver c) trivial fun _ => trivial) trivial

theorem finishes_withoutInterrupts {body : ThreadProgram α} (inside : Finishes exits body) :
    Finishes exits (withoutInterrupts body) :=
  finishes_bind (finishes_ask rfl) fun _ => finishes_bind inside fun _ =>
    finishes_bind (finishes_ask rfl) fun _ => trivial

theorem finishes_closeAll (files : List Handle) : Finishes exits (ofRoutine (closeAll files)) :=
  (only_ofRoutine _).2 (.forM (fun _ _ => ⟨rfl, fun _ => trivial⟩) trivial)

theorem finishes_releaseSpace : Finishes exits (ofRoutine Loader.releaseSpace) := by
  refine (only_ofRoutine _).2 ⟨rfl, fun mapped => ?_⟩
  have freed : (mapped.forM fun page => Routine.ask (freePage page)).Only
      (fun r => Action.Final exits (.device r)) fun _ => True :=
    .forM (fun page _ => ⟨rfl, fun _ => trivial⟩) trivial
  exact freed.bind fun _ _ => ⟨rfl, fun _ => ⟨rfl, fun _ => trivial⟩⟩

theorem finishes_forgetChildren (family : Family) : Finishes exits (forgetChildren family) := by
  refine finishes_bind (only_withRegistry trivial trivial (finishes_ask rfl)) fun orphans => ?_
  split
  · trivial
  · exact finishes_bind (finishes_ask rfl) fun _ => finishes_dropReceivers orphans

theorem finishes_releaseMemory : Finishes exits releaseMemory := by
  refine finishes_bind (finishes_withoutInterrupts ?_) fun detached => ?_
  · exact finishes_bind (finishes_ask rfl) fun _ => finishes_bind (finishes_ask rfl) fun _ => trivial
  · split
    · exact finishes_releaseSpace
    · trivial

theorem finishes_destroyInHand : Finishes exits destroyInHand := by
  refine finishes_bind (finishes_ask rfl) fun left => ?_
  cases left with
  | none => trivial
  | some left =>
    have rest {last : ThreadProgram Unit} (finishes : Finishes exits last) : Finishes exits (do
        closeAll left.files
        closeAll left.executable.toList
        dropReceivers left.children
        last : ThreadProgram Unit) :=
      finishes_bind (finishes_closeAll _) fun _ => finishes_bind (finishes_closeAll _) fun _ =>
        finishes_bind (finishes_dropReceivers _) fun _ => finishes
    dsimp only
    split
    on_goal 1 => refine finishes_bind finishes_releaseSpace fun _ => ?_
    all_goals
      refine rest ?_
      split
      · exact finishes_settle trivial
      · trivial

/-! ## The parts of an exit -/

/-- The line that tells the end of a process. -/
def exitLine (name : String) (status : Int32) : String :=
  name ++ ": exit(" ++ toString status.toInt ++ ")"

/-- A process tells its exit status, and its files are taken. -/
def parting (p : Process) (status : Int32) : ThreadProgram (Option Handle × List Handle) := do
  ask (setState .exiting)
  remark .debug ("[PROCESS] pid " ++ toString p.pid.toInt ++ " exiting with " ++
    toString status.toInt)
  match ← ask takeExitSignal with
  | some c => discard (send c (.status status))
  | none => pure ()
  let executable ← ask takeExecutable
  let files ← ask takeFiles
  return (executable, files)

/-- The process goes, and its thread ends. -/
def vanishing : ThreadProgram α := do
  withoutInterrupts (ask detachProcess)
  destroyInHand
  exitThread

/-- All but the files is given back, and the process goes. -/
def departing : ThreadProgram α := do
  forgetChildren .process
  releaseMemory
  vanishing

/-- What a process does after it has shown that it ends. -/
def leaving (p : Process) (status : Int32) : ThreadProgram α := do
  let (executable, files) ← parting p status
  closeFiles executable files
  departing

theorem leaving_eq (p : Process) (status : Int32) : (leaving p status : ThreadProgram α) = (do
    ask (setState .exiting)
    remark .debug ("[PROCESS] pid " ++ toString p.pid.toInt ++ " exiting with " ++
      toString status.toInt)
    match ← ask takeExitSignal with
    | some c => discard (send c (.status status))
    | none => pure ()
    let executable ← ask takeExecutable
    let files ← ask takeFiles
    closeFiles executable files
    departing) := by
  unfold leaving parting
  simp only [bind_assoc]
  refine congrArg (ask (setState .exiting) >>= ·) (funext fun _ => ?_)
  congr 1
  funext _
  refine congrArg (ask takeExitSignal >>= ·) (funext fun signal => ?_)
  cases signal with
  | none => rfl
  | some c =>
    simp only [bind_assoc]
    rfl

/-- A process shows its line if its program has been running, and then it leaves. -/
theorem exitProcess_eq (status : Int32) : (exitProcess status : ThreadProgram α) = (do
    match ← ask process with
    | none => vanishing
    | some p =>
      ask (setExitStatus status)
      if p.state = .running then
        putLine (exitLine p.name status)
        leaving p status
      else leaving p status) := by
  refine congrArg (ask process >>= ·) (funext fun hosted => ?_)
  cases hosted with
  | none => rfl
  | some p =>
    simp only [leaving_eq]
    rfl

theorem finishes_vanishing {status : Int32} : Finishes (some status) (vanishing : ThreadProgram α) :=
  finishes_bind (finishes_withoutInterrupts (finishes_ask rfl)) fun _ =>
    finishes_bind finishes_destroyInHand fun _ => ⟨rfl, fun _ => ⟨rfl, nofun⟩⟩

theorem finishes_departing {status : Int32} : Finishes (some status) (departing : ThreadProgram α) :=
  finishes_bind (finishes_forgetChildren _) fun _ => finishes_bind finishes_releaseMemory fun _ =>
    finishes_vanishing

theorem finishes_parting {p : Process} {status : Int32} : Finishes (some status) (parting p status) := by
  refine finishes_bind (finishes_ask rfl) fun _ => finishes_bind (finishes_ask rfl) fun _ =>
    finishes_bind (finishes_ask rfl) fun signal => ?_
  have files : Finishes (some status) (do
      let executable ← ask takeExecutable
      let files ← ask takeFiles
      return (executable, files) : ThreadProgram (Option Handle × List Handle)) :=
    finishes_bind (finishes_ask rfl) fun _ => finishes_bind (finishes_ask rfl) fun _ => trivial
  cases signal with
  | none => exact files
  | some c => exact finishes_bind finishes_send fun _ => files

/-! ## All of an exit -/

/-- The denial of writes is taken back, and the files are closed. -/
theorem only_closeFiles {P : Action → Prop} (allows : ∀ h, P (.device (allow h)))
    (final : ∀ a : Action, a.Final exits → P a) (executable : Option Handle) (files : List Handle) :
    (closeFiles executable files).Only P fun _ => True := by
  have closes (h : Handle) : P (.device (close h)) := final _ rfl
  have closed : (closeAll files).Only (fun r => P (.device r)) fun _ => True :=
    .forM (fun h _ => ⟨closes h, fun _ => trivial⟩) trivial
  refine only_withLock (final _ trivial) (final _ trivial) (fun _ => final _ trivial) ?_
  cases executable with
  | none => exact closed
  | some h => exact ⟨allows h, fun _ => ⟨closes h, fun _ => closed⟩⟩

/-- What is done after a process has shown that it ends. -/
theorem only_leaving {P : Action → Prop} {p : Process} {status : Int32} (allows : ∀ h, P (.device (allow h)))
    (final : ∀ a : Action, a.Final (some status) → P a) :
    (leaving p status : ThreadProgram α).Only P fun _ => True := by
  have given {β : Type} {p : ThreadProgram β} (finishes : Finishes (some status) p) : p.Only P fun _ => True :=
    finishes.mono (fun a => final a) fun _ => id
  exact (given finishes_parting).bind fun _ _ => (only_closeFiles allows final _ _).bind fun _ _ =>
    given finishes_departing

/-- What is done in an exit if there is no process. -/
theorem exitProcess_none {status : Int32} {first : Option Process → ThreadProgram α}
    (opens : exitProcess status = Program.ask (Action.device process) first) : first none = vanishing := by
  rw [exitProcess_eq] at opens
  obtain ⟨-, same⟩ := Program.ask.inj opens
  obtain rfl := eq_of_heq same
  rfl

/-- What a process does in its exit once it is known: it shows a line if its program has been running. -/
theorem exitProcess_some {status : Int32} {first : Option Process → ThreadProgram α}
    (opens : exitProcess status = Program.ask (Action.device process) first) (p : Process) :
    first (some p) = Program.ask (Action.device (setExitStatus status)) fun _ =>
      if p.state = .running then
        Program.ask (Action.device (put (Bytes.ofString (exitLine p.name status ++ "\n")))) fun _ =>
          leaving p status
      else leaving p status := by
  rw [exitProcess_eq] at opens
  obtain ⟨-, same⟩ := Program.ask.inj opens
  obtain rfl := eq_of_heq same
  rfl

/-- What is done in an exit, after the process is known. -/
theorem only_exitProcess {P : Action → Prop} {status : Int32} (sets : P (.device (setExitStatus status)))
    (shows : ∀ name, P (.device (put (Bytes.ofString (exitLine name status ++ "\n")))))
    (allows : ∀ h, P (.device (allow h))) (final : ∀ a : Action, a.Final (some status) → P a)
    {first : Option Process → ThreadProgram α}
    (opens : exitProcess status = Program.ask (Action.device process) first) (hosted : Option Process) :
    (first hosted).Only P fun _ => True := by
  cases hosted with
  | none =>
    have vanishes : (vanishing : ThreadProgram α).Only (Action.Final (some status)) fun _ => True :=
      finishes_vanishing
    rw [exitProcess_none opens]
    exact vanishes.mono final fun _ => id
  | some p =>
    rw [exitProcess_some opens]
    refine ⟨sets, fun _ => ?_⟩
    split
    · exact ⟨shows p.name, fun _ => only_leaving allows final⟩
    · exact only_leaving allows final

/-- What is done in an exit. -/
def InExit (status : Int32) (a : Action) : Prop :=
  a = .device process ∨ a = .device (setExitStatus status) ∨
    (∃ name, a = .device (put (Bytes.ofString (exitLine name status ++ "\n")))) ∨
    (∃ h, a = .device (allow h)) ∨ a.Final (some status)

theorem exits_exitProcess {status : Int32} :
    (exitProcess status : ThreadProgram α).Only (InExit status) fun _ => True :=
  ⟨.inl rfl, only_exitProcess (.inr (.inl rfl)) (fun name => .inr (.inr (.inl ⟨name, rfl⟩)))
    (fun h => .inr (.inr (.inr (.inl ⟨h, rfl⟩)))) (fun _ final => .inr (.inr (.inr (.inr final)))) rfl⟩

end Kernel

end Userland

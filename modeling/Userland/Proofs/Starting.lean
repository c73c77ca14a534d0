import Userland.Proofs.CallContract
import Userland.Proofs.Loading

/-!
# How processes start

The thread of a child loads its program, and announces what that has come to: it installs the program, or
shows why there is none, and tells its parent (`Kernel.starting`). Then it enters user mode, or exits
(`Kernel.startProcess_split`). When it has announced a program its process runs that, under the name that
the command line gives it (`Kernel.wp_starting`).
-/

namespace Userland

open ThreadProgram
open Program (Only)

-- Which words a line has does not matter for what is done with them.
attribute [local irreducible] Words.ofString

/-! ## What is asked for -/

/-- The requests of a load. -/
def DeviceRequest.loads : DeviceRequest → Bool
  | newProcess .. | openFile _ | deny _ | newSpace | allocate | fill .. | clear _ | freeFrame | mapFrame ..
  | spacePages | freePage _ | dropSpace | read .. | seek .. | length _ | log .. | allow _ | close _ => true
  | _ => false

/-- What is done in a load. -/
def Action.loads : Action → Bool
  | device r => r.loads
  | lock _ | release _ | unblock _ => true
  | _ => false

/-- The requests that install a program. -/
def DeviceRequest.installs : DeviceRequest → Bool
  | installExecutable _ | disableInterrupts | installSpace | setInterrupts _ | setState _ | process
  | activate _ | note .enter => true
  | _ => false

/-- What is done to announce what a load has come to, save that a line may be shown. -/
def Action.announces : Action → Bool
  | device r => r.installs
  | hasReceiver _ | settle _ (some (.loaded _)) | unblock _ => true
  | _ => false

namespace Kernel

open DeviceRequest Standing Duties

variable {k : Kernel} {start : NewProcess} {t : Tid} {α β : Type}

/-- The line that tells why a program is not loaded. -/
def loadLine (name text : String) : String := "load: " ++ name ++ ": " ++ text

/-- What a child does when its load has come to a result. -/
def announcing (start : NewProcess) : Except LoadError LoadedProgram → ThreadProgram Unit
  | .ok loaded => do
    install loaded
    discard (send start.loaded (.loaded true))
    ask (note .enter)
  | .error e => do
    match e.diagnostic? with
    | some text => putLine (loadLine (programName start) text)
    | none => pure ()
    discard (send start.loaded (.loaded false))

/-- A child loads its program and announces what that has come to. -/
def starting (k : Kernel) (start : NewProcess) : ThreadProgram (Except LoadError LoadedProgram) := do
  let result ← loading k start
  announcing start result
  return result

/-- What a child does then: it enters user mode, or exits. -/
def proceeding (userMode : UserMode) (start : NewProcess) :
    Except LoadError LoadedProgram → ThreadProgram Unit
  | .ok loaded =>
    userMode (Utf8.truncate (programName start) maxNameLength) (.ofEntry loaded.entry loaded.stack)
  | .error _ => exitProcess (-1)

/-- A child starts, and then it proceeds. -/
theorem startProcess_split (userMode : UserMode) :
    startProcess k userMode start = starting k start >>= proceeding userMode start := by
  unfold starting
  rw [bind_assoc]
  change loading k start >>= _ = loading k start >>= _
  refine congrArg (loading k start >>= ·) (funext fun result => ?_)
  rw [bind_assoc]
  cases result with
  | ok loaded =>
    simp only [announcing, bind_assoc]
    rfl
  | error e =>
    simp only [announcing]
    cases e.diagnostic? <;> rfl

/-! ## How the thread stands -/

/-- A process that has announced a program runs it. -/
theorem wp_starting {Q : Except LoadError LoadedProgram → Standing → Prop}
    (failed : ∀ e, Q (.error e) (host t (child k start t) .empty (idle [] (some start))))
    (loaded : ∀ (program : LoadedProgram) (space : AddressSpace), Q (.ok program) (host t
      { child k start t with
        executable := some program.executable, space := some space, state := .running }
      .empty (idle [] (some start)))) :
    wp (starting k start) Q ⟨.fresh t, .fresh (some start)⟩ := by
  unfold starting
  rw [wp_bind]
  refine wp_loading (fun e => ?_) fun program space => ?_
  · have told : wp (discard (send start.loaded (.loaded false)) >>= fun _ => pure (.error e)) Q
        (host t (child k start t) .empty { idle [] (some start) with given := [start.loaded] }) :=
      wp_tellLoaded (failed e)
    simp only [announcing]
    cases e.diagnostic? with
    | none => exact told
    | some text =>
      dsimp only
      rw [bind_assoc, wp_bind]
      exact wp_putLine rfl told
  · simp only [announcing, bind_assoc]
    rw [wp_bind]
    refine wp_install rfl rfl rfl (wp_tellLoaded ?_)
    rw [wp_bind]
    exact wp_quiet rfl rfl trivial fun _ => loaded program space

/-! ## The parts of a start -/

/-- What is done in a load. -/
theorem loads_loading : (loading k start).Only (fun a : Action => a.loads = true) fun _ => True := by
  refine Only.bind (R := fun _ => True) ⟨rfl, fun _ => trivial⟩ fun _ _ => ?_
  refine only_withLock rfl rfl (fun _ => rfl) ?_
  refine Loader.only_load (fun _ => rfl) (fun _ => rfl) (fun file r fills => ?_) (fun _ => rfl) fun _ => rfl
  cases r <;> first | rfl | cases fills

theorem announces_bind {p : ThreadProgram α} {next : α → ThreadProgram β}
    (first : p.Only (fun a : Action => a.announces = true) fun _ => True)
    (rest : ∀ x, (next x).Only (fun a : Action => a.announces = true) fun _ => True) :
    (p >>= next).Only (fun a : Action => a.announces = true) fun _ => True := first.bind fun x _ => rest x

theorem announces_ask {r : DeviceRequest} (installs : r.installs = true) :
    (ask r).Only (fun a : Action => a.announces = true) fun _ => True := only_ask installs fun _ => trivial

theorem announces_send {c : ChannelId} {ok : Bool} :
    (discard (send c (.loaded ok))).Only (fun a : Action => a.announces = true) fun _ => True := by
  refine announces_bind (announces_bind (only_act (a := .hasReceiver c) rfl fun _ => trivial)
    fun receives => ?_) fun _ => trivial
  split
  · refine announces_bind (announces_bind (only_act (a := .settle c (some (.loaded ok))) rfl fun _ => trivial)
      fun waiter => ?_) fun _ => trivial
    cases waiter with
    | none => trivial
    | some u => exact only_act (a := .unblock u) rfl fun _ => trivial
  · trivial

theorem announces_install (program : LoadedProgram) :
    (install program).Only (fun a : Action => a.announces = true) fun _ => True := by
  refine announces_bind (announces_ask rfl) fun _ => announces_bind ?_ fun _ => ?_
  · exact announces_bind (announces_ask rfl) fun _ => announces_bind (announces_ask rfl) fun _ =>
      announces_bind (announces_ask rfl) fun _ => trivial
  · exact announces_bind (announces_ask rfl) fun _ => announces_bind (announces_ask rfl) fun _ =>
      announces_ask rfl

/-- When a program is loaded it is installed, and no line is shown. -/
theorem announces_ok (program : LoadedProgram) :
    (announcing start (.ok program)).Only (fun a : Action => a.announces = true) fun _ => True :=
  announces_bind (announces_install program) fun _ => announces_bind announces_send fun _ => announces_ask rfl

/-- What is done to announce what a load has come to: a line may be shown. -/
theorem announces_announcing (result : Except LoadError LoadedProgram) :
    (announcing start result).Only (fun a : Action => a.announces = true ∨
      ∃ text, a = .device (put (Bytes.ofString (loadLine (programName start) text ++ "\n")))) fun _ => True := by
  have given {p : ThreadProgram Unit} (only : p.Only (fun a : Action => a.announces = true) fun _ => True) :
      p.Only (fun a : Action => a.announces = true ∨
        ∃ text, a = .device (put (Bytes.ofString (loadLine (programName start) text ++ "\n")))) fun _ => True :=
    only.mono (fun _ => .inl) fun _ => id
  cases result with
  | ok program => exact given (announces_ok program)
  | error e =>
    simp only [announcing]
    cases e.diagnostic? with
    | none => exact given announces_send
    | some text => exact ⟨.inr ⟨text, rfl⟩, fun _ => given announces_send⟩

/-- What is done while a child starts: it loads, it announces what that has come to, and it may show why
    it has no program. -/
theorem only_starting {P : Action → Prop} (loads : ∀ a : Action, a.loads = true → P a)
    (announces : ∀ a : Action, a.announces = true → P a)
    (shows : ∀ text, P (.device (put (Bytes.ofString (loadLine (programName start) text ++ "\n"))))) :
    (starting k start).Only P fun _ => True := by
  refine Only.bind (R := fun _ => True) (loads_loading.mono (fun a => loads a) fun _ => id) fun result _ => ?_
  refine ((announces_announcing result).mono (fun a done => ?_) fun _ => id).bind fun _ _ => trivial
  rcases done with announcing | ⟨text, rfl⟩
  · exact announces a announcing
  · exact shows text

/-- What is done in a start. -/
def InStart (start : NewProcess) (a : Action) : Prop :=
  a.loads = true ∨ a.announces = true ∨
    ∃ text, a = .device (put (Bytes.ofString (loadLine (programName start) text ++ "\n")))

theorem starts_starting : (starting k start).Only (InStart start) fun _ => True :=
  only_starting (fun _ loads => .inl loads) (fun _ announces => .inr (.inl announces))
    fun text => .inr (.inr ⟨text, rfl⟩)

end Kernel

end Userland

import Userland.Proofs.Calls
import Userland.Proofs.Loading

/-!
# What threads do is composed

Loading, and all that system calls do to files and memory, is plain; so what a process does from its
start to its end is made of plain actions and calls, whatever its program does
(`Kernel.composed_startProcess`), and so is what the first thread does (`Kernel.composed_run`).
-/

namespace Userland

open Program (Only)

-- Which words a line has does not matter for the calls that are made with it.
attribute [local irreducible] Words.ofString

/-- A routine that leaves the children of a thread alone. -/
abbrev Routine.Plain {α : Type} (p : Routine α) : Prop :=
  p.Only (fun r : DeviceRequest => r.isPlain = true) fun _ => True

/-- A program that has to do with no child and no exit status, with results that are so. -/
abbrev ThreadProgram.Plain {α : Type} (R : α → Prop) (p : ThreadProgram α) : Prop :=
  p.Only (fun a : Action => a.isPlain = true) R

/-! ## Loading -/

namespace Loader

open Routine

theorem plain_ask {r : DeviceRequest} (plain : r.isPlain = true) : (ask r).Plain :=
  ⟨plain, fun _ => trivial⟩

theorem plain_bind {α β : Type} {p : Routine α} {f : α → Routine β} (first : p.Plain)
    (rest : ∀ x, (f x).Plain) : (p >>= f).Plain := first.bind fun x _ => rest x

theorem plain_load {arguments : List String} : (load arguments).Plain := by
  refine only_load (fun _ => rfl) (fun _ => rfl) (fun file r fills => ?_) (fun _ => rfl) fun _ => rfl
  cases r <;> first | rfl | cases fills

end Loader

/-! ## Files and memory -/

namespace Kernel

open ThreadProgram DeviceRequest

variable {α : Type} {k : Kernel} {asked : Option Int32}

/-- The exit status that a system call comes to, if it comes to an exit. -/
def exitOf : Except UserFault Outcome → Option Int32
  | .ok (.exit status) => some status
  | _ => none

/-- What a system call comes to is no exit. -/
def Stays (outcome : Except UserFault Outcome) : Prop := exitOf outcome = none

theorem plain_request {r : DeviceRequest} {R : r.Answer → Prop} (plain : r.isPlain = true)
    (results : ∀ answer, R answer) : Plain R (ask r) := only_ask plain results

theorem plain_withVolume {body : Routine α} (inside : body.Plain) :
    Plain (fun _ => True) (withVolume body) := only_withLock rfl rfl (fun _ => rfl) inside

/-- One request to the volume. -/
theorem plain_useVolume {r : DeviceRequest} (plain : r.isPlain = true) :
    Plain (fun _ => True) (withVolume (Routine.ask r)) := plain_withVolume (Loader.plain_ask plain)

theorem plain_userString {a : VirtAddr} : Plain (fun _ => True) (k.userString a) :=
  Only.bind (R := fun _ => True) (plain_request rfl fun _ => trivial) fun read _ => by
    cases read <;> trivial

theorem plain_withPath {a : VirtAddr} {failure : Outcome} {body : String → ThreadProgram Outcome}
    (failed : Stays (.ok failure))
    (inside : ∀ path, Plain (fun outcome => Stays (.ok outcome)) (body path)) :
    Plain Stays (k.withPath a failure body) := by
  refine Only.bind plain_userString fun read _ => ?_
  cases read with
  | error fault => rfl
  | ok path =>
    cases path with
    | none =>
      refine Only.bind (R := fun _ => True) (plain_request rfl fun _ => trivial) fun _ _ => ?_
      exact Only.bind (R := fun _ => True) (plain_request rfl fun _ => trivial) fun _ _ => failed
    | some path => exact Only.bind (inside path) fun _ stays => stays

theorem plain_withFile {fd : Int32} {body : Handle → Routine α} (inside : ∀ h, (body h).Plain) :
    Plain (fun _ => True) (withFile fd body) := by
  unfold withFile
  split
  · trivial
  refine Only.bind (R := fun _ => True) (plain_request rfl fun _ => trivial) fun found _ => ?_
  split
  · trivial
  · exact Only.bind (plain_withVolume (inside _)) fun _ _ => trivial

theorem plain_openPath {path : String} :
    Plain (fun outcome => Stays (.ok outcome)) (openPath path) := by
  refine Only.bind (plain_withVolume ?_) fun descriptor _ => rfl
  refine Loader.plain_bind (Loader.plain_ask rfl) fun opened => ?_
  split
  · trivial
  refine Loader.plain_bind (Loader.plain_ask rfl) fun kept => ?_
  split
  · trivial
  · exact Loader.plain_bind (Loader.plain_ask rfl) fun _ => trivial

theorem plain_closeDescriptor {fd : Int32} : Plain (fun _ => True) (closeDescriptor fd) := by
  unfold closeDescriptor
  split
  · trivial
  refine Only.bind (R := fun _ => True) (plain_request rfl fun _ => trivial) fun taken _ => ?_
  split
  · trivial
  · exact plain_useVolume rfl

theorem plain_readKeyboard {done : Bytes} {n : Nat} :
    Plain (fun _ => True) (readKeyboard done n) := by
  induction n generalizing done with
  | zero => trivial
  | succ n ih => exact Only.bind (R := fun _ => True) (plain_request rfl fun _ => trivial) fun _ _ => ih

theorem plain_readDescriptor {fd : Int32} {n : Nat} :
    Plain (fun _ => True) (readDescriptor fd n) := by
  unfold readDescriptor
  split
  · trivial
  split
  · rw [map_eq_pure_bind]
    exact Only.bind plain_readKeyboard fun _ _ => trivial
  split
  · trivial
  · exact plain_withFile fun h => Loader.plain_ask rfl

theorem plain_readInto {fd : Int32} {buffer : VirtAddr} {size : UInt32} :
    Plain Stays (readInto fd buffer size) := by
  refine Only.bind (R := fun _ => True) (plain_request rfl fun _ => trivial) fun checked _ => ?_
  split
  · rfl
  refine Only.bind plain_readDescriptor fun data _ => ?_
  split
  · rfl
  refine Only.bind (R := fun _ => True) (plain_request rfl fun _ => trivial) fun copied _ => ?_
  split <;> rfl

theorem plain_writeDescriptor {fd : Int32} {data : Bytes} :
    Plain (fun _ => True) (writeDescriptor fd data) := by
  unfold writeDescriptor
  split
  · trivial
  split
  · exact Only.bind (R := fun _ => True) (plain_request rfl fun _ => trivial) fun _ _ => trivial
  split
  · trivial
  · exact Only.bind (plain_withFile fun h => Loader.plain_ask rfl) fun _ _ => trivial

theorem plain_writeFrom {fd : Int32} {buffer : VirtAddr} {size : UInt32} :
    Plain Stays (writeFrom fd buffer size) := by
  refine Only.bind (R := fun _ => True) (plain_request rfl fun _ => trivial) fun copied _ => ?_
  split
  · rfl
  · exact Only.bind plain_writeDescriptor fun _ _ => rfl

/-! ## System calls -/

theorem composed_exec {a : VirtAddr} :
    Composed k (fun asked' outcome => asked' = asked ∧ Stays outcome) asked (k.exec a) := by
  refine .bind (R := fun asked' _ => asked' = asked) (.of_only plain_userString fun _ _ => rfl)
    fun asked' read same => ?_
  subst same
  cases read with
  | error fault => exact .pure ⟨rfl, rfl⟩
  | ok line =>
    cases line with
    | none => exact .pure ⟨rfl, rfl⟩
    | some line =>
      refine .bind (.of_call (.execute .process line) nofun) fun asked'' result same => ?_
      subst same
      cases result with
      | ok child => exact .pure ⟨rfl, rfl⟩
      | error e =>
        exact .of_only (S := Stays)
          (Only.bind (R := fun _ => True) (plain_request rfl fun _ => trivial) fun _ _ => rfl)
          fun _ stays => ⟨rfl, stays⟩

/-- A call comes to an exit only if it is one. -/
theorem composed_dispatch (call : Syscall) :
    Composed k (fun asked outcome => asked = exitOf outcome) (exitAsked (.ok call))
      (k.dispatch call) := by
  have stays {p : ThreadProgram (Except UserFault Outcome)} (plain : Plain Stays p) :
      Composed k (fun asked outcome => asked = exitOf outcome) none p :=
    .of_only plain fun _ stays => stays.symm
  cases call with
  | halt => exact .pure rfl
  | exit status => exact .pure rfl
  | exec => exact composed_exec.weaken fun _ _ ⟨same, stays⟩ => same.trans stays.symm
  | wait pid =>
    exact .bind (.of_call (.wait .process pid) nofun) fun _ _ same => .pure same
  | create =>
    exact stays (plain_withPath rfl fun _ => Only.bind (plain_useVolume rfl) fun _ _ => rfl)
  | remove =>
    exact stays (plain_withPath rfl fun _ => Only.bind (plain_useVolume rfl) fun _ _ => rfl)
  | openFile => exact stays (plain_withPath rfl fun _ => plain_openPath)
  | filesize | tell =>
    exact stays (Only.bind (plain_withFile fun h => Loader.plain_ask rfl) fun _ _ => rfl)
  | read => exact stays plain_readInto
  | write => exact stays plain_writeFrom
  | seek fd position =>
    have sought : Plain (fun _ => True) (withFile fd fun h => Routine.ask (seek h position)) :=
      plain_withFile fun h => Loader.plain_ask rfl
    refine stays (Only.bind (R := fun _ => True) ?_ fun _ _ => rfl)
    exact Only.bind sought fun _ _ => trivial
  | close => exact stays (Only.bind plain_closeDescriptor fun _ _ => rfl)
  | practice => exact .pure rfl

theorem exitThread_elim :
    (exitThread : ThreadProgram Empty) >>= (Empty.elim : Empty → ThreadProgram α) = exitThread := by
  change (Program.ask _ fun _ => Program.ask _ fun answer => _ : ThreadProgram α) =
    Program.ask _ fun _ => Program.ask _ fun answer => _
  congr 1
  funext _
  congr 1
  funext answer
  exact nomatch answer

/-- What would come after an exit makes no difference. -/
theorem exitProcess_elim (status : Int32) :
    (exitProcess status : ThreadProgram Empty) >>= (Empty.elim : Empty → ThreadProgram α) =
      exitProcess status := by
  unfold exitProcess
  rw [bind_assoc]
  congr 1
  funext hosted
  cases hosted with
  | none => simp only [bind_assoc, exitThread_elim]
  | some p =>
    simp only [bind_assoc]
    congr 1
    funext _
    split <;> simp only [bind_assoc]
    · congr 1; funext _; congr 1; funext _; congr 1; funext _; congr 1; funext signal
      cases signal <;> simp only [bind_assoc, exitThread_elim]
    · congr 1; funext _; congr 1; funext _; congr 1; funext signal
      cases signal <;> simp only [bind_assoc, exitThread_elim]

theorem composed_exitProcess {R : Option Int32 → α → Prop} {status : Int32}
    (may : status = asked.getD (-1)) : Composed k R asked (exitProcess status) := by
  rw [← exitProcess_elim]
  exact .call (.exit status) (fun status' same => by cases same; exact may) nofun

/-- A process that is killed exits with -1. -/
theorem composed_kill {R : Option Int32 → α → Prop} {level : LogLevel} {text : String} :
    Composed k R none (remark level text >>= fun _ => exitProcess (-1)) :=
  .ask rfl fun _ => composed_exitProcess rfl

theorem composed_syscall (stops : k.power = .stopsMachine) (frame : TrapFrame) :
    Composed k (fun asked _ => asked = none) none (k.syscall frame) := by
  refine .bind_ask rfl fun hosted => ?_
  cases hosted with
  | none => exact .bind_ask rfl fun _ => .pure rfl
  | some p =>
    refine .bind_decode fun decoded => ?_
    cases decoded with
    | error => exact composed_kill
    | ok call =>
      refine .bind (composed_dispatch call) fun asked outcome same => ?_
      subst same
      beta_reduce
      split
      · exact .pure rfl
      · exact .pure rfl
      · exact composed_exitProcess rfl
      · refine .ask rfl fun _ => .ask rfl fun _ => ?_
        rw [stops]
        exact .ask rfl (by simp)
      · exact composed_kill

end Kernel

/-! ## Whole threads -/

/-- What a program does is composed, whatever it is. -/
theorem UserCode.composed_program {k : Kernel} (stops : k.power = .stopsMachine) (code : UserCode) :
    Composed k (fun _ _ => True) none (code.program k) := by
  have fault {α : Type} {R : Option Int32 → α → Prop} {a : VirtAddr} {write present : Bool} :
      Composed k R none (Kernel.userFault ⟨a, .user, write, present⟩) := Kernel.composed_kill
  induction code with
  | trap frame next ih =>
    exact .bind (Kernel.composed_syscall stops frame) fun _ value same => same ▸ ih value
  | fault => exact fault
  | load a n next ih =>
    refine .bind (R := fun asked _ => asked = none) (.ask rfl fun read => ?_)
      fun _ data same => same ▸ ih data
    cases read with
    | error => exact fault
    | ok data => exact .pure rfl
  | store a data next ih =>
    refine .bind (R := fun asked _ => asked = none) (.ask rfl fun wrote => ?_)
      fun _ _ same => same ▸ ih
    cases wrote with
    | error => exact fault
    | ok => exact .pure rfl
  | goto block => exact .goto

namespace Kernel

open ThreadProgram DeviceRequest

variable {k : Kernel}

theorem plain_bind {α β : Type} {p : ThreadProgram α} {next : α → ThreadProgram β}
    (first : Plain (fun _ => True) p) (rest : ∀ x, Plain (fun _ => True) (next x)) :
    Plain (fun _ => True) (p >>= next) := first.bind fun x _ => rest x

theorem plain_send {c : ChannelId} {ok : Bool} :
    Plain (fun _ => True) (send c (.loaded ok)) := by
  have woken (t : Option Tid) : Plain (fun _ => True) (wake t) := by
    cases t with
    | none => trivial
    | some t => exact ⟨rfl, fun _ => trivial⟩
  refine plain_bind (only_act rfl fun _ => trivial) fun receives => ?_
  split
  · exact plain_bind (plain_bind (only_act rfl fun _ => trivial) woken) fun _ => trivial
  · trivial

theorem plain_install {program : LoadedProgram} : Plain (fun _ => True) (install program) := by
  have request {r : DeviceRequest} (plain : r.isPlain = true) : Plain (fun _ => True) (ask r) :=
    plain_request plain fun _ => trivial
  refine plain_bind (request rfl) fun _ => plain_bind (plain_bind (request rfl) fun _ =>
    plain_bind (request rfl) fun _ => plain_bind (request rfl) fun _ => trivial) fun _ => ?_
  exact plain_bind (request rfl) fun _ => plain_bind (request rfl) fun _ => request rfl

/-- What the thread of a new process does is composed. -/
theorem composed_startProcess {userMode : UserMode} {start : NewProcess}
    (enters : ∀ name context, Composed k (fun _ _ => True) none (userMode name context)) :
    Composed k (fun _ _ => True) none (k.startProcess userMode start) := by
  have plainly {α : Type} {p : ThreadProgram α} {next : α → ThreadProgram Unit}
      (plain : Plain (fun _ => True) p) (rest : ∀ x, Composed k (fun _ _ => True) none (next x)) :
      Composed k (fun _ _ => True) none (p >>= next) :=
    .bind (R := fun asked _ => asked = none) (.of_only plain fun _ _ => rfl)
      fun _ x same => same ▸ rest x
  refine .bind_ask rfl fun _ => plainly (plain_withVolume Loader.plain_load) fun loaded => ?_
  cases loaded with
  | ok loaded =>
    exact plainly plain_install fun _ => plainly (plain_bind plain_send fun _ => trivial) fun _ =>
      .bind_ask rfl fun _ => enters _ _
  | error e =>
    have failed : Composed k (fun _ _ => True) none (discard (send start.loaded (.loaded false)) >>=
        fun _ => (exitProcess (-1) : ThreadProgram Unit)) :=
      plainly (plain_bind plain_send fun _ => trivial) fun _ => composed_exitProcess rfl
    dsimp only
    split
    · exact .bind_ask rfl fun _ => failed
    · exact failed

/-- What the first thread does is composed. -/
theorem composed_run {line : String} :
    Composed k (fun _ _ => True) none (discard (k.run line)) := by
  refine .bind (R := fun asked _ => asked = none) (.bind (.of_call (.execute .initial line) nofun)
    fun asked result same => ?_) fun _ _ _ => .pure trivial
  subst same
  cases result with
  | error e => exact .pure rfl
  | ok child =>
    exact .bind (.of_call (.wait .initial child.toPid) nofun) fun _ _ same => .pure same

end Kernel

end Userland

import Userland.Proofs.Composition

/-!
# What processes do

Between its start and its end a process runs its program and has system calls carried out. Few of the
actions in which this consists matter outside the process: bytes are copied into its memory by a read,
and shown by a write, and each of these is the last that is done in its call, which then gives the
number of bytes (`Kernel.Conduct`). All else is ordinary: it changes no memory, shows nothing, and leaves
denials of writes alone. This holds of every program (`UserCode.conduct`).
-/

namespace Userland

open ThreadProgram
open Program (Only)

-- Which words a line has does not matter for what is done with them.
attribute [local irreducible] Words.ofString

/-! ## Ordinary actions -/

/-- The requests of programs and system calls that change no memory and show nothing. -/
def DeviceRequest.isOrdinary : DeviceRequest → Bool
  | process | checkRange .. | copyIn .. | copyString .. | load .. | findFile _ | takeFile _
  | keepFile _ | openFile _ | create .. | remove _ | read .. | write .. | seek .. | tell _ | length _
  | close _ | getByte | register .. | takeChild .. | log .. | powerOff => true
  | _ => false

/-- The actions of programs and system calls that change no memory and show nothing. -/
def Action.isOrdinary : Action → Bool
  | device r => r.isOrdinary
  | spawn .. | newChannel | receive _ | dropReceiver _ | lock _ | release _ | lockRegistry _
  | unlockRegistry _ | unblock _ | stop _ => true
  | _ => false

/-- A program that does nothing else. -/
abbrev ThreadProgram.Ordinary {α : Type} (p : ThreadProgram α) : Prop :=
  p.Only (fun a : Action => a.isOrdinary = true) fun _ => True

/-! ## Traps -/

namespace Kernel

open DeviceRequest

variable {α β : Type} {k : Kernel}

/-- What becomes of a process after its call. -/
def conclude (k : Kernel) (frame : TrapFrame) : Except UserFault Outcome → ThreadProgram UInt32
  | .ok (.result value) => return value.toUInt32
  | .ok .void => return frame.eax
  | .ok (.exit status) => exitProcess status
  | .ok .halt => do
    remark .info "[SYSCALL] halt"
    k.powerOff
  | .error fault => do
    remark .debug ("[SYSCALL] killing process: " ++ fault.message)
    exitProcess (-1)

/-- What is done for a trap of a process: its call is read, carried out and concluded. -/
def serve (k : Kernel) (frame : TrapFrame) : ThreadProgram UInt32 := do
  let decoded ← ask (decode (.ofWord frame.esp))
  let outcome ← match decoded with
    | .error fault => pure (.error fault)
    | .ok call => k.dispatch call
  k.conclude frame outcome

/-- A trap is served if its thread has a process. -/
theorem syscall_eq (frame : TrapFrame) : k.syscall frame = (do
    match ← ask process with
    | none =>
      remark .error "[SYSCALL] trap from a thread with no process"
      return frame.eax
    | some _ => k.serve frame) := rfl

/-! ## The conduct of a process -/

/-- What a process may do until it exits. The call that is being carried out is known, with what the
    program does with its result. -/
inductive Conduct (k : Kernel) :
    Option (Syscall × (UInt32 → UserCode)) → ThreadProgram Unit → Prop where
  /-- It does something ordinary. -/
  | ordinary {current : Option (Syscall × (UInt32 → UserCode))} {a : Action}
    {next : a.Answer → ThreadProgram Unit} : a.isOrdinary = true →
    (∀ answer, Conduct k current (next answer)) → Conduct k current (Program.ask a next)
  /-- Its program stores bytes. -/
  | store {current : Option (Syscall × (UInt32 → UserCode))} {start : VirtAddr} {data : Bytes}
    {code : UserCode} {next : Except AddressSpace.Touch Unit → ThreadProgram Unit} :
    Program.ask (Action.device (.store start data)) next = (UserCode.store start data code).program k →
    (∀ answer, Conduct k current (next answer)) →
    Conduct k current (Program.ask (Action.device (.store start data)) next)
  /-- A call is read from its stack. -/
  | decode {current : Option (Syscall × (UInt32 → UserCode))} {frame : TrapFrame}
    {code : UInt32 → UserCode} {next : Except UserFault Syscall → ThreadProgram Unit} :
    Program.ask (Action.device (.decode (.ofWord frame.esp))) next =
      (k.serve frame >>= fun value => (code value).program k) →
    (∀ answer, Conduct k (answer.toOption.map (·, code)) (next answer)) →
    Conduct k current (Program.ask (Action.device (.decode (.ofWord frame.esp))) next)
  /-- The bytes that a read has got are copied, and the program goes on with their number. -/
  | copyOut {fd : Int32} {buffer : VirtAddr} {size : UInt32} {code : UInt32 → UserCode} {data : Bytes}
    {next : Except UserFault Unit → ThreadProgram Unit} :
    next (.ok ()) = (code (Int32.ofNat data.length).toUInt32).program k →
    (∀ answer, Conduct k (some (.read fd buffer size, code)) (next answer)) →
    Conduct k (some (.read fd buffer size, code))
      (Program.ask (Action.device (.copyOut buffer data)) next)
  /-- The bytes that a write to the display has got are shown, and the program goes on with their
      number. -/
  | put {fd : Int32} {buffer : VirtAddr} {size : UInt32} {code : UInt32 → UserCode} {data : Bytes}
    {next : Unit → ThreadProgram Unit} : Descriptor.ofInt? fd = some .output →
    next () = (code (Int32.ofNat data.length).toUInt32).program k →
    Conduct k (some (.write fd buffer size, code)) (next ()) →
    Conduct k (some (.write fd buffer size, code)) (Program.ask (Action.device (.put data)) next)
  /-- Its program goes on with a block. -/
  | goto {current : Option (Syscall × (UInt32 → UserCode))} {block : ℕ} {next : Empty → ThreadProgram Unit} :
    Conduct k current (Program.ask (Action.goto block) next)
  /-- It exits. -/
  | exit {current : Option (Syscall × (UInt32 → UserCode))} (status : Int32) :
    Conduct k current (exitProcess status)

variable {current : Option (Syscall × (UInt32 → UserCode))}

/-- What may be done outside of calls may be done in them. -/
theorem Conduct.weaken {p : ThreadProgram Unit} (conduct : Conduct k none p) : Conduct k current p := by
  generalize outside : none = outer at conduct
  induction conduct with
  | ordinary plain _ ih => exact .ordinary plain fun answer => ih answer outside
  | store same _ ih => exact .store same fun answer => ih answer outside
  | decode same rest _ => exact .decode same rest
  | copyOut => cases outside
  | put => cases outside
  | goto => exact .goto
  | exit status => exact .exit status

/-- Ordinary actions may come before what may be done. -/
theorem conduct_bind {R : α → Prop} {p : ThreadProgram α} {next : α → ThreadProgram Unit}
    (first : p.Only (fun a : Action => a.isOrdinary = true) R)
    (rest : ∀ x, R x → Conduct k current (next x)) : Conduct k current (p >>= next) := by
  change Conduct k current (p.bind next)
  induction p with
  | pure x => exact rest x first
  | ask a steps ih => exact .ordinary first.1 fun answer => ih answer (first.2 answer)

/-! ## Ordinary calls -/

theorem ordinary_bind {p : ThreadProgram α} {next : α → ThreadProgram β} (first : p.Ordinary)
    (rest : ∀ x, (next x).Ordinary) : (p >>= next).Ordinary := first.bind fun x _ => rest x

theorem ordinary_ask {r : DeviceRequest} (ordinary : r.isOrdinary = true) : (ask r).Ordinary :=
  only_ask ordinary fun _ => trivial

/-- A routine of ordinary requests. -/
theorem ordinary_withVolume {body : Routine α}
    (inside : body.Only (fun r : DeviceRequest => r.isOrdinary = true) fun _ => True) :
    (withVolume body).Ordinary := only_withLock rfl rfl (fun _ => rfl) inside

/-- One request to the volume. -/
theorem ordinary_useVolume {r : DeviceRequest} (ordinary : r.isOrdinary = true) :
    (withVolume (Routine.ask r)).Ordinary := ordinary_withVolume ⟨ordinary, fun _ => trivial⟩

/-- One request to a registry. -/
theorem ordinary_useRegistry {family : Family} {r : DeviceRequest} (ordinary : r.isOrdinary = true) :
    (withRegistry family (ask r)).Ordinary := only_withRegistry rfl rfl (ordinary_ask ordinary)

theorem ordinary_dropReceivers (channels : List ChannelId) : (dropReceivers channels).Ordinary :=
  .forM (fun c _ => only_act (a := .dropReceiver c) rfl fun _ => trivial) trivial

theorem ordinary_execute {family : Family} {line : String} : (k.execute family line).Ordinary := by
  unfold execute
  dsimp only
  split
  · trivial
  refine ordinary_bind (only_act rfl fun _ => trivial) fun loaded =>
    ordinary_bind (only_act rfl fun _ => trivial) fun exit =>
      ordinary_bind (only_act rfl fun _ => trivial) fun child => ?_
  split
  · exact ordinary_bind (ordinary_dropReceivers _) fun _ => trivial
  refine ordinary_bind (ordinary_useRegistry rfl) fun _ =>
    ordinary_bind (only_act rfl fun _ => trivial) fun answer => ?_
  split
  · exact ordinary_bind (ordinary_ask rfl) fun _ => trivial
  · exact ordinary_bind (only_withRegistry rfl rfl (ordinary_bind (ordinary_ask rfl) fun record =>
      ordinary_dropReceivers record.toList)) fun _ => trivial

theorem ordinary_wait {family : Family} {pid : Int32} : (wait family pid).Ordinary := by
  refine ordinary_bind (ordinary_bind (ordinary_useRegistry rfl) fun record => ?_) fun result => ?_
  · cases record with
    | none => trivial
    | some exit =>
      refine ordinary_bind (only_act rfl fun _ => trivial) fun answer => ?_
      split <;> trivial
  · split
    · trivial
    · exact ordinary_bind (ordinary_ask rfl) fun _ => trivial

theorem ordinary_userString {a : VirtAddr} : (k.userString a).Ordinary :=
  ordinary_bind (ordinary_ask rfl) fun read => by cases read <;> trivial

theorem ordinary_withPath {a : VirtAddr} {failure : Outcome} {body : String → ThreadProgram Outcome}
    (inside : ∀ path, (body path).Ordinary) : (k.withPath a failure body).Ordinary := by
  refine ordinary_bind ordinary_userString fun read => ?_
  rcases read with fault | _ | path
  · trivial
  · exact ordinary_bind (ordinary_ask rfl) fun _ => ordinary_bind (ordinary_ask rfl) fun _ => trivial
  · exact ordinary_bind (inside path) fun _ => trivial

theorem ordinary_withFile {fd : Int32} {body : Handle → Routine α}
    (inside : ∀ h, (withVolume (body h)).Ordinary) : (withFile fd body).Ordinary := by
  unfold withFile
  split
  · trivial
  refine ordinary_bind (ordinary_ask rfl) fun found => ?_
  split
  · trivial
  · exact ordinary_bind (inside _) fun _ => trivial

theorem ordinary_exec {a : VirtAddr} : (k.exec a).Ordinary := by
  refine ordinary_bind ordinary_userString fun read => ?_
  rcases read with fault | _ | line
  · trivial
  · trivial
  · refine ordinary_bind ordinary_execute fun result => ?_
    cases result with
    | ok child => trivial
    | error e => exact ordinary_bind (ordinary_ask rfl) fun _ => trivial

theorem ordinary_openPath {path : String} : (openPath path).Ordinary := by
  refine ordinary_bind (ordinary_withVolume ?_) fun _ => trivial
  refine ⟨rfl, fun opened => ?_⟩
  cases opened with
  | none => trivial
  | some h =>
    refine ⟨rfl, fun kept => ?_⟩
    cases kept with
    | none => exact ⟨rfl, fun _ => trivial⟩
    | some descriptor => trivial

theorem ordinary_closeDescriptor {fd : Int32} : (closeDescriptor fd).Ordinary := by
  unfold closeDescriptor
  split
  · trivial
  refine ordinary_bind (ordinary_ask rfl) fun taken => ?_
  split
  · trivial
  · exact ordinary_useVolume rfl

theorem ordinary_readKeyboard {done : Bytes} {n : Nat} : (readKeyboard done n).Ordinary := by
  induction n generalizing done with
  | zero => trivial
  | succ n ih => exact ordinary_bind (ordinary_ask rfl) fun _ => ih

theorem ordinary_readDescriptor {fd : Int32} {n : Nat} : (readDescriptor fd n).Ordinary := by
  unfold readDescriptor
  split
  · trivial
  split
  · rw [map_eq_pure_bind]
    exact ordinary_bind ordinary_readKeyboard fun _ => trivial
  split
  · trivial
  · exact ordinary_withFile fun h => ordinary_useVolume rfl

/-- Any call but a read and a write. -/
theorem ordinary_dispatch {call : Syscall} (reads : ∀ fd buffer size, call ≠ .read fd buffer size)
    (writes : ∀ fd buffer size, call ≠ .write fd buffer size) : (k.dispatch call).Ordinary := by
  cases call with
  | halt | exit | practice => trivial
  | exec => exact ordinary_exec
  | wait => exact ordinary_bind ordinary_wait fun _ => trivial
  | create | remove =>
    exact ordinary_withPath fun _ => ordinary_bind (ordinary_useVolume rfl) fun _ => trivial
  | openFile => exact ordinary_withPath fun _ => ordinary_openPath
  | filesize | tell =>
    exact ordinary_bind (ordinary_withFile fun h => ordinary_useVolume rfl) fun _ => trivial
  | read fd buffer size => exact absurd rfl (reads fd buffer size)
  | write fd buffer size => exact absurd rfl (writes fd buffer size)
  | seek fd position =>
    have sought : (withFile fd fun h => Routine.ask (seek h position)).Ordinary :=
      ordinary_withFile fun h => ordinary_useVolume rfl
    exact ordinary_bind (ordinary_bind sought fun _ => trivial) fun _ => trivial
  | close => exact ordinary_bind ordinary_closeDescriptor fun _ => trivial

/-! ## Reads and writes -/

variable {fd : Int32} {buffer : VirtAddr} {size : UInt32} {code : UInt32 → UserCode}
  {rest : Except UserFault Outcome → ThreadProgram Unit}

/-- A read copies what it has got, and that is the last that it does. -/
theorem conduct_readInto
    (resumes : ∀ value, rest (.ok (.result value)) = (code value.toUInt32).program k)
    (after : ∀ outcome, Conduct k (some (.read fd buffer size, code)) (rest outcome)) :
    Conduct k (some (.read fd buffer size, code)) (readInto fd buffer size >>= rest) := by
  unfold readInto
  rw [bind_assoc]
  refine conduct_bind (ordinary_ask rfl) fun checked _ => ?_
  cases checked with
  | error fault => exact after _
  | ok =>
    dsimp only
    rw [bind_assoc]
    refine conduct_bind ordinary_readDescriptor fun got _ => ?_
    cases got with
    | none => exact after _
    | some data =>
      refine .copyOut (resumes _) fun copied => ?_
      cases copied <;> exact after _

/-- A write to the display shows what it has got, and that is the last that it does. -/
theorem conduct_writeFrom
    (resumes : ∀ value, rest (.ok (.result value)) = (code value.toUInt32).program k)
    (after : ∀ outcome, Conduct k (some (.write fd buffer size, code)) (rest outcome)) :
    Conduct k (some (.write fd buffer size, code)) (writeFrom fd buffer size >>= rest) := by
  unfold writeFrom
  rw [bind_assoc]
  refine conduct_bind (ordinary_ask rfl) fun copied _ => ?_
  cases copied with
  | error fault => exact after _
  | ok data =>
    dsimp only
    rw [bind_assoc]
    unfold writeDescriptor
    cases named : Descriptor.ofInt? fd with
    | none => exact after _
    | some descriptor =>
      dsimp only
      split
      · rename_i output
        exact .put (named.trans (congrArg some output)) (resumes _) (after _)
      split
      · exact after _
      · refine conduct_bind (R := fun _ => True) (ordinary_bind ?_ fun _ => trivial) fun _ _ => after _
        exact ordinary_withFile fun h => ordinary_useVolume rfl

/-- Whatever call it is, it may be carried out. -/
theorem conduct_dispatch (call : Syscall)
    (resumes : ∀ value, rest (.ok (.result value)) = (code value.toUInt32).program k)
    (after : ∀ outcome, Conduct k none (rest outcome)) :
    Conduct k (some (call, code)) (k.dispatch call >>= rest) := by
  by_cases reads : ∃ fd buffer size, call = .read fd buffer size
  · obtain ⟨fd, buffer, size, rfl⟩ := reads
    exact conduct_readInto resumes fun outcome => (after outcome).weaken
  by_cases writes : ∃ fd buffer size, call = .write fd buffer size
  · obtain ⟨fd, buffer, size, rfl⟩ := writes
    exact conduct_writeFrom resumes fun outcome => (after outcome).weaken
  refine conduct_bind (ordinary_dispatch (fun fd buffer size same => ?_) fun fd buffer size same => ?_)
    fun outcome _ => (after outcome).weaken
  · exact reads ⟨fd, buffer, size, same⟩
  · exact writes ⟨fd, buffer, size, same⟩

/-! ## Whole programs -/

/-- Nothing comes after an exit. -/
theorem exitProcess_bind {status : Int32} {next : α → ThreadProgram β} :
    (exitProcess status : ThreadProgram α) >>= next = exitProcess status := by
  rw [← exitProcess_elim (α := α), ← exitProcess_elim (α := β), bind_assoc]
  exact congrArg (exitProcess status >>= ·) (funext fun never => nomatch never)

/-- A process that is killed exits. -/
theorem conduct_kill {level : LogLevel} {text : String} {status : Int32}
    {next : α → ThreadProgram Unit} :
    Conduct k current ((remark level text >>= fun _ => exitProcess status) >>= next) := by
  rw [bind_assoc]
  refine conduct_bind (ordinary_ask rfl) fun _ _ => ?_
  rw [exitProcess_bind]
  exact .exit status

/-- After its call the program goes on, or the process exits, or the machine stops. -/
theorem conduct_conclude (stops : k.power = .stopsMachine) (frame : TrapFrame)
    (goesOn : ∀ value, Conduct k none ((code value).program k)) (outcome : Except UserFault Outcome) :
    Conduct k none (k.conclude frame outcome >>= fun value => (code value).program k) := by
  rcases outcome with fault | value | _ | status | _
  · exact conduct_kill
  · exact goesOn _
  · exact goesOn _
  · change Conduct k none (exitProcess status >>= _)
    rw [exitProcess_bind]
    exact .exit status
  · refine .ordinary rfl fun _ => .ordinary rfl fun _ => ?_
    rw [stops]
    exact .ordinary rfl nofun

theorem conduct_syscall (stops : k.power = .stopsMachine) (frame : TrapFrame)
    (goesOn : ∀ value, Conduct k none ((code value).program k)) :
    Conduct k none (k.syscall frame >>= fun value => (code value).program k) := by
  rw [syscall_eq, bind_assoc]
  refine conduct_bind (ordinary_ask rfl) fun hosted _ => ?_
  cases hosted with
  | none => exact .ordinary rfl fun _ => goesOn _
  | some p =>
    refine @Conduct.decode k none frame code _ rfl fun decoded => ?_
    have concluded := conduct_conclude stops frame goesOn
    cases decoded with
    | error fault => exact concluded (.error fault)
    | ok call =>
      change Conduct k (some (call, code)) ((k.dispatch call >>= k.conclude frame) >>= _)
      rw [bind_assoc]
      exact conduct_dispatch call (fun _ => rfl) concluded

end Kernel

/-- What a program does may be done, whatever the program is. -/
theorem UserCode.conduct {k : Kernel} (stops : k.power = .stopsMachine) (code : UserCode) :
    k.Conduct none (code.program k) := by
  have fault {α : Type} {a : VirtAddr} {write present : Bool} {next : α → ThreadProgram Unit} :
      k.Conduct none (Kernel.userFault ⟨a, .user, write, present⟩ >>= next) := Kernel.conduct_kill
  induction code with
  | trap frame next ih => exact Kernel.conduct_syscall stops frame ih
  | fault a write present =>
    have ends := @fault Unit a write present pure
    rwa [bind_pure] at ends
  | load a n next ih =>
    change k.Conduct none (UserOp.loadBytes a.toNat n >>= _)
    unfold UserOp.loadBytes
    rw [bind_assoc]
    refine Kernel.conduct_bind (Kernel.ordinary_ask rfl) fun got _ => ?_
    cases got with
    | error touch => exact fault
    | ok data => exact ih data
  | store a data next ih =>
    refine @Kernel.Conduct.store _ _ _ _ next _ rfl fun stored => ?_
    cases stored with
    | error touch => exact fault
    | ok => exact ih
  | goto block => exact .goto

end Userland

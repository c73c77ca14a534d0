import Mathlib.Tactic.Common
import Userland.Proofs.Leaving
import Userland.Proofs.Scenario

/-!
# Calls in programs

In what a thread does three calls stand out, with which it starts a child, waits for one, or ends its
process (`KernelCall`). All else that it does are plain actions, which leave children and exit statuses
alone, so the program of a thread, and each block of code, is made of plain actions and calls (`Composed`).
A process exits with the status that it gave in a system call, or with -1 if it gave none.

Where a call begins can be told from the program alone: while a thread is in a call it is never about to
begin another (`Program.Inside`), and a program that begins with a call is not made of other parts
(`Composed.of_call`).
-/

namespace Userland

open ThreadProgram

-- Which words a line has does not matter for the calls that are made with it.
attribute [local irreducible] Words.ofString

/-! ## Plain actions -/

/-- The requests that leave the children of a thread alone, and have to do with no exit status. -/
def DeviceRequest.isPlain : DeviceRequest → Bool
  | register .. | takeChild .. | takeChildren _ | detachProcess | setExitStatus _ | decode _ => false
  | _ => true

/-- The actions that have to do with no child and no exit status, and after which the thread goes on. -/
def Action.isPlain : Action → Bool
  | .device r => r.isPlain
  | .settle _ (some (.status _)) => false
  | .spawn .. | .newChannel | .receive _ | .dropReceiver _ | .lockRegistry _ | .unlockRegistry _
  | .endThread | .goto _ => false
  | _ => true

/-- The actions that have to do with channels and records only. -/
def Action.isClerical : Action → Bool
  | .newChannel | .receive _ | .dropReceiver _ | .lockRegistry _ | .unlockRegistry _ => true
  | .device (.register ..) | .device (.takeChild ..) | .device (.log ..) => true
  | _ => false

/-- The actions that are done as soon as their thread makes a step, if nobody has the lock on the registry. -/
def Action.isPrompt : Action → Bool
  | .lock _ | .receive _ | .endThread | .goto _ | .stop _ => false
  | _ => true

/-- The exit status that a process asks for, if its system call is that. -/
def exitAsked : Except UserFault Syscall → Option Int32
  | .ok (.exit status) => some status
  | _ => none

theorem exitAsked_eq {read : Except UserFault Syscall} {status : Int32}
    (asks : exitAsked read = some status) : read = .ok (.exit status) := by
  cases read with
  | error fault => cases asks
  | ok call =>
    cases call <;> cases asks
    rfl

/-! ## Calls -/

/-- The calls with which threads start, await and end processes. -/
inductive KernelCall where
  /-- Start a command line. -/
  | execute (family : Family) (line : String)
  /-- Wait for a child. -/
  | wait (family : Family) (pid : Int32)
  /-- End the process. -/
  | exit (status : Int32)

namespace KernelCall

/-- What a call gives. An exit gives nothing, for the thread ends. -/
abbrev Result : KernelCall → Type
  | execute .. => Except ExecError Tid
  | wait .. => Int32
  | exit _ => Empty

/-- What a thread does in a call. -/
def program (k : Kernel) : (c : KernelCall) → ThreadProgram c.Result
  | execute family line => k.execute family line
  | wait family pid => Kernel.wait family pid
  | exit status => Kernel.exitProcess status

/-- What a thread does first in a call. -/
def opening : KernelCall → Action
  | execute .. => .newChannel
  | wait family _ => .lockRegistry family
  | exit _ => .device .process

end KernelCall

/-- The thread is about to begin a call. A command line without words is refused at once, and that takes
    no step. -/
def Program.Calls (k : Kernel) {α : Type} (c : KernelCall) (p : ThreadProgram α) : Prop :=
  ∃ (first : c.opening.Answer → ThreadProgram c.Result) (next : c.Result → ThreadProgram α),
    c.program k = Program.ask c.opening first ∧ p = c.program k >>= next

namespace KernelCall

variable {k : Kernel}

/-- A command line without words is refused; any other call begins with its opening. -/
theorem program_cases (c : KernelCall) :
    (∃ first, c.program k = Program.ask c.opening first) ∨
      ∃ family line, c = execute family line ∧ k.execute family line = pure (.error .emptyCommand) := by
  cases c with
  | execute family line =>
    simp only [program]
    cases words : (Words.ofString (Utf8.truncate line Kernel.maxCommandLength)).head? with
    | none =>
      refine .inr ⟨family, line, rfl, ?_⟩
      unfold Kernel.execute
      simp only [words]
    | some name =>
      refine .inl ?_
      unfold Kernel.execute
      simp only [words]
      exact ⟨_, rfl⟩
  | wait family pid => exact .inl ⟨_, rfl⟩
  | exit status => exact .inl ⟨_, rfl⟩

/-- What a thread does in a call is settled by the call's command, and the other way round. -/
theorem execute_congr {family : Family} {line line' : String}
    (same : Utf8.truncate line Kernel.maxCommandLength = Utf8.truncate line' Kernel.maxCommandLength) :
    k.execute family line = k.execute family line' := by
  unfold Kernel.execute
  rw [same]

/-- The steps of starting a child: two channels, and a thread. If there is no thread the call fails;
    else the child is recorded, and what it tells of its load settles the result. Nothing else is done
    but what has to do with channels and records, and then nothing is waited for. -/
theorem execute_steps {family : Family} {line : String}
    {first : ChannelId → ThreadProgram (Except ExecError Tid)}
    (opens : k.execute family line = Program.ask Action.newChannel first) :
    ∃ (name : String) (rest : ChannelId → ChannelId → Option Tid → ThreadProgram (Except ExecError Tid)),
      (∀ loaded, first loaded = Program.ask Action.newChannel fun exit =>
        Program.ask (Action.spawn name k.settings.defaultPriority
          ⟨Utf8.truncate line Kernel.maxCommandLength, loaded, exit⟩) (rest loaded exit)) ∧
      (∀ loaded exit, (rest loaded exit none).Only
        (fun a : Action => a.isClerical = true ∧ a.isPrompt = true) (· = .error .spawn)) ∧
      ∀ loaded exit child, ∃ last : Option Signal → ThreadProgram (Except ExecError Tid),
        rest loaded exit (some child) =
          Program.ask (Action.lockRegistry family) (fun _ =>
            Program.ask (Action.device (.register family child exit)) fun _ =>
              Program.ask (Action.unlockRegistry family) fun _ =>
                Program.ask (Action.receive loaded) last) ∧
        ∀ answer, (last answer).Only (fun a : Action => a.isClerical = true ∧ a.isPrompt = true) fun r =>
          answer = some (.loaded true) ∧ r = .ok child ∨
            answer ≠ some (.loaded true) ∧ r = .error .loadFailed := by
  cases words : (Words.ofString (Utf8.truncate line Kernel.maxCommandLength)).head? with
  | none =>
    unfold Kernel.execute at opens
    simp only [words] at opens
    cases opens
  | some name =>
    unfold Kernel.execute at opens
    simp only [words] at opens
    obtain ⟨-, same⟩ := Program.ask.inj opens
    obtain rfl := eq_of_heq same
    have dropped (channels : List ChannelId) : (Kernel.dropReceivers channels).Only
        (fun a : Action => a.isClerical = true ∧ a.isPrompt = true) fun _ => True :=
      .forM (fun c _ => only_act (a := .dropReceiver c) ⟨rfl, rfl⟩ fun _ => trivial) trivial
    refine ⟨_, _, fun _ => rfl, fun loaded exit => (dropped [exit, loaded]).bind fun _ _ => rfl,
      fun loaded exit child => ⟨_, rfl, fun answer => ?_⟩⟩
    -- A child that has not loaded is taken off the record.
    have failed {R : Except ExecError Tid → Prop} (result : R (.error .loadFailed)) :
        (withRegistry family (do
            let record ← ask (.takeChild family child.toPid)
            Kernel.dropReceivers record.toList) >>= fun _ =>
          (pure (.error .loadFailed) : ThreadProgram (Except ExecError Tid))).Only
          (fun a : Action => a.isClerical = true ∧ a.isPrompt = true) R :=
      Program.Only.bind (R := fun _ => True)
        (only_withRegistry ⟨rfl, rfl⟩ ⟨rfl, rfl⟩ ⟨⟨rfl, rfl⟩, fun record => dropped record.toList⟩) fun _ _ => result
    rcases answer with _ | ⟨_ | _⟩ | _
    · exact failed (.inr ⟨nofun, rfl⟩)
    · exact failed (.inr ⟨nofun, rfl⟩)
    · exact ⟨⟨rfl, rfl⟩, fun _ => .inl ⟨rfl, rfl⟩⟩
    · exact failed (.inr ⟨nofun, rfl⟩)

/-- What a wait comes to, by the answer of the channel. -/
def awaited : Option Signal → Int32
  | some (.status status) => status
  | _ => -1

/-- What a thread does in a wait once it has looked for the record: if there is none it says so, else it
    receives. -/
def receiving (pid : Int32) : Option ChannelId → ThreadProgram Int32
  | none => do
    Kernel.remark .debug ("[PROCESS] wait(" ++ toString pid.toInt ++ "): " ++ WaitError.notChild.message)
    return -1
  | some c => do return awaited (← act (.receive c))

/-- What a thread does in a wait once it holds the lock on the registry: it takes the record, and frees the
    lock. -/
def looking (family : Family) (pid : Int32) : ThreadProgram Int32 :=
  Program.ask (Action.device (.takeChild family pid)) fun record =>
    Program.ask (Action.unlockRegistry family) fun _ => receiving pid record

/-- The steps of a wait: the record is looked for while the lock on the registry is held. -/
theorem wait_eq (family : Family) (pid : Int32) : Kernel.wait family pid =
    Program.ask (Action.lockRegistry family) fun _ => looking family pid := by
  refine congrArg (act (.lockRegistry family) >>= ·) (funext fun _ =>
    congrArg (ask (.takeChild family pid) >>= ·) (funext fun record =>
      congrArg (act (.unlockRegistry family) >>= ·) (funext fun _ => ?_)))
  cases record with
  | none => rfl
  | some c =>
    refine congrArg (act (.receive c) >>= ·) (funext fun answer => ?_)
    rcases answer with _ | ⟨_ | _⟩ <;> rfl

/-- A program begins with one call at most. Command lines may be cut to the same length. -/
theorem eq_of_calls {α : Type} {p : ThreadProgram α} {c c' : KernelCall} (h : p.Calls k c)
    (h' : p.Calls k c') : c = c' ∨ ∃ family line line', c = execute family line ∧
      c' = execute family line' ∧ k.execute family line = k.execute family line' := by
  obtain ⟨first, next, opens, rfl⟩ := h
  obtain ⟨first', next', opens', same⟩ := h'
  rw [opens, opens'] at same
  obtain ⟨opening, steps⟩ := Program.ask.inj same
  cases c with
  | execute family line =>
    cases c' with
    | execute family' line' =>
      obtain ⟨name, rest, shape, -, last⟩ := execute_steps opens
      obtain ⟨name', rest', shape', -, last'⟩ := execute_steps opens'
      have steps := congrFun (eq_of_heq steps) ⟨0⟩
      rw [shape, shape'] at steps
      obtain ⟨-, steps⟩ := Program.ask.inj steps
      obtain ⟨spawns, steps⟩ := Program.ask.inj (congrFun (eq_of_heq steps) ⟨0⟩)
      obtain ⟨-, -, start⟩ := Action.spawn.inj spawns
      obtain ⟨command, -, -⟩ := NewProcess.mk.inj start
      have steps := congrFun (eq_of_heq steps) (some 0)
      obtain ⟨last, recorded, -⟩ := last ⟨0⟩ ⟨0⟩ 0
      obtain ⟨last', recorded', -⟩ := last' ⟨0⟩ ⟨0⟩ 0
      rw [recorded, recorded'] at steps
      obtain rfl := Action.lockRegistry.inj (Program.ask.inj steps).1
      exact .inr ⟨family, line, line', rfl, rfl, execute_congr command⟩
    | wait => cases opening
    | exit => cases opening
  | wait family pid =>
    cases c' with
    | wait family' pid' =>
      obtain rfl := eq_of_heq (Program.ask.inj ((wait_eq family pid).symm.trans opens)).2
      obtain rfl := eq_of_heq (Program.ask.inj ((wait_eq family' pid').symm.trans opens')).2
      have takes := (Program.ask.inj (congrFun (eq_of_heq steps) ())).1
      obtain ⟨rfl, rfl⟩ := DeviceRequest.takeChild.inj (Action.device.inj takes)
      exact .inl rfl
    | execute => cases opening
    | exit => cases opening
  | exit status =>
    cases c' with
    | exit status' =>
      obtain ⟨-, same⟩ := Program.ask.inj opens
      obtain ⟨-, same'⟩ := Program.ask.inj opens'
      rw [← eq_of_heq same, ← eq_of_heq same'] at steps
      have steps := congrFun (eq_of_heq steps) (some (.fresh 0 "" 0))
      exact .inl (congrArg exit (DeviceRequest.setExitStatus.inj
        (Action.device.inj (Program.ask.inj steps).1)))
    | execute => cases opening
    | wait => cases opening

end KernelCall

/-! ## Within calls -/

/-- The actions with which calls begin. -/
def Action.isOpening : Action → Bool
  | .newChannel | .device .process | .lockRegistry _ => true
  | _ => false

/-- The actions by which the beginning of a call is known. In other places the lock on a registry is taken
    too, but no one record is. -/
def Action.isHallmark : Action → Bool
  | .newChannel | .device .process | .device (.takeChild ..) => true
  | _ => false

/-- What may be done in a call: a process that exits tells its status, and its thread ends, but no status
    is asked for, and nothing is done in user mode. -/
def Action.InCall (exits : Option Int32) : Action → Prop
  | .device (.decode _) | .goto _ => False
  | .settle _ (some (.status status)) => exits = some status
  | .endThread => exits.isSome = true
  | _ => True

/-- What is done in a call after its opening, so that no call can begin with it. -/
def Action.Inner (exits : Option Int32) (a : Action) : Prop := a.isHallmark = false ∧ a.InCall exits

/-- The actions that bring a frame or a file into use, or go on with what may do so. -/
def Action.acquires : Action → Bool
  | .device .allocate | .device (.openFile _) | .goto _ => true
  | _ => false

/-- What is done when things are given up. -/
def Action.Sheds (exits : Option Int32) (a : Action) : Prop := a.acquires = false ∧ a.Inner exits

/-- The status with which a call ends the process. -/
def KernelCall.exits : KernelCall → Option Int32
  | exit status => some status
  | _ => none

/-- What takes a process apart gives things up. -/
theorem Action.Final.sheds {exits : Option Int32} {a : Action} (final : a.Final exits) : a.Sheds exits := by
  cases a with
  | device r => cases r <;> first | exact ⟨rfl, rfl, trivial⟩ | cases final
  | settle c value =>
    refine ⟨rfl, rfl, ?_⟩
    rcases value with _ | ⟨_ | _⟩
    · trivial
    · exact final.elim
    · exact final
  | endThread => exact ⟨rfl, rfl, final⟩
  | hasReceiver | unblock | lock | release | lockRegistry | unlockRegistry | dropReceiver =>
    exact ⟨rfl, rfl, trivial⟩
  | _ => exact final.elim

namespace Kernel

variable {exits : Option Int32} {α : Type}

theorem Finishes.sheds {p : ThreadProgram α} (finishes : Finishes exits p) :
    p.Only (Action.Sheds exits) fun _ => True := finishes.mono (fun _ final => final.sheds) fun _ => id

/-- When a process exits, nothing is brought into use, and nothing is done with which a call can begin. -/
theorem sheds_exitProcess (status : Int32) {first : Option Process → ThreadProgram α}
    (opens : exitProcess status = Program.ask (Action.device .process) first) (hosted : Option Process) :
    (first hosted).Only (Action.Sheds (some status)) fun _ => True :=
  only_exitProcess ⟨rfl, rfl, trivial⟩ (fun _ => ⟨rfl, rfl, trivial⟩) (fun _ => ⟨rfl, rfl, trivial⟩)
    (fun _ final => final.sheds) opens hosted

end Kernel

/-- A thread that does so is in a call, and not about to begin another. -/
def Program.Inside (k : Kernel) {α : Type} : ThreadProgram α → Prop
  | Program.pure _ => True
  | Program.ask a next =>
    (∀ (β : Type) (rest : α → ThreadProgram β) (c : KernelCall),
      ¬Program.Calls k c (Program.ask a next >>= rest)) ∧ ∀ answer, (next answer).Inside k

namespace Program

variable {k : Kernel} {α β : Type} {c : KernelCall}

/-- A program that begins with a call begins with its opening. -/
theorem Calls.opening {a : Action} {next : a.Answer → ThreadProgram α}
    (calls : Program.Calls k c (Program.ask a next)) : a = c.opening := by
  obtain ⟨first, rest, opens, same⟩ := calls
  rw [opens] at same
  exact (Program.ask.inj same).1

theorem isOpening_opening (c : KernelCall) : c.opening.isOpening = true := by
  cases c <;> rfl

theorem not_calls {a : Action} {next : a.Answer → ThreadProgram α} (inner : a.isOpening = false) :
    ¬Program.Calls k c (Program.ask a next) := fun calls => by
  rw [calls.opening, isOpening_opening] at inner
  cases inner

theorem Inside.bind {p : ThreadProgram α} {f : α → ThreadProgram β} (inside : p.Inside k)
    (rest : ∀ x, (f x).Inside k) : (p >>= f).Inside k := by
  change (Program.bind p f).Inside k
  induction p with
  | pure x => exact rest x
  | ask a next ih =>
    refine ⟨fun γ g c calls => inside.1 γ (fun x => f x >>= g) c ?_, fun answer => ih answer (inside.2 answer)⟩
    have same : Program.ask a next >>= (fun x => f x >>= g) = (Program.ask a next >>= f) >>= g :=
      (Program.bind_assoc ..).symm
    rw [same]
    exact calls

/-- A wait goes on to take a record when it has the lock on the registry. -/
theorem takes_of_calls {family family' : Family} {pid : Int32} {next : Unit → ThreadProgram α}
    (calls : Program.Calls k (.wait family' pid) (Program.ask (Action.lockRegistry family) next)) :
    ∃ rest : Int32 → ThreadProgram α, next () =
      Program.ask (Action.device (.takeChild family' pid)) fun record =>
        Program.ask (Action.unlockRegistry family') fun _ => KernelCall.receiving pid record >>= rest := by
  obtain ⟨first, rest, opens, same⟩ := calls
  obtain rfl := eq_of_heq (Program.ask.inj ((KernelCall.wait_eq family' pid).symm.trans opens)).2
  rw [opens] at same
  exact ⟨rest, congrFun (eq_of_heq (Program.ask.inj same).2) ()⟩

/-- A thread that ends its process, and comes to no result, takes no record. -/
theorem Inside.of_only {exits : Option Int32} {p : ThreadProgram Empty}
    (only : p.Only (Action.Sheds exits) fun _ => True) : p.Inside k := by
  induction p with
  | pure x => trivial
  | ask a next ih =>
    refine ⟨fun β rest c calls => ?_, fun answer => ih answer (only.2 answer)⟩
    obtain rfl := calls.opening
    cases c with
    | execute | exit => cases only.1.2.1
    | wait family pid =>
      obtain ⟨rest, takes⟩ := takes_of_calls calls
      have after := only.2 ()
      cases left : next () with
      | pure x => exact x.elim
      | ask a' next' =>
        rw [left] at takes after
        obtain rfl := (Program.ask.inj takes).1
        cases after.1.2.1

end Program

namespace KernelCall

variable {k : Kernel}

theorem inside_receiving (pid : Int32) (record : Option ChannelId) : (receiving pid record).Inside k := by
  cases record with
  | none => exact ⟨fun _ _ _ => Program.not_calls rfl, fun _ => trivial⟩
  | some exit => exact ⟨fun _ _ _ => Program.not_calls rfl, fun _ => trivial⟩

theorem inside_dropReceivers (channels : List ChannelId) : (Kernel.dropReceivers channels).Inside k := by
  induction channels with
  | nil => trivial
  | cons c channels ih => exact ⟨fun _ _ _ => Program.not_calls rfl, fun _ => ih⟩

/-- No wait begins with putting a child on record. -/
theorem inside_register {family : Family} {child : Tid} {exit : ChannelId} :
    (withRegistry family (ask (.register family child exit))).Inside k := by
  refine ⟨fun β rest c calls => ?_, fun _ => ⟨fun _ _ _ => Program.not_calls rfl, fun _ =>
    ⟨fun _ _ _ => Program.not_calls rfl, fun _ => trivial⟩⟩⟩
  have opening := calls.opening
  cases c with
  | execute | exit => cases opening
  | wait family' pid =>
    obtain ⟨rest, takes⟩ := Program.takes_of_calls calls
    cases (Program.ask.inj takes).1

/-- No wait begins with taking a child off the record, for a wait would free the lock where the receiver is
    dropped. -/
theorem inside_unregister {family : Family} {pid : Int32} : (withRegistry family (do
    let record ← ask (.takeChild family pid)
    Kernel.dropReceivers record.toList)).Inside k := by
  refine ⟨fun β rest c calls => ?_, fun _ => ⟨fun _ _ _ => Program.not_calls rfl, fun record =>
    (inside_dropReceivers record.toList).bind fun _ => ⟨fun _ _ _ => Program.not_calls rfl, fun _ => trivial⟩⟩⟩
  have opening := calls.opening
  cases c with
  | execute | exit => cases opening
  | wait family' pid' =>
    obtain ⟨rest, takes⟩ := Program.takes_of_calls calls
    obtain ⟨rfl, rfl⟩ := DeviceRequest.takeChild.inj (Action.device.inj (Program.ask.inj takes).1)
    have steps := congrFun (eq_of_heq (Program.ask.inj takes).2) (some ⟨0⟩)
    cases (Program.ask.inj steps).1

/-- In an execute a second channel is made, and a record may be taken, but no call begins so. -/
theorem inside_execute {family : Family} {line : String}
    {first : ChannelId → ThreadProgram (Except ExecError Tid)}
    (opens : k.execute family line = Program.ask Action.newChannel first) (loaded : ChannelId) :
    (first loaded).Inside k := by
  cases words : (Words.ofString (Utf8.truncate line Kernel.maxCommandLength)).head? with
  | none =>
    unfold Kernel.execute at opens
    simp only [words] at opens
    cases opens
  | some name =>
    unfold Kernel.execute at opens
    simp only [words] at opens
    obtain ⟨-, same⟩ := Program.ask.inj opens
    obtain rfl := eq_of_heq same
    refine ⟨fun β rest c calls => ?_, fun exit => ⟨fun _ _ _ => Program.not_calls rfl, fun child => ?_⟩⟩
    · -- An execute would make another channel.
      have opening := calls.opening
      obtain ⟨first', next', opens', same⟩ := calls
      cases c with
      | wait | exit => cases opening
      | execute family' line' =>
        obtain ⟨name', rest', shape', -⟩ := execute_steps opens'
        rw [opens'] at same
        have steps := congrFun (eq_of_heq (Program.ask.inj same).2) ⟨0⟩
        change _ = (first' ⟨0⟩).bind next' at steps
        rw [shape'] at steps
        cases (Program.ask.inj steps).1
    cases child with
    | none => exact (inside_dropReceivers [exit, loaded]).bind fun _ => trivial
    | some child =>
      refine inside_register.bind fun _ => ⟨fun _ _ _ => Program.not_calls rfl, fun answer => ?_⟩
      rcases answer with _ | ⟨_ | _⟩ | _
      · exact inside_unregister.bind fun _ => trivial
      · exact inside_unregister.bind fun _ => trivial
      · exact ⟨fun _ _ _ => Program.not_calls rfl, fun _ => trivial⟩
      · exact inside_unregister.bind fun _ => trivial

/-- After its opening a thread is in the call. -/
theorem inside_program {c : KernelCall} {first : c.opening.Answer → ThreadProgram c.Result}
    (opens : c.program k = Program.ask c.opening first) (answer : c.opening.Answer) :
    (first answer).Inside k := by
  cases c with
  | execute family line => exact inside_execute opens answer
  | wait family pid =>
    obtain rfl := eq_of_heq (Program.ask.inj ((wait_eq family pid).symm.trans opens)).2
    exact ⟨fun _ _ _ => Program.not_calls rfl, fun record =>
      ⟨fun _ _ _ => Program.not_calls rfl, fun _ => inside_receiving pid record⟩⟩
  | exit status => exact .of_only (Kernel.sheds_exitProcess status opens answer)

theorem inCall_execute {family : Family} {line : String} :
    (k.execute family line).Only (Action.InCall none) fun _ => True := by
  have dropped (channels : List ChannelId) :
      (Kernel.dropReceivers channels).Only (Action.InCall none) fun _ => True :=
    (Kernel.finishes_dropReceivers channels).mono (fun _ final => final.sheds.2.2) fun _ => id
  unfold Kernel.execute
  dsimp only
  split
  · trivial
  refine ⟨trivial, fun loaded => ⟨trivial, fun exit => ⟨trivial, fun child => ?_⟩⟩⟩
  cases child with
  | none => exact (dropped [exit, loaded]).bind fun _ _ => trivial
  | some child =>
    have failed : (withRegistry family (do
          let record ← ask (.takeChild family child.toPid)
          Kernel.dropReceivers record.toList) >>= fun _ =>
        (pure (.error .loadFailed) : ThreadProgram (Except ExecError Tid))).Only (Action.InCall none)
        fun _ => True :=
      Program.Only.bind (R := fun _ => True)
        (only_withRegistry trivial trivial ⟨trivial, fun record => dropped record.toList⟩) fun _ _ => trivial
    refine ⟨trivial, fun _ => ⟨trivial, fun _ => ⟨trivial, fun _ => ⟨trivial, fun answer => ?_⟩⟩⟩⟩
    rcases answer with _ | ⟨_ | _⟩ | _
    · exact failed
    · exact failed
    · exact ⟨trivial, fun _ => trivial⟩
    · exact failed

/-- All that is done in a call may be done in it. -/
theorem inCall_program (c : KernelCall) :
    (c.program k).Only (Action.InCall c.exits) fun _ => True := by
  cases c with
  | execute family line => exact inCall_execute
  | wait family pid =>
    change (Kernel.wait family pid).Only _ _
    rw [wait_eq]
    refine ⟨trivial, fun _ => ⟨trivial, fun record => ⟨trivial, fun _ => ?_⟩⟩⟩
    cases record with
    | none => exact ⟨trivial, fun _ => trivial⟩
    | some exit => exact ⟨trivial, fun _ => trivial⟩
  | exit status =>
    exact ⟨trivial, fun hosted => (Kernel.sheds_exitProcess status rfl hosted).mono
      (fun _ sheds => sheds.2.2) fun _ => id⟩

end KernelCall

/-! ## What programs are made of -/

/-- A program that is made of plain actions and calls, with results that are so. What its process has
    asked to exit with is remembered: it exits with that, or with -1 if it has asked for nothing. -/
inductive Composed (k : Kernel) {α : Type} (R : Option Int32 → α → Prop) :
    Option Int32 → ThreadProgram α → Prop where
  /-- It is over. -/
  | pure {asked : Option Int32} {x : α} : R asked x → Composed k R asked (Program.pure x)
  /-- It does something plain. -/
  | ask {asked : Option Int32} {a : Action} {next : a.Answer → ThreadProgram α} : a.isPlain = true →
    (∀ answer, Composed k R asked (next answer)) → Composed k R asked (Program.ask a next)
  /-- It reads a system call. -/
  | decode {esp : VirtAddr} {next : Except UserFault Syscall → ThreadProgram α} :
    (∀ answer, Composed k R (exitAsked answer) (next answer)) →
      Composed k R none (Program.ask (Action.device (.decode esp)) next)
  /-- It goes on with a block, in user mode. -/
  | goto {block : ℕ} {next : Empty → ThreadProgram α} : Composed k R none (Program.ask (Action.goto block) next)
  /-- It makes a call. -/
  | call {asked : Option Int32} (c : KernelCall) {next : c.Result → ThreadProgram α} :
    (∀ status, c = .exit status → status = asked.getD (-1)) → (∀ r, Composed k R asked (next r)) →
      Composed k R asked (c.program k >>= next)

namespace Composed

variable {k : Kernel} {α β : Type} {R : Option Int32 → α → Prop} {R' : Option Int32 → β → Prop}
  {asked : Option Int32} {p : ThreadProgram α}

theorem weaken {R' : Option Int32 → α → Prop} (h : Composed k R asked p)
    (results : ∀ asked x, R asked x → R' asked x) : Composed k R' asked p := by
  induction h with
  | pure result => exact .pure (results _ _ result)
  | ask plain next ih => exact .ask plain ih
  | decode next ih => exact .decode ih
  | goto => exact .goto
  | call c may next ih => exact .call c may ih

theorem of_only {S : α → Prop} (only : p.Only (fun a : Action => a.isPlain = true) S)
    (results : ∀ x, S x → R asked x) : Composed k R asked p := by
  induction p with
  | pure x => exact .pure (results x only)
  | ask a next ih => exact .ask only.1 fun answer => ih answer (only.2 answer)

theorem bind {f : α → ThreadProgram β} (first : Composed k R asked p)
    (rest : ∀ asked x, R asked x → Composed k R' asked (f x)) : Composed k R' asked (p >>= f) := by
  induction first with
  | pure result => exact rest _ _ result
  | ask plain next ih => exact .ask plain ih
  | decode next ih => exact .decode ih
  | goto => exact .goto
  | @call asked c next may _ ih =>
    have split : (c.program k >>= next) >>= f = c.program k >>= fun r => next r >>= f :=
      Program.bind_assoc ..
    rw [split]
    exact .call c may ih

theorem bind_ask {r : DeviceRequest} {f : r.Answer → ThreadProgram α} (plain : r.isPlain = true)
    (rest : ∀ answer, Composed k R asked (f answer)) :
    Composed k R asked (ThreadProgram.ask r >>= f) := .ask plain rest

theorem bind_decode {esp : VirtAddr} {f : Except UserFault Syscall → ThreadProgram α}
    (rest : ∀ answer, Composed k R (exitAsked answer) (f answer)) :
    Composed k R none (ThreadProgram.ask (.decode esp) >>= f) := .decode rest

/-- A call on its own. -/
theorem of_call (c : KernelCall) (may : ∀ status, c = .exit status → status = asked.getD (-1)) :
    Composed k (fun asked' _ => asked' = asked) asked (c.program k) := by
  rw [← Program.bind_pure (c.program k)]
  exact .call c may fun r => .pure rfl

/-- How a composed program goes on. -/
inductive Head (k : Kernel) (R : Option Int32 → α → Prop) (asked : Option Int32) :
    ThreadProgram α → Prop where
  /-- It is over. -/
  | pure {x : α} : R asked x → Head k R asked (Program.pure x)
  /-- It does something plain. -/
  | ask {a : Action} {next : a.Answer → ThreadProgram α} : a.isPlain = true →
    (∀ answer, Composed k R asked (next answer)) → Head k R asked (Program.ask a next)
  /-- It reads a system call. -/
  | decode {esp : VirtAddr} {next : Except UserFault Syscall → ThreadProgram α} : asked = none →
    (∀ answer, Composed k R (exitAsked answer) (next answer)) →
      Head k R asked (Program.ask (Action.device (.decode esp)) next)
  /-- It goes on with a block. -/
  | goto {block : ℕ} {next : Empty → ThreadProgram α} : asked = none →
    Head k R asked (Program.ask (Action.goto block) next)
  /-- It begins a call. -/
  | call (c : KernelCall) (first : c.opening.Answer → ThreadProgram c.Result)
    (next : c.Result → ThreadProgram α) : c.program k = Program.ask c.opening first →
    (∀ status, c = .exit status → status = asked.getD (-1)) → (∀ r, Composed k R asked (next r)) →
      Head k R asked (Program.ask c.opening fun answer => first answer >>= next)

theorem head (h : Composed k R asked p) : Head k R asked p := by
  induction h with
  | pure result => exact .pure result
  | ask plain next _ => exact .ask plain next
  | decode next _ => exact .decode rfl next
  | goto => exact .goto rfl
  | @call asked c next may composed ih =>
    rcases c.program_cases (k := k) with ⟨first, opens⟩ | ⟨family, line, rfl, refused⟩
    · rw [opens]
      exact .call c first next opens may composed
    · exact (congrArg (Head k R asked) (congrArg (· >>= next) refused)).mpr (ih (.error .emptyCommand))

/-- An exit status is set only in an exit. -/
theorem not_setExitStatus {status : Int32} {next : Unit → ThreadProgram α} :
    ¬Composed k R asked (Program.ask (Action.device (.setExitStatus status)) next) := by
  intro h
  generalize same : (Program.ask (Action.device (.setExitStatus status)) next : ThreadProgram α) = p at h
  cases h.head with
  | pure => cases same
  | ask plain =>
    obtain rfl := (Program.ask.inj same).1
    cases plain
  | decode | goto => cases (Program.ask.inj same).1
  | call c first rest opens =>
    have opening := (Program.ask.inj same).1
    cases c <;> cases opening

/-- A thread goes on with a block only if its process has not asked to exit. -/
theorem unasked_of_goto {block : ℕ} {next : Empty → ThreadProgram α}
    (h : Composed k R asked (Program.ask (Action.goto block) next)) : asked = none := by
  generalize same : (Program.ask (Action.goto block) next : ThreadProgram α) = p at h
  cases h.head with
  | pure => cases same
  | ask plain =>
    obtain rfl := (Program.ask.inj same).1
    cases plain
  | decode unasked | goto unasked => exact unasked
  | call c first rest opens =>
    have opening := (Program.ask.inj same).1
    cases c <;> cases opening

/-- A program that begins with a call goes on to be composed after it. -/
theorem of_calls {c : KernelCall} (h : Composed k R asked p) (calls : p.Calls k c) :
    (∀ status, c = .exit status → status = asked.getD (-1)) ∧
      ∃ next, p = c.program k >>= next ∧ ∀ r, Composed k R asked (next r) := by
  cases h.head with
  | pure =>
    obtain ⟨first, next, opens, same⟩ := calls
    rw [opens] at same
    cases same
  | @ask a next plain composed =>
    have opening := calls.opening
    cases c with
    | execute | wait =>
      subst opening
      cases plain
    | exit status =>
      -- The next step of an exit would be to set the status.
      subst opening
      obtain ⟨first, rest, opens, same⟩ := calls
      have steps := congrFun (eq_of_heq (Program.ask.inj same).2) (some (.fresh 0 "" 0))
      exact absurd (steps ▸ composed (some (.fresh 0 "" 0))) not_setExitStatus
  | decode | goto =>
    have opening := calls.opening
    cases c <;> cases opening
  | call c' first next opens may composed =>
    have calls' : Program.Calls k c' (Program.ask c'.opening fun answer => first answer >>= next) :=
      ⟨first, next, opens, by rw [opens]; rfl⟩
    have same : (Program.ask c'.opening fun answer => first answer >>= next) = c'.program k >>= next := by
      rw [opens]
      rfl
    rcases KernelCall.eq_of_calls calls calls' with rfl | ⟨family, line, line', rfl, rfl, lines⟩
    · exact ⟨may, next, same, composed⟩
    · refine ⟨nofun, next, same.trans ?_, composed⟩
      exact congrArg (· >>= next) lines.symm

end Composed

end Userland

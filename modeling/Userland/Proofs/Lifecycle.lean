import Userland.Proofs.Endings
import Userland.Proofs.ExitReports
import Userland.Proofs.UserMode

/-!
# The lifecycle of processes

A process is loading, then it runs its program, and then it exits, and if its program cannot be loaded it exits
at once. While its program acts, in user mode and in system calls, the process has all that it has got in its
start, so nothing is done that is only done for want of it. It exits once, in its own thread, and then fires its
exit signal once (`Scenario.keeps_lifecycle`).
-/

namespace Userland

open ThreadProgram
open Belongings (Slot)
open Process.Outline (Moves)

/-- The requests that alter a process. -/
def DeviceRequest.altersProcess : DeviceRequest → Bool
  | setState _ | setExitStatus _ | takeExitSignal | takeExecutable | installExecutable _ | installSpace
  | detachSpace | detachProcess => true
  | _ => false

theorem DeviceRequest.Fits.hosts {r : DeviceRequest} {o : Slot} (fits : r.Fits o)
    (alters : r.altersProcess = true) : ∃ p, o.process = some p := by
  cases r with
  | setState | setExitStatus | takeExitSignal | takeExecutable | installExecutable | installSpace | detachSpace
  | detachProcess => exact fits.2.imp fun _ => And.left
  | _ => cases alters

namespace Scenario

variable {x : Scenario} {turns : ℕ → Turn} {i b : ℕ} {u : Tid} {start : NewProcess} {status : Int32}
  {program : LoadedProgram}

/-- A program that exits has its executable and its memory to give back. -/
theorem Begins.gives_back (begins : x.Begins turns b u (.exit status)) (acts : x.Acts turns u start program b)
    (le : b ≤ i) :
    (∀ answer, x.Does turns i u (.device .takeExecutable) answer → answer = some program.executable) ∧
    ∀ answer, x.Does turns i u (.device .detachSpace) answer → answer = true := by
  obtain ⟨d, rfl⟩ := Nat.exists_eq_add_of_le le
  have begun := acts.begun
  generalize slot : x.slotAt turns b u = o at begun
  cases begun with
  | ok _ space =>
    refine ⟨fun answer does => ?_, fun answer does => ?_⟩
    · obtain ⟨next, here⟩ := does.1
      have now : x.slotAt turns (b + d) u = _ := begins.unmakes slot here
      rw [does.redraws.executable_eq, now]
      rfl
    · obtain ⟨next, here⟩ := does.1
      have now : x.slotAt turns (b + d) u = _ := begins.unmakes slot here
      rw [does.redraws.detached_eq, now]
      rfl

/-! ## Lifecycles -/

/-- How processes live in a run. -/
structure KeepsLifecycle (x : Scenario) (turns : ℕ → Turn) : Prop where
  /-- In a turn the process of a thread stays where it is in its life, or goes on. -/
  steps : ∀ i t, Moves t (x.slotAt turns i t).process (x.slotAt turns (i + 1) t).process
  /-- So at later times it is where it was, or has gone on. -/
  moves : ∀ i j t p p', i ≤ j → (x.slotAt turns i t).process = some p → (x.slotAt turns j t).process = some p' →
    p'.pid = p.pid ∧ (p'.state = p.state ∨ p.state.Precedes p'.state)
  /-- When it is gone the thread does not get another. -/
  gone : ∀ i j n t p, i ≤ j → j ≤ n → (x.slotAt turns i t).process = some p →
    (x.slotAt turns j t).process = none → (x.slotAt turns n t).process = none
  /-- Who has an exit status, or is exiting, has begun to exit. -/
  decided : ∀ i t p, (x.slotAt turns i t).process = some p →
    (p.exitStatus.isSome = true ∨ p.state = .exiting) → ∃ b < i, ∃ status, x.Begins turns b t (.exit status)
  /-- A thread whose program is loaded enters user mode. -/
  enters : ∀ k t start u program j, x.Makes turns k t start u → x.Started turns u start k (.ok program) j →
    x.Acts turns u start program j ∧ ∃ code : UserCode, x.programAt turns j u = code.program x.kernel
  /-- Its program acts until it begins to exit. -/
  lasts : ∀ u start program i, x.Acts turns u start program i →
    (∃ status, x.Begins turns i u (.exit status)) ∨ x.Acts turns u start program (i + 1)
  /-- Meanwhile its process is running, and has its memory, its executable and its exit signal, but no exit
      status. -/
  acts : ∀ u start program i, x.Acts turns u start program i →
    Slot.Begun u start (.ok program) (x.slotAt turns i u)
  /-- So it is whenever a thread is in user mode: when it enters user mode or returns to it, when it uses its
      memory, and when it traps or takes a fault. -/
  user : ∀ i t (code : UserCode), x.programAt turns i t = code.program x.kernel →
    ∃ start program, x.Acts turns t start program i ∧ Slot.Begun t start (.ok program) (x.slotAt turns i t)
  /-- A process exits in its own thread, and once. -/
  exits : ∀ b u status, x.Begins turns b u (.exit status) →
    (∃ p, x.slotAt turns b u = ⟨u, .on, some p, none⟩ ∧ p.pid = u.toPid ∧ p.state ≠ .exiting ∧
      p.exitStatus = none) ∧
    ∀ j status', x.Begins turns j u (.exit status') → j = b ∧ status' = status
  /-- A thread that was made for a process and has ended has exited. -/
  ended : ∀ k t start u i, x.Makes turns k t start u → k < i →
    ((x.machineAt turns i).thread u).status = .ended → ∃ b < i, ∃ status, x.Begins turns b u (.exit status)
  /-- A process that begins to exit fires its exit signal in the end, if each thread makes steps again and again
      and the machine is not stopped. If the process gets the lock of the volume it ends. -/
  ends : Fair turns → x.Unstopped turns → ∀ b u status, x.Begins turns b u (.exit status) →
    (∃ k t start m, x.Makes turns k t start u ∧ b < m ∧ x.Fires turns m u start.exit status) ∧
    (x.Attains turns u (.lock Kernel.volumeLock) →
      ∃ n, ∀ j ≥ n, ((x.machineAt turns j).thread u).status = .ended)
  /-- What a process takes as its exit signal, it takes in its exit, and fires. -/
  fires : ∀ i u answer, x.Does turns i u (.device .takeExitSignal) answer → ∃ k t start b status,
    x.Makes turns k t start u ∧ x.Begins turns b u (.exit status) ∧ b < i ∧
      x.Fires turns i u start.exit status
  /-- It does so once. -/
  firesOnce : ∀ i j u answer answer', x.Does turns i u (.device .takeExitSignal) answer →
    x.Does turns j u (.device .takeExitSignal) answer' → i = j
  /-- When its thread has ended it has done so. -/
  fired : ∀ k t start u i, x.Makes turns k t start u → k < i →
    ((x.machineAt turns i).thread u).status = .ended → ∃ b m status, x.Begins turns b u (.exit status) ∧ b < m ∧
      m < i ∧ x.Fires turns m u start.exit status
  /-- Then it has sent its status, if its parent may still receive it. -/
  sends : ∀ i u c status n, x.Fires turns i u c status → i < n →
    ((x.machineAt turns n).thread u).status = .ended → ∃ m alive, i < m ∧ m < n ∧
      x.Does turns m u (.hasReceiver c) alive ∧ (alive = true → ∃ l waiter, m < l ∧ l < n ∧
        x.Does turns l u (.settle c (some (.status status))) waiter)
  /-- A status is told in an exit with that status, on the exit signal, and once. -/
  tells : ∀ i u c status waiter, x.Does turns i u (.settle c (some (.status status))) waiter →
    (∃ k t start b, x.Makes turns k t start u ∧ c = start.exit ∧ b < i ∧ x.Begins turns b u (.exit status)) ∧
    ∀ j c' status' waiter', x.Does turns j u (.settle c' (some (.status status'))) waiter' → i = j
  /-- Who looks for its process finds it. -/
  finds : ∀ i t answer, x.Does turns i t (.device .process) answer → ∃ p, answer = some p
  /-- Who alters its process has one. -/
  alters : ∀ i t (r : DeviceRequest) answer, x.Does turns i t (.device r) answer → r.altersProcess = true →
    ∃ p, (x.slotAt turns i t).process = some p
  /-- What is asked for a program is asked with its process at hand and its memory installed. -/
  personal : ∀ i t (r : DeviceRequest) answer, x.Does turns i t (.device r) answer → r.isPersonal = true →
    ∃ p space, (x.standingAt turns i t).own.process = some p ∧ p.space = some space
  /-- A program that exits has its executable and its memory to give back. -/
  givesBack : ∀ b u status start program i, x.Begins turns b u (.exit status) → x.Acts turns u start program b →
    b ≤ i →
    (∀ answer, x.Does turns i u (.device .takeExecutable) answer → answer = some program.executable) ∧
    ∀ answer, x.Does turns i u (.device .detachSpace) answer → answer = true

/-- Processes keep to their lifecycle. -/
theorem keeps_lifecycle (x : Scenario) (turns : ℕ → Turn) : x.KeepsLifecycle turns where
  steps i t := (x.turned turns i t).moves
  moves i j t p p' le hosts hosts' := by
    rcases moves_at hosts le with ⟨p'', now, same⟩ | ⟨gone, -⟩
    · obtain rfl := Option.some.inj (now.symm.trans hosts')
      exact same
    · cases gone.symm.trans hosts'
  gone i j n t p le le' hosts gone := by
    rcases moves_at hosts le with ⟨p', now, -⟩ | ⟨-, b, before, status, begins⟩
    · cases gone.symm.trans now
    · exact begins.no_process (Nat.le_of_lt before) gone le'
  decided i t p hosts decided := exits_of_decided hosts decided
  enters k t start u program j makes started :=
    ⟨⟨k, t, j, makes, started, Nat.le_refl j, fun b le before => absurd le (Nat.not_le.2 before)⟩, _,
      (makes.proceeds_of_started started).1⟩
  lasts u start program i acts := by
    -- It has not exited so far, so it acts at the next instant too, unless this is where the exit begins.
    by_cases exits : ∃ status, x.Begins turns i u (.exit status)
    · exact .inl exits
    · obtain ⟨k, t, j, makes, started, le, unexited⟩ := acts
      refine .inr ⟨k, t, j, makes, started, Nat.le_succ_of_le le, fun b le' before status begins => ?_⟩
      rcases Nat.lt_succ_iff_lt_or_eq.1 before with before | rfl
      · exact unexited b le' before status begins
      · exact exits ⟨status, begins⟩
  acts u start program i acts := acts.begun
  user i t code here := by
    obtain ⟨start, program, acts⟩ := acts_of_user here
    exact ⟨start, program, acts, acts.begun⟩
  exits b u status begins := by
    obtain ⟨p, slot, pid, state, undecided, -⟩ := begins.unmakes_at (Nat.le_refl b)
    exact ⟨⟨p, slot, pid, state, undecided⟩, fun j status' begins' => begins'.exit_unique begins⟩
  ended k t start u i makes later ended := by
    obtain ⟨-, -, b, status, -, before, begins, -⟩ := makes.exits_of_ended later ended
    exact ⟨b, before, status, begins⟩
  ends fair running b u status begins :=
    ⟨begins.fires_in_time fair running, fun granted => begins.ends_for_good fair running granted⟩
  fires i u answer takes := by
    obtain ⟨b, before, status, begins⟩ := takes.exits rfl rfl rfl rfl
    obtain ⟨k, -, t, start, makes⟩ := begins.made
    exact ⟨k, t, start, b, status, makes, begins, before, begins.fires makes (Nat.le_of_lt before) takes⟩
  firesOnce i j u answer answer' takes takes' := by
    obtain ⟨b, before, status, begins⟩ := takes.exits rfl rfl rfl rfl
    obtain ⟨b', before', status', begins'⟩ := takes'.exits rfl rfl rfl rfl
    -- There is one exit, and in it the signal is taken once.
    obtain ⟨rfl, -⟩ := begins.exit_unique begins'
    rcases Nat.lt_trichotomy i j with earlier | same | later
    · exact absurd takes' (begins.takes_once (Nat.le_of_lt before) takes earlier _)
    · exact same
    · exact absurd takes (begins.takes_once (Nat.le_of_lt before') takes' later _)
  fired k t start u i makes later ended := by
    obtain ⟨-, -, b, status, -, before, begins, -⟩ := makes.exits_of_ended later ended
    obtain ⟨m, fired⟩ := begins.fires_of_ended makes (Nat.le_of_lt before) ended
    exact ⟨b, m, status, begins, fired⟩
  sends i u c status n fires later ended := fires.sends later ended
  tells i u c status waiter tells := by
    obtain ⟨k, t, start, b, makes, same, before, begins⟩ := tells.tells
    refine ⟨⟨k, t, start, b, makes, same, before, begins⟩, fun j c' status' waiter' tells' => ?_⟩
    obtain ⟨-, -, -, b', -, -, before', begins'⟩ := tells'.tells
    obtain ⟨rfl, -⟩ := begins.exit_unique begins'
    exact begins.tells_once (Nat.le_of_lt before) (Nat.le_of_lt before') tells tells'
  finds i t answer does := does.finds
  alters i t r answer does alters := by
    obtain ⟨next, here⟩ := does.1
    exact DeviceRequest.Fits.hosts (fits here) alters
  personal i t r answer does personal := by
    obtain ⟨next, here⟩ := does.1
    obtain ⟨start, program, acts⟩ := acts_of_isPersonal here personal
    have begun := acts.begun
    generalize slot : x.slotAt turns i t = o at begun
    cases begun with
    | ok _ space =>
      obtain ⟨p, hosts, same⟩ := Option.map_eq_some_iff.1 (congrArg Slot.process slot)
      exact ⟨p, space, hosts, congrArg Process.Outline.space same⟩
  givesBack b u status start program i begins acts le := begins.gives_back acts le

end Scenario

end Userland

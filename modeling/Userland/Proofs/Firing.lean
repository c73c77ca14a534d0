import Userland.Proofs.Turning

/-!
# Exit signals

A process holds its exit signal until it takes it in its exit, and then fires: it sends its exit status
(`Scenario.Fires`). It takes the signal once, and tells one status (`Kernel.once_tells`).
-/

namespace Userland

open ThreadProgram
open Program (Only)
open Belongings (Slot)

-- Which words a line has does not matter for what is done with them.
attribute [local irreducible] Words.ofString

/-- A status is told. -/
def Action.Tells (a : Action) : Prop := ∃ c status, a = .settle c (some (.status status))

namespace Kernel

open DeviceRequest

/-- A process that leaves takes its exit signal, and sends its status with that. -/
theorem leaving_opens {α : Type} (p : Process) (status : Int32) :
    ∃ (text : String) (f : Option ChannelId → ThreadProgram α), leaving p status =
      Program.ask (Action.device (.setState .exiting)) (fun _ =>
        Program.ask (Action.device (.log .debug text)) fun _ => Program.ask (Action.device .takeExitSignal) f) ∧
      ∀ c, ∃ rest : Unit → ThreadProgram α, f (some c) = discard (send c (.status status)) >>= rest := by
  rw [leaving_eq]
  exact ⟨_, _, rfl, fun c => ⟨_, rfl⟩⟩

variable {α : Type} {a : Action} {status : Int32}

/-- A program that tells no status. -/
abbrev Untold (p : ThreadProgram α) : Prop := p.Only (fun a : Action => ¬a.Tells) fun _ => True

theorem not_tells (other : ∀ c status, a ≠ .settle c (some (.status status))) : ¬a.Tells := by
  rintro ⟨c, status, same⟩
  exact other c status same

theorem not_tells_of_final (final : a.Final none) : ¬a.Tells :=
  not_tells fun c status same => by subst same; cases final

theorem untold_of_finishes {p : ThreadProgram α} (finishes : Finishes none p) : Untold p :=
  finishes.mono (fun _ => not_tells_of_final) fun _ => id

theorem untold_vanishing : Untold (vanishing : ThreadProgram α) :=
  (untold_of_finishes (finishes_withoutInterrupts (finishes_ask rfl))).bind fun _ _ =>
    (untold_of_finishes finishes_destroyInHand).bind fun _ _ =>
      ⟨not_tells nofun, fun _ => ⟨not_tells nofun, nofun⟩⟩

/-- When its status is told a process only gives back what it has. -/
theorem untold_rest : Untold (do
    let executable ← ask takeExecutable
    let files ← ask takeFiles
    closeFiles executable files
    departing : ThreadProgram α) := by
  refine ⟨not_tells nofun, fun executable => ⟨not_tells nofun, fun files => ?_⟩⟩
  have closed : Untold (closeFiles executable files) :=
    only_closeFiles (fun _ => by exact not_tells nofun) (fun _ => not_tells_of_final) executable files
  exact closed.bind fun _ _ => (untold_of_finishes (finishes_forgetChildren _)).bind fun _ _ =>
    (untold_of_finishes finishes_releaseMemory).bind fun _ _ => untold_vanishing

theorem once_leaving {p : Process} : (leaving p status : ThreadProgram α).Once Action.Tells := by
  rw [leaving_eq]
  refine fun _ => ⟨fun tells => absurd tells (not_tells nofun), fun _ =>
    ⟨fun tells => absurd tells (not_tells nofun), fun signal => ⟨fun tells => absurd tells (not_tells nofun), ?_⟩⟩⟩
  cases signal with
  | none => exact .of_only untold_rest
  | some c =>
    refine fun alive => ⟨fun tells => absurd tells (not_tells nofun), ?_⟩
    cases alive with
    | false => exact .of_only untold_rest
    | true =>
      intro waiter
      cases waiter with
      | none => exact ⟨fun _ => untold_rest, .of_only untold_rest⟩
      | some t =>
        have woken : Untold (Program.ask (Action.unblock t) fun _ => (do
            let executable ← ask takeExecutable
            let files ← ask takeFiles
            closeFiles executable files
            departing : ThreadProgram α)) := ⟨not_tells nofun, fun _ => untold_rest⟩
        exact ⟨fun _ => woken, .of_only woken⟩

/-- An exit tells one status at most. -/
theorem once_tells : (exitProcess status : ThreadProgram α).Once Action.Tells := by
  obtain ⟨first, opens, -⟩ := exitProcess_opens (α := α) status
  rw [opens]
  refine fun hosted => ⟨fun tells => absurd tells (not_tells nofun), ?_⟩
  cases hosted with
  | none =>
    rw [exitProcess_none opens]
    exact .of_only untold_vanishing
  | some p =>
    rw [exitProcess_some opens]
    refine fun _ => ⟨fun tells => absurd tells (not_tells nofun), ?_⟩
    split
    · exact fun _ => ⟨fun tells => absurd tells (not_tells nofun), once_leaving⟩
    · exact once_leaving

end Kernel

namespace Scenario

variable {x : Scenario} {turns : ℕ → Turn} {i j k b n : ℕ} {t u : Tid} {start : NewProcess} {status : Int32}

/-- Thread `u` fires its exit signal, a channel, with a status: it takes the channel from its process, and goes on
    to send the status. -/
def Fires (x : Scenario) (turns : ℕ → Turn) (i : ℕ) (u : Tid) (c : ChannelId) (status : Int32) : Prop :=
  x.Does turns i u (.device .takeExitSignal) (some c) ∧ ∃ rest : Unit → ThreadProgram Unit,
    x.programAt turns (i + 1) u = discard (send c (.status status)) >>= rest

namespace Begins

variable (begins : x.Begins turns b u (.exit status))
include begins

/-- The exit signal of a process is held until it is taken in the exit. -/
theorem holds_signal (makes : x.Makes turns k t start u) (le : b ≤ i) :
    (∃ p, (x.slotAt turns i u).process = some p ∧ p.exitSignal = some start.exit) ∨
    ∃ m answer, b ≤ m ∧ m < i ∧ x.Does turns m u (.device .takeExitSignal) answer := by
  induction le with
  | refl =>
    obtain ⟨result, j, -, -, begun⟩ := begins.begun makes
    obtain ⟨p, slot, -, -, -, signal⟩ := begun.shape
    exact .inl ⟨p, congrArg Slot.process slot, signal⟩
  | @step i le ih =>
    rcases ih with ⟨p, hosts, signal⟩ | ⟨m, answer, after, before, takes⟩
    swap
    · exact .inr ⟨m, answer, after, Nat.lt_succ_of_lt before, takes⟩
    obtain ⟨q, -, -, -, -, unmakes⟩ := begins.unmakes_at le
    have turned := x.turned turns i u
    generalize at' : x.slotAt turns i u = o at turned hosts
    generalize x.slotAt turns (i + 1) u = o' at turned
    cases turned with
    | same => exact .inl ⟨p, hosts, signal⟩
    | made => cases hosts
    | installs o space =>
      refine .inl ⟨{ p with space := space }, ?_, signal⟩
      rw [hosts]
      rfl
    | asks r answer o does fits =>
      obtain ⟨tid, level, process, doomed⟩ := o
      obtain rfl : process = some p := hosts
      cases r with
      | takeExitSignal => exact .inr ⟨i, answer, le, Nat.lt_succ_self i, does⟩
      | newProcess => cases fits.2
      | detachProcess =>
        -- A process that goes is bare.
        obtain ⟨next, here⟩ := does.1
        have bare : x.slotAt turns i u = ⟨u, .off, some (q.bare status), none⟩ :=
          unmakes (.device .detachProcess) next here
        rw [at'] at bare
        obtain rfl := Option.some.inj (congrArg Slot.process bare)
        cases signal
      | _ => exact .inl ⟨_, rfl, signal⟩

/-- What a process takes as its exit signal is the channel that it has got from its parent. -/
theorem signal_eq (makes : x.Makes turns k t start u) (le : b ≤ i) {answer : Option ChannelId}
    (takes : x.Does turns i u (.device .takeExitSignal) answer) :
    answer = some start.exit ∧ ∃ p, (x.slotAt turns i u).process = some p ∧ p.exitSignal = some start.exit := by
  obtain ⟨result, j, -, -, begun⟩ := begins.begun makes
  obtain ⟨p, slot, -, -, -, signal⟩ := begun.shape
  obtain ⟨next, here⟩ := takes.1
  obtain ⟨d, rfl⟩ := Nat.exists_eq_add_of_le le
  have now : x.slotAt turns (b + d) u = ⟨u, .on, some (p.leaving status), none⟩ := begins.unmakes slot here
  refine ⟨takes.redraws.exitSignal_eq.trans ?_, p.leaving status, ?_, signal⟩
  · exact (congrArg (fun o : Slot => o.process.bind (·.exitSignal)) now).trans signal
  · rw [now]

/-- When it is taken it is gone. -/
theorem no_signal {answer : Option ChannelId} (le : b ≤ i)
    (takes : x.Does turns i u (.device .takeExitSignal) answer) (later : i < n) :
    (x.slotAt turns n u).process.bind (·.exitSignal) = none := by
  induction later with
  | refl =>
    change (x.slotAt turns (i + 1) u).process.bind _ = none
    rw [takes.redraws.slot_eq nofun]
    cases hosts : (x.slotAt turns i u).process <;> simp [DeviceRequest.redraw, hosts]
  | @step n later ih =>
    have turned := x.turned turns n u
    generalize x.slotAt turns n u = o at turned ih
    generalize x.slotAt turns (n + 1) u = o' at turned
    cases turned with
    | same => exact ih
    | made => rfl
    | installs o space => cases hosts : o.process <;> simp_all
    | asks r answer o does =>
      obtain ⟨tid, level, process, doomed⟩ := o
      have exits := begins.inExit does (Nat.le_trans le (Nat.le_of_lt later))
      cases r with
      | newProcess =>
        exact absurd exits Kernel.not_newProcess_of_inExit
      | detachProcess => rfl
      | _ => cases process <;> first | rfl | exact ih

/-- So it is taken once. -/
theorem takes_once {answer : Option ChannelId} (le : b ≤ i)
    (takes : x.Does turns i u (.device .takeExitSignal) answer) (later : i < n) (answer' : Option ChannelId) :
    ¬x.Does turns n u (.device .takeExitSignal) answer' := fun takes' => by
  obtain ⟨k, -, t, start, makes⟩ := begins.made
  obtain ⟨-, p, hosts, signal⟩ := begins.signal_eq makes (Nat.le_trans le (Nat.le_of_lt later)) takes'
  have gone := begins.no_signal le takes later
  rw [hosts] at gone
  cases signal.symm.trans gone

/-- With it the process fires. -/
theorem fires (makes : x.Makes turns k t start u) (le : b ≤ i) {answer : Option ChannelId}
    (takes : x.Does turns i u (.device .takeExitSignal) answer) : x.Fires turns i u start.exit status := by
  obtain ⟨rfl, -⟩ := begins.signal_eq makes le takes
  refine ⟨takes, ?_⟩
  obtain ⟨g, there⟩ := takes.1
  -- From the beginning of the exit on, the thread passes one request after the other until it takes the signal.
  have leaves {m : ℕ} {p' : Process} (after : b ≤ m) (le : m ≤ i)
      (here : x.programAt turns m u = Kernel.leaving p' status) : ∃ rest : Unit → ThreadProgram Unit,
        x.programAt turns (i + 1) u = discard (send start.exit (.status status)) >>= rest := by
    obtain ⟨text, f, shape, sends⟩ := Kernel.leaving_opens (α := Unit) p' status
    obtain ⟨m₁, -, after₁, before, -, -, here⟩ := passes (here.trans shape) rfl there nofun le
    obtain ⟨m₂, -, after₂, before, -, -, here⟩ := passes here rfl there nofun before
    rcases goes_on here rfl before with still | ⟨m₃, answer, after₃, before, -, takes', -⟩
    · obtain rfl := eq_of_heq (Program.ask.inj (still.symm.trans there)).2
      obtain ⟨rest, sends⟩ := sends start.exit
      exact ⟨rest, (takes.next there).trans sends⟩
    · exact absurd takes (begins.takes_once (by omega) takes' before _)
  obtain ⟨-, -, -, rest, began, -⟩ := begins.composed
  obtain ⟨first, opens, -⟩ := Kernel.exitProcess_opens (α := Unit) status
  have began := began.trans (Kernel.exitProcess_bind.trans opens)
  obtain ⟨m, found, after, before, -, finds, here⟩ := passes began rfl there nofun le
  obtain ⟨p', rfl⟩ := finds.finds
  rw [Kernel.exitProcess_some opens] at here
  obtain ⟨m₁, -, after₁, before, -, -, here⟩ := passes here rfl there nofun before
  split at here
  · obtain ⟨m₂, -, after₂, before, -, -, here⟩ := passes here rfl there nofun before
    exact leaves (by omega) before here
  · exact leaves (by omega) before here

/-- When its thread has ended a process has fired. -/
theorem fires_of_ended (makes : x.Makes turns k t start u) (le : b ≤ i)
    (ended : ((x.machineAt turns i).thread u).status = .ended) :
    ∃ m, b < m ∧ m < i ∧ x.Fires turns m u start.exit status := by
  rcases begins.holds_signal makes le with ⟨p, hosts, -⟩ | ⟨m, answer, after, before, takes⟩
  · -- A thread that has ended has no process to hold it.
    have none : (x.slotAt turns i u).process = none :=
      congrArg (Option.map Process.outline) ((x.sound turns i).done_of_ended ended).process
    cases none.symm.trans hosts
  · refine ⟨m, Nat.lt_of_le_of_ne after ?_, before, begins.fires makes after takes⟩
    rintro rfl
    obtain ⟨first, looks, -⟩ := begins.looks
    obtain ⟨next, there⟩ := takes.1
    cases looks.symm.trans there

end Begins

/-- A process that fires, and whose thread has ended, has sent its status if its parent may still receive it. -/
theorem Fires.sends {c : ChannelId} (fires : x.Fires turns i u c status) (later : i < n)
    (ended : ((x.machineAt turns n).thread u).status = .ended) : ∃ m alive, i < m ∧ m < n ∧
      x.Does turns m u (.hasReceiver c) alive ∧ (alive = true → ∃ l waiter, m < l ∧ l < n ∧
        x.Does turns l u (.settle c (some (.status status))) waiter) := by
  have gone : x.programAt turns n u = Program.pure () := (x.sound turns n).ended u ended
  obtain ⟨-, rest, here⟩ := fires
  obtain ⟨f, asks, settles⟩ : ∃ f : Bool → ThreadProgram Unit,
      discard (send c (.status status)) >>= rest = Program.ask (Action.hasReceiver c) f ∧
      ∃ g, f true = Program.ask (Action.settle c (some (.status status))) g := ⟨_, rfl, _, rfl⟩
  have other {m : ℕ} {a : Action} {next : a.Answer → ThreadProgram Unit}
      (here : x.programAt turns m u = Program.ask a next) (stays : a.goesOn = true) (le : m ≤ n) :=
    (goes_on here stays le).resolve_left fun still => nomatch still.symm.trans gone
  obtain ⟨m, alive, after, before, -, does, here⟩ := other (here.trans asks) rfl later
  refine ⟨m, alive, after, before, does, ?_⟩
  rintro rfl
  obtain ⟨g, settles⟩ := settles
  obtain ⟨l, waiter, after', before', -, does', -⟩ := other (here.trans settles) rfl before
  exact ⟨l, waiter, after', before', does'⟩

/-- Who tells a status exits with it, and tells it on its exit signal. -/
theorem Does.tells {c : ChannelId} {waiter : Option Tid}
    (does : x.Does turns i u (.settle c (some (.status status))) waiter) : ∃ k t start b,
      x.Makes turns k t start u ∧ c = start.exit ∧ b < i ∧ x.Begins turns b u (.exit status) := by
  obtain ⟨next, here⟩ := does.1
  obtain ⟨b, before, begins⟩ := exits_of_settle here does.goes
  obtain ⟨k, earlier, t, start, makes⟩ := begins.made
  refine ⟨k, t, start, b, makes, ?_, before, begins⟩
  obtain ⟨-, -, start', started, what⟩ := ((x.sound turns i).allowed here).1
  obtain rfl := Option.some.inj ((makes.start_eq (Nat.lt_trans earlier before)).symm.trans started)
  rcases what with ⟨-, ok, same⟩ | ⟨same, -⟩
  · cases same
  · exact same

/-- An exit tells its status once at most. -/
theorem Begins.tells_once (begins : x.Begins turns b u (.exit status)) {c c' : ChannelId} {s s' : Int32}
    {w w' : Option Tid} (le : b ≤ i) (le' : b ≤ j) (does : x.Does turns i u (.settle c (some (.status s))) w)
    (does' : x.Does turns j u (.settle c' (some (.status s'))) w') : i = j := by
  obtain ⟨d, rfl⟩ := Nat.exists_eq_add_of_le le
  obtain ⟨e, rfl⟩ := Nat.exists_eq_add_of_le le'
  obtain ⟨⟨next, here⟩, told⟩ := does
  obtain ⟨⟨next', here'⟩, told'⟩ := does'
  obtain ⟨first, left⟩ := begins.exiting here
  obtain ⟨first', left'⟩ := begins.exiting here'
  rw [done_once Kernel.once_tells left told ⟨c, s, rfl⟩ left' told' ⟨c', s', rfl⟩]

end Scenario

end Userland

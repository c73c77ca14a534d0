import Mathlib.Data.Nat.Find
import Userland.Proofs.Parents
import Userland.Proofs.SlotTable

/-!
# Phases

The thread of a child starts, then its program acts, and at last it exits (`Scenario.Phase`). When its start
is over its slot is as the start has come out (`Belongings.Slot.Begun`), and so it stays until it begins to
exit. At all times the slot of a thread fits what the thread is about to do (`Scenario.fits`).
-/

namespace Userland

open ThreadProgram
open Program (Only)
open Belongings (Slot)

-- Which words a line has does not matter for what is done with them.
attribute [local irreducible] Words.ofString

/-- The slot of a thread whose start has come to a result. -/
inductive Belongings.Slot.Begun (t : Tid) (start : NewProcess) : Except LoadError LoadedProgram → Slot → Prop where
  /-- Its process runs a program. -/
  | ok (program : LoadedProgram) (space : AddressSpace) : Begun t start (.ok program)
    ⟨t, .on, some ⟨t.toPid, .running, none, some space, some program.executable, some start.exit⟩, none⟩
  /-- Its process has no program. -/
  | error (e : LoadError) : Begun t start (.error e)
    ⟨t, .on, some ⟨t.toPid, .loading, none, none, none, some start.exit⟩, none⟩

theorem Belongings.Slot.Begun.shape {t : Tid} {start : NewProcess} {result : Except LoadError LoadedProgram}
    {o : Slot} (begun : Begun t start result o) : ∃ p, o = ⟨t, .on, some p, none⟩ ∧ p.pid = t.toPid ∧
      p.state ≠ .exiting ∧ p.exitStatus = none ∧ p.exitSignal = some start.exit := by
  cases begun with
  | ok => exact ⟨_, rfl, rfl, nofun, rfl, rfl⟩
  | error => exact ⟨_, rfl, rfl, nofun, rfl, rfl⟩

namespace Kernel

/-- An exit looks for the process. If there is one it is sentenced, and if there is none nothing is found to
    destroy. -/
theorem exitProcess_opens {α : Type} (status : Int32) : ∃ first : Option Process → ThreadProgram α,
    exitProcess status = Program.ask (Action.device .process) first ∧
      (∃ next, first none = Program.ask (Action.device .disableInterrupts) next) ∧
      ∀ p, ∃ next, first (some p) = Program.ask (Action.device (.setExitStatus status)) next :=
  ⟨_, rfl, ⟨_, rfl⟩, fun _ => ⟨_, rfl⟩⟩

variable {k : Kernel} {current : Option (Syscall × (UInt32 → UserCode))}

/-- While a program acts, the slot of its thread is asked for at most. -/
theorem Conduct.head {p : ThreadProgram Unit} (conduct : Conduct k current p) {a : Action}
    {next : a.Answer → ThreadProgram Unit} (here : p = Program.ask a next) :
    a.regardsSlot = false ∨ a = .device .process := by
  cases conduct with
  | ordinary plain =>
    obtain ⟨rfl, -⟩ := Program.ask.inj here
    rename_i a _ _
    cases a with
    | device r => cases r <;> first | exact .inl rfl | exact .inr rfl | cases plain
    | _ => exact .inl rfl
  | store | decode | copyOut | put | goto =>
    obtain ⟨rfl, -⟩ := Program.ask.inj here
    exact .inl rfl
  | exit status =>
    obtain ⟨rfl, -⟩ := Program.ask.inj here
    exact .inr rfl

end Kernel

/-! ## The first thread -/

theorem Action.isBooting.apart {a : Action} (boots : a.isBooting) : a.regardsSlot = false := by
  rcases boots with ⟨name, priority, start, rfl⟩ | clerical
  · rfl
  · cases a with
    | device r => cases r <;> first | rfl | cases clerical
    | _ => rfl

theorem Kernel.only_wait {family : Family} {pid : Int32} :
    (Kernel.wait family pid).Only Action.isBooting fun _ => True := by
  rw [KernelCall.wait_eq]
  refine ⟨.inr rfl, fun _ => ⟨.inr rfl, fun record => ⟨.inr rfl, fun _ => ?_⟩⟩⟩
  cases record <;> exact ⟨.inr rfl, fun _ => trivial⟩

theorem Kernel.only_run {k : Kernel} {line : String} :
    (discard (k.run line)).Only Action.isBooting fun _ => True := by
  refine Only.bind (R := fun _ => True) ((KernelCall.once_execute k .initial line).2.bind fun result _ => ?_)
    fun _ _ => trivial
  cases result with
  | error e => trivial
  | ok child => exact only_wait.bind fun _ _ => trivial

namespace Scenario

variable {x : Scenario} {turns : ℕ → Turn} {i j k b d : ℕ} {t u : Tid} {start : NewProcess} {status : Int32}
  {result : Except LoadError LoadedProgram}

/-! ## Starts -/

namespace Makes

variable (makes : x.Makes turns k t start u)
include makes

/-- What the slot of a child is like when its start is over. -/
theorem begun_of_started (started : x.Started turns u start k result j) :
    Slot.Begun u start result (x.standingAt turns j u).own.slot := by
  obtain ⟨d, rfl, left, ongoing⟩ := started
  have keeps := (wp_at (Q := fun result s => Slot.Begun u start result s.own.slot) makes.starts
    (makes.inside (Nat.lt_succ_self k)) remains_starting
    (makes.stands ▸ Kernel.wp_starting (fun e => .error e) fun program space => .ok program space) ongoing).2
  rwa [left] at keeps

/-- A child that starts has a slot that fits what it does. -/
theorem fits_of_starting {a : Action} {first : a.Answer → ThreadProgram (Except LoadError LoadedProgram)}
    (left : x.leftAt turns u (x.kernel.starting start) (k + 1) d = Program.ask a first) :
    a.Fits (x.standingAt turns (k + 1 + d) u).own.slot := by
  have ongoing : ∀ e < d, ∀ r, x.leftAt turns u (x.kernel.starting start) (k + 1) e ≠ Program.pure r :=
    fun e early r over' => by cases left.symm.trans (leftAt_of_pure (Nat.le_of_lt early) over')
  have inside := makes.inside (Nat.lt_succ_self k)
  have fresh : (x.standingAt turns (k + 1) u).own.slot = ⟨u, .on, none, none⟩ := by
    rw [makes.stands]
    rfl
  have alive (e : ℕ) (le : e ≤ d) : x.programAt turns (k + 1 + e) u =
      x.leftAt turns u (x.kernel.starting start) (k + 1) e >>= x.proceeds start :=
    programAt_of_remains makes.starts inside remains_starting fun e' early =>
      ongoing e' (Nat.lt_of_lt_of_le early le)
  have tells := throughout_at inside (fresh ▸ @Kernel.throughout_starting u x.kernel start) ongoing alive
  rw [left] at tells
  exact tells.1

end Makes

/-! ## While a program acts -/

/-- A thread whose start is over does what a program may do until it exits, and its slot stays as it is. -/
theorem acting_at (makes : x.Makes turns k t start u) (started : x.Started turns u start k result j)
    (le : j ≤ i) (unexited : ∀ b, j ≤ b → b < i → ∀ status, ¬x.Begins turns b u (.exit status)) :
    (∃ current, x.kernel.Conduct current (x.programAt turns i u) ∧
      ∀ call code, current = some (call, code) → x.Serves turns i u call code) ∧
    (x.standingAt turns i u).own.slot = (x.standingAt turns j u).own.slot := by
  have later : k < j := by
    obtain ⟨d, rfl, -⟩ := started
    omega
  induction le with
  | refl =>
    rw [(makes.proceeds_of_started started).1]
    exact ⟨⟨none, conduct_proceeds result, nofun⟩, rfl⟩
  | @step i le ih =>
    obtain ⟨⟨current, conduct, serves⟩, same⟩ := ih fun b le' before => unexited b le' (Nat.lt_succ_of_lt before)
    have inside := makes.inside (Nat.lt_of_lt_of_le later le)
    rcases acting_next inside conduct serves with ⟨status, -, begins⟩ | ⟨current', conduct', serves', -⟩
    · exact absurd begins (unexited i le (Nat.lt_succ_self i) status)
    refine ⟨⟨current', conduct', serves'⟩, Eq.trans ?_ same⟩
    rcases own_succ inside with own | ⟨r, answer, does, -, own⟩
    · rw [own]
    · obtain ⟨next, here⟩ := does.1
      have tame := conduct.head here
      rw [own, DeviceRequest.slot_serve]
      · rcases tame with apart | same
        · exact DeviceRequest.redraw_of_apart apart _
        · cases same
          rfl
      · rintro rfl
        rcases tame with apart | same
        · cases apart
        · cases same

/-! ## Exits -/

/-- What the slot of a thread is like while the thread exits. -/
theorem Begins.unmakes (begins : x.Begins turns b u (.exit status)) {p : Process.Outline}
    (slot : (x.standingAt turns b u).own.slot = ⟨u, .on, some p, none⟩) {a : Action}
    {next : a.Answer → ThreadProgram Unit} (here : x.programAt turns (b + d) u = Program.ask a next) :
    a.Unmakes u p status (x.standingAt turns (b + d) u).own.slot := by
  obtain ⟨first, left⟩ := begins.exiting here
  obtain ⟨-, -, -, rest, there, -⟩ := begins.composed
  have alive (e : ℕ) (le : e ≤ d) : x.programAt turns (b + e) u =
      x.leftAt turns u (Kernel.exitProcess status : ThreadProgram Empty) b e >>= rest :=
    programAt_of_alive there begins.inside (KernelCall.remains x.kernel (.exit status)) (fun _ _ r => nomatch r)
      (Nat.add_le_add_left le b) (by rw [here]; nofun)
  have tells := throughout_at (Q := fun _ _ => True) begins.inside (slot ▸ Kernel.throughout_exitProcess)
    (fun e _ r => nomatch r) alive
  rw [left] at tells
  exact tells.1

/-! ## Phases -/

/-- Where thread `u`, which was made from `start` at time `k`, is at time `i`. -/
inductive Phase (x : Scenario) (turns : ℕ → Turn) (u : Tid) (start : NewProcess) (k i : ℕ) : Prop where
  /-- It starts. -/
  | starting (d : ℕ) : i = k + 1 + d →
    (∀ r, x.leftAt turns u (x.kernel.starting start) (k + 1) d ≠ Program.pure r) →
    x.programAt turns i u = x.leftAt turns u (x.kernel.starting start) (k + 1) d >>= x.proceeds start →
    Phase x turns u start k i
  /-- Its start is over, and it has not begun to exit. -/
  | acting (result : Except LoadError LoadedProgram) (j : ℕ) : x.Started turns u start k result j → j ≤ i →
    (∀ b, j ≤ b → b < i → ∀ status, ¬x.Begins turns b u (.exit status)) → Phase x turns u start k i
  /-- It exits, or has ended. -/
  | exiting (result : Except LoadError LoadedProgram) (j b : ℕ) (status : Int32) :
    x.Started turns u start k result j → j ≤ b → b < i → x.Begins turns b u (.exit status) →
    (∀ b', j ≤ b' → b' < b → ∀ status, ¬x.Begins turns b' u (.exit status)) → Phase x turns u start k i

/-- At all times a thread that was made is in some phase. -/
theorem Makes.phase (makes : x.Makes turns k t start u) (later : k < i) : x.Phase turns u start k i := by
  have over' {result : Except LoadError LoadedProgram} {j : ℕ} (started : x.Started turns u start k result j)
      (le : j ≤ i) : x.Phase turns u start k i := by
    by_cases unexited : ∀ b, j ≤ b → b < i → ∀ status, ¬x.Begins turns b u (.exit status)
    · exact .acting result j started le unexited
    · -- The phase names the first exit, so that there is none before it.
      classical
      push Not at unexited
      obtain ⟨⟨le', before, status, begins⟩, least⟩ :=
        Nat.find_spec unexited, fun b => Nat.find_min unexited (m := b)
      refine .exiting result j _ status started le' before begins fun b' after early status' begins' => ?_
      exact least b' early ⟨after, Nat.lt_trans early before, status', begins'⟩
  cases makes.life later with
  | starting d now ongoing here => exact .starting d now ongoing here
  | failing e j started le => exact over' started le
  | acting program j current started le => exact over' started le
  | exiting result j b status started le before =>
    exact over' started (Nat.le_of_lt (Nat.lt_of_le_of_lt le before))

variable (x) (turns) in
/-- A thread that was not made boots, with interrupts on. -/
theorem boots_or_made (i : ℕ) (t : Tid) : 1 < t ∨
    (x.programAt turns i t).Only Action.isBooting (fun _ => True) ∧
      (x.standingAt turns i t).own.interrupts = .on := by
  refine x.history turns (fun t p s => 1 < t ∨ p.Only Action.isBooting (fun _ => True) ∧ s.own.interrupts = .on)
    (fun _ => .inr ⟨trivial, rfl⟩) (.inr ⟨Kernel.only_run, rfl⟩) (fun _ _ later => .inl later)
    (fun t told p s p' s' holds advances => holds.imp_right fun ⟨boots, on⟩ => ?_) i t
  cases advances with
  | rest => exact ⟨boots, on⟩
  | go _ _ follows =>
    exact ⟨boots.2 _, (congrArg Slot.interrupts (follows.redraws.eq_of_apart boots.1.apart)).trans on⟩
  | goto => cases boots.1.goesOn
  | finish => exact ⟨trivial, on⟩

/-- Who has something to do has been made. -/
theorem inside_of_asks {a : Action} {next : a.Answer → ThreadProgram Unit}
    (here : x.programAt turns i t = Program.ask a next) : t < (x.machineAt turns i).threads.size := by
  by_contra outside
  rw [programAt, Machine.thread_of_size_le (Nat.not_lt.1 outside)] at here
  cases here

/-- Who does something else is not the first thread. -/
theorem later_of_asks {a : Action} {next : a.Answer → ThreadProgram Unit}
    (here : x.programAt turns i t = Program.ask a next) (other : ¬a.isBooting) : 1 < t :=
  (x.boots_or_made turns i t).resolve_right fun ⟨boots, _⟩ => by
    rw [here] at boots
    exact other boots.1

/-- So it was made for a process. -/
theorem makes_of_asks {a : Action} {next : a.Answer → ThreadProgram Unit}
    (here : x.programAt turns i t = Program.ask a next) (other : ¬a.isBooting) :
    ∃ k < i, ∃ t' start, x.Makes turns k t' start t :=
  exists_makes (later_of_asks here other) (inside_of_asks here)

theorem not_boots_of_regards {r : DeviceRequest} (regards : r.regardsSlot = true) :
    ¬(Action.device r).isBooting := fun boots => by
  cases regards.symm.trans boots.apart

/-- A thread stays with what it is about to do until it does that. -/
theorem goes_on {a : Action} {next : a.Answer → ThreadProgram Unit}
    (here : x.programAt turns i t = Program.ask a next) (stays : a.goesOn = true) {n : ℕ} (le : i ≤ n) :
    x.programAt turns n t = Program.ask a next ∨ ∃ m answer, i ≤ m ∧ m < n ∧
      (∀ j, i ≤ j → j ≤ m → x.programAt turns j t = Program.ask a next) ∧ x.Does turns m t a answer ∧
      x.programAt turns (m + 1) t = next answer := by
  -- As long as it has not been done it is yet to be done.
  suffices (∀ j, i ≤ j → j ≤ n → x.programAt turns j t = Program.ask a next) ∨ ∃ m answer, i ≤ m ∧ m < n ∧
      (∀ j, i ≤ j → j ≤ m → x.programAt turns j t = Program.ask a next) ∧ x.Does turns m t a answer ∧
      x.programAt turns (m + 1) t = next answer from this.imp_left fun still => still n le (Nat.le_refl n)
  induction le with
  | refl => exact .inl fun j after before => Nat.le_antisymm after before ▸ here
  | @step n le ih =>
    rcases ih with still | ⟨m, answer, after, before, rest⟩
    swap
    · exact .inr ⟨m, answer, after, Nat.lt_succ_of_lt before, rest⟩
    have now := still n le (Nat.le_refl n)
    have step := programAt_succ_of_goesOn now (inside_of_asks now) stays
    cases told : x.toldAt turns n t a with
    | none =>
      rw [told] at step
      refine .inl fun j after before => ?_
      rcases Nat.lt_or_eq_of_le before with before | rfl
      · exact still j after (Nat.le_of_lt_succ before)
      · exact step
    | some answer =>
      rw [told] at step
      exact .inr ⟨n, answer, le, Nat.lt_succ_self n, still, ⟨⟨next, now⟩, told⟩, step⟩

/-! ## When exits begin -/

namespace Begins

variable (begins : x.Begins turns b u (.exit status))
include begins

/-- It looks for its process. -/
theorem looks : ∃ first : Option Process → ThreadProgram Unit,
    x.programAt turns b u = Program.ask (Action.device .process) first ∧
    (∃ next, first none = Program.ask (Action.device .disableInterrupts) next) ∧
    ∀ p, ∃ next, first (some p) = Program.ask (Action.device (.setExitStatus status)) next := by
  obtain ⟨-, -, -, rest, here, -⟩ := begins.composed
  obtain ⟨first, opens, steps⟩ := Kernel.exitProcess_opens (α := Unit) status
  exact ⟨first, here.trans (Kernel.exitProcess_bind.trans opens), steps⟩

/-- Who exits was made for a process. -/
theorem made : ∃ k < b, ∃ t start, x.Makes turns k t start u := by
  obtain ⟨first, here, -⟩ := begins.looks
  exact makes_of_asks here (not_boots_of_regards rfl)

/-- Its start is over, and its slot is as the start has come out. -/
theorem begun (makes : x.Makes turns k t start u) : ∃ result j, x.Started turns u start k result j ∧ j ≤ b ∧
    Slot.Begun u start result (x.standingAt turns b u).own.slot := by
  obtain ⟨k', before, t', start', makes'⟩ := begins.made
  obtain ⟨rfl, rfl, rfl⟩ := makes.unique makes'
  cases makes.phase before with
  | starting d now ongoing there =>
    -- In a start the tables are activated when the process is found.
    have heeds := @leads_leftAt x turns (k + 1) u _ _ _ (@Kernel.heeds_starting x.kernel start) d
    obtain ⟨first, here, ⟨next, vanishes⟩, -⟩ := begins.looks
    obtain ⟨steps, left, rfl⟩ := Program.asks_of_bind ongoing (there.symm.trans here)
    rw [left] at heeds
    obtain ⟨root, next', activates⟩ := (heeds none).1.finds rfl
    change steps none >>= _ = _ at vanishes
    rw [activates] at vanishes
    cases vanishes
  | acting result j started le unexited =>
    refine ⟨result, j, started, le, ?_⟩
    rw [(acting_at makes started le unexited).2]
    exact makes.begun_of_started started
  | exiting result j b' status' started le earlier begins' => exact absurd begins (begins'.last earlier _)

end Begins

/-! ## All of a run -/

/-- While a thread exits its process is taken apart. -/
theorem Begins.unmakes_at (begins : x.Begins turns b u (.exit status)) (le : b ≤ i) : ∃ p : Process.Outline,
    (x.standingAt turns b u).own.slot = ⟨u, .on, some p, none⟩ ∧ p.pid = u.toPid ∧ p.state ≠ .exiting ∧
    p.exitStatus = none ∧ ∀ (a : Action) (next : a.Answer → ThreadProgram Unit),
      x.programAt turns i u = Program.ask a next →
      a.Unmakes u p status (x.standingAt turns i u).own.slot := by
  obtain ⟨k, -, t, start, makes⟩ := begins.made
  obtain ⟨result, j, -, -, begun⟩ := begins.begun makes
  obtain ⟨p, slot, pid, before, undecided, -⟩ := begun.shape
  obtain ⟨d, rfl⟩ := Nat.exists_eq_add_of_le le
  exact ⟨p, slot, pid, before, undecided, fun a next here => begins.unmakes slot here⟩

/-- At all times the slot of a thread fits what the thread does next. -/
theorem fits {a : Action} {next : a.Answer → ThreadProgram Unit}
    (here : x.programAt turns i t = Program.ask a next) : a.Fits (x.standingAt turns i t).own.slot := by
  -- A thread that was not made only boots; the others are in some phase, and each phase knows the slot.
  by_cases boots : a.isBooting ∧ (x.standingAt turns i t).own.interrupts = .on
  · exact Action.fits_of_apart boots.1.apart boots.2
  have later : 1 < t := (x.boots_or_made turns i t).resolve_right fun ⟨only, on⟩ => by
    rw [here] at only
    exact boots ⟨only.1, on⟩
  obtain ⟨k, before, t', start, makes⟩ := exists_makes later (inside_of_asks here)
  cases makes.phase before with
  | starting d now ongoing there =>
    subst now
    obtain ⟨first, left, -⟩ := Program.asks_of_bind ongoing (there.symm.trans here)
    exact makes.fits_of_starting left
  | acting result j started le unexited =>
    obtain ⟨⟨current, conduct, -⟩, same⟩ := acting_at makes started le unexited
    obtain ⟨p, slot, -⟩ := (makes.begun_of_started started).shape
    rw [same, slot]
    rcases conduct.head here with apart | rfl
    · exact Action.fits_of_apart apart rfl
    · exact ⟨rfl, rfl⟩
  | exiting result j b status started le before begins =>
    obtain ⟨p, -, -, before', undecided, unmakes⟩ := begins.unmakes_at (Nat.le_of_lt before)
    exact (unmakes a next here).fits before' undecided

end Scenario

end Userland

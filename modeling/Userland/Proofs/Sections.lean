import Userland.Proofs.Sequels
import Userland.Proofs.UserMode

/-!
# Sections with interrupts off

A thread has interrupts on, save in a section: then it has turned them off, and until it turns them on again it
does what is done with interrupts off only (`Scenario.shielded_of_off`). In a section of an exit the memory of the
process is detached, and the kernel's page tables are activated; in another the process is detached
(`Scenario.Begins.detaches`, `Scenario.Begins.vanishes`).
-/

namespace Userland

open ThreadProgram
open Program (Only)
open Belongings (Slot)

-- Which words a line has does not matter for what is done with them.
attribute [local irreducible] Words.ofString

/-! ## What is done with interrupts off -/

/-- The requests that are made with interrupts off only. -/
def DeviceRequest.isShielded : DeviceRequest → Bool
  | installSpace | detachSpace | detachProcess | activate none | setInterrupts .on => true
  | _ => false

/-- What is done with interrupts off only. -/
def Action.isShielded : Action → Bool
  | device r => r.isShielded
  | _ => false

/-- What fits a slot with interrupts off is one of them. -/
theorem Action.Fits.shielded {a : Action} {o : Slot} (fits : a.Fits o) (off : o.interrupts = .off) :
    a.isShielded = true := by
  cases a with
  | device r =>
    cases r with
    | installSpace | detachSpace | detachProcess => rfl
    | activate root =>
      rcases fits with ⟨-, rfl⟩ | ⟨on, -⟩
      · rfl
      · cases off.symm.trans on
    | setInterrupts level =>
      obtain ⟨-, rfl⟩ := fits
      rfl
    | process | newProcess | setState | setExitStatus | takeExitSignal | takeExecutable | installExecutable
    | destroyProcess => cases off.symm.trans fits.1
    | _ => cases off.symm.trans fits
  | _ => cases off.symm.trans fits

/-- In an exit they are made with interrupts off. -/
theorem Action.Unmakes.off {a : Action} {t : Tid} {p : Process.Outline} {status : Int32} {o : Slot}
    (unmakes : a.Unmakes t p status o) (shielded : a.isShielded = true) : o.interrupts = .off := by
  cases a with
  | device r =>
    cases r with
    | installSpace => exact unmakes.elim
    | detachSpace | detachProcess =>
      obtain rfl := unmakes
      rfl
    | activate =>
      obtain ⟨-, rfl⟩ := unmakes
      rfl
    | setInterrupts => exact unmakes.1
    | _ => cases shielded
  | _ => cases shielded

namespace Scenario

variable {x : Scenario} {turns : ℕ → Turn} {i j k b l n : ℕ} {t u : Tid} {start : NewProcess} {status : Int32}

/-! ## Sections in runs -/

/-- A thread has interrupts off: it has turned them off when they were on, they have been off since then, and
    what it does next is done with interrupts off only. -/
structure Shielded (x : Scenario) (turns : ℕ → Turn) (i : ℕ) (t : Tid) : Prop where
  /-- It has turned them off. -/
  opened : ∃ l < i, x.Does turns l t (.device .disableInterrupts) .on ∧
    ∀ n, l < n → n ≤ i → (x.slotAt turns n t).interrupts = .off
  /-- What it does next is done with interrupts off only. -/
  next : ∃ (a : Action) (next : a.Answer → ThreadProgram Unit),
    x.programAt turns i t = Program.ask a next ∧ a.isShielded = true

/-- Who has exited has interrupts on. -/
theorem Begins.on_of_gone (begins : x.Begins turns b u (.exit status)) (le : b ≤ i)
    (gone : x.programAt turns i u = Program.pure ()) : (x.slotAt turns i u).interrupts = .on := by
  induction le with
  | refl =>
    obtain ⟨first, looks, -⟩ := begins.looks
    cases looks.symm.trans gone
  | @step i le ih =>
    have same (quiet : ∀ r next, x.programAt turns i u ≠ Program.ask (Action.device r) next)
        (on : (x.slotAt turns i u).interrupts = .on) : (x.slotAt turns (i + 1) u).interrupts = .on := by
      rcases own_succ (begins.inside_later le) with own | ⟨r, answer, ⟨⟨next, there⟩, -⟩, -⟩
      · rw [slotAt, own]
        exact on
      · exact absurd there (quiet r next)
    obtain ⟨d, rest, -, here | ⟨gone', -⟩, ongoing, -⟩ := (begins.exits_on le).programAt
    swap
    · refine same (fun r next there => ?_) (ih gone')
      cases gone'.symm.trans there
    -- An exit does not give a result, so it is over when the thread ends.
    rcases programAt_succ (begins.inside_later le) with step | ⟨a, next, there, leaves, -⟩
    · rw [step, here, Program.advance_bind ongoing] at gone
      exact absurd gone (Program.bind_ne_pure (fun never => never.elim) rest ())
    · have may := (begins.exits_on le).inCall there
      cases a with
      | endThread =>
        refine same (fun r next' asks => ?_) (fits there)
        cases there.symm.trans asks
      | goto block => exact may.elim
      | _ => cases leaves

variable (x) (turns) in
/-- A thread that has nothing to do has interrupts on. -/
theorem on_of_gone (i : ℕ) (t : Tid) (gone : x.programAt turns i t = Program.pure ()) :
    (x.slotAt turns i t).interrupts = .on := by
  rcases x.boots_or_made turns i t with later | ⟨-, on⟩
  swap
  · exact on
  by_cases inside : t < (x.machineAt turns i).threads.size
  swap
  · rw [slotAt, standingAt, Machine.standing, Machine.thread_of_size_le (Nat.not_lt.1 inside)]
    rfl
  obtain ⟨k, before, t', start, makes⟩ := exists_makes later inside
  cases makes.phase before with
  | starting d now ongoing there =>
    exact absurd (there.symm.trans gone) (Program.bind_ne_pure ongoing _ _)
  | acting result j started le unexited =>
    rw [slotAt, (acting_at makes started le unexited).2]
    obtain ⟨p, slot, -⟩ := (makes.begun_of_started started).shape
    rw [slot]
  | exiting result j b status started le later begins => exact begins.on_of_gone (Nat.le_of_lt later) gone

/-- Who turns interrupts off finds them on. -/
theorem Does.disables {answer : InterruptLevel} (does : x.Does turns i t (.device .disableInterrupts) answer) :
    answer = .on := by
  obtain ⟨next, here⟩ := id does.1
  exact does.redraws.level_eq.trans (fits here)

/-- A thread that has interrupts off is in a section. -/
theorem shielded_of_off (off : (x.slotAt turns i t).interrupts = .off) : x.Shielded turns i t where
  opened := by
    induction i with
    | zero =>
      obtain ⟨u, fresh⟩ := x.slotAt_zero turns t
      rw [fresh] at off
      cases off
    | succ i ih =>
      have still (before : (x.slotAt turns i t).interrupts = .off) : ∃ l < i + 1,
          x.Does turns l t (.device .disableInterrupts) .on ∧
          ∀ n, l < n → n ≤ i + 1 → (x.slotAt turns n t).interrupts = .off := by
        obtain ⟨l, early, does, since⟩ := ih before
        refine ⟨l, Nat.lt_succ_of_lt early, does, fun n after le => ?_⟩
        rcases Nat.lt_or_eq_of_le le with le | rfl
        · exact since n after (Nat.le_of_lt_succ le)
        · exact off
      have turned := x.turned turns i t
      generalize x.slotAt turns i t = o at turned still
      generalize after : x.slotAt turns (i + 1) t = o' at turned off
      cases turned with
      | same => exact still off
      | made => cases off
      | installs o space => exact still off
      | asks r answer o does fits =>
        cases r with
        | disableInterrupts =>
          obtain rfl := does.disables
          refine ⟨i, Nat.lt_succ_self i, does, fun n later le => ?_⟩
          obtain rfl := Nat.le_antisymm le later
          rw [after]
          exact off
        | setInterrupts level =>
          obtain ⟨-, rfl⟩ := fits
          cases off
        | _ => exact still off
  next := by
    cases here : x.programAt turns i t with
    | pure => cases off.symm.trans (x.on_of_gone turns i t here)
    | ask a next => exact ⟨a, next, rfl, (fits here).shielded off⟩

/-- Who turns interrupts on has had them off. -/
theorem Does.restores {level : InterruptLevel} (does : x.Does turns i t (.device (.setInterrupts level)) ()) :
    level = .on ∧ (x.slotAt turns i t).interrupts = .off ∧ (x.slotAt turns (i + 1) t).interrupts = .on := by
  obtain ⟨next, here⟩ := id does.1
  obtain ⟨off, rfl⟩ : DeviceRequest.Fits (.setInterrupts level) (x.slotAt turns i t) := fits here
  exact ⟨rfl, off, congrArg Slot.interrupts (does.redraws.slot_eq nofun)⟩

/-- When a call returns the interrupt level is as it was. -/
theorem Returns.interrupts_eq {c : KernelCall} {r : c.Result} (returns : x.Returns turns t c b r i) :
    (x.slotAt turns i t).interrupts = (x.slotAt turns b t).interrupts := by
  obtain ⟨begins, d, rfl, left⟩ := returns.gives
  have ongoing (e : ℕ) (early : e < d) (r : c.Result) :
      x.leftAt turns t (c.program x.kernel) b e ≠ Program.pure r := by
    obtain ⟨-, e', same, ongoing⟩ := returns.lasts (b + e) (by omega) (by omega)
    obtain rfl := Nat.add_left_cancel same
    exact ongoing r
  obtain ⟨-, -, -, next, here, -⟩ := begins.composed
  have boots : (c.program x.kernel).Only Action.isBooting fun _ => True := by
    cases c with
    | execute family line => exact (KernelCall.once_execute x.kernel family line).2
    | wait family pid => exact Kernel.only_wait
    | exit status => cases r
  have remains : (c.program x.kernel).Remains := boots.mono (fun _ boots => boots.goesOn) fun _ => id
  -- Calls but exits have nothing to do with the slot.
  have apart := throughout_apart (F := fun _ _ => True) (Q := fun _ o => o = x.slotAt turns b t)
    (boots.mono (fun _ => Action.isBooting.apart) fun _ => id) (fun _ _ => trivial) fun _ _ => rfl
  have tells := throughout_at begins.inside apart ongoing fun e le =>
    programAt_of_remains here begins.inside remains fun e' early => ongoing e' (Nat.lt_of_lt_of_le early le)
  rw [left] at tells
  exact congrArg Slot.interrupts tells

/-! ## Sections of exits -/

namespace Begins

variable (begins : x.Begins turns b u (.exit status))
include begins

/-- What comes next in an exit. -/
theorem sequel (le : b ≤ i) {a : Action} {next : a.Answer → ThreadProgram Unit}
    (here : x.programAt turns i u = Program.ask a next) (answer : a.Answer) :
    Kernel.ExitSequel a (next answer) := by
  obtain ⟨d, rest, -, there | ⟨gone, -⟩, ongoing, -⟩ := (begins.exits_on le).programAt
  swap
  · cases here.symm.trans gone
  have leads := @leads_leftAt x turns b u _ _ _ (@Kernel.leads_exitProcess_sequel Empty status) d
  obtain ⟨first, left, rfl⟩ := Program.asks_of_bind ongoing (there.symm.trans here)
  change x.leftAt turns u (Kernel.exitProcess status : ThreadProgram Empty) b d = _ at left
  rw [left] at leads
  exact (leads answer).1.bind rest

/-- Who is about to do what is done with interrupts off has them off. -/
theorem off_of_shielded (le : b ≤ i) {a : Action} {next : a.Answer → ThreadProgram Unit}
    (here : x.programAt turns i u = Program.ask a next) (shielded : a.isShielded = true) :
    (x.slotAt turns i u).interrupts = .off := by
  obtain ⟨p, -, -, -, -, unmakes⟩ := begins.unmakes_at le
  exact (unmakes a next here).off shielded

/-- When the memory of the process is detached, the kernel's page tables are activated and interrupts are turned
    on before anything else is done. -/
theorem detaches (le : b ≤ l) {answer : Bool} (does : x.Does turns l u (.device .detachSpace) answer)
    (later : l < i) {a : Action} {next : a.Answer → ThreadProgram Unit}
    (here : x.programAt turns i u = Program.ask a next) (other : a.isShielded = false) :
    ∃ m n, l < m ∧ m < n ∧ n < i ∧
      x.Does turns m u (.device (.activate none)) () ∧ x.Does turns n u (.device (.setInterrupts .on)) () ∧
      ∀ j, l ≤ j → j ≤ n → (x.slotAt turns j u).interrupts = .off := by
  obtain ⟨next', there⟩ := id does.1
  obtain ⟨level, rest, follows⟩ := (begins.sequel le there answer).detaches rfl
  have first := (does.next there).trans follows
  have ne {a' : Action} (shielded : a'.isShielded = true) : a' ≠ a := by
    rintro rfl
    cases shielded.symm.trans other
  obtain ⟨m, ⟨⟩, after, before, about, activates, second⟩ := passes first rfl here (ne rfl) later
  have on {m' : ℕ} (le' : b ≤ m') {rest : Unit → ThreadProgram Unit}
      (here : x.programAt turns m' u = Program.ask (Action.device (.setInterrupts level)) rest) : level = .on := by
    have fits : DeviceRequest.Fits (.setInterrupts level) (x.slotAt turns m' u) := fits here
    exact fits.2
  obtain rfl := on (by omega) second
  obtain ⟨n, ⟨⟩, after', before', about', restores, -⟩ := passes second rfl here (ne rfl) before
  -- From `l` to `n` the thread is about to detach, then to activate, then to restore, and each needs them off.
  refine ⟨m, n, by omega, by omega, before', activates, restores, fun j le' early => ?_⟩
  rcases Nat.lt_or_ge l j with late | early'
  · rcases Nat.lt_or_ge m j with late' | early''
    · exact begins.off_of_shielded (by omega) (about' j late' early) rfl
    · exact begins.off_of_shielded (by omega) (about j late early'') rfl
  · obtain rfl := Nat.le_antisymm early' le'
    exact begins.off_of_shielded le there rfl

/-- When the process is detached, interrupts are turned on and it is destroyed. -/
theorem vanishes (le : b ≤ l) {answer : Unit} (does : x.Does turns l u (.device .detachProcess) answer)
    (later : l < i) {a : Action} {next : a.Answer → ThreadProgram Unit}
    (here : x.programAt turns i u = Program.ask a next) (other : a.isShielded = false) :
    ∃ n, l < n ∧ n < i ∧ x.Does turns n u (.device (.setInterrupts .on)) () ∧
      (∀ j, l ≤ j → j ≤ n → (x.slotAt turns j u).interrupts = .off) ∧
      ∃ next, x.programAt turns (n + 1) u = Program.ask (Action.device .destroyProcess) next := by
  obtain ⟨next', there⟩ := id does.1
  obtain ⟨level, rest, follows⟩ := (begins.sequel le there answer).vanishes rfl
  have first := (does.next there).trans follows
  obtain ⟨-, rfl⟩ : DeviceRequest.Fits (.setInterrupts level) (x.slotAt turns (l + 1) u) := fits first
  obtain ⟨n, ⟨⟩, after, before, about, restores, second⟩ := passes first rfl here
    (by rintro rfl; cases other) later
  refine ⟨n, by omega, before, restores, fun j le' early => ?_, rest, second⟩
  rcases Nat.lt_or_ge l j with late | early'
  · exact begins.off_of_shielded (by omega) (about j late early) rfl
  · obtain rfl := Nat.le_antisymm early' le'
    exact begins.off_of_shielded le there rfl

end Begins

end Scenario

end Userland

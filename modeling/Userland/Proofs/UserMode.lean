import Userland.Proofs.ExitReports
import Userland.Proofs.Turning

/-!
# User mode

From the time when its start is over until it begins to exit, a thread whose program is loaded acts
(`Scenario.Acts`): its process is running, and has all that it has got in its start. A thread in user mode acts,
and so does one that does something for a program (`Scenario.acts_of_user`, `Scenario.acts_of_isPersonal`).
-/

namespace Userland

open ThreadProgram
open Program (Only)
open Belongings (Slot)

-- Which words a line has does not matter for what is done with them.
attribute [local irreducible] Words.ofString

/-- The requests that are made for a program: they regard its memory and its descriptors. -/
def DeviceRequest.isPersonal : DeviceRequest → Bool
  | decode _ | checkRange .. | copyIn .. | copyString .. | copyOut .. | load .. | store .. | findFile _
  | keepFile _ | takeFile _ => true
  | _ => false

namespace Scenario

variable {x : Scenario} {turns : ℕ → Turn} {i j k b : ℕ} {t u : Tid} {start : NewProcess} {status : Int32}
  {program : LoadedProgram}

/-- A program of thread `u`, which was made from `start`, is loaded, and the thread has not begun to exit. -/
def Acts (x : Scenario) (turns : ℕ → Turn) (u : Tid) (start : NewProcess) (program : LoadedProgram) (i : ℕ) :
    Prop :=
  ∃ k t j, x.Makes turns k t start u ∧ x.Started turns u start k (.ok program) j ∧ j ≤ i ∧
    ∀ b, j ≤ b → b < i → ∀ status, ¬x.Begins turns b u (.exit status)

/-- Then the process has all that it has got in its start. -/
theorem Acts.begun (acts : x.Acts turns u start program i) :
    Slot.Begun u start (.ok program) (x.slotAt turns i u) := by
  obtain ⟨k, t, j, makes, started, le, unexited⟩ := acts
  rw [slotAt, (acting_at makes started le unexited).2]
  exact makes.begun_of_started started

/-- A thread whose program could not be loaded does nothing but exit. -/
theorem failing_at (makes : x.Makes turns k t start u) {e : LoadError}
    (started : x.Started turns u start k (.error e) j) (le : j ≤ i)
    (unexited : ∀ b, j ≤ b → b < i → ∀ status, ¬x.Begins turns b u (.exit status)) :
    x.programAt turns i u = Kernel.exitProcess (-1) ∧ x.standingAt turns i u = x.standingAt turns j u := by
  have later : k < j := by
    obtain ⟨d, rfl, -⟩ := started
    omega
  induction le with
  | refl => exact ⟨(makes.proceeds_of_started started).1, rfl⟩
  | @step i le ih =>
    have inside := makes.inside (Nat.lt_of_lt_of_le later le)
    obtain ⟨here, same⟩ := ih fun b le' before => unexited b le' (Nat.lt_succ_of_lt before)
    rcases begins_exit inside here with begins | ⟨still, same'⟩
    · exact absurd begins (unexited i le (Nat.lt_succ_self i) (-1))
    · exact ⟨still, same'.trans same⟩

/-- Where a thread is that is about to do something, if it does not act. -/
inductive Away (x : Scenario) (turns : ℕ → Turn) (i : ℕ) (t : Tid) (a : Action)
    (next : a.Answer → ThreadProgram Unit) : Prop where
  /-- It starts. -/
  | starting (k d : ℕ) (start : NewProcess) (first : a.Answer → ThreadProgram (Except LoadError LoadedProgram)) :
    x.leftAt turns t (x.kernel.starting start) k d = Program.ask a first →
    next = (fun answer => first answer >>= x.proceeds start) → Away x turns i t a next
  /-- No program was loaded, and it is about to exit. -/
  | failing : x.programAt turns i t = Kernel.exitProcess (-1) → Away x turns i t a next
  /-- It exits. -/
  | exiting (b : ℕ) (status : Int32) : b < i → x.Begins turns b t (.exit status) → Away x turns i t a next

theorem acts_or_away (later : 1 < t) {a : Action} {next : a.Answer → ThreadProgram Unit}
    (here : x.programAt turns i t = Program.ask a next) :
    (∃ start program, x.Acts turns t start program i) ∨ x.Away turns i t a next := by
  obtain ⟨k, before, t', start, makes⟩ := exists_makes later (inside_of_asks here)
  cases makes.phase before with
  | starting d now ongoing there =>
    obtain ⟨first, left, same⟩ := Program.asks_of_bind ongoing (there.symm.trans here)
    exact .inr (.starting _ d start first left same)
  | acting result j started le unexited =>
    cases result with
    | ok program => exact .inl ⟨start, program, k, t', j, makes, started, le, unexited⟩
    | error e => exact .inr (.failing (failing_at makes started le unexited).1)
  | exiting result j b status started le later begins => exact .inr (.exiting b status later begins)

/-- Who does what is done neither in a start nor in an exit acts. -/
theorem acts_of_asks {a : Action} {next : a.Answer → ThreadProgram Unit}
    (here : x.programAt turns i t = Program.ask a next) (boots : ¬a.isBooting)
    (starts : ∀ start, ¬Kernel.InStart start a) (exits : ∀ status, ¬Kernel.InExit status a) :
    ∃ start program, x.Acts turns t start program i := by
  refine (acts_or_away (later_of_asks here boots) here).resolve_right fun away => ?_
  cases away with
  | starting k d start first left => exact starts start (starts_of_left left)
  | failing about =>
    obtain ⟨first, opens, -⟩ := Kernel.exitProcess_opens (α := Unit) (-1)
    obtain ⟨rfl, -⟩ := Program.ask.inj (here.symm.trans (about.trans opens))
    exact exits (-1) (.inl rfl)
  | exiting b status before begins =>
    obtain ⟨d, rfl⟩ := Nat.exists_eq_add_of_le (Nat.le_of_lt before)
    obtain ⟨first, left⟩ := begins.exiting here
    exact exits status (exits_of_left left)

/-- So does who asks for something for a program. -/
theorem acts_of_isPersonal {r : DeviceRequest} {next : r.Answer → ThreadProgram Unit}
    (here : x.programAt turns i t = Program.ask (Action.device r) next) (personal : r.isPersonal = true) :
    ∃ start program, x.Acts turns t start program i := by
  refine acts_of_asks here ?_ ?_ ?_
  · rintro (⟨_, _, _, ⟨⟩⟩ | clerical)
    cases r <;> first | (cases personal; done) | cases clerical
  · rintro start (loads | announces | ⟨text, ⟨⟩⟩)
    · cases r <;> first | (cases personal; done) | cases loads
    · cases r <;> first | (cases personal; done) | cases announces
    · cases personal
  · rintro status (⟨⟨⟩⟩ | ⟨⟨⟩⟩ | ⟨_, ⟨⟩⟩ | ⟨_, ⟨⟩⟩ | final)
    on_goal 5 => cases r <;> first | (cases personal; done) | cases final
    all_goals cases personal

/-- A thread that has begun to exit does not look for its process again. -/
theorem Begins.looks_once (begins : x.Begins turns b u (.exit status)) (later : b < i) :
    (x.programAt turns i u).Only (fun a : Action => a ≠ .device .process) fun _ => True := by
  obtain ⟨d, rfl⟩ := Nat.exists_eq_add_of_lt later
  obtain ⟨d', rest, same, here | ⟨gone, -⟩, -⟩ := (begins.exits_on (Nat.le_of_lt later)).programAt
  swap
  · rw [gone]
    trivial
  obtain rfl : d' = d + 1 := by omega
  obtain ⟨first, opens⟩ : ∃ first, (Kernel.exitProcess status : ThreadProgram Empty) =
    Program.ask (Action.device .process) first := ⟨_, rfl⟩
  have only : ∀ hosted, (first hosted).Only (fun a : Action => a ≠ .device .process) fun _ => True :=
    Kernel.only_exitProcess nofun (fun _ => nofun) (fun _ => nofun)
      (fun a final same => by subst same; cases final) opens
  rw [here]
  refine Only.bind (R := fun _ => True) ?_ fun never _ => nomatch never
  change (x.leftAt turns u (Kernel.exitProcess status : ThreadProgram Empty) b (d + 1)).Only _ _
  rw [begins.finds opens]
  exact only_leftAt (only _) d

/-- So does who goes on with a block. -/
theorem acts_of_goto {block : ℕ} {next : Empty → ThreadProgram Unit}
    (here : x.programAt turns i t = Program.ask (Action.goto block) next) :
    ∃ start program, x.Acts turns t start program i := by
  refine acts_of_asks here (fun boots => by cases boots.goesOn) ?_ ?_
  · rintro start (loads | announces | ⟨text, ⟨⟩⟩)
    · cases loads
    · cases announces
  · rintro status (⟨⟨⟩⟩ | ⟨⟨⟩⟩ | ⟨_, ⟨⟩⟩ | ⟨_, ⟨⟩⟩ | final)
    exact final

/-- A thread that traps acts: who starts or ends does not report a trap if it has no process. -/
theorem acts_of_trap {frame : TrapFrame} {next : UInt32 → UserCode}
    (here : x.programAt turns i t = (UserCode.trap frame next).program x.kernel) :
    ∃ start program, x.Acts turns t start program i := by
  -- If there were no process, a trap would be reported.
  obtain ⟨first, opens, reports⟩ : ∃ first : Option Process → ThreadProgram Unit,
      x.programAt turns i t = Program.ask (Action.device .process) first ∧
      ∃ rest, first none = Program.ask (Action.device (.log .error
        "[SYSCALL] trap from a thread with no process")) rest := ⟨_, here, _, rfl⟩
  obtain ⟨rest, reports⟩ := reports
  refine (acts_or_away (later_of_asks opens (not_boots_of_regards rfl)) opens).resolve_right fun away => ?_
  cases away with
  | starting k d start first' left same =>
    have heeds := @leads_leftAt x turns k t _ _ _ (@Kernel.heeds_starting x.kernel start) d
    rw [left] at heeds
    obtain ⟨root, next', activates⟩ := (((heeds none).1.bind (x.proceeds start))).finds rfl
    rw [same] at reports
    cases reports.symm.trans activates
  | failing about =>
    obtain ⟨first', opens', ⟨next', vanishes⟩, -⟩ := Kernel.exitProcess_opens (α := Unit) (-1)
    obtain rfl := eq_of_heq (Program.ask.inj (opens.symm.trans (about.trans opens'))).2
    cases reports.symm.trans vanishes
  | exiting b status before begins =>
    have only := begins.looks_once before
    rw [opens] at only
    exact only.1 rfl

/-- A thread that faults acts: who starts or ends does not exit after a remark. -/
theorem acts_of_fault {address : VirtAddr} {write present : Bool}
    (here : x.programAt turns i t = (UserCode.fault address write present).program x.kernel) :
    ∃ start program, x.Acts turns t start program i := by
  obtain ⟨text, first, opens, exits⟩ : ∃ (text : String) (first : Unit → ThreadProgram Unit),
      x.programAt turns i t = Program.ask (Action.device (.log .debug text)) first ∧
      first () = Kernel.exitProcess (-1) := ⟨_, _, here, rfl⟩
  obtain ⟨looks, asks, -⟩ := Kernel.exitProcess_opens (α := Unit) (-1)
  have later : 1 < t := (x.boots_or_made turns i t).resolve_right fun ⟨only, _⟩ => by
    rw [opens] at only
    have next := only.2 ()
    rw [exits, asks] at next
    exact not_boots_of_regards rfl next.1
  refine (acts_or_away later opens).resolve_right fun away => ?_
  cases away with
  | starting k d start first' left same =>
    have heeds := @leads_leftAt x turns k t _ _ _ (@Kernel.heeds_starting x.kernel start) d
    rw [left] at heeds
    obtain ⟨a, next', goes, other⟩ := ((heeds ()).1.bind (x.proceeds start)).remarks _ _ rfl
    rw [same] at exits
    obtain ⟨rfl, -⟩ := Program.ask.inj (asks.symm.trans (exits.symm.trans goes))
    exact other rfl
  | failing about => cases opens.symm.trans (about.trans asks)
  | exiting b status before begins =>
    have only := begins.looks_once before
    rw [opens] at only
    have next := only.2 ()
    rw [exits, asks] at next
    exact next.1 rfl

/-- A thread in user mode acts. -/
theorem acts_of_user {code : UserCode} (here : x.programAt turns i t = code.program x.kernel) :
    ∃ start program, x.Acts turns t start program i := by
  cases code with
  | load =>
    obtain ⟨next, opens⟩ : ∃ next, x.programAt turns i t = Program.ask (Action.device (.load _ _)) next :=
      ⟨_, here⟩
    exact acts_of_isPersonal opens rfl
  | store =>
    obtain ⟨next, opens⟩ : ∃ next, x.programAt turns i t = Program.ask (Action.device (.store _ _)) next :=
      ⟨_, here⟩
    exact acts_of_isPersonal opens rfl
  | trap => exact acts_of_trap here
  | fault => exact acts_of_fault here
  | goto => exact acts_of_goto here

end Scenario

end Userland

import Userland.Proofs.Launches
import Userland.Proofs.StackFrames
import Userland.Proofs.StackPage
import Userland.Proofs.UserMode

/-!
# From the command line to the arguments

A command line is cut to what there is room for, and split into words. The first word names the thread, the
process and the file that is loaded, and all of them, or as many as a process may have, are on the stack when
the program starts (`Scenario.hands_over`). The thread that starts a child splits the line as the child does
(`Kernel.spawns_execute`, `Kernel.loading_steps`), so both find the same name.
-/

namespace Userland

open ThreadProgram
open Program (Only)

-- Which words a line has does not matter until they are handed over.
attribute [local irreducible] Words.ofString

/-! ## What is done last -/

namespace Program

variable {σ : Signature} {α β : Type} {p : Program σ α} {f : α → Program σ β} {r : β}

theorem bind_eq_pure (over' : p >>= f = pure r) : ∃ x, p = pure x ∧ f x = pure r := by
  cases p with
  | pure x => exact ⟨x, rfl, over'⟩
  | ask a next => cases over'

/-- What is done last is done in the second part, if that does anything. -/
theorem leads_bind {P : σ.Request → Prop} {R : β → Prop} (goesOn : ∀ x r, f x = pure r → ¬R r)
    (rest : ∀ x, (f x).Leads fun a q => ∀ r, q = pure r → R r → P a) :
    (p >>= f).Leads fun a q => ∀ r, q = pure r → R r → P a := by
  change (p.bind f).Leads _
  induction p with
  | pure x => exact rest x
  | ask a next ih =>
    refine fun answer => ⟨fun r over' so => ?_, ih answer⟩
    obtain ⟨x, -, over'⟩ := bind_eq_pure over'
    exact absurd so (goesOn x r over')

end Program

/-! ## Names -/

namespace DeviceRequest

/-- The requests that are made by name: for a process, and for a file. -/
def names : DeviceRequest → Bool
  | newProcess .. | openFile _ => true
  | _ => false

theorem name_modifyProcess (b : Belongings) {f : Process → Process} (keeps : ∀ p, (f p).name = p.name) :
    (b.modifyProcess f).process.map Process.name = b.process.map Process.name := by
  simp only [Belongings.modifyProcess, Option.map_map]
  exact congrArg (b.process.map ·) (funext keeps)

theorem name_modifyChildren (b : Belongings) (f : Children → Children) (family : Family) :
    (b.modifyChildren f family).process.map Process.name = b.process.map Process.name := by
  cases family with
  | process => exact name_modifyProcess b fun _ => rfl
  | kin | initial => rfl

/-- A process has the name that it was made with. -/
theorem name_serve (r : DeviceRequest) {b : Belongings} {d : Devices} {p : Process}
    (hosted : (r.serve b d).2.1.process = some p) : b.process.map Process.name = some p.name ∨
      ∃ name n exit, r = newProcess name n exit ∧ p.name = Utf8.truncate name maxNameLength := by
  have effect := effect_serve r b d
  generalize (r.serve b d).2.1 = b' at effect hosted
  have kept (same : b'.process.map Process.name = b.process.map Process.name) :
      b.process.map Process.name = some p.name := by rw [← same, hosted, Option.map_some]
  cases effect with
  | newProcess name n exit =>
    cases hosted
    exact .inr ⟨name, n, exit, rfl, rfl⟩
  | detachProcess => cases hosted
  | quiet | hands | level | destroyProcess => exact .inl (kept rfl)
  | files | detachSpace | installSpace => exact .inl (kept (name_modifyProcess b fun _ => rfl))
  | edited _ edits => exact .inl (kept (name_modifyProcess b fun p => (sameContents_of_edit? edits p).name))
  | records f => exact .inl (kept (name_modifyChildren b f _))

end DeviceRequest

/-- The action is made by no name. -/
def Action.Nameless (a : Action) : Prop := ∀ r, a = .device r → r.names = false

namespace Kernel

open DeviceRequest

variable {k : Kernel} {start : NewProcess} {w : String} {rest : List String}

/-- A thread that starts a child asks for a thread with the name that the child will find, and hands it what is
    kept of the line. -/
theorem spawns_execute (family : Family) (line : String) : (k.execute family line).Only
    (fun a : Action => ∀ name priority start, a = .spawn name priority start →
      start.command = Utf8.truncate line maxCommandLength ∧
        name = Utf8.truncate (programName start) maxNameLength) fun _ => True := by
  have once : (k.execute family line).Once Action.Spawns := (KernelCall.once_execute k family line).1
  revert once
  unfold execute
  dsimp only
  cases words : (Words.ofString (Utf8.truncate line maxCommandLength)).head? with
  | none => exact fun _ => trivial
  | some name =>
    refine fun once => ⟨nofun, fun loaded => ⟨nofun, fun exit => ⟨?_, fun made => ?_⟩⟩⟩
    · rintro _ _ _ ⟨⟩
      exact ⟨rfl, by rw [programName, words]; rfl⟩
    · -- Only one thread is asked for.
      refine ((((once loaded).2 exit).2 made).1 ⟨_, _, _, rfl⟩).mono (fun a other => ?_) fun _ => id
      rintro name priority start rfl
      exact absurd ⟨name, priority, start, rfl⟩ other

/-- A child hosts a process with the name of its program, and opens the file of that name. If its program is
    loaded, that file is its executable. -/
theorem loading_steps (words : Words.ofString start.command = w :: rest) (room : 1 ≤ k.settings.maxArguments) :
    ∃ after : Option Handle → ThreadProgram (Except LoadError LoadedProgram),
      loading k start =
        Program.ask (Action.device (newProcess (programName start) k.settings.maxOpenFiles start.exit)) (fun _ =>
          Program.ask (Action.lock volumeLock) fun _ => Program.ask (Action.device (openFile w)) after) ∧
      ∀ opened, (after opened).Only Action.Nameless fun result =>
        ∀ program, result = .ok program → opened = some program.executable := by
  obtain ⟨arguments, cut⟩ : ∃ arguments,
      (Words.ofString start.command).take k.settings.maxArguments = w :: arguments := by
    obtain ⟨n, more⟩ := Nat.exists_eq_succ_of_ne_zero (Nat.ne_of_gt room)
    exact ⟨rest.take n, by rw [words, more]; rfl⟩
  let loaded : Option Handle → Routine (Except LoadError LoadedProgram)
    | none => pure (.error .openFailed)
    | some file => Routine.ask (deny file) >>= fun _ =>
      Loader.fillFrom file w (w :: arguments) >>= Loader.letGo file
  refine ⟨fun opened => ofRoutine (loaded opened) >>= fun result => unlock volumeLock >>= fun _ => pure result,
    ?_, fun opened => ?_⟩
  · unfold loading
    dsimp only
    rw [cut, Loader.load_eq]
    refine congrArg (Program.ask _) (funext fun _ => congrArg (Program.ask _) (funext fun _ => ?_))
    refine congrArg (Program.ask _) (funext fun opened => ?_)
    cases opened <;> rfl
  · refine Only.bind ((only_ofRoutine _).2 ?_) fun result so =>
      (only_unlock volumeLock fun a other r same => absurd same (other r)).bind fun _ _ => so
    have nameless {r : DeviceRequest} (unnamed : r.names = false) : Action.Nameless (.device r) :=
      fun _ same => Action.device.inj same ▸ unnamed
    cases opened with
    | none => exact nofun
    | some file =>
      refine ⟨nameless rfl, fun _ => ?_⟩
      have fills := @Loader.fills_fillFrom file w (w :: arguments)
      refine (fills.mono (fun r fills => nameless ?_) fun _ => id).bind fun result so => ?_
      · cases r <;> first | rfl | cases fills
      · cases result with
        | ok program =>
          rintro _ ⟨⟩
          exact congrArg some (so program rfl).symm
        | error e => exact ⟨nameless rfl, fun _ => ⟨nameless rfl, fun _ => nofun⟩⟩

/-- In a start nothing else is done by name. -/
theorem names_starting (words : Words.ofString start.command = w :: rest) (room : 1 ≤ k.settings.maxArguments) :
    (starting k start).Only (fun a : Action => a.Nameless ∨ a = .device (openFile w) ∨
      a = .device (newProcess (programName start) k.settings.maxOpenFiles start.exit)) fun _ => True := by
  obtain ⟨after, loads, rest⟩ := loading_steps words room
  refine Only.bind (R := fun _ => True) ?_ fun result _ => ?_
  · rw [loads]
    refine ⟨.inr (.inr rfl), fun _ => ⟨.inl nofun, fun _ => ⟨.inr (.inl rfl), fun opened => ?_⟩⟩⟩
    exact (rest opened).mono (fun _ => .inl) fun _ _ => trivial
  · refine ((announces_announcing result).mono (fun a done => .inl ?_) fun _ => id).bind fun _ _ => trivial
    rcases done with announces | ⟨text, rfl⟩
    · rintro r rfl
      cases r <;> first | rfl | cases announces
    · rintro r ⟨⟩
      rfl

/-! ## The end of a start -/

/-- What is done last before a program is there, is to enter user mode. -/
theorem leads_starting : (starting k start).Leads fun (a : Action) q =>
    ∀ result, q = Program.pure result → (∃ program, result = .ok program) → a = .device (note .enter) := by
  have none (e : LoadError) : ¬∃ program : LoadedProgram, Except.error e = .ok program := nofun
  refine Program.leads_bind (fun result r over' => ?_) fun result => ?_
  · cases result with
    | error e =>
      obtain ⟨_, -, same⟩ := Program.bind_eq_pure over'
      exact Program.pure.inj same ▸ none e
    | ok program => cases over'
  · cases result with
    | error e =>
      exact Program.leads_bind (fun _ r same => Program.pure.inj same ▸ none e) fun _ => trivial
    | ok program =>
      simp only [announcing, bind_assoc]
      refine Program.leads_bind ?_ fun _ => Program.leads_bind ?_ fun _ _ => ⟨fun _ _ _ => rfl, trivial⟩
      · rintro _ _ ⟨⟩
      · rintro _ _ ⟨⟩

end Kernel

/-! ## Runs -/

namespace Scenario

variable {x : Scenario} {turns : ℕ → Turn} {i j k b : ℕ} {t u : Tid} {family : Family} {line w : String}
  {start : NewProcess} {rest : List String}

/-- A thread that starts a child has a word in its command line. -/
theorem Within.words (within : x.Within turns (.execute family line) b i t) :
    ∃ w rest, Words.ofString (Utf8.truncate line Kernel.maxCommandLength) = w :: rest := by
  obtain ⟨first, opens⟩ := within.1.opens
  refine List.exists_cons_of_ne_nil fun none => ?_
  cases opens.symm.trans (execute_eq_pure.2 none)

/-- It asks for a thread with the name that the child will find. -/
theorem Within.spawns (within : x.Within turns (.execute family line) b i t) {name : String} {priority : UInt8}
    {made : Option Tid} (does : x.Does turns i t (.spawn name priority start) made) :
    start.command = Utf8.truncate line Kernel.maxCommandLength ∧
      name = Utf8.truncate (Kernel.programName start) maxNameLength := by
  obtain ⟨next, here⟩ := does.1
  obtain ⟨d, first, rfl, left⟩ := within.left rfl here
  have only := @only_leftAt x turns b t _ _ _ _ (x.kernel.spawns_execute family line) d
  have left : x.leftAt turns t (x.kernel.execute family line) b d = _ := left
  rw [left] at only
  exact only.1 name priority start rfl

namespace Makes

variable (makes : x.Makes turns k t start u) (words : Words.ofString start.command = w :: rest)
  (room : 1 ≤ x.settings.maxArguments)

include makes words room

/-- Whatever its load comes to, a child has opened the file that its first word names, and if its program is
    loaded that is its executable. -/
theorem opens_file {result : Except LoadError LoadedProgram} (load : x.LoadGives turns u start k result j) :
    ∃ i opened, k < i ∧ i < j ∧ x.Does turns i u (.device (.openFile w)) opened ∧
      ∀ program, result = .ok program → opened = some program.executable := by
  obtain ⟨d, rfl, left⟩ := load
  obtain ⟨after, here, -⟩ := makes.loads
  obtain ⟨opens, loads, rest⟩ := Kernel.loading_steps (k := x.kernel) words room
  have inside {j : ℕ} (later : k < j) : u < (x.machineAt turns j).threads.size := makes.inside later
  rw [loads] at here left
  obtain ⟨e₁, f₁, -, rfl, -, -, -, here₁, onward₁⟩ := done_of_over here (inside (by omega)) left
  have left₁ := (onward₁ f₁).symm.trans left
  obtain ⟨e₂, f₂, -, rfl, -, -, -, here₂, onward₂⟩ := done_of_over here₁ (inside (by omega)) left₁
  have left₂ := (onward₂ f₂).symm.trans left₁
  obtain ⟨e₃, f₃, opened, rfl, does, -, -, -, onward₃⟩ := done_of_over here₂ (inside (by omega)) left₂
  have left₃ := (onward₃ f₃).symm.trans left₂
  have only := @only_leftAt x turns (k + 1 + e₁ + 1 + e₂ + 1 + e₃ + 1) u _ _ _ _ (rest opened) f₃
  rw [left₃] at only
  exact ⟨_, opened, by omega, by omega, does, only⟩

/-- While a child starts it opens no other file. -/
theorem opens_only {path : String} {opened : Option Handle} (later : k < i)
    (starts : ∀ result j, x.Started turns u start k result j → i < j)
    (does : x.Does turns i u (.device (.openFile path)) opened) : path = w := by
  obtain ⟨next, here⟩ := does.1
  cases makes.life later with
  | starting d now ongoing there =>
    obtain ⟨first, left, -⟩ := Program.asks_of_bind ongoing (there.symm.trans here)
    have only := @only_leftAt x turns (k + 1) u _ _ _ _ (Kernel.names_starting (k := x.kernel) words room) d
    rw [left] at only
    rcases only.1 with unnamed | ⟨⟨⟩⟩ | ⟨⟨⟩⟩
    · cases unnamed _ rfl
    · rfl
  | failing e j started le => exact absurd (starts _ j started) (Nat.not_lt.2 le)
  | acting program j current started le => exact absurd (starts _ j started) (Nat.not_lt.2 le)
  | exiting result j b status started le before =>
    exact absurd (starts _ j started) (Nat.not_lt.2 (Nat.le_trans le (Nat.le_of_lt before)))

/-- The process of a child has the name of its program, cut to what there is room for. -/
theorem name_eq {p : Process} (later : k < j) (hosted : ((x.machineAt turns j).thread u).own.process = some p) :
    p.name = Utf8.truncate (Kernel.programName start) maxNameLength := by
  induction later generalizing p with
  | refl => cases (congrArg (·.own.process) makes.stands).symm.trans hosted
  | @step j later ih =>
    rcases x.own_succ (makes.inside later) with same | ⟨r, answer, does, -, same⟩
    · exact ih ((congrArg (·.process) same).symm.trans hosted)
    rcases r.name_serve ((congrArg (·.process) same).symm.trans hosted) with kept | ⟨name, n, exit, rfl, named⟩
    · obtain ⟨p', hosted', same'⟩ := Option.map_eq_some_iff.1 kept
      rw [← same', ih hosted']
    obtain ⟨k', -, t', start', makes', deed⟩ := does.deed rfl
    obtain ⟨rfl, rfl, rfl⟩ := makes.unique makes'
    cases deed with
    | starting d first now left =>
      have only := @only_leftAt x turns (k + 1) u _ _ _ _ (Kernel.names_starting (k := x.kernel) words room) d
      rw [left] at only
      rcases only.1 with unnamed | ⟨⟨⟩⟩ | ⟨⟨⟩⟩
      · cases unnamed _ rfl
      · exact named
    | acting program j current next started le conduct =>
      cases conduct with
      | ordinary plain => cases plain
    | exiting result j b d status first started le now begins left =>
      obtain ⟨⟨⟩⟩ | ⟨⟨⟩⟩ | ⟨name, ⟨⟩⟩ | ⟨h, ⟨⟩⟩ | final := exits_of_left left
      cases final

end Makes

/-- When a start has come to a program, user mode has just been entered. -/
theorem Makes.enters (makes : x.Makes turns k t start u) {program : LoadedProgram}
    (started : x.Started turns u start k (.ok program) j) :
    ∃ i, j = i + 1 ∧ x.Does turns i u (.device (.note .enter)) () := by
  obtain ⟨d, rfl, over', ongoing⟩ := started
  obtain ⟨e, rfl⟩ : ∃ e, d = e + 1 := Nat.exists_eq_succ_of_ne_zero fun zero => by
    subst zero
    cases over'
  cases left : x.leftAt turns u (x.kernel.starting start) (k + 1) e with
  | pure r => exact absurd left (ongoing e (Nat.lt_succ_self e) r)
  | ask a first =>
    have leads := @leads_leftAt x turns (k + 1) u _ _ _ (@Kernel.leads_starting x.kernel start) e
    rw [leftAt, left] at over'
    rw [left] at leads
    change (x.toldAt turns (k + 1 + e) u a).elim (Program.ask a first) first = _ at over'
    cases told : x.toldAt turns (k + 1 + e) u a with
    | none =>
      rw [told] at over'
      cases over'
    | some answer =>
      rw [told] at over'
      obtain rfl := (leads answer).1 _ over' ⟨program, rfl⟩
      have there := programAt_of_remains makes.starts (makes.inside (Nat.lt_succ_self k)) remains_starting
        fun c before => ongoing c (Nat.lt_succ_of_lt before)
      rw [left] at there
      exact ⟨k + 1 + e, rfl, ⟨_, there⟩, told⟩

/-! ## What is handed over -/

/-- A name is the first of some words, cut to what there is room for. -/
def Names (ws : List String) (name : String) : Prop := ∃ w, ws.head? = some w ∧ Utf8.IsCut w maxNameLength name

/-- How a command line is handed over to a child in a run: `c` is what is kept of the line, and `ws` are the
    words of that. -/
structure HandsOver (x : Scenario) (turns : ℕ → Turn) (line c : String) (ws : List String) : Prop where
  /-- The line is refused for want of a word, and nothing is done for it, if and only if there is none. -/
  refused : ∀ family, x.kernel.execute family line = Program.pure (.error .emptyCommand) ↔ ws = []
  /-- So a call that is made does not give that. Before it gives a result it has asked for a thread. -/
  accepted : ∀ t family b r i, x.Gives turns t (.execute family line) b r i →
    ws ≠ [] ∧ r ≠ .error .emptyCommand ∧ ∃ k < i, ∃ name priority start made,
      x.Within turns (.execute family line) b k t ∧ x.Does turns k t (.spawn name priority start) made
  /-- The thread has the first word for its name, and starts from what is kept of the line. -/
  spawns : ∀ t family b k name priority start made, x.Within turns (.execute family line) b k t →
    x.Does turns k t (.spawn name priority start) made → start.command = c ∧ Names ws name
  /-- The process that it hosts has the same name at all times. -/
  hosts : ∀ t family b k start u, x.Bears turns t family line b k start u → ∀ j > k, ∀ p,
    ((x.machineAt turns j).thread u).own.process = some p → Names ws p.name
  /-- While it starts, no file is opened but that which the first word names. -/
  opens : ∀ t family b k start u, x.Bears turns t family line b k start u → ∀ i > k,
    (∀ result j, x.Started turns u start k result j → i < j) → ∀ path opened,
      x.Does turns i u (.device (.openFile path)) opened → ws.head? = some path
  /-- That is opened, whatever the load comes to, and is the executable of the program that is loaded. -/
  loads : ∀ t family b k start u, x.Bears turns t family line b k start u → ∀ result j,
    x.LoadGives turns u start k result j → ∃ i path opened, k < i ∧ i < j ∧ ws.head? = some path ∧
      x.Does turns i u (.device (.openFile path)) opened ∧
      ∀ program, result = .ok program → opened = some program.executable
  /-- When the program is loaded and user mode has been entered, the program is about to run under the name of
      the process, and the words are on its stack, as many as a process may have. -/
  enters : ∀ t family b k start u, x.Bears turns t family line b k start u → ∀ program j,
    x.Started turns u start k (.ok program) j → ∃ i, j = i + 1 ∧ x.Does turns i u (.device (.note .enter)) () ∧
      ∃ name context s, Names ws name ∧
        x.programAt turns j u = (x.code start name context).program x.kernel ∧
        ((x.machineAt turns j).thread u).own.space? = some s ∧
        s.HasArguments (x.machineAt turns j).devices.pool (.ofWord context.esp)
          (ws.take x.settings.maxArguments)

theorem names_programName (words : Words.ofString start.command = w :: rest) :
    Names (Words.ofString start.command) (Utf8.truncate (Kernel.programName start) maxNameLength) := by
  refine ⟨w, by rw [words]; rfl, ?_⟩
  rw [Kernel.programName, words]
  exact Utf8.isCut_truncate w maxNameLength

/-- A child that is made for a command line finds the words that its parent has found, and there is one. -/
theorem Bears.words (bears : x.Bears turns t family line b k start u) :
    ∃ w rest, Words.ofString start.command = w :: rest ∧
      Words.ofString start.command = Words.ofString (Utf8.truncate line Kernel.maxCommandLength) := by
  obtain ⟨name, priority, does⟩ := bears.makes
  obtain ⟨w, rest, same⟩ := bears.within.words
  have command := (bears.within.spawns does).1
  exact ⟨w, rest, command ▸ same, command ▸ rfl⟩

/-- A call that starts a child does not find the line empty, and asks for a thread. -/
theorem Gives.accepted {r : Except ExecError Tid} (gives : x.Gives turns t (.execute family line) b r i) :
    Words.ofString (Utf8.truncate line Kernel.maxCommandLength) ≠ [] ∧ r ≠ .error .emptyCommand ∧
      ∃ k < i, ∃ name priority start made, x.Within turns (.execute family line) b k t ∧
        x.Does turns k t (.spawn name priority start) made := by
  obtain ⟨k, name, priority, start, made, within, before, does, -, full, started⟩ := gives.steps
  obtain ⟨w, rest, same⟩ := within.words
  refine ⟨same ▸ List.cons_ne_nil w rest, ?_, k, before, name, priority, start, made, within, does⟩
  cases made with
  | none =>
    rw [full rfl]
    nofun
  | some u =>
    obtain ⟨-, -, -, -, -, ⟨-, rfl⟩ | ⟨-, rfl⟩⟩ := started u rfl
    · nofun
    · nofun

/-- What is about to run when a start has come to a program, and what it finds on its stack. -/
theorem Makes.hasArguments (makes : x.Makes turns k t start u) {program : LoadedProgram}
    (started : x.Started turns u start k (.ok program) j) (nulFree : '\x00' ∉ start.command.toList) :
    ∃ context s, x.programAt turns j u =
        (x.code start (Utf8.truncate (Kernel.programName start) maxNameLength) context).program x.kernel ∧
      ((x.machineAt turns j).thread u).own.space? = some s ∧
      s.HasArguments (x.machineAt turns j).devices.pool (.ofWord context.esp)
        ((Words.ofString start.command).take x.settings.maxArguments) := by
  obtain ⟨here, -⟩ := makes.proceeds_of_started started
  obtain ⟨page, s, built, mapped, ⟨found, translated, held⟩, backed⟩ := makes.stack_of_started started
  refine ⟨.ofEntry program.entry program.stack, s, here, mapped, ?_⟩
  have start' : VirtAddr.ofWord (UserContext.ofEntry program.entry program.stack).esp = program.stack :=
    InitialStack.ofWord_toWord_of_build built
  rw [start']
  refine AddressSpace.hasArguments translated held backed built fun arg listed null => nulFree ?_
  have mem := List.mem_map_of_mem (f := String.toList) (List.mem_of_mem_take listed)
  exact (Words.isWords_ofString start.command).mem mem null

/-- Every command line without null characters is handed over: as much of it as there is room for, and of that
    as many words as a process may have. -/
theorem hands_over (x : Scenario) (turns : ℕ → Turn) (line : String) (room : 1 ≤ x.settings.maxArguments)
    (nulFree : '\x00' ∉ line.toList) : ∃ c ws, Utf8.IsCut line Kernel.maxCommandLength c ∧
      Words.IsWords c.toList (ws.map String.toList) ∧ x.HandsOver turns line c ws := by
  have cut := Utf8.isCut_truncate line Kernel.maxCommandLength
  refine ⟨_, _, cut, Words.isWords_ofString _, ?_⟩
  constructor
  · exact fun family => execute_eq_pure
  · exact fun t family b r i gives => gives.accepted
  · intro t family b k name priority start made within does
    obtain ⟨command, rfl⟩ := within.spawns does
    obtain ⟨w, rest, words⟩ := within.words
    rw [← command] at words ⊢
    exact ⟨rfl, names_programName words⟩
  · intro t family b k start u bears j later p hosted
    obtain ⟨w, rest, words, same⟩ := bears.words
    rw [← same, bears.makes.name_eq words room later hosted]
    exact names_programName words
  · intro t family b k start u bears i later starts path opened does
    obtain ⟨w, rest, words, same⟩ := bears.words
    rw [← same, words, bears.makes.opens_only words room later starts does]
    rfl
  · intro t family b k start u bears result j load
    obtain ⟨w, rest, words, same⟩ := bears.words
    obtain ⟨i, opened, after, early, does, executable⟩ := bears.makes.opens_file words room load
    exact ⟨i, w, opened, after, early, by rw [← same, words]; rfl, does, executable⟩
  · intro t family b k start u bears program j started
    obtain ⟨w, rest, words, same⟩ := bears.words
    obtain ⟨i, now, entered⟩ := bears.makes.enters started
    obtain ⟨name, priority, does⟩ := bears.makes
    have command := (bears.within.spawns does).1
    obtain ⟨context, s, here, mapped, has⟩ := bears.makes.hasArguments started fun null =>
      nulFree (cut.starts.subset (command ▸ null))
    rw [← same]
    exact ⟨i, now, entered, _, context, s, names_programName words, here, mapped, has⟩

end Scenario

/-! ## A line that is handed over -/

/-- The request that a thread makes next, if it makes one. -/
def ThreadProgram.request? : ThreadProgram Unit → Option DeviceRequest
  | Program.ask (Action.device r) _ => some r
  | _ => none

theorem ThreadProgram.request?_eq_some {p : ThreadProgram Unit} {r : DeviceRequest} (makes : request? p = some r) :
    ∃ next, p = Program.ask (Action.device r) next := by
  unfold request? at makes
  split at makes
  · next r' next =>
    obtain rfl := Option.some.inj makes
    exact ⟨next, rfl⟩
  · cases makes

namespace Scenario

/-- A scenario with one file, whose program reads how many arguments it has, over and over. -/
def echoing : Scenario :=
  { opening with
    directory := [("echo", 0)]
    line := "echo  hi"
    code := fun _ _ context => .goto context.esp.toNat
    blocks := fun esp => .load (.ofNat (esp + 4)) 4 fun _ => .goto esp }

namespace echoing

/-- The first thread goes until it waits, then its child until it is in user mode, and then the first thread
    again. -/
def turns (i : ℕ) : Turn := if i < 8 then .step 1 else if i < 41 then .step 2 else .step 1

/-- After 43 turns the program is started, as thread 2. -/
theorem started : echoing.Returns turns 1 (.execute .initial "echo  hi") 0 (.ok 2) 43 :=
  (begins_run rfl (by decide +kernel)).returns_of_left (d := 42) (Option.isNone_iff_eq_none.1 (by decide +kernel))
    (by decide +kernel)

/-- After 41 turns the child is in user mode. -/
theorem acts : ∃ start program, echoing.Acts turns 2 start program 41 := by
  have personal : (ThreadProgram.request? (echoing.programAt turns 41 2)).any (·.isPersonal) = true := by
    decide +kernel
  obtain ⟨r, makes, personal⟩ := (Option.any_eq_true ..).1 personal
  obtain ⟨next, here⟩ := ThreadProgram.request?_eq_some makes
  exact acts_of_isPersonal here personal

end echoing

/-- Spaces between words do not count. The line is executed, its program is loaded, and in user mode that finds
    both words. -/
theorem hands_over_echo : echoing.HandsOver echoing.turns "echo  hi" "echo  hi" ["echo", "hi"] ∧
    ∃ k start program j context s, echoing.Bears echoing.turns 1 .initial "echo  hi" 0 k start 2 ∧
      echoing.Started echoing.turns 2 start k (.ok program) j ∧
      echoing.programAt echoing.turns j 2 = (echoing.code start "echo" context).program echoing.kernel ∧
      ((echoing.machineAt echoing.turns j).thread 2).own.space? = some s ∧
      s.HasArguments (echoing.machineAt echoing.turns j).devices.pool (.ofWord context.esp) ["echo", "hi"] := by
  obtain ⟨c, ws, cut, words, hands⟩ := hands_over echoing echoing.turns "echo  hi" (by decide) (by decide)
  obtain rfl : c = "echo  hi" := cut.unique ⟨List.prefix_rfl, by decide, fun _ starts _ => starts⟩
  obtain rfl : ws = ["echo", "hi"] := by
    refine List.map_injective_iff.2 (fun _ _ => String.toList_inj.1) (words.eq_split.trans ?_)
    decide
  obtain ⟨⟨⟩, -⟩ | ⟨k, start, u, result, j, bears, -, -, -, same⟩ := echoing.started.gives.outcome
  obtain ⟨start', program, k', t', j', makes, entered, -⟩ := echoing.acts
  obtain rfl : u = 2 := by
    cases result with
    | error e => cases same
    | ok program => exact (Except.ok.inj same).symm
  obtain ⟨rfl, rfl, rfl⟩ := bears.makes.unique makes
  obtain ⟨-, -, -, name, context, s, named, here, mapped, has⟩ :=
    hands.enters 1 .initial 0 k start 2 bears program j' entered
  obtain ⟨w, first, nameCut⟩ := named
  obtain rfl := Option.some.inj first
  obtain rfl : name = "echo" := nameCut.unique ⟨List.prefix_rfl, by decide, fun _ starts _ => starts⟩
  exact ⟨hands, k, start, program, j', context, s, bears, entered, here, mapped, has⟩

end Scenario

end Userland

import Userland.Proofs.Lives
import Userland.Proofs.Parents
import Userland.Proofs.Refusals

/-!
# Lines on the console

A line is shown in three cases: a program writes to the display, a process whose program was loaded exits,
or a program cannot be loaded. An exit shows one line, with the name of the process and its exit status,
and it does so before it tells the status; so the line is there before a wait for the process gives that
status. A failed load shows one line, if its reason has a text, before it tells that it has failed
(`Scenario.reports_exits`).
-/

namespace Userland

open ThreadProgram
open Program (Only)

-- Which words a line has does not matter for what is done with them.
attribute [local irreducible] Words.ofString

/-- A buffer is shown. -/
def Action.Shows (a : Action) : Prop := ∃ buffer, a = .device (.put buffer)

theorem Action.Final.not_shows {exits : Option Int32} {a : Action} (final : a.Final exits) : ¬a.Shows := by
  rintro ⟨buffer, rfl⟩
  cases final

theorem Action.not_shows_of_announces {a : Action} (announces : a.announces = true) : ¬a.Shows := by
  rintro ⟨buffer, rfl⟩
  cases announces

/-- If the action shows a buffer, that is so of the buffer. -/
def Action.ShowsOnly (so : Bytes → Prop) (a : Action) : Prop := ∀ buffer, a = .device (.put buffer) → so buffer

/-- A program that shows nothing. -/
abbrev ThreadProgram.Silent {α : Type} (p : ThreadProgram α) : Prop :=
  p.Only (fun a : Action => ¬a.Shows) fun _ => True

theorem ThreadProgram.Silent.showsOnly {α : Type} {p : ThreadProgram α} (silent : p.Silent)
    (so : Bytes → Prop) : p.Only (Action.ShowsOnly so) fun _ => True :=
  silent.mono (fun _ silent buffer same => absurd ⟨buffer, same⟩ silent) fun _ => id

/-! ## Exits -/

namespace Kernel

open DeviceRequest

variable {α : Type} {start : NewProcess} {status : Int32} {p : Process}
  {first : Option Process → ThreadProgram α}

/-- What is shown when a child exits. -/
def exitShown (start : NewProcess) (status : Int32) : Bytes :=
  Bytes.ofString (exitLine (Utf8.truncate (programName start) maxNameLength) status ++ "\n")

/-- What is shown when the program of a child cannot be loaded for a reason. -/
def loadShown (start : NewProcess) (text : String) : Bytes :=
  Bytes.ofString (loadLine (programName start) text ++ "\n")

theorem silent_leaving : (leaving p status : ThreadProgram α).Silent := by
  refine only_leaving (fun h => ?_) fun a final => final.not_shows
  rintro ⟨buffer, ⟨⟩⟩

theorem not_shows_setExitStatus : ¬(Action.device (setExitStatus status)).Shows := by
  rintro ⟨buffer, ⟨⟩⟩

/-- An exit shows one buffer at most. -/
theorem once_exit : (exitProcess status : ThreadProgram α).Once Action.Shows := by
  obtain ⟨first, opens⟩ : ∃ first, (exitProcess status : ThreadProgram α) =
    Program.ask (Action.device process) first := ⟨_, rfl⟩
  rw [opens]
  refine fun hosted => ⟨fun shows => ?_, ?_⟩
  · obtain ⟨buffer, ⟨⟩⟩ := shows
  cases hosted with
  | none =>
    rw [exitProcess_none opens]
    have vanishes : (vanishing : ThreadProgram α).Only (Action.Final (some status)) fun _ => True :=
      finishes_vanishing
    exact .of_only (vanishes.mono (fun _ => Action.Final.not_shows) fun _ => id)
  | some p =>
    rw [exitProcess_some opens]
    refine fun _ => ⟨fun shows => absurd shows not_shows_setExitStatus, ?_⟩
    split
    · exact fun _ => ⟨fun _ => silent_leaving, .of_only silent_leaving⟩
    · exact .of_only silent_leaving

/-- It shows the line of the process, if its program has been running. -/
theorem shows_exit (opens : exitProcess status = Program.ask (Action.device process) first) :
    (first (some p)).Only (Action.ShowsOnly fun buffer =>
      p.state = .running ∧ buffer = Bytes.ofString (exitLine p.name status ++ "\n")) fun _ => True := by
  rw [exitProcess_some opens]
  refine ⟨nofun, fun _ => ?_⟩
  split
  · next running =>
    refine ⟨fun buffer same => ⟨running, ?_⟩, fun _ => silent_leaving.showsOnly _⟩
    cases same
    rfl
  · exact silent_leaving.showsOnly _

/-- Then it shows the line before it takes the process apart. -/
theorem before_exit (opens : exitProcess status = Program.ask (Action.device process) first)
    (running : p.state = .running) :
    (first (some p)).Before Action.Shows (Action.Final (some status)) fun _ => True := by
  rw [exitProcess_some opens, if_pos running]
  exact ⟨Bool.false_ne_true, .inr fun _ => ⟨Bool.false_ne_true, .inl ⟨_, rfl⟩⟩⟩

/-! ## Loads -/

/-- The child tells that no program was loaded. -/
abbrev refusing (start : NewProcess) : ThreadProgram Unit := discard (send start.loaded (.loaded false))

theorem announcing_some {e : LoadError} {text : String} (has : e.diagnostic? = some text) :
    announcing start (.error e) = Program.ask (Action.device (put (loadShown start text))) fun _ =>
      refusing start := by
  simp only [announcing, has]
  rfl

theorem announcing_none {e : LoadError} (has : e.diagnostic? = none) :
    announcing start (.error e) = refusing start := by
  simp only [announcing, has]

theorem silent_refusing : (refusing start).Silent :=
  announces_send.mono (fun _ => Action.not_shows_of_announces) fun _ => id

theorem silent_ok (program : LoadedProgram) : (announcing start (.ok program)).Silent :=
  (announces_ok program).mono (fun _ => Action.not_shows_of_announces) fun _ => id

/-- A load that has come to a result shows one buffer at most. -/
theorem once_announcing (result : Except LoadError LoadedProgram) :
    (announcing start result).Once Action.Shows := by
  cases result with
  | ok program => exact .of_only (silent_ok program)
  | error e =>
    cases has : e.diagnostic? with
    | none =>
      rw [announcing_none has]
      exact .of_only silent_refusing
    | some text =>
      rw [announcing_some has]
      exact fun _ => ⟨fun _ => silent_refusing, .of_only silent_refusing⟩

/-- It shows why no program was loaded, if there is a text for that. -/
theorem shows_announcing (result : Except LoadError LoadedProgram) :
    (announcing start result).Only (Action.ShowsOnly fun buffer => ∃ e text,
      result = .error e ∧ e.diagnostic? = some text ∧ buffer = loadShown start text) fun _ => True := by
  cases result with
  | ok program => exact (silent_ok program).showsOnly _
  | error e =>
    cases has : e.diagnostic? with
    | none =>
      rw [announcing_none has]
      exact silent_refusing.showsOnly _
    | some text =>
      rw [announcing_some has]
      refine ⟨fun buffer same => ⟨e, text, rfl, has, ?_⟩, fun _ => silent_refusing.showsOnly _⟩
      cases same
      rfl

/-- Then it shows that before it tells that it has failed. -/
theorem before_announcing {e : LoadError} {text : String} (has : e.diagnostic? = some text) :
    (announcing start (.error e)).Before Action.Shows (fun a => ∃ c value, a = .settle c value) fun _ => False := by
  rw [announcing_some has]
  exact ⟨nofun, .inl ⟨_, rfl⟩⟩

end Kernel

namespace Scenario

variable {x : Scenario} {turns : ℕ → Turn} {i j k b d : ℕ} {t u : Tid} {start : NewProcess} {status : Int32}

/-! ## What is shown in a start -/

/-- What a child that starts does, if it is not loading, it does to announce what its load has come to. -/
theorem announcing_of_left {a : Action} {first : a.Answer → ThreadProgram (Except LoadError LoadedProgram)}
    (left : x.leftAt turns u (x.kernel.starting start) b d = Program.ask a first) (other : a.loads = false) :
    ∃ result e g first', d = e + g ∧ x.leftAt turns u (x.kernel.loading start) b e = Program.pure result ∧
      (∀ e' < e, ∀ r, x.leftAt turns u (x.kernel.loading start) b e' ≠ Program.pure r) ∧
      x.leftAt turns u (Kernel.announcing start result) (b + e) g = Program.ask a first' := by
  rcases leftAt_bind_ask left with ⟨first', loading⟩ | ⟨e, result, g, sum, over', since, left⟩
  · have only := @only_leftAt x turns b u _ _ _ _ (@Kernel.loads_loading x.kernel start) d
    rw [loading] at only
    cases other.symm.trans only.1
  · rcases leftAt_bind_ask left with ⟨first', announcing⟩ | ⟨e', r, g', -, -, -, done⟩
    · exact ⟨result, e, g, first', sum, over', since, announcing⟩
    · cases done.symm.trans (leftAt_of_pure (Nat.zero_le g') rfl)

/-- What a child shows while it starts tells why its program cannot be loaded. -/
theorem shows_of_starting {buffer : Bytes} {first : Unit → ThreadProgram (Except LoadError LoadedProgram)}
    (left : x.leftAt turns u (x.kernel.starting start) (k + 1) d =
      Program.ask (Action.device (.put buffer)) first) :
    ∃ e text, x.LoadGives turns u start k (.error e) (k + 1 + d) ∧ e.diagnostic? = some text ∧
      buffer = Kernel.loadShown start text := by
  obtain ⟨result, e, g, first', rfl, over', -, left⟩ := announcing_of_left left rfl
  have only := @only_leftAt x turns (k + 1 + e) u _ _ _ _ (@Kernel.shows_announcing start result) g
  rw [left] at only
  obtain ⟨e', text, rfl, has, same⟩ := only.1 buffer rfl
  exact ⟨e', text, ⟨e + g, rfl, leftAt_of_pure (Nat.le_add_right e g) over'⟩, has, same⟩

/-! ## What is shown in an exit -/

/-- A process that exits finds itself first. -/
theorem Begins.finds (begins : x.Begins turns b t (.exit status)) {first : Option Process → ThreadProgram Empty}
    (opens : (Kernel.exitProcess status : ThreadProgram Empty) = Program.ask (Action.device .process) first) :
    x.leftAt turns t (Kernel.exitProcess status : ThreadProgram Empty) b (d + 1) =
      x.leftAt turns t (first (x.standingAt turns b t).own.process) (b + 1) d := by
  have told : x.toldAt turns b t (.device .process) = some (x.standingAt turns b t).own.process :=
    (begins.1.told _).trans rfl
  rw [leftAt_succ, opens]
  change x.leftAt turns t ((x.toldAt turns b t (.device .process)).elim _ _) (b + 1) d = _
  rw [told]
  rfl

/-- What a process does in its exit after that. -/
theorem Begins.left_of_exit (begins : x.Begins turns b t (.exit status)) {p : Process}
    (hosts : (x.standingAt turns b t).own.process = some p) {a : Action} {first : a.Answer → ThreadProgram Empty}
    (left : x.leftAt turns t (Kernel.exitProcess status : ThreadProgram Empty) b d = Program.ask a first)
    (other : a ≠ .device .process) : ∃ rest e, d = e + 1 ∧
      (Kernel.exitProcess status : ThreadProgram Empty) = Program.ask (Action.device .process) rest ∧
      x.leftAt turns t (rest (some p)) (b + 1) e = Program.ask a first := by
  obtain ⟨rest, opens⟩ : ∃ rest, (Kernel.exitProcess status : ThreadProgram Empty) =
    Program.ask (Action.device .process) rest := ⟨_, rfl⟩
  cases d with
  | zero => exact absurd (Program.ask.inj (left.symm.trans opens)).1 other
  | succ e => exact ⟨rest, e, rfl, opens, by rw [← hosts, ← begins.finds opens, left]⟩

/-- What a process shows in its exit tells its exit status, and its program was loaded. -/
theorem shows_of_exiting {result : Except LoadError LoadedProgram} {buffer : Bytes}
    {first : Unit → ThreadProgram Empty} (begins : x.Begins turns b u (.exit status))
    (hosts : (x.standingAt turns b u).Hosts start result)
    (left : x.leftAt turns u (Kernel.exitProcess status : ThreadProgram Empty) b d =
      Program.ask (Action.device (.put buffer)) first) :
    0 < d ∧ (∃ program, result = .ok program) ∧ buffer = Kernel.exitShown start status := by
  obtain ⟨p, hosted, name, state⟩ : ∃ p, (x.standingAt turns b u).own.process = some p ∧
      p.name = Utf8.truncate (Kernel.programName start) maxNameLength ∧
      (p.state = .running → ∃ program, result = .ok program) := by
    cases result with
    | ok program =>
      obtain ⟨space, core⟩ := hosts
      obtain ⟨p, hosted, same⟩ := Option.map_eq_some_iff.1 core
      exact ⟨p, hosted, congrArg Process.Core.name same, fun _ => ⟨program, rfl⟩⟩
    | error e =>
      obtain ⟨p, hosted, same⟩ := Option.map_eq_some_iff.1 hosts
      refine ⟨p, hosted, congrArg Process.Core.name same, fun running => ?_⟩
      cases running.symm.trans (congrArg Process.Core.state same)
  obtain ⟨rest, e, rfl, opens, left⟩ := begins.left_of_exit hosted left nofun
  have only := @only_leftAt x turns (b + 1) u _ _ _ _ (Kernel.shows_exit opens (p := p)) e
  rw [left] at only
  obtain ⟨running, same⟩ := only.1 buffer rfl
  exact ⟨Nat.succ_pos e, state running, by rw [same, name, Kernel.exitShown]⟩

/-- Whatever is shown is the line of an exit, or tells why a program cannot be loaded, or was written by a
    program to the display. -/
theorem Does.shows {buffer : Bytes} (does : x.Does turns i t (.device (.put buffer)) ()) :
    (∃ k t' start program j b status, x.Makes turns k t' start t ∧ x.LoadGives turns t start k (.ok program) j ∧
      j ≤ b ∧ b < i ∧ x.Begins turns b t (.exit status) ∧ buffer = Kernel.exitShown start status) ∨
    (∃ k t' start e text, x.Makes turns k t' start t ∧ x.LoadGives turns t start k (.error e) i ∧
      e.diagnostic? = some text ∧ buffer = Kernel.loadShown start text) ∨
    ∃ k t' start program address size code, x.Makes turns k t' start t ∧
      x.LoadGives turns t start k (.ok program) i ∧ x.Serves turns i t (.write 1 address size) code ∧
      x.programAt turns (i + 1) t = (code (Int32.ofNat buffer.length).toUInt32).program x.kernel := by
  obtain ⟨k, -, t', start, makes, deed⟩ := does.deed rfl
  cases deed with
  | starting d first now left =>
    subst now
    obtain ⟨e, text, load, has, same⟩ := shows_of_starting left
    exact .inr (.inl ⟨k, t', start, e, text, makes, load, has, same⟩)
  | acting program j current next started le conduct here serves =>
    refine .inr (.inr ?_)
    cases conduct with
    | ordinary plain => cases plain
    | @put fd address size code _ _ named same =>
      obtain rfl : fd = 1 := Int32.toInt_inj.1 (Descriptor.ofInt?_eq_some.1 named)
      exact ⟨k, t', start, program, address, size, code, makes, started.loadGives.mono le, serves _ _ rfl,
        (does.next here).trans same⟩
  | exiting result j b d status first started le now begins left killed hosts =>
    subst now
    obtain ⟨after, ⟨program, rfl⟩, same⟩ := shows_of_exiting begins hosts left
    exact .inl ⟨k, t', start, program, j, b, status, makes, started.loadGives, le,
      Nat.lt_add_of_pos_right after, begins, same⟩

/-! ## The order of what is done -/

/-- A process whose program was loaded has shown its line before it takes itself apart. -/
theorem shown_of_final {program : LoadedProgram} (begins : x.Begins turns b u (.exit status))
    (hosts : (x.standingAt turns b u).Hosts start (.ok program)) {a : Action}
    {first : a.Answer → ThreadProgram Empty} {next : a.Answer → ThreadProgram Unit}
    (left : x.leftAt turns u (Kernel.exitProcess status : ThreadProgram Empty) b d = Program.ask a first)
    (here : x.programAt turns (b + d) u = Program.ask a next) (final : a.Final (some status)) :
    ∃ m, b < m ∧ m < b + d ∧ x.Does turns m u (.device (.put (Kernel.exitShown start status))) () := by
  obtain ⟨space, core⟩ := id hosts
  obtain ⟨p, hosted, same⟩ := Option.map_eq_some_iff.1 core
  obtain ⟨rest, e, rfl, opens, rested⟩ := begins.left_of_exit hosted left fun same => by
    subst same
    cases final
  obtain ⟨e', early, a', first', answer, ⟨buffer, rfl⟩, left', told⟩ := done_before_ask
    (Kernel.before_exit opens (congrArg Process.Core.state same)) rested final
  rw [← hosted, ← begins.finds opens] at left'
  rw [Nat.add_assoc, Nat.add_comm 1 e'] at told
  obtain ⟨-, -, same⟩ := shows_of_exiting begins hosts left'
  subst same
  obtain ⟨-, -, -, rest', began, -⟩ := begins.composed
  have le : b + (e' + 1) ≤ b + (e + 1) := Nat.add_le_add_left (Nat.succ_le_succ (Nat.le_of_lt early)) b
  refine ⟨b + (e' + 1), by omega, by omega, does_of_left began begins.inside (KernelCall.remains ..)
    left' told le ?_⟩
  rw [here]
  nofun

/-- A thread that exits ends in its exit. -/
theorem Begins.ends (begins : x.Begins turns b u (.exit status)) (le : b ≤ i)
    (gone : x.programAt turns i u = Program.pure ()) : ∃ d first next, b + d < i ∧
      x.leftAt turns u (Kernel.exitProcess status : ThreadProgram Empty) b d =
        Program.ask Action.endThread first ∧
      x.programAt turns (b + d) u = Program.ask Action.endThread next := by
  induction le with
  | refl =>
    obtain ⟨first, next, opens, here⟩ := begins.2
    cases here.symm.trans gone
  | @step i le ih =>
    obtain ⟨d, rfl⟩ := Nat.exists_eq_add_of_le le
    have within : x.Within turns (.exit status) b (b + d) u := ⟨begins, d, rfl, nofun⟩
    obtain ⟨d', rest, same, here | ⟨over', -⟩, ongoing, -⟩ := within.programAt
    swap
    · obtain ⟨d, first, next, before, ends⟩ := ih over'
      exact ⟨d, first, next, Nat.lt_succ_of_lt before, ends⟩
    obtain rfl := Nat.add_left_cancel same
    rcases programAt_succ (Nat.lt_of_lt_of_le begins.inside (x.size_le turns le)) with
      step | ⟨a, next, here', leaves, -⟩
    · -- An answer leaves something to do, for an exit never returns.
      rw [here, Program.advance_bind ongoing, gone] at step
      exact absurd step.symm (Program.bind_ne_pure (fun never => never.elim) rest ())
    · obtain ⟨first, left, -⟩ := Program.asks_of_bind ongoing (here.symm.trans here')
      have remains := @only_leftAt x turns b u _ _ _ _ (KernelCall.remains x.kernel (.exit status)) d
      rw [left] at remains
      obtain rfl := remains.1.resolve_right (Bool.eq_false_iff.1 leaves)
      exact ⟨d, first, next, Nat.lt_succ_self _, left, here'⟩

/-- A thread that was made for a process and has ended has begun to exit. -/
theorem Makes.exits_of_ended (makes : x.Makes turns k t start u) (later : k < i)
    (ended : ((x.machineAt turns i).thread u).status = .ended) : ∃ result j b status,
      x.Started turns u start k result j ∧ b < i ∧ x.Begins turns b u (.exit status) ∧
        (x.standingAt turns b u).Hosts start result := by
  have gone : x.programAt turns i u = Program.pure () := (x.sound turns i).ended u ended
  cases makes.life later with
  | starting d now ongoing here =>
    exact absurd (here.symm.trans gone) (Program.bind_ne_pure ongoing _ _)
  | failing e j started le here hosts => cases here.symm.trans gone
  | acting program j current started le conduct serves hosts =>
    rw [gone] at conduct
    generalize over' : (Program.pure () : ThreadProgram Unit) = p at conduct
    cases conduct with
    | exit status => cases over'
    | _ => cases over'
  | exiting result j b status started le before begins here killed hosts =>
    exact ⟨result, j, b, status, started, before, begins, hosts⟩

/-- A process whose program was loaded, and that has ended, has shown its line. -/
theorem Makes.shown_of_ended (makes : x.Makes turns k t start u) {program : LoadedProgram}
    (load : x.LoadGives turns u start k (.ok program) j) (later : k < i)
    (ended : ((x.machineAt turns i).thread u).status = .ended) : ∃ b m status,
      x.Begins turns b u (.exit status) ∧ b < m ∧ m < i ∧
        x.Does turns m u (.device (.put (Kernel.exitShown start status))) () := by
  obtain ⟨result, j', b, status, started, before, begins, hosts⟩ := makes.exits_of_ended later ended
  obtain rfl := started.loadGives.unique load
  have gone : x.programAt turns i u = Program.pure () := (x.sound turns i).ended u ended
  obtain ⟨d, first, next, early, left, there⟩ := begins.ends (Nat.le_of_lt before) gone
  obtain ⟨m, after, before', shows⟩ := shown_of_final begins hosts left there rfl
  exact ⟨b, m, status, begins, after, Nat.lt_trans before' early, shows⟩

/-- Before a wait gives the status with which a child exits, the child has shown its line. -/
theorem FirstWait.shown {family : Family} {r : Int32} (first : x.FirstWait turns family u b t)
    (gives : x.Gives turns t (.wait family u.toPid) b r i) : ∃ k t' start e m, x.Makes turns k t' start u ∧
      x.Begins turns e u (.exit r) ∧ e < m ∧ m < i ∧
        x.Does turns m u (.device (.put (Kernel.exitShown start r))) () := by
  -- The status that the wait gives was received, and so it was sent.
  have number := Tid.toInt_toPid (first.1.small first.2)
  obtain ⟨n, before, exit, receives, born⟩ :=
    receives_of_wait gives ((first.2.records family u).2 first.1) number.symm
  obtain ⟨status, same, n', before', waiter, sends⟩ := status_of_receive receives born
  obtain rfl := Signal.status.inj (Option.some.inj same)
  obtain ⟨k, -, t', start, makes, deed⟩ := sends.deed rfl
  cases deed with
  | starting d first now left =>
    rcases starts_of_left left with loads | announces | ⟨text, shows⟩
    · cases loads
    · cases announces
    · cases shows
  | acting program j current next started le conduct =>
    cases conduct with
    | ordinary plain => cases plain
  | exiting result j e d status first' started le now begins left killed hosts =>
    subst now
    obtain rfl : status = r := by
      rcases exits_of_left left with same | same | ⟨name, same⟩ | ⟨h, same⟩ | final
      · cases same
      · cases same
      · cases same
      · cases same
      · exact Option.some.inj final
    -- The child had loaded its program, for it was started with success.
    obtain ⟨line, b', started', -⟩ := first.1
    obtain ⟨program, rfl⟩ : ∃ program, result = .ok program := by
      rcases started'.outcome with ⟨same, -⟩ | ⟨k', start', u', result', j', bears, -, -, load, same⟩
      · cases same
      · cases result' with
        | error e => cases same
        | ok program =>
          obtain rfl := Except.ok.inj same
          obtain ⟨rfl, rfl, rfl⟩ := makes.unique bears.makes
          exact ⟨program, started.loadGives.unique load⟩
    obtain ⟨next, there⟩ := sends.1
    obtain ⟨m, after, early, shows⟩ := shown_of_final begins hosts left there rfl
    exact ⟨k, t', start, e, m, makes, begins, after, by omega, shows⟩

/-- A process shows one line in its exit at most. -/
theorem Begins.shows_once {m n : ℕ} {buffer buffer' : Bytes} (begins : x.Begins turns b u (.exit status))
    (le : b ≤ m) (le' : b ≤ n) (does : x.Does turns m u (.device (.put buffer)) ())
    (does' : x.Does turns n u (.device (.put buffer')) ()) : m = n := by
  obtain ⟨d, rfl⟩ := Nat.exists_eq_add_of_le le
  obtain ⟨e, rfl⟩ := Nat.exists_eq_add_of_le le'
  obtain ⟨⟨next, here⟩, told⟩ := does
  obtain ⟨⟨next', here'⟩, told'⟩ := does'
  obtain ⟨first, left⟩ := begins.exiting here
  obtain ⟨first', left'⟩ := begins.exiting here'
  rw [done_once Kernel.once_exit left told ⟨buffer, rfl⟩ left' told' ⟨buffer', rfl⟩]

/-- A process whose program could not be loaded shows nothing but why. -/
theorem Makes.shows_of_failed (makes : x.Makes turns k t start u) {e : LoadError} {buffer : Bytes}
    (load : x.LoadGives turns u start k (.error e) j)
    (does : x.Does turns i u (.device (.put buffer)) ()) :
    ∃ text, e.diagnostic? = some text ∧ buffer = Kernel.loadShown start text := by
  rcases does.shows with ⟨k', t', start', program, j', b, status, makes', load', -⟩ |
    ⟨k', t', start', e', text, makes', load', has, same⟩ |
    ⟨k', t', start', program, address, size, code, makes', load', -⟩
  · obtain ⟨rfl, rfl, rfl⟩ := makes.unique makes'
    cases load.unique load'
  · obtain ⟨rfl, rfl, rfl⟩ := makes.unique makes'
    obtain rfl := Except.error.inj (load.unique load')
    exact ⟨text, has, same⟩
  · obtain ⟨rfl, rfl, rfl⟩ := makes.unique makes'
    cases load.unique load'

/-- When a load has come to a result, the child announces that. -/
theorem Makes.announces (makes : x.Makes turns k t start u) {result : Except LoadError LoadedProgram}
    (over' : x.leftAt turns u (x.kernel.loading start) (k + 1) d = Program.pure result)
    (since : ∀ e < d, ∀ r, x.leftAt turns u (x.kernel.loading start) (k + 1) e ≠ Program.pure r) :
    x.programAt turns (k + 1 + d) u = Kernel.announcing start result >>= fun _ => x.proceeds start result := by
  have parts : x.kernel.starting start >>= x.proceeds start = x.kernel.loading start >>= fun result =>
      Kernel.announcing start result >>= fun _ => x.proceeds start result := by
    rw [Kernel.starting, bind_assoc]
    refine congrArg _ (funext fun result => ?_)
    rw [bind_assoc]
    rfl
  have here := programAt_of_remains (makes.starts.trans parts) (makes.inside (Nat.lt_succ_self k))
    Kernel.remains_loading since
  rw [here, over']
  rfl

/-- What a process shows whose program could not be loaded, it shows when its load is over. -/
theorem Makes.shows_then (makes : x.Makes turns k t start u) {e : LoadError} {buffer : Bytes}
    (load : x.LoadGives turns u start k (.error e) j)
    (does : x.Does turns i u (.device (.put buffer)) ()) : ∃ d g first, i = k + 1 + d + g ∧
      x.leftAt turns u (x.kernel.loading start) (k + 1) d = Program.pure (.error e) ∧
      (∀ d' < d, ∀ r, x.leftAt turns u (x.kernel.loading start) (k + 1) d' ≠ Program.pure r) ∧
      x.leftAt turns u (Kernel.announcing start (.error e)) (k + 1 + d) g =
        Program.ask (Action.device (.put buffer)) first := by
  obtain ⟨k', -, t', start', makes', deed⟩ := does.deed rfl
  obtain ⟨rfl, rfl, rfl⟩ := makes.unique makes'
  cases deed with
  | starting d first now left =>
    subst now
    obtain ⟨result, d, g, first', rfl, over', since, left⟩ := announcing_of_left left rfl
    obtain rfl : result = .error e :=
      LoadGives.unique ⟨d, rfl, over'⟩ load
    exact ⟨d, g, first', (Nat.add_assoc ..).symm, over', since, left⟩
  | acting program j' current next started => cases started.loadGives.unique load
  | exiting result j' b d status first started le now begins left killed hosts =>
    obtain ⟨-, ⟨program, rfl⟩, -⟩ := shows_of_exiting begins hosts left
    cases started.loadGives.unique load

/-- It shows one line at most. -/
theorem Makes.shows_once (makes : x.Makes turns k t start u) {e : LoadError} {m n : ℕ} {buffer buffer' : Bytes}
    (load : x.LoadGives turns u start k (.error e) j) (does : x.Does turns m u (.device (.put buffer)) ())
    (does' : x.Does turns n u (.device (.put buffer')) ()) : m = n := by
  obtain ⟨d, g, first, rfl, over', since, left⟩ := makes.shows_then load does
  obtain ⟨d', g', first', rfl, over'', since', left'⟩ := makes.shows_then load does'
  obtain rfl : d = d' := by
    rcases Nat.lt_trichotomy d d' with earlier | same | later
    · exact absurd over' (since' d earlier _)
    · exact same
    · exact absurd over'' (since d' later _)
  rw [done_once (Kernel.once_announcing _) left does.2 ⟨buffer, rfl⟩ left' does'.2 ⟨buffer', rfl⟩]

/-- Before a thread learns that a child could not load its program, the child has shown why. -/
theorem Bears.shown {family : Family} {line text : String} {e : LoadError} {r : Except ExecError Tid}
    (bears : x.Bears turns t family line b k start u) (load : x.LoadGives turns u start k (.error e) j)
    (has : e.diagnostic? = some text) (gives : x.Gives turns t (.execute family line) b r i) :
    ∃ m, k < m ∧ m < i ∧ x.Does turns m u (.device (.put (Kernel.loadShown start text))) () := by
  -- What the thread learns was sent by the child.
  have makes := bears.makes
  obtain ⟨name', priority', does'⟩ := id makes
  obtain ⟨k', name, priority, start', made, within, -, does, -, -, started⟩ := gives.steps
  obtain ⟨rfl, rfl, rfl⟩ := within.spawns_once bears.within does does'
  obtain ⟨n, answer, after, early, receives, -⟩ := started u rfl
  obtain ⟨result, rfl, load'⟩ := makes.loadGives_of_receive after receives
  obtain ⟨n', before, waiter, sends⟩ := sends_of_receive receives (makes.sources after)
  obtain ⟨k'', -, t'', start'', makes', deed⟩ := sends.deed rfl
  obtain ⟨rfl, rfl, rfl⟩ := makes.unique makes'
  cases deed with
  | starting d first now left =>
    subst now
    obtain ⟨result', d, g, first', rfl, over', since, left⟩ := announcing_of_left left rfl
    obtain rfl : result' = .error e := LoadGives.unique ⟨d, rfl, over'⟩ load
    obtain ⟨g', sooner, a, first'', answer, ⟨buffer, rfl⟩, left', told⟩ :=
      done_before_ask (Kernel.before_announcing has) left ⟨_, _, rfl⟩
    obtain ⟨next, there⟩ := sends.1
    have shows := does_of_left (makes.announces over' since) (makes.inside (by omega))
      (Kernel.remains_announcing.mono (fun _ => .inr) fun _ => id) left' told
      (by omega : k' + 1 + d + g' ≤ k' + 1 + (d + g)) (by rw [there]; nofun)
    obtain ⟨text', has', rfl⟩ := makes.shows_of_failed load shows
    obtain rfl := Option.some.inj (has.symm.trans has')
    exact ⟨_, by omega, by omega, shows⟩
  | acting program j' current next started le conduct =>
    cases conduct with
    | ordinary plain => cases plain
  | exiting result' j' b' d status first started le now begins left =>
    rcases exits_of_left left with same | same | ⟨_, same⟩ | ⟨h, same⟩ | final
    · cases same
    · cases same
    · cases same
    · cases same
    · cases final

/-! ## Reports -/

/-- What is shown in a run of exits and of failed loads, and when. -/
structure ReportsExits (x : Scenario) (turns : ℕ → Turn) : Prop where
  /-- Nothing else is shown than the lines of exits, why programs could not be loaded, and what a program
      writes to the display: then it gets the number of bytes that are shown. -/
  shows : ∀ i t buffer, x.Does turns i t (.device (.put buffer)) () →
    (∃ k t' start program j b status, x.Makes turns k t' start t ∧
      x.LoadGives turns t start k (.ok program) j ∧ j ≤ b ∧ b < i ∧ x.Begins turns b t (.exit status) ∧
      buffer = Kernel.exitShown start status) ∨
    (∃ k t' start e text, x.Makes turns k t' start t ∧ x.LoadGives turns t start k (.error e) i ∧
      e.diagnostic? = some text ∧ buffer = Kernel.loadShown start text) ∨
    ∃ k t' start program address size code, x.Makes turns k t' start t ∧
      x.LoadGives turns t start k (.ok program) i ∧ x.Serves turns i t (.write 1 address size) code ∧
      x.programAt turns (i + 1) t = (code (Int32.ofNat buffer.length).toUInt32).program x.kernel
  /-- A process that has loaded its program, and has ended, has shown its line in its exit. -/
  ended : ∀ k t start u program j i, x.Makes turns k t start u → x.LoadGives turns u start k (.ok program) j →
    k < i → ((x.machineAt turns i).thread u).status = .ended → ∃ b m status,
      x.Begins turns b u (.exit status) ∧ b < m ∧ m < i ∧
        x.Does turns m u (.device (.put (Kernel.exitShown start status))) ()
  /-- In its exit a process shows one buffer at most. -/
  once : ∀ b u status m n buffer buffer', x.Begins turns b u (.exit status) → b ≤ m → b ≤ n →
    x.Does turns m u (.device (.put buffer)) () → x.Does turns n u (.device (.put buffer')) () → m = n
  /-- The status in the line is that which the first wait for the process gives, and the line is shown
      before. -/
  awaited : ∀ t family u b r i, x.FirstWait turns family u b t →
    x.Gives turns t (.wait family u.toPid) b r i → ∃ k t' start e m, x.Makes turns k t' start u ∧
      x.Begins turns e u (.exit r) ∧ e < m ∧ m < i ∧
        x.Does turns m u (.device (.put (Kernel.exitShown start r))) ()
  /-- So it is shown before the thread begins another call, as another wait for the process. -/
  later : ∀ t family u b c i, x.FirstWait turns family u b t → b < i → x.Begins turns i t c →
    ∃ k t' start e m status, x.Makes turns k t' start u ∧ x.Begins turns e u (.exit status) ∧ e < m ∧ m < i ∧
      x.Does turns m u (.device (.put (Kernel.exitShown start status))) ()
  /-- A process that cannot load its program shows nothing but why, if there is a text for that. -/
  failed : ∀ k t start u e j i buffer, x.Makes turns k t start u →
    x.LoadGives turns u start k (.error e) j → x.Does turns i u (.device (.put buffer)) () →
    ∃ text, e.diagnostic? = some text ∧ buffer = Kernel.loadShown start text
  /-- It shows that once at most. -/
  failedOnce : ∀ k t start u e j m n buffer buffer', x.Makes turns k t start u →
    x.LoadGives turns u start k (.error e) j → x.Does turns m u (.device (.put buffer)) () →
    x.Does turns n u (.device (.put buffer')) () → m = n
  /-- It has shown it before the thread that starts it learns of the failure. -/
  told : ∀ t family line b k start u e text j r i, x.Bears turns t family line b k start u →
    x.LoadGives turns u start k (.error e) j → e.diagnostic? = some text →
    x.Gives turns t (.execute family line) b r i →
    ∃ m, k < m ∧ m < i ∧ x.Does turns m u (.device (.put (Kernel.loadShown start text))) ()
  /-- There is a text if the executable cannot be opened, or has a bad header. -/
  diagnostics : ∀ e : LoadError,
    e.diagnostic?.isSome = true ↔ e = .openFailed ∨ ∃ reason, e = .badHeader reason

/-- Processes report their exits, and why their programs cannot be loaded. -/
theorem reports_exits (x : Scenario) (turns : ℕ → Turn) : x.ReportsExits turns where
  shows _ _ _ does := does.shows
  ended _ _ _ _ _ _ _ makes load after ended := makes.shown_of_ended load after ended
  once _ _ _ _ _ _ _ begins le le' does does' := begins.shows_once le le' does does'
  awaited _ _ _ _ _ _ first gives := first.shown gives
  later t family u b c i first before begins := by
    rcases within_or_gives first.2 (Nat.le_of_lt before) with within | ⟨r, gives⟩
    · exact absurd begins (within.not_begins before c)
    · obtain ⟨k, t', start, e, m, shown⟩ := first.shown gives
      exact ⟨k, t', start, e, m, r, shown⟩
  failed _ _ _ _ _ _ _ _ makes load does := makes.shows_of_failed load does
  failedOnce _ _ _ _ _ _ _ _ _ _ makes load does does' := makes.shows_once load does does'
  told _ _ _ _ _ _ _ _ _ _ _ _ bears load has gives := bears.shown load has gives
  diagnostics e := by cases e <;> simp [LoadError.diagnostic?]

end Scenario

end Userland

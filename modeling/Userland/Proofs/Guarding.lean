import Userland.Proofs.Denying
import Userland.Proofs.Grips
import Userland.Proofs.Lives

/-!
# Executables are not written

A load denies writes to its executable before it uses it, and the denial stands until the handle is closed:
by the load, if it fails, or by the process when it exits (`Scenario.Guards`). Meanwhile nobody writes to the
file, with whatever handle, and it stays as it is; and when nobody guards a file any more, it is denied as
often as when the run began (`Scenario.protects_executables`).
-/

namespace Userland

open ThreadProgram
open Program (Only)

-- Which words a line has does not matter for what is done with them.
attribute [local irreducible] Words.ofString

namespace Scenario

variable {x : Scenario} {turns : ℕ → Turn} {a i j k b d n : ℕ} {t u : Tid} {h g : Handle} {start : NewProcess}

/-- Thread `u` guards file number `n` with a handle: at time `a` it has denied writes to the file, and by time
    `i` it has not closed the handle. -/
structure Guards (x : Scenario) (turns : ℕ → Turn) (u : Tid) (h : Handle) (n a i : ℕ) : Prop where
  /-- It has denied writes. -/
  denies : x.Does turns a u (.device (.deny h)) ()
  /-- The handle was on the file. -/
  file : ∃ c, (x.machineAt turns a).devices.volume.grip? h = some (n, c)
  /-- That was before. -/
  before : a < i
  /-- It has not closed the handle. -/
  since : ∀ j, a < j → j < i → ¬x.Does turns j u (.device (.close h)) ()

/-! ## Handles -/

/-- When the volume changes, a thread has made a request that goes to it. -/
theorem volume_succ (x : Scenario) (turns : ℕ → Turn) (i : ℕ) :
    (x.machineAt turns (i + 1)).devices.volume = (x.machineAt turns i).devices.volume ∨
      ∃ t r answer, x.Does turns i t (.device r) answer ∧ r.Permitted (x.standingAt turns i t) ∧
        (x.machineAt turns (i + 1)).devices.volume =
          (r.serve (x.standingAt turns i t).own (x.machineAt turns i).devices).2.2.volume := by
  rcases Machine.serve_turn x.environment (x.machineAt turns i) (turns i) with
    ⟨t, r, next, attempts, turned⟩ | idle
  · have does := does_of_attempts attempts
    exact .inr ⟨t, r, _, does, (allowed_at attempts.does).2, congrArg Devices.volume turned⟩
  · exact .inl idle.volume

/-- A thread keeps its handles until it closes them. -/
theorem mem_handles_succ (has : h ∈ (x.standingAt turns i t).own.handles)
    (unclosed : ¬x.Does turns i t (.device (.close h)) ()) : h ∈ (x.standingAt turns (i + 1) t).own.handles := by
  have inside : t < (x.machineAt turns i).threads.size := by
    by_contra outside
    have none : (x.standingAt turns i t).own = _ :=
      congrArg Thread.own (Machine.thread_of_size_le (Nat.not_lt.1 outside))
    rw [none] at has
    cases has
  have live : (x.machineAt turns i).devices.volume.isOpen h = true := ((x.sound turns i).handles.live h).2 ⟨t, has⟩
  rcases x.own_succ inside with same | ⟨r, answer, does, permitted, same⟩
  · rwa [same]
  have flow := DeviceRequest.handles_flow (d := (x.machineAt turns i).devices) permitted
    ((x.sound turns i).handles.once t)
  rw [← same] at flow
  cases flow with
  | keep perm => exact perm.mem_iff.2 has
  | take g perm => exact perm.mem_iff.2 (List.mem_cons_of_mem g has)
  | give g perm all =>
    rcases List.mem_cons.1 (perm.mem_iff.1 has) with rfl | mem
    · have shut := all h
      rw [decide_eq_true rfl, Bool.not_true, Bool.false_and] at shut
      refine nomatch shut.symm.trans (DeviceRequest.isOpen_serve (fun closes => unclosed ?_) live)
      subst closes
      exact does
    · exact mem

/-- Who does something with a handle in hand is the one who has it. -/
theorem owner_of_mem (has : h ∈ (x.standingAt turns i u).own.handles)
    (inHand : h ∈ (x.standingAt turns i t).own.hands.files) : t = u :=
  (x.sound turns i).handles.apart t u h (List.mem_append_right _ inHand) has

/-! ## Loads and exits -/

namespace Makes

variable (makes : x.Makes turns k t start u)

include makes

/-- What a child has to do next in its load. -/
theorem programAt_loading {a : Action} {first : a.Answer → ThreadProgram (Except LoadError LoadedProgram)}
    (left : x.leftAt turns u (x.kernel.loading start) (k + 1) d = Program.ask a first) :
    ∃ rest : Except LoadError LoadedProgram → ThreadProgram Unit,
      x.programAt turns (k + 1 + d) u = Program.ask a fun answer => first answer >>= rest := by
  obtain ⟨after, here, -⟩ := makes.loads
  have ongoing : ∀ e < d, ∀ r, x.leftAt turns u (x.kernel.loading start) (k + 1) e ≠ Program.pure r :=
    fun e before r over' => nomatch left.symm.trans (leftAt_of_pure (Nat.le_of_lt before) over')
  have there := programAt_of_remains here (makes.inside (Nat.lt_succ_self k)) Kernel.remains_loading ongoing
  rw [left] at there
  exact ⟨after, there⟩

/-- What a child does before its load is over, it does as a part of its load. -/
theorem left_of_does {a a' : Action} {first : a.Answer → ThreadProgram (Except LoadError LoadedProgram)}
    {answer : a'.Answer} {e : ℕ}
    (left : x.leftAt turns u (x.kernel.loading start) (k + 1) d = Program.ask a first) (le : e ≤ d)
    (does : x.Does turns (k + 1 + e) u a' answer) :
    ∃ first', x.leftAt turns u (x.kernel.loading start) (k + 1) e = Program.ask a' first' := by
  cases here : x.leftAt turns u (x.kernel.loading start) (k + 1) e with
  | pure r => cases left.symm.trans (leftAt_of_pure le here)
  | ask a'' first' =>
    obtain ⟨rest, there⟩ := makes.programAt_loading here
    obtain ⟨next, there'⟩ := does.1
    obtain rfl := (Program.ask.inj (there.symm.trans there')).1
    exact ⟨first', rfl⟩

end Makes

/-- What a load does next is fit for what it does. -/
theorem ensues_of_left {a : Action} {first : a.Answer → ThreadProgram (Except LoadError LoadedProgram)}
    (left : x.leftAt turns u (x.kernel.loading start) b d = Program.ask a first) (answer : a.Answer) :
    Kernel.Ensues a (first answer) := by
  have leads := @leads_leftAt x turns b u _ _ _ (@Kernel.leads_loading x.kernel start) d
  rw [left] at leads
  exact (leads answer).1

/-- What is done in a start and is about a denial, or closes a handle, is done in the load. -/
theorem loading_of_starting {r : DeviceRequest}
    {first : r.Answer → ThreadProgram (Except LoadError LoadedProgram)}
    (left : x.leftAt turns u (x.kernel.starting start) b d = Program.ask (Action.device r) first)
    (other : r.installs = false) (silent : ∀ buffer, r ≠ .put buffer) :
    ∃ first', x.leftAt turns u (x.kernel.loading start) b d = Program.ask (Action.device r) first' := by
  refine (leftAt_bind_ask left).resolve_right ?_
  rintro ⟨e, result, g, rfl, -, -, left⟩
  rcases leftAt_bind_ask left with ⟨first', announcing⟩ | ⟨e', r', g', -, -, -, done⟩
  · have only := @only_leftAt x turns (b + e) u _ _ _ _ (@Kernel.announces_announcing start result) g
    rw [announcing] at only
    rcases only.1 with announces | ⟨text, same⟩
    · cases other.symm.trans announces
    · exact silent _ (Action.device.inj same)
  · cases done.symm.trans (leftAt_of_pure (Nat.zero_le g') rfl)

/-- When a thread has taken back a denial, it closes the handle next. -/
theorem closes_of_allow (does : x.Does turns i u (.device (.allow h)) ()) :
    ∃ next, x.programAt turns (i + 1) u = Program.ask (Action.device (.close h)) next := by
  obtain ⟨k, -, t, start, makes, deed⟩ := does.deed rfl
  cases deed with
  | starting d first now left =>
    subst now
    obtain ⟨first', left⟩ := loading_of_starting left rfl nofun
    obtain ⟨rest, here⟩ := makes.programAt_loading left
    obtain ⟨next, closes⟩ := (ensues_of_left left ()).allowed h rfl
    exact ⟨_, (does.next here).trans (congrArg (· >>= rest) closes)⟩
  | acting program j current next started le conduct =>
    cases conduct with
    | ordinary plain => cases plain
  | exiting result j b d status first started le now begins left killed hosts =>
    subst now
    obtain ⟨-, -, -, rest, began, -⟩ := begins.composed
    have leads := @leads_leftAt x turns b u _ _ _ (@Kernel.leads_exitProcess Empty status) d
    rw [left] at leads
    obtain ⟨next, closes⟩ := (leads ()).1 h rfl
    have here := programAt_of_left began begins.inside (KernelCall.remains ..) left (Nat.le_refl _) fun gone => by
      obtain ⟨next', there⟩ := does.1
      cases there.symm.trans gone
    exact ⟨_, (does.next here).trans (congrArg (· >>= rest) closes)⟩

/-! ## What a guard holds -/

/-- A handle that is about to be closed, and is not, is about to be closed still. -/
theorem closes_succ {next : Unit → ThreadProgram Unit} (inside : u < (x.machineAt turns i).threads.size)
    (here : x.programAt turns i u = Program.ask (Action.device (.close h)) next)
    (unclosed : ¬x.Does turns i u (.device (.close h)) ()) :
    x.programAt turns (i + 1) u = Program.ask (Action.device (.close h)) next := by
  rw [programAt_succ_of_goesOn here inside rfl]
  cases told : x.toldAt turns i u (.device (.close h)) with
  | none => rfl
  | some answer => exact absurd ⟨⟨next, here⟩, told⟩ unclosed

namespace Guards

/-- A guard lasts until the handle is closed. -/
theorem succ (guards : x.Guards turns u h n a i) (unclosed : ¬x.Does turns i u (.device (.close h)) ()) :
    x.Guards turns u h n a (i + 1) where
  denies := guards.denies
  file := guards.file
  before := Nat.lt_succ_of_lt guards.before
  since j after early := by
    rcases Nat.lt_succ_iff_lt_or_eq.1 early with early | rfl
    · exact guards.since j after early
    · exact unclosed

theorem earlier (guards : x.Guards turns u h n a i) (after : a < j) (le : j ≤ i) : x.Guards turns u h n a j where
  denies := guards.denies
  file := guards.file
  before := after
  since m after early := guards.since m after (Nat.lt_of_lt_of_le early le)

/-- As long as it lasts the thread has the handle, and the handle has hold of the file: it denies writes to it,
    or is about to be closed. -/
theorem holds (guards : x.Guards turns u h n a i) : h ∈ (x.standingAt turns i u).own.handles ∧
    ((x.machineAt turns i).devices.volume.grip? h = some (n, true) ∨
      (∃ c, (x.machineAt turns i).devices.volume.grip? h = some (n, c)) ∧
        ∃ next, x.programAt turns i u = Program.ask (Action.device (.close h)) next) := by
  obtain ⟨denies, ⟨c, file⟩, before, since⟩ := guards
  obtain ⟨next, here⟩ := id denies.1
  have goes := denies.goes
  have permitted : _ ∧ h ∈ (x.standingAt turns a u).own.hands.files := (allowed_at here).2
  induction before with
  | refl =>
    refine ⟨mem_handles_succ (List.mem_append_right _ permitted.2) (not_does here nofun), .inl ?_⟩
    rw [denies.served.2.1]
    refine (Volume.grip?_deny (x.machineAt turns a).devices.volume h h).trans ?_
    rw [if_pos rfl, file, Option.map_some]
  | @step i later ih =>
    obtain ⟨has, grips⟩ := ih fun j after early => since j after (Nat.lt_succ_of_lt early)
    have unclosed := since i later (Nat.lt_succ_self i)
    have inside := Nat.lt_of_lt_of_le goes.inside (x.size_le turns (Nat.le_of_succ_le later))
    refine ⟨mem_handles_succ has unclosed, ?_⟩
    -- If what the handle has hold of stays, so does all.
    have stays (same : (x.machineAt turns (i + 1)).devices.volume.grip? h =
        (x.machineAt turns i).devices.volume.grip? h) :
        (x.machineAt turns (i + 1)).devices.volume.grip? h = some (n, true) ∨
          (∃ c, (x.machineAt turns (i + 1)).devices.volume.grip? h = some (n, c)) ∧
            ∃ next, x.programAt turns (i + 1) u = Program.ask (Action.device (.close h)) next := by
      rw [same]
      exact grips.imp_right (And.imp_right fun ⟨next, here⟩ => ⟨next, closes_succ inside here unclosed⟩)
    obtain ⟨c, grip⟩ : ∃ c, (x.machineAt turns i).devices.volume.grip? h = some (n, c) :=
      grips.elim (fun grip => ⟨true, grip⟩) And.left
    rcases x.volume_succ turns i with same | ⟨t, r, answer, does, permitted, same⟩
    · exact stays (by rw [same])
    rw [same] at stays ⊢
    have effect := r.gripEffect_serve (x.standingAt turns i t).own (x.machineAt turns i).devices h
    generalize (r.serve _ _).2.2.volume.grip? h = grip' at effect stays ⊢
    cases effect with
    | same => exact stays rfl
    | denied =>
      rw [grip]
      exact .inl rfl
    | allowed =>
      obtain rfl := owner_of_mem has permitted.2
      rw [grip]
      exact .inr ⟨⟨false, rfl⟩, closes_of_allow does⟩
    | closed =>
      obtain rfl := owner_of_mem has permitted.2
      exact absurd does unclosed
    | opened none => cases none.symm.trans grip

/-- When a thread writes to a file, all guarded files are denied. -/
theorem denied (guards : x.Guards turns u h n a i) (names : ∀ entry ∈ x.directory, entry.2 < x.nodes.size)
    {data : Bytes} {count : ℕ} (does : x.Does turns i t (.device (.write g data)) count) :
    ∃ f, (x.machineAt turns i).devices.volume.nodes[n]? = some f ∧ 0 < f.denials := by
  rcases guards.holds.2 with denying | ⟨-, next, closing⟩
  · exact (x.tallied_at names turns i).denied denying
  · -- The thread that is about to close the handle holds the lock, and does not write.
    obtain ⟨next', here⟩ := does.1
    have held := holdsVolume_of_onVolume closing rfl
    have held' := holdsVolume_of_onVolume here rfl
    obtain rfl := Option.some.inj (held.symm.trans held')
    cases closing.symm.trans here

/-- Nobody writes to a file that is guarded, with whatever handle. -/
theorem write_eq_zero (guards : x.Guards turns u h n a i)
    (names : ∀ entry ∈ x.directory, entry.2 < x.nodes.size) {data : Bytes} {count : ℕ} {c : Bool}
    (grips : (x.machineAt turns i).devices.volume.grip? g = some (n, c))
    (does : x.Does turns i t (.device (.write g data)) count) : count = 0 := by
  obtain ⟨f, found, denied⟩ := guards.denied names does
  rw [does.served.2.2]
  exact Volume.write_of_denied grips found denied data

/-- Until then the file is as it was, save for how often it is denied. -/
theorem node_eq (guards : x.Guards turns u h n a i) (names : ∀ entry ∈ x.directory, entry.2 < x.nodes.size)
    {f : FileNode} (found : (x.machineAt turns a).devices.volume.nodes[n]? = some f) (le : a ≤ j) (le' : j ≤ i) :
    ∃ m, (x.machineAt turns j).devices.volume.nodes[n]? = some { f with denials := m } := by
  induction le with
  | refl => exact ⟨f.denials, found⟩
  | @step j later ih =>
    obtain ⟨m, found⟩ := ih (Nat.le_of_succ_le le')
    suffices ∃ m', (x.machineAt turns (j + 1)).devices.volume.nodes[n]? =
      some { ({ f with denials := m } : FileNode) with denials := m' } from this
    rcases x.volume_succ turns j with same | ⟨t, r, answer, does, -, same⟩
    · exact ⟨m, by rw [same, found]⟩
    rw [same]
    refine DeviceRequest.node_serve found fun g data same grips => ?_
    subst same
    rcases Nat.eq_or_lt_of_le later with rfl | after
    · obtain ⟨next, here⟩ := guards.denies.1
      obtain rfl : t = u := by
        have goes := does.goes.2.1.symm.trans guards.denies.goes.2.1
        exact Turn.step.inj goes
      exact absurd does (not_does here nofun)
    · obtain ⟨f', found', denied⟩ := (guards.earlier after (Nat.le_of_succ_le le')).denied names does
      rwa [← Option.some.inj (found.symm.trans found')] at denied

/-- A guard is placed in a load, and the file becomes the executable if that comes to a program. -/
theorem placed (guards : x.Guards turns u h n a i) : ∃ k t start d first, x.Makes turns k t start u ∧
    a = k + 1 + d ∧
    x.leftAt turns u (x.kernel.loading start) (k + 1) d = Program.ask (Action.device (.deny h)) first := by
  obtain ⟨k, -, t, start, makes, deed⟩ := guards.denies.deed rfl
  cases deed with
  | starting d first now left =>
    obtain ⟨first', left⟩ := loading_of_starting left rfl nofun
    exact ⟨k, t, start, d, first', makes, now, left⟩
  | acting program j current next started le conduct =>
    cases conduct with
    | ordinary plain => cases plain
  | exiting result j b d status first started le now begins left =>
    rcases exits_of_left left with same | same | ⟨name, same⟩ | ⟨h, same⟩ | final
    · cases same
    · cases same
    · cases same
    · cases same
    · cases final

end Guards

/-- What is left of a load that has come to a result has come to it. -/
theorem LoadGives.of_left {result : Except LoadError LoadedProgram} {a : Action}
    {first : a.Answer → ThreadProgram (Except LoadError LoadedProgram)} {answer : a.Answer}
    (load : x.LoadGives turns u start k result j)
    (left : x.leftAt turns u (x.kernel.loading start) (k + 1) d = Program.ask a first)
    (told : x.toldAt turns (k + 1 + d) u a = some answer) : ∃ g, j = k + 1 + (d + 1 + g) ∧
      x.leftAt turns u (first answer) (k + 1 + (d + 1)) g = Program.pure result := by
  obtain ⟨e, rfl, over'⟩ := load
  obtain ⟨g, rfl⟩ : ∃ g, e = d + 1 + g := by
    refine Nat.exists_eq_add_of_le (Nat.succ_le_of_lt (Nat.lt_of_not_le fun le => ?_))
    cases left.symm.trans (leftAt_of_pure le over')
  refine ⟨g, rfl, ?_⟩
  rw [leftAt_add] at over'
  have onward : x.leftAt turns u (x.kernel.loading start) (k + 1) (d + 1) = first answer := by
    rw [leftAt, left]
    change (x.toldAt turns (k + 1 + d) u a).elim _ _ = _
    rw [told]
    rfl
  rwa [onward] at over'

/-- The file that a load has denied is the executable of the program that it has come to. -/
theorem Guards.executable_eq (guards : x.Guards turns u h n a i) (makes : x.Makes turns k t start u)
    {program : LoadedProgram} (load : x.LoadGives turns u start k (.ok program) j) :
    program.executable = h := by
  obtain ⟨k', t', start', d, first, makes', rfl, left⟩ := guards.placed
  obtain ⟨rfl, rfl, rfl⟩ := makes.unique makes'
  obtain ⟨g, -, over'⟩ := load.of_left left guards.denies.2
  have only := @only_leftAt x turns (k + 1 + (d + 1)) u _ _ _ _ ((ensues_of_left left ()).denied h rfl) g
  rw [over'] at only
  exact only program rfl

/-- A handle that guards is closed by a load that has failed, or in an exit. -/
theorem Guards.closes (guards : x.Guards turns u h n a i) (does : x.Does turns i u (.device (.close h)) ()) :
    (∃ k t start, x.Makes turns k t start u ∧ (∀ result, ¬x.LoadGives turns u start k result i) ∧
      ∀ result j, x.LoadGives turns u start k result j → ∃ e, result = .error e) ∨
    ∃ b status, x.Within turns (.exit status) b i u := by
  obtain ⟨k, t, start, d, first, makes, rfl, left⟩ := guards.placed
  obtain ⟨next, here⟩ := id does.1
  have permitted : _ ∧ h ∈ (x.standingAt turns i u).own.hands.files := (allowed_at here).2
  have after : k < i := Nat.lt_trans (Nat.lt_add_right d (Nat.lt_succ_self k)) guards.before
  cases makes.life after with
  | starting e now ongoing there =>
    subst now
    obtain ⟨first', left', -⟩ := Program.asks_of_bind ongoing (there.symm.trans here)
    obtain ⟨first'', closing⟩ := loading_of_starting left' rfl nofun
    refine .inl ⟨k, t, start, makes, ?_, fun result j load => ?_⟩
    · rintro result ⟨e', same, over'⟩
      obtain rfl := Nat.add_left_cancel same
      cases closing.symm.trans over'
    · obtain ⟨g, -, over'⟩ := load.of_left closing does.2
      have only := @only_leftAt x turns (k + 1 + (e + 1)) u _ _ _ _ ((ensues_of_left closing ()).closed h rfl) g
      rw [over'] at only
      exact only
  | failing e j started le there hosts =>
    obtain ⟨⟨⟩⟩ := (Program.ask.inj (here.symm.trans there)).1
  | acting program j current started le conduct serves hosts =>
    -- The executable of a process is not in hand.
    obtain rfl := guards.executable_eq makes started.loadGives
    obtain ⟨space, core⟩ := hosts
    obtain ⟨p, hosted, same⟩ := Option.map_eq_some_iff.1 core
    have executable : p.executable = some program.executable := congrArg Process.Core.executable same
    have distinct : (x.standingAt turns i u).own.handles.Nodup := (x.sound turns i).handles.once u
    refine absurd permitted.2 (List.disjoint_of_nodup_append distinct ?_)
    rw [hosted]
    simp [Process.handles, executable]
  | exiting result j b status started le before begins =>
    obtain ⟨e, rfl⟩ := Nat.exists_eq_add_of_le (Nat.le_of_lt before)
    exact .inr ⟨b, status, begins, e, rfl, fun never => never.elim⟩

/-! ## Guards of loads and programs -/

/-- A thread that has denied writes to a file with a handle guards it until it closes the handle. -/
theorem Does.guards (denies : x.Does turns a u (.device (.deny h)) ()) (later : a < i)
    (since : ∀ j, a < j → j < i → ¬x.Does turns j u (.device (.close h)) ()) : ∃ n, x.Guards turns u h n a i := by
  obtain ⟨next, here⟩ := id denies.1
  have permitted : _ ∧ h ∈ (x.standingAt turns a u).own.hands.files := (allowed_at here).2
  have live := ((x.sound turns a).handles.live h).2 ⟨u, List.mem_append_right _ permitted.2⟩
  rw [← Volume.isSome_grip?] at live
  obtain ⟨⟨n, c⟩, file⟩ := Option.isSome_iff_exists.1 live
  exact ⟨n, denies, ⟨c, file⟩, later, since⟩

/-- A load guards the file that it uses. -/
theorem Makes.guards_uses (makes : x.Makes turns k t start u) {r : DeviceRequest}
    {first : r.Answer → ThreadProgram (Except LoadError LoadedProgram)}
    (left : x.leftAt turns u (x.kernel.loading start) (k + 1) d = Program.ask (Action.device r) first)
    (uses : r.uses h = true) : ∃ n a, k < a ∧ x.Guards turns u h n a (k + 1 + d) := by
  obtain ⟨e, early, a, first', answer, rfl, left', told⟩ :=
    done_before_ask (Kernel.before_loading h) left ⟨r, rfl, uses⟩
  obtain ⟨rest, here⟩ := makes.programAt_loading left'
  have denies : x.Does turns (k + 1 + e) u (.device (.deny h)) () := ⟨⟨_, here⟩, told⟩
  obtain ⟨n, guards⟩ := denies.guards (Nat.add_lt_add_left early (k + 1)) fun j after before closes => by
    obtain ⟨c, rfl⟩ : ∃ c, j = k + 1 + c := Nat.exists_eq_add_of_le (by omega)
    obtain ⟨first'', closing⟩ := makes.left_of_does left (by omega) closes
    -- After that the load asks for nothing more.
    obtain ⟨g, rfl⟩ : ∃ g, d = c + 1 + g := Nat.exists_eq_add_of_le (by omega)
    have only := @only_leftAt x turns (k + 1 + (c + 1)) u _ _ _ _
      ((ensues_of_left closing ()).closed h rfl) g
    have onward : x.leftAt turns u (x.kernel.loading start) (k + 1) (c + 1) = first'' () := by
      rw [leftAt, closing]
      change (x.toldAt turns (k + 1 + c) u (.device (.close h))).elim _ _ = _
      rw [closes.2]
      rfl
    rw [leftAt_add, onward] at left
    rw [left] at only
    exact only.1 r rfl
  exact ⟨n, _, by omega, guards⟩

/-- A program that was loaded is guarded by its process until that closes the handle. -/
theorem Makes.guards_executable (makes : x.Makes turns k t start u) {program : LoadedProgram}
    (load : x.LoadGives turns u start k (.ok program) j) (le : j ≤ i)
    (unclosed : ∀ c, k < c → c < i → ¬x.Does turns c u (.device (.close program.executable)) ()) :
    ∃ n a, k < a ∧ a < j ∧ x.Guards turns u program.executable n a i := by
  obtain ⟨d, rfl, over'⟩ := load
  obtain ⟨e, early, a, first', answer, rfl, left', told⟩ :=
    done_before_pure (Kernel.before_loading program.executable) over' fun other => other program rfl rfl
  obtain ⟨rest, here⟩ := makes.programAt_loading left'
  have denies : x.Does turns (k + 1 + e) u (.device (.deny program.executable)) () := ⟨⟨_, here⟩, told⟩
  obtain ⟨n, guards⟩ := @Does.guards x turns _ i u _ denies (by omega) fun c after before =>
    unclosed c (by omega) before
  exact ⟨n, _, by omega, by omega, guards⟩

/-! ## Who denies writes -/

/-- A handle that denies writes guards its file. -/
theorem guards_of_grip (denying : (x.machineAt turns i).devices.volume.grip? h = some (n, true)) :
    ∃ u a, x.Guards turns u h n a i := by
  induction i with
  | zero => cases denying
  | succ i ih =>
    -- A guard lasts, for the handle is open.
    have onward (before : (x.machineAt turns i).devices.volume.grip? h = some (n, true)) :
        ∃ u a, x.Guards turns u h n a (i + 1) := by
      obtain ⟨u, a, guards⟩ := ih before
      refine ⟨u, a, guards.succ fun closes => ?_⟩
      have shut := Volume.grip?_close (x.machineAt turns i).devices.volume h h
      rw [if_pos rfl] at shut
      rw [closes.served.2.1] at denying
      exact nomatch shut.symm.trans denying
    rcases x.volume_succ turns i with same | ⟨t, r, answer, does, permitted, same⟩
    · exact onward (by rwa [same] at denying)
    rw [same] at denying
    have effect := r.gripEffect_serve (x.standingAt turns i t).own (x.machineAt turns i).devices h
    rw [denying] at effect
    generalize grips : some (n, true) = grip' at effect
    cases effect with
    | same => exact onward grips.symm
    | denied =>
      obtain ⟨⟨m, c⟩, file, ⟨⟩⟩ := Option.map_eq_some_iff.1 grips.symm
      exact ⟨t, i, does, ⟨c, file⟩, Nat.lt_succ_self i, fun j after early => by omega⟩
    | allowed => obtain ⟨⟨m, c⟩, file, ⟨⟩⟩ := Option.map_eq_some_iff.1 grips.symm
    | closed | opened => cases grips

/-- A thread that has ended guards nothing. -/
theorem Guards.not_ended (guards : x.Guards turns u h n a i) :
    ((x.machineAt turns i).thread u).status ≠ .ended := by
  intro ended
  have has := guards.holds.1
  have done := (x.sound turns i).done_of_ended ended
  have process : (x.standingAt turns i u).own.process = none := done.process
  have hands : (x.standingAt turns i u).own.hands = .empty := done.hands
  rw [Belongings.handles, process, hands] at has
  cases has

/-- A thread whose load has failed guards nothing. -/
theorem Guards.not_failed (guards : x.Guards turns u h n a i) (makes : x.Makes turns k t start u) {e : LoadError} :
    ¬x.LoadGives turns u start k (.error e) i := by
  intro failed
  have has := guards.holds.1
  rw [(makes.bare_of_failed failed).1.handles] at has
  cases has

/-! ## Protection -/

/-- How executables are protected from writes in a run. -/
structure ProtectsExecutables (x : Scenario) (turns : ℕ → Turn) : Prop where
  /-- When a load uses a file, it guards it. -/
  loads : ∀ k t start u d r first h, x.Makes turns k t start u →
    x.leftAt turns u (x.kernel.loading start) (k + 1) d = Program.ask (Action.device r) first →
    r.uses h = true → ∃ n a, k < a ∧ x.Guards turns u h n a (k + 1 + d)
  /-- So does the process of the program that was loaded, with its executable, until it closes that. -/
  runs : ∀ k t start u program j i, x.Makes turns k t start u → x.LoadGives turns u start k (.ok program) j →
    j ≤ i → (∀ c, k < c → c < i → ¬x.Does turns c u (.device (.close program.executable)) ()) →
    ∃ n a, k < a ∧ a < j ∧ x.Guards turns u program.executable n a i
  /-- It closes it when it exits; if the load fails, that does. -/
  closes : ∀ u h n a i, x.Guards turns u h n a i → x.Does turns i u (.device (.close h)) () →
    (∃ k t start, x.Makes turns k t start u ∧ (∀ result, ¬x.LoadGives turns u start k result i) ∧
      ∀ result j, x.LoadGives turns u start k result j → ∃ e, result = .error e) ∨
    ∃ b status, x.Within turns (.exit status) b i u
  /-- If names are those of files, nobody writes to a file that is guarded, with whatever handle. -/
  refuses : (∀ entry ∈ x.directory, entry.2 < x.nodes.size) → ∀ u h n a i t g c data count,
    x.Guards turns u h n a i → (x.machineAt turns i).devices.volume.grip? g = some (n, c) →
    x.Does turns i t (.device (.write g data)) count → count = 0
  /-- Such a file stays as it is, save for how often it is denied. -/
  keeps : (∀ entry ∈ x.directory, entry.2 < x.nodes.size) → ∀ u h n a i f j, x.Guards turns u h n a i →
    (x.machineAt turns a).devices.volume.nodes[n]? = some f → a ≤ j → j ≤ i →
    ∃ m, (x.machineAt turns j).devices.volume.nodes[n]? = some { f with denials := m }
  /-- A file that nobody guards is denied as often as when the run began. -/
  lifts : (∀ entry ∈ x.directory, entry.2 < x.nodes.size) → ∀ n i f,
    (x.machineAt turns i).devices.volume.nodes[n]? = some f → (∀ u h a, ¬x.Guards turns u h n a i) →
    f.denials = x.denials n
  /-- A thread that has ended guards nothing. -/
  ended : ∀ u h n a i, ((x.machineAt turns i).thread u).status = .ended → ¬x.Guards turns u h n a i
  /-- Nor does a thread whose load has failed. -/
  failed : ∀ k t start u e h n a i, x.Makes turns k t start u → x.LoadGives turns u start k (.error e) i →
    ¬x.Guards turns u h n a i

/-- Executables are not written while they are loaded or run. -/
theorem protects_executables (x : Scenario) (turns : ℕ → Turn) : x.ProtectsExecutables turns where
  loads _ _ _ _ _ _ _ _ makes left uses := makes.guards_uses left uses
  runs _ _ _ _ _ _ _ makes load le unclosed := makes.guards_executable load le unclosed
  closes _ _ _ _ _ guards does := guards.closes does
  refuses names _ _ _ _ _ _ _ _ _ _ guards grips does := guards.write_eq_zero names grips does
  keeps names _ _ _ _ _ _ _ guards found le le' := guards.node_eq names found le le'
  lifts names n i f found nobody := by
    refine (x.tallied_at names turns i).undenied (fun h denying => ?_) found
    obtain ⟨u, a, guards⟩ := guards_of_grip denying
    exact nobody u h a guards
  ended _ _ _ _ _ ended guards := guards.not_ended ended
  failed _ _ _ _ _ _ _ _ _ makes failed guards := guards.not_failed makes failed

end Scenario

end Userland

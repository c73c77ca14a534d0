import Userland.Proofs.Denials
import Userland.Proofs.Endings
import Userland.Proofs.FailedStarts
import Userland.Proofs.Parents

/-!
# Starting children

A thread learns of each child that it starts what the load of the child's program has come to. If the
program is loaded the child is on record, and nothing else is new; if it is not, or if there is no
child, all is as it was (`Scenario.launches`): the thread has what it had, its memory holds what it
held, and nothing is in use because of the child, even if that has yet to take its process apart
(`Scenario.Cleared`).
-/

namespace Userland

namespace Scenario

variable {x : Scenario} {turns : ℕ → Turn} {i j k b : ℕ} {t u : Tid} {family : Family} {line : String}
  {start : NewProcess}

/-- Nothing is in use because of thread `u`: all that is in use is other threads'. -/
structure Cleared (x : Scenario) (turns : ℕ → Turn) (i : ℕ) (u : Tid) : Prop where
  /-- The thread has no frame and no handle. -/
  own : ((x.machineAt turns i).thread u).own.Bare
  /-- Frames that are in use are other threads'. -/
  frames : ∀ f, (x.machineAt turns i).devices.pool.inUse f = true ↔
    ∃ v, v ≠ u ∧ f ∈ ((x.machineAt turns i).thread v).own.frames
  /-- So are handles that are open. -/
  handles : ∀ h, (x.machineAt turns i).devices.volume.isOpen h = true ↔
    ∃ v, v ≠ u ∧ h ∈ ((x.machineAt turns i).thread v).own.handles
  /-- Each file is denied as often as when the run began, and once for each handle of another thread
      that denies writes to it, if names are those of files. -/
  denials : (∀ entry ∈ x.directory, entry.2 < x.nodes.size) → ∀ n f,
    (x.machineAt turns i).devices.volume.nodes[n]? = some f → f.denials = x.denials n +
      (((List.range (x.machineAt turns i).threads.size).filter (· ≠ u)).map fun v =>
        (x.machineAt turns i).devices.volume.deniersAmong ((x.machineAt turns i).thread v).own.handles n).sum

/-- A thread that was not made yet has nothing. -/
theorem bare_of_size_le (new : (x.machineAt turns i).threads.size ≤ t) :
    ((x.machineAt turns i).thread t).own.Bare := by
  rw [Machine.thread_of_size_le new]
  exact ⟨rfl, rfl⟩

/-- If a thread has nothing, nothing is in use because of it. -/
theorem cleared_of_bare (bare : ((x.machineAt turns i).thread u).own.Bare) : x.Cleared turns i u where
  own := bare
  frames f := by
    rw [(x.sound turns i).frames.live]
    refine exists_congr fun v => (and_iff_right_of_imp ?_).symm
    rintro mem rfl
    exact List.not_mem_nil (bare.frames ▸ mem)
  handles h := by
    rw [(x.sound turns i).handles.live]
    refine exists_congr fun v => (and_iff_right_of_imp ?_).symm
    rintro mem rfl
    exact List.not_mem_nil (bare.handles ▸ mem)
  denials names n f found := by
    refine denials_eq names (List.nodup_range.filter _) (fun v away => ?_) found
    by_cases same : v = u
    · exact same ▸ bare.handles
    · refine (bare_of_size_le (Nat.not_lt.1 fun inside => away ?_)).handles
      simp [inside, same]

/-- At two times the same frames are in use, the same handles are open, and each file is denied as
    often. -/
structure SameUse (x : Scenario) (turns : ℕ → Turn) (i j : ℕ) : Prop where
  /-- The same frames are in use. -/
  frames : ∀ f, (x.machineAt turns j).devices.pool.inUse f = (x.machineAt turns i).devices.pool.inUse f
  /-- The same handles are open. -/
  handles : ∀ h,
    (x.machineAt turns j).devices.volume.isOpen h = (x.machineAt turns i).devices.volume.isOpen h
  /-- Each file is denied as often, if names are those of files, and handles are as they were. -/
  denials : (∀ entry ∈ x.directory, entry.2 < x.nodes.size) →
    (∀ h, (x.machineAt turns i).devices.volume.isOpen h = true →
      (x.machineAt turns j).devices.volume.opened? h = (x.machineAt turns i).devices.volume.opened? h) →
    ∀ (n : Nat) (f f' : FileNode), (x.machineAt turns i).devices.volume.nodes[n]? = some f →
      (x.machineAt turns j).devices.volume.nodes[n]? = some f' → f'.denials = f.denials

/-- If all threads have the frames and handles that they had, the same is in use. -/
theorem sameUse_of_same (le : i ≤ j)
    (same : ∀ v, ((x.machineAt turns j).thread v).own.frames = ((x.machineAt turns i).thread v).own.frames ∧
      ((x.machineAt turns j).thread v).own.handles = ((x.machineAt turns i).thread v).own.handles) :
    x.SameUse turns i j where
  frames f := by
    rw [Bool.eq_iff_iff, (x.sound turns j).frames.live, (x.sound turns i).frames.live]
    exact exists_congr fun v => by rw [(same v).1]
  handles h := by
    rw [Bool.eq_iff_iff, (x.sound turns j).handles.live, (x.sound turns i).handles.live]
    exact exists_congr fun v => by rw [(same v).2]
  denials names unmoved n f f' found found' := by
    have grown := x.size_le turns le
    have absent (v : Tid) (away : v ∉ List.range (x.machineAt turns j).threads.size) :
        (x.machineAt turns j).threads.size ≤ v := Nat.not_lt.1 (mt List.mem_range.2 away)
    rw [denials_eq names List.nodup_range (fun v away => (bare_of_size_le (absent v away)).handles) found',
      denials_eq names List.nodup_range
        (fun v away => (bare_of_size_le (Nat.le_trans grown (absent v away))).handles) found]
    refine congrArg (x.denials n + List.sum ·) (List.map_congr_left fun v _ => ?_)
    rw [(same v).2]
    refine List.countP_congr fun h mem => ?_
    rw [unmoved h (((x.sound turns i).handles.live h).2 ⟨v, mem⟩)]

/-- How threads start children in a run. -/
structure Launches (x : Scenario) (turns : ℕ → Turn) : Prop where
  /-- A command line without words is refused, and the thread does nothing for it. -/
  empty : ∀ family line, x.kernel.execute family line = Program.pure (.error .emptyCommand) ↔
    Words.ofString (Utf8.truncate line Kernel.maxCommandLength) = []
  /-- Any other has a result in the end, if the load of the child that is made for it comes to a result, each
      thread makes steps again and again, and the machine is not stopped. -/
  returns : Fair turns → x.Unstopped turns → ∀ t family line b, x.Begins turns b t (.execute family line) →
    (∀ k start u, x.Bears turns t family line b k start u → ∃ result j, x.LoadGives turns u start k result j) →
    ∃ i r, x.Returns turns t (.execute family line) b r i
  /-- The load does so if the child gets the lock of the volume. -/
  loads : Fair turns → x.Unstopped turns → ∀ t family line b k start u,
    x.Bears turns t family line b k start u → x.Attains turns u (.lock Kernel.volumeLock) →
    ∃ result j, x.LoadGives turns u start k result j
  /-- One thread is made for it, from the command line; if none can be made that is the result. -/
  child : ∀ t family line b r i, x.Returns turns t (.execute family line) b r i →
    (r = .error .spawn ∧ ∀ k start u, ¬x.Bears turns t family line b k start u) ∨
      ∃ k start u, x.Bears turns t family line b k start u ∧
        start.command = Utf8.truncate line Kernel.maxCommandLength ∧
        ∀ k' start' u', x.Bears turns t family line b k' start' u' → k' = k ∧ start' = start ∧ u' = u
  /-- When there is a result the child has loaded its program, or has failed to, and the result is that. -/
  told : ∀ t family line b r i k start u, x.Returns turns t (.execute family line) b r i →
    x.Bears turns t family line b k start u → ∃ result, ∃ j < i,
      x.LoadGives turns u start k result j ∧ r = outcome u result
  /-- So the result is the child if and only if the child loads its program. -/
  truthful : ∀ t family line b r i k start u, x.Returns turns t (.execute family line) b r i →
    x.Bears turns t family line b k start u →
      (r = .ok u ↔ ∃ program j, x.LoadGives turns u start k (.ok program) j) ∧
      (r = .error .loadFailed ↔ ∃ e j, x.LoadGives turns u start k (.error e) j)
  /-- If a child is started it is on record, and the thread has what it had besides. -/
  gained : ∀ t family line b u i, x.Returns turns t (.execute family line) b (.ok u) i →
    ((x.machineAt turns b).thread t).own.Gains family u ((x.machineAt turns i).thread t).own
  /-- If no child is started the thread has what it had: children, memory and descriptors. -/
  kept : ∀ t family line b e i, x.Returns turns t (.execute family line) b (.error e) i →
    ((x.machineAt turns i).thread t).own = ((x.machineAt turns b).thread t).own
  /-- All the while its memory holds what it held. -/
  memory : ∀ t family line b r i, x.Returns turns t (.execute family line) b r i →
    ∀ f ∈ ((x.machineAt turns b).thread t).own.frames, ∀ j, b ≤ j → j ≤ i →
      (x.machineAt turns j).devices.pool.page? f = (x.machineAt turns b).devices.pool.page? f
  /-- If the child has failed to load its program, nothing is in use because of it from then on. -/
  cleared : ∀ t family line b i k start u, x.Returns turns t (.execute family line) b (.error .loadFailed) i →
    x.Bears turns t family line b k start u → ∀ j ≥ i, x.Cleared turns j u
  /-- So if no child is started, and other threads have the frames and handles that they had, the same
      is in use as when the thread began. -/
  restores : ∀ t family line b e i, x.Returns turns t (.execute family line) b (.error e) i →
    (∀ v, v ≠ t → (∀ k start, ¬x.Bears turns t family line b k start v) →
      ((x.machineAt turns i).thread v).own.frames = ((x.machineAt turns b).thread v).own.frames ∧
      ((x.machineAt turns i).thread v).own.handles = ((x.machineAt turns b).thread v).own.handles) →
    x.SameUse turns b i

/-- A command line is refused for want of a word if it has none. -/
theorem execute_eq_pure : x.kernel.execute family line = Program.pure (.error .emptyCommand) ↔
    Words.ofString (Utf8.truncate line Kernel.maxCommandLength) = [] := by
  unfold Kernel.execute
  dsimp only
  cases Words.ofString (Utf8.truncate line Kernel.maxCommandLength) with
  | nil => exact iff_of_true rfl rfl
  | cons word words => exact iff_of_false nofun nofun

/-- When there is a result, the child has loaded its program or has failed to. -/
theorem Returns.told {r : Except ExecError Tid} (returns : x.Returns turns t (.execute family line) b r i)
    (bears : x.Bears turns t family line b k start u) :
    ∃ result, ∃ j < i, x.LoadGives turns u start k result j ∧ r = outcome u result := by
  rcases returns.gives.outcome with ⟨-, nobody⟩ | ⟨k', start', u', result, j, bears', before, -, load, same⟩
  · exact absurd bears (nobody k start u)
  · obtain ⟨rfl, rfl, rfl⟩ := bears.unique bears'
    exact ⟨result, j, before, load, same⟩

/-- A child is made after its parent has begun to start it. -/
theorem Bears.absent (bears : x.Bears turns t family line b k start u) :
    (x.machineAt turns b).threads.size ≤ u := by
  obtain ⟨name, priority, does⟩ := bears.makes
  rw [(size_of_spawned does).1]
  exact x.size_le turns bears.within.le

/-- A child that has failed to load its program has nothing from then on. -/
theorem Returns.bare {i' : ℕ} (returns : x.Returns turns t (.execute family line) b (.error .loadFailed) i)
    (bears : x.Bears turns t family line b k start u) (later : i ≤ i') :
    ((x.machineAt turns i').thread u).own.Bare := by
  obtain ⟨result, j, before, load, same⟩ := returns.told bears
  cases result with
  | ok program => cases same
  | error e => exact (bears.makes.bare_of_failed (load.mono (Nat.le_trans (Nat.le_of_lt before) later))).1

/-- If no child is started, the same is in use afterwards, save for what other threads do. -/
theorem Returns.sameUse {e : ExecError} (returns : x.Returns turns t (.execute family line) b (.error e) i)
    (others : ∀ v, v ≠ t → (∀ k start, ¬x.Bears turns t family line b k start v) →
      ((x.machineAt turns i).thread v).own.frames = ((x.machineAt turns b).thread v).own.frames ∧
      ((x.machineAt turns i).thread v).own.handles = ((x.machineAt turns b).thread v).own.handles) :
    x.SameUse turns b i := by
  refine sameUse_of_same (Nat.le_of_lt returns.gives.lt) fun v => ?_
  by_cases mine : v = t
  · subst mine
    have own : ((x.machineAt turns i).thread v).own = ((x.machineAt turns b).thread v).own := returns.own_eq
    exact ⟨own ▸ rfl, own ▸ rfl⟩
  by_cases child : ∀ k start, ¬x.Bears turns t family line b k start v
  · exact others v mine child
  · simp only [not_forall, not_not] at child
    obtain ⟨k, start, bears⟩ := child
    obtain ⟨result, j, -, -, same⟩ := returns.told bears
    obtain rfl : e = .loadFailed := by
      cases result with
      | ok program => cases same
      | error _ => exact Except.error.inj same
    -- The child was not made yet, and it has given back what it had.
    have before := bare_of_size_le bears.absent
    have after := returns.bare bears (Nat.le_refl i)
    exact ⟨after.frames.trans before.frames.symm, after.handles.trans before.handles.symm⟩

/-- Starting a child comes to something in the end, if the load of the child does. -/
theorem Begins.executes_in_time (fair : Fair turns) (running : x.Unstopped turns)
    (begins : x.Begins turns b t (.execute family line)) (loads : ∀ k start u,
      x.Bears turns t family line b k start u → ∃ result j, x.LoadGives turns u start k result j) :
    ∃ i r, x.Gives turns t (.execute family line) b r i := by
  have prompt {a : Action} (prompt : a.isPrompt = true) : x.Attains turns t a :=
    attains_of_isPrompt fair running prompt
  have prompts {R : Except ExecError Tid → Prop} {p : ThreadProgram (Except ExecError Tid)}
      (only : p.Only (fun a : Action => a.isClerical = true ∧ a.isPrompt = true) R) :
      p.Only (x.Attains turns t) R := only.mono (fun _ so => prompt so.2) fun _ => id
  obtain ⟨first, opens⟩ := begins.opens
  have opens : x.kernel.execute family line = Program.ask Action.newChannel first := opens
  obtain ⟨name, rest, shape, refused, recorded⟩ := KernelCall.execute_steps opens
  obtain ⟨-, -, -, next, here, -⟩ := begins.composed
  have here : x.programAt turns b t = x.kernel.execute family line >>= next := here
  suffices completes : x.Completes turns t b (x.kernel.execute family line) by
    obtain ⟨d, r, left⟩ := completes
    exact ⟨b + d, r, begins, d, rfl, left⟩
  rw [opens] at here ⊢
  -- Two channels are made, then the thread.
  obtain ⟨e₁, loaded, opened₁⟩ := (prompt rfl).proceeds here
  refine opened₁.completes ?_
  have here₁ := opened₁.here
  rw [shape] at here₁ ⊢
  obtain ⟨e₂, exit, opened₂⟩ := (prompt rfl).proceeds here₁
  refine opened₂.completes ?_
  obtain ⟨e₃, made, spawns⟩ := (prompt rfl).proceeds opened₂.here
  refine spawns.completes ?_
  cases made with
  | none =>
    obtain ⟨d, r, left, -⟩ := over_of_attains (prompts (refused loaded exit)) spawns.here
    exact ⟨d, r, left⟩
  | some u =>
    -- The child is put on record, and then it is awaited whether its program is loaded.
    obtain ⟨last, steps, results⟩ := recorded loaded exit u
    have here₃ := spawns.here
    rw [steps] at here₃ ⊢
    obtain ⟨e₄, _, locks⟩ := (prompt rfl).proceeds here₃
    obtain ⟨e₅, _, records⟩ := (prompt rfl).proceeds locks.here
    obtain ⟨e₆, _, frees⟩ := (prompt rfl).proceeds records.here
    refine locks.completes (records.completes (frees.completes ?_))
    have within : x.Within turns (.execute family line) b (b + e₁ + 1 + e₂ + 1 + e₃) t := by
      refine ⟨begins, e₁ + 1 + (e₂ + 1 + e₃), by omega, fun r over' => ?_⟩
      have over' : x.leftAt turns t (x.kernel.execute family line) b (e₁ + 1 + (e₂ + 1 + e₃)) =
        Program.pure r := over'
      rw [opens, opened₁.onward, shape, opened₂.onward, spawns.still] at over'
      cases over'
    have bears : x.Bears turns t family line b (b + e₁ + 1 + e₂ + 1 + e₃) _ u :=
      ⟨within, name, _, spawns.does⟩
    obtain ⟨result, j, load⟩ := loads _ _ u bears
    obtain ⟨n, f, sends⟩ := load.sends fair running bears.makes
    obtain ⟨e₇, answer, receives⟩ := (attains_of_send fair running sends).proceeds frees.here
    refine receives.completes ?_
    obtain ⟨d, r, left, -⟩ := over_of_attains (prompts (results answer)) receives.here
    exact ⟨d, r, left⟩

/-- Threads learn what comes of the children that they start, and a child that is not started leaves
    nothing behind. -/
theorem launches (x : Scenario) (turns : ℕ → Turn) : x.Launches turns where
  empty _ _ := execute_eq_pure
  returns fair running t family line b begins loads := by
    obtain ⟨i, r, gives⟩ := begins.executes_in_time fair running loads
    obtain ⟨j, -, returns⟩ := gives.returns
    exact ⟨j, r, returns⟩
  loads fair running _ _ _ _ _ _ _ bears granted := bears.makes.loads_in_time fair running granted
  child t family line b r i returns := by
    refine returns.gives.outcome.imp_right ?_
    rintro ⟨k, start, u, result, j, bears, -, command, -⟩
    exact ⟨k, start, u, bears, command, fun k' start' u' bears' => bears'.unique bears⟩
  told _ _ _ _ _ _ _ _ _ returns bears := returns.told bears
  truthful t family line b r i k start u returns bears := by
    obtain ⟨result, j, -, load, rfl⟩ := returns.told bears
    cases result with
    | ok program =>
      refine ⟨iff_of_true rfl ⟨program, j, load⟩, iff_of_false nofun ?_⟩
      rintro ⟨e, j', load'⟩
      cases load.unique load'
    | error e =>
      refine ⟨iff_of_false nofun ?_, iff_of_true rfl ⟨e, j, load⟩⟩
      rintro ⟨program, j', load'⟩
      cases load.unique load'
  gained _ _ _ _ _ _ returns := returns.gains
  kept _ _ _ _ _ _ returns := returns.own_eq
  memory _ _ _ _ _ _ returns _ mem _ le le' := returns.page?_eq mem le le'
  cleared _ _ _ _ _ _ _ _ returns bears _ later := cleared_of_bare (returns.bare bears later)
  restores _ _ _ _ _ _ returns others := returns.sameUse others

end Scenario

end Userland

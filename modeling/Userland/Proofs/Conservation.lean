import Userland.Executable.Builder
import Userland.Proofs.Histories

/-!
# Nothing is lost and nothing is leaked

In whatever order threads take turns, each frame that is out of the pool and each handle that is open is
one thread's, once (`Machine.Conserves`, `Scenario.conserves`): a frame backs the space of its process, or
a space that is being filled or emptied, or is about to be mapped; a handle is in the descriptor table of
its process, or its executable, or in hand. When only the first thread is left nothing is in use.
-/

namespace Userland

/-- All frames and handles in use are accounted for. -/
structure Machine.Conserves (m : Machine) : Prop where
  /-- Each frame that is out of the pool is one thread's, once: it backs the space of its process, or
      the space that it has in hand, or it is the single frame that it has in hand. -/
  frames : Ledger (fun t => (m.thread t).own.frames) (m.devices.pool.inUse ·)
  /-- Each open handle is one thread's, once: it has a descriptor of its process, or is the executable
      of its process, or is in hand. -/
  handles : Ledger (fun t => (m.thread t).own.handles) (m.devices.volume.isOpen ·)
  /-- A space is in hand only while a process is loading or exiting, and a single frame only while it
      is loading. One handle at a time is in hand, save while a process is exiting. -/
  orderly : ∀ t, (m.thread t).own.Orderly
  /-- When all threads but the first have ended, no frame is in use and no handle is open. -/
  rest : (∀ t, 1 < t → (m.thread t).status = .ended) →
    m.devices.pool.usedFrames = 0 ∧ m.devices.volume.openHandles = 0

theorem Follows.start_eq {a : Action} {s s' : Standing} {answer : a.Answer}
    (follows : Follows a s answer s') : s'.duties.start = s.duties.start := by
  cases follows with
  | device r s d => cases r <;> rfl
  | act a s answer other promise =>
    cases a with
    | device r => exact absurd rfl (other r)
    | hasReceiver c => cases answer <;> rfl
    | _ => rfl

theorem Advances.start_eq {blocks : ℕ → ThreadProgram Unit} {told : ∀ a : Action, Option a.Answer}
    {p p' : ThreadProgram Unit} {s s' : Standing} (advances : Advances blocks told p s p' s') :
    s'.duties.start = s.duties.start := by
  cases advances with
  | rest | goto | finish => rfl
  | go told allowed follows => exact follows.start_eq

/-- A thread without a process, and with nothing in hand, has nothing. -/
theorem Belongings.Orderly.nothing {b : Belongings} (orderly : b.Orderly) (nobody : b.process = none) :
    b.frames = [] ∧ b.handles = [] := by
  have files : b.hands.files = [] := by
    by_contra some
    obtain ⟨p, hosts, -⟩ := orderly.files some
    exact nomatch nobody.symm.trans hosts
  have space : b.hands.space = none := by
    by_contra some
    obtain ⟨p, hosts, -⟩ := orderly.space some
    exact nomatch nobody.symm.trans hosts
  have frame : b.hands.frame = none := by
    by_contra some
    obtain ⟨p, hosts, -⟩ := orderly.frame some
    exact nomatch nobody.symm.trans hosts
  simp [frames, handles, space?, framesOf, nobody, files, space, frame]

namespace Scenario

variable {x : Scenario} {m : Machine}

/-- The first thread hosts no process. -/
theorem started (turns : ℕ → Turn) (i : ℕ) {t : Tid}
    (start : (x.standingAt turns i t).duties.start ≠ none) : 1 < t := by
  refine x.history turns (fun t _ s => s.duties.start ≠ none → 1 < t)
    (fun _ => absurd rfl) (absurd rfl) (fun _ _ later _ => later)
    (fun t told p s p' s' before advances => ?_) i t start
  rwa [advances.start_eq]

/-- What is in use in a machine that a run comes to is accounted for. -/
theorem conserves (reachable : x.Reachable m) : m.Conserves := by
  obtain ⟨turns, i, rfl⟩ := reachable_iff.1 reachable
  have sound := x.sound turns i
  refine ⟨sound.frames, sound.handles, sound.orderly, fun finished => ?_⟩
  have nothing (t : Tid) : ((x.machineAt turns i).thread t).own.process = none := by
    by_contra hosts
    have start := (sound.channels.consistent t).hosted hosts
    exact hosts (sound.done_of_ended (finished t (started turns i start))).process
  have none (t : Tid) := (sound.orderly t).nothing (nothing t)
  exact ⟨(FramePool.usedFrames_eq_zero sound.addressable).2 (sound.frames.unused fun t => (none t).1),
    sound.counted.openHandles_eq_zero.2 (sound.handles.unused fun t => (none t).2)⟩

/-- A scenario with one file, whose program opens that file and then takes a fault. -/
def opening : Scenario :=
  let image : ExecutableImage := ⟨0x08048000, [⟨1, 0x08048000, [], 16, 6⟩]⟩
  let file := image.fileHeader ++ PlacedSegment.header ⟨⟨1, 0x08048000, [], 16, 6⟩, 0⟩
  let words : Bytes := [6, 0x08048008].flatMap Bytes.ofWord ++ "program".toUTF8.toList ++ [0]
  { blank "program" with
    directory := [("program", 0)]
    nodes := #[.ofContents "program" (.ofExtents [.ofBytes 0 file]) 84]
    leftovers := Array.replicate 2 (Page.filled 0xA5)
    code := fun _ _ _ => .store (.ofWord 0x08048000) words
      (.trap ⟨0x08048000, 0⟩ fun _ => .fault (.ofWord 0) false false) }

/-- The first thread goes until it waits, and then its child. -/
def opening.turns (i : ℕ) : Turn := if i < 8 then .step 1 else .step 2

/-- All processes run, none is loading or exiting, and yet a handle is open that has no descriptor and is
    no executable: a process is about to enter it in its table. -/
theorem opening_in_hand : ∃ m h, opening.Reachable m ∧ m.devices.volume.isOpen h = true ∧
    ∀ t p, (m.thread t).own.process = some p → p.state = .running ∧ h ∉ p.handles := by
  let m := opening.machineAt opening.turns 46
  have size : m.threads.size = 3 := by decide +kernel
  have three : ∀ t < 3, ∀ p ∈ (m.thread t).own.process, p.state = .running ∧ ⟨1⟩ ∉ p.handles := by
    decide +kernel
  refine ⟨m, ⟨1⟩, reachable_iff.2 ⟨_, _, rfl⟩, by decide +kernel, fun t p hosts => ?_⟩
  by_cases inside : t < 3
  · exact three t inside p hosts
  · rw [Machine.thread_of_size_le (size ▸ Nat.not_lt.1 inside)] at hosts
    cases hosts

/-- Two frames and two handles are in use while that process runs, all accounted for. -/
theorem conserves_opening : ∃ m, opening.Reachable m ∧ m.devices.pool.usedFrames = 2 ∧
    m.devices.volume.openHandles = 2 ∧ m.Conserves :=
  let m := opening.machineAt opening.turns 46
  have reachable : opening.Reachable m := reachable_iff.2 ⟨_, _, rfl⟩
  ⟨m, reachable, by decide +kernel, by decide +kernel, conserves reachable⟩

end Scenario

end Userland

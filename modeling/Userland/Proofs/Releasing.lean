import Userland.Proofs.Conservation
import Userland.Proofs.Guarding
import Userland.Proofs.Parents

/-!
# What exits give back

A process that exits tells its status before it gives anything back. So when a wait has the status, the child
may have all that it had (`Scenario.lingering_has`). It only gives back from then on: what it gives up is out of
use at once, and when its thread has ended it has nothing (`Scenario.releases`).
-/

namespace Userland

open ThreadProgram

-- Which words a line has does not matter for what is done with them.
attribute [local irreducible] Words.ofString

/-! ## What is given up -/

section

variable {α : Type} [DecidableEq α] {own own' : List α} {live live' : α → Bool} {y : α}

/-- What a thread no longer has is out of use. -/
theorem Flow.dead (flow : Flow own own' live live') (had : y ∈ own) (lost : y ∉ own') : live' y = false := by
  cases flow with
  | keep same => exact absurd (same.mem_iff.2 had) lost
  | take z same => exact absurd (same.mem_iff.2 (List.mem_cons_of_mem z had)) lost
  | give z same all =>
    rcases List.mem_cons.1 (same.mem_iff.1 had) with rfl | kept
    · simp [all]
    · exact absurd kept lost

/-- If nothing comes into use, a thread has nothing that it did not have. -/
theorem Flow.subset (flow : Flow own own' live live') (sheds : ∀ x, live' x = true → live x = true) :
    own' ⊆ own := by
  cases flow with
  | keep same => exact same.subset
  | take z same new all => exact nomatch new.symm.trans (sheds z (by simp [all]))
  | give z same => exact fun x mem => same.mem_iff.2 (List.mem_cons_of_mem z mem)

end

/-- An exit brings nothing into use. -/
theorem Kernel.InExit.acquires {status : Int32} {a : Action} (exits : InExit status a) : a.acquires = false := by
  rcases exits with rfl | rfl | ⟨name, rfl⟩ | ⟨h, rfl⟩ | final
  · rfl
  · rfl
  · rfl
  · rfl
  · exact final.sheds.1

namespace Scenario

variable {x : Scenario} {turns : ℕ → Turn} {a b e i j n : ℕ} {t u : Tid} {family : Family} {r status : Int32}
  {h : Handle} {f : Frame}

/-- What a thread has, and what is in use, change together. -/
theorem flows (inside : u < (x.machineAt turns i).threads.size) :
    (x.standingAt turns (i + 1) u).own = (x.standingAt turns i u).own ∨
    ∃ r answer, x.Does turns i u (.device r) answer ∧
      Flow (x.standingAt turns i u).own.frames (x.standingAt turns (i + 1) u).own.frames
        ((x.machineAt turns i).devices.pool.inUse ·) ((x.machineAt turns (i + 1)).devices.pool.inUse ·) ∧
      Flow (x.standingAt turns i u).own.handles (x.standingAt turns (i + 1) u).own.handles
        ((x.machineAt turns i).devices.volume.isOpen ·) ((x.machineAt turns (i + 1)).devices.volume.isOpen ·) := by
  rcases own_succ inside with same | ⟨r, answer, does, permitted, -⟩
  · exact .inl same
  · obtain ⟨own, devices, -⟩ := does.served
    rw [own, devices]
    exact .inr ⟨r, answer, does, DeviceRequest.frames_flow permitted,
      DeviceRequest.handles_flow permitted ((x.sound turns i).handles.once u)⟩

/-- What a thread gives up is out of use at once. -/
theorem given_up (x : Scenario) (turns : ℕ → Turn) (i : ℕ) (u : Tid) :
    (∀ f ∈ (x.standingAt turns i u).own.frames, f ∉ (x.standingAt turns (i + 1) u).own.frames →
      (x.machineAt turns (i + 1)).devices.pool.inUse f = false) ∧
    ∀ h ∈ (x.standingAt turns i u).own.handles, h ∉ (x.standingAt turns (i + 1) u).own.handles →
      (x.machineAt turns (i + 1)).devices.volume.isOpen h = false := by
  by_cases inside : u < (x.machineAt turns i).threads.size
  · rcases flows inside with same | ⟨r, answer, -, frames, handles⟩
    · rw [same]
      exact ⟨fun f had lost => absurd had lost, fun h had lost => absurd had lost⟩
    · exact ⟨fun f => frames.dead, fun h => handles.dead⟩
  · -- A thread that was not made has nothing.
    have absent : (x.machineAt turns i).thread u = .absent :=
      Machine.thread_of_size_le (Nat.not_lt.1 inside)
    have nothing : (x.standingAt turns i u).own = .fresh 0 := congrArg Thread.own absent
    rw [nothing]
    exact ⟨nofun, nofun⟩

namespace Begins

variable (begins : x.Begins turns e u (.exit status))
include begins

/-- A thread that exits does nothing else any more. -/
theorem exits_on (le : e ≤ i) : x.Within turns (.exit status) e i u :=
  (within_or_gives begins le).resolve_right fun ⟨never, _⟩ => nomatch never

/-- What it does it does in its exit. -/
theorem inExit {a : Action} {answer : a.Answer} (does : x.Does turns i u a answer) (le : e ≤ i) :
    Kernel.InExit status a := by
  obtain ⟨d, rfl⟩ := Nat.exists_eq_add_of_le le
  obtain ⟨next, here⟩ := does.1
  obtain ⟨first, left⟩ := begins.exiting here
  exact exits_of_left left

theorem inside_later (le : e ≤ i) : u < (x.machineAt turns i).threads.size :=
  Nat.lt_of_lt_of_le begins.inside (x.size_le turns le)

/-- It gets nothing. -/
theorem sheds_succ (le : e ≤ i) :
    (x.standingAt turns (i + 1) u).own.frames ⊆ (x.standingAt turns i u).own.frames ∧
      (x.standingAt turns (i + 1) u).own.handles ⊆ (x.standingAt turns i u).own.handles := by
  rcases flows (begins.inside_later le) with same | ⟨r, answer, does, frames, handles⟩
  · rw [same]
    exact ⟨List.Subset.refl _, List.Subset.refl _⟩
  · have sheds := (begins.inExit does le).acquires
    have devices := does.served.2.1
    rw [devices] at frames handles
    exact ⟨frames.subset fun f => DeviceRequest.inUse_of_sheds sheds _ _,
      handles.subset fun h => DeviceRequest.isOpen_of_sheds sheds _ _⟩

theorem sheds (le : e ≤ j) (le' : j ≤ i) :
    (x.standingAt turns i u).own.frames ⊆ (x.standingAt turns j u).own.frames ∧
      (x.standingAt turns i u).own.handles ⊆ (x.standingAt turns j u).own.handles := by
  induction le' with
  | refl => exact ⟨List.Subset.refl _, List.Subset.refl _⟩
  | @step i le' ih =>
    obtain ⟨frames, handles⟩ := begins.sheds_succ (Nat.le_trans le le')
    exact ⟨List.Subset.trans frames ih.1, List.Subset.trans handles ih.2⟩

/-- It denies no writes. -/
theorem guards_before (guards : x.Guards turns u h n a i) : a < e := by
  by_contra after
  rcases begins.inExit guards.denies (Nat.not_lt.1 after) with same | same | ⟨name, same⟩ | ⟨h, same⟩ | final
  · cases same
  · cases same
  · cases same
  · cases same
  · cases final

end Begins

/-- A thread that has ended has nothing. -/
theorem nothing_of_ended (ended : ((x.machineAt turns i).thread u).status = .ended) :
    (x.standingAt turns i u).own.frames = [] ∧ (x.standingAt turns i u).own.handles = [] :=
  have sound := x.sound turns i
  (sound.orderly u).nothing (sound.done_of_ended ended).process

/-- No two threads have the same handle. -/
theorem owner_unique (has : h ∈ (x.standingAt turns i t).own.handles)
    (has' : h ∈ (x.standingAt turns i u).own.handles) : t = u :=
  (x.sound turns i).handles.apart t u h has has'

/-! ## Waits and exits -/

/-- How children give back what they have, when a wait for them has given their status. -/
structure Releases (x : Scenario) (turns : ℕ → Turn) : Prop where
  /-- The first wait for a child gives the status with which the child has begun to exit. -/
  begun : ∀ t family u b r i, x.FirstWait turns family u b t → x.Gives turns t (.wait family u.toPid) b r i →
    ∃ e < i, x.Begins turns e u (.exit r)
  /-- A thread that has begun to exit does nothing else any more. -/
  exits : ∀ u e status i, x.Begins turns e u (.exit status) → e ≤ i → x.Within turns (.exit status) e i u
  /-- It gets no frame and no handle, and denies writes to no file. -/
  sheds : ∀ u e status j i, x.Begins turns e u (.exit status) → e ≤ j → j ≤ i →
    (x.standingAt turns i u).own.frames ⊆ (x.standingAt turns j u).own.frames ∧
      (x.standingAt turns i u).own.handles ⊆ (x.standingAt turns j u).own.handles ∧
      ∀ h n a, x.Guards turns u h n a i → a < e
  /-- What it gives up is out of use at once. -/
  returns : ∀ u i,
    (∀ f ∈ (x.standingAt turns i u).own.frames, f ∉ (x.standingAt turns (i + 1) u).own.frames →
      (x.machineAt turns (i + 1)).devices.pool.inUse f = false) ∧
    ∀ h ∈ (x.standingAt turns i u).own.handles, h ∉ (x.standingAt turns (i + 1) u).own.handles →
      (x.machineAt turns (i + 1)).devices.volume.isOpen h = false
  /-- When its thread has ended it has nothing, and guards no file. -/
  ended : ∀ u i, ((x.machineAt turns i).thread u).status = .ended →
    (x.standingAt turns i u).own.frames = [] ∧ (x.standingAt turns i u).own.handles = [] ∧
      ∀ h n a, ¬x.Guards turns u h n a i
  /-- So whatever is in use, and whatever denies writes, is that of a thread that has not ended. -/
  held : ∀ i,
    (∀ f, (x.machineAt turns i).devices.pool.inUse f = true →
      ∃ v, f ∈ (x.standingAt turns i v).own.frames ∧ ((x.machineAt turns i).thread v).status ≠ .ended) ∧
    (∀ h, (x.machineAt turns i).devices.volume.isOpen h = true →
      ∃ v, h ∈ (x.standingAt turns i v).own.handles ∧ ((x.machineAt turns i).thread v).status ≠ .ended) ∧
    ∀ h n, (x.machineAt turns i).devices.volume.grip? h = some (n, true) →
      ∃ v a, x.Guards turns v h n a i ∧ ((x.machineAt turns i).thread v).status ≠ .ended

/-- A child whose status was given gives back what it has, and has nothing when it has ended. -/
theorem releases (x : Scenario) (turns : ℕ → Turn) : x.Releases turns where
  begun t family u b r i first gives := by
    have number := Tid.toInt_toPid (first.1.small first.2)
    exact exits_of_wait gives ((first.2.records family u).2 first.1) number.symm
  exits u e status i begins le := begins.exits_on le
  sheds u e status j i begins le le' :=
    ⟨(begins.sheds le le').1, (begins.sheds le le').2, fun h n a guards => begins.guards_before guards⟩
  returns u i := x.given_up turns i u
  ended u i ended :=
    ⟨(nothing_of_ended ended).1, (nothing_of_ended ended).2, fun h n a guards => guards.not_ended ended⟩
  held i := by
    have sound := x.sound turns i
    refine ⟨fun f used => ?_, fun h opened => ?_, fun h n denying => ?_⟩
    · obtain ⟨v, has⟩ := (sound.frames.live f).1 used
      exact ⟨v, has, fun ended => List.not_mem_nil ((nothing_of_ended ended).1 ▸ has)⟩
    · obtain ⟨v, has⟩ := (sound.handles.live h).1 opened
      exact ⟨v, has, fun ended => List.not_mem_nil ((nothing_of_ended ended).2 ▸ has)⟩
    · obtain ⟨v, a, guards⟩ := guards_of_grip denying
      exact ⟨v, a, guards, guards.not_ended⟩

end Scenario

/-! ## A wait that is over before the exit -/

namespace Scenario

/-- A scenario with one file, whose program exits with status 7. -/
def lingering : Scenario :=
  { opening with
    code := fun _ _ _ => .store (.ofWord 0x08048000) ([1, 7].flatMap Bytes.ofWord)
      (.trap ⟨0x08048000, 0⟩ fun _ => .fault (.ofWord 0) false false) }

namespace lingering

/-- The first thread goes until it waits, then its child until it has told its status, and then the first thread
    again. -/
def turns (i : ℕ) : Turn := if i < 8 then .step 1 else if i < 51 then .step 2 else .step 1

/-- What the first thread does first. -/
abbrev command : KernelCall := .execute .initial lingering.line

/-- What the first thread does when it has tried to start the command line: it awaits the child. -/
def onwards (result : Except ExecError Tid) : ThreadProgram Unit :=
  discard (match result with
    | .error e => return .error e
    | .ok child => do return .ok (← Kernel.wait .initial child.toPid) : ThreadProgram (Except ExecError Int32))

/-- The first thread starts the program. -/
theorem run_eq : discard (lingering.kernel.run lingering.line) =
    command.program lingering.kernel >>= onwards :=
  bind_assoc (lingering.kernel.execute .initial lingering.line) _ _

/-- Then it awaits it. -/
theorem then_eq : ∃ rest : Int32 → ThreadProgram Unit,
    onwards (.ok 2) = (KernelCall.wait .initial (Tid.toPid 2)).program lingering.kernel >>= rest :=
  ⟨_, bind_assoc (Kernel.wait .initial (Tid.toPid 2)) _ _⟩

theorem executes : lingering.Begins turns 0 1 command := begins_run rfl (by decide +kernel)

/-- After 53 turns the program is started, as thread 2, and not before. -/
theorem started : lingering.Returns turns 1 command 0 (.ok 2) 53 :=
  executes.returns_of_left (d := 52) (Option.isNone_iff_eq_none.1 (by decide +kernel)) (by decide +kernel)

/-- Then the first thread begins to wait for it. -/
theorem waits : lingering.FirstWait turns .initial 2 53 1 := by
  obtain ⟨running, awake⟩ : (lingering.machineAt turns 53).stopped = none ∧
      ((lingering.machineAt turns 53).thread 1).status = .awake := by decide +kernel
  refine ⟨⟨_, 0, started.gives, fun j early le begins => ?_⟩, ⟨running, rfl, awake⟩, ?_⟩
  · rcases Nat.eq_or_lt_of_le le with rfl | later
    · rcases KernelCall.eq_of_calls executes.2 begins.2 with same | ⟨_, _, _, -, same, -⟩ <;> cases same
    · exact (started.lasts j early le).not_begins later _ begins
  · obtain ⟨-, d, same, over'⟩ := started.gives
    obtain rfl : d = 53 := by omega
    have ongoing : ∀ e < 53, ∀ r,
        lingering.leftAt turns 1 (command.program lingering.kernel) 0 e ≠ Program.pure r := by
      intro e early r done
      exact (started.lasts e early (Nat.zero_le e)).not_gives r ⟨executes, e, (Nat.zero_add e).symm, done⟩
    have here : lingering.programAt turns 0 1 = discard (lingering.kernel.run lingering.line) := rfl
    have remains : (command.program lingering.kernel).Remains :=
      (KernelCall.once_execute ..).2.mono (fun _ boots => boots.goesOn) fun _ => id
    have onward := programAt_of_remains (here.trans run_eq) executes.inside remains ongoing
    rw [over'] at onward
    obtain ⟨rest, waits⟩ := then_eq
    obtain ⟨first, opens⟩ : ∃ first, (KernelCall.wait .initial (Tid.toPid 2)).program lingering.kernel =
      Program.ask (KernelCall.wait .initial (Tid.toPid 2)).opening first := ⟨_, rfl⟩
    exact ⟨first, rest, opens, onward.trans waits⟩

/-- It gets the exit status four turns later. -/
theorem gives : lingering.Gives turns 1 (.wait .initial (Tid.toPid 2)) 53 7 57 := by
  refine ⟨waits.2, 4, rfl, Program.result?_eq_some.1 ?_⟩
  decide +kernel

end lingering

/-- When the wait has the status the child still has its frames, and its executable is still guarded. -/
theorem lingering_has : ∃ t family u b r i,
    lingering.FirstWait lingering.turns family u b t ∧
    lingering.Gives lingering.turns t (.wait family u.toPid) b r i ∧
    (lingering.standingAt lingering.turns i u).own.frames ≠ [] ∧
    (lingering.standingAt lingering.turns i u).own.handles ≠ [] ∧
    ∃ h n a, lingering.Guards lingering.turns u h n a i := by
  obtain ⟨frames, handles, denying⟩ : (lingering.standingAt lingering.turns 57 2).own.frames.length = 2 ∧
      (lingering.standingAt lingering.turns 57 2).own.handles = [⟨0⟩] ∧
      (lingering.machineAt lingering.turns 57).devices.volume.grip? ⟨0⟩ = some (0, true) := by decide +kernel
  obtain ⟨u, a, guards⟩ := guards_of_grip denying
  obtain rfl : u = 2 := by
    refine owner_unique guards.holds.1 ?_
    rw [handles]
    exact List.mem_singleton.2 rfl
  refine ⟨1, .initial, 2, 53, 7, 57, lingering.waits, lingering.gives, fun none => ?_, fun none => ?_,
    ⟨0⟩, 0, a, guards⟩
  · rw [none] at frames
    cases frames
  · rw [none] at handles
    cases handles

end Scenario

end Userland

import Userland.Proofs.Custody
import Userland.Proofs.Shielding
import Userland.Proofs.Turning

/-!
# Roots

Every space that is made gets a root of its own, by which its page tables are activated. So a root is that of
spaces of one thread, at all times (`Scenario.same_owner`). What a thread has activated last, it has activated
at some time, and nothing since then (`Scenario.activated_last`); and the memory of its process it has installed at
some time, and not detached since then (`Scenario.installed_last`).
-/

namespace Userland

open ThreadProgram
open Belongings (Slot)

-- Which words a line has does not matter for what is done with them.
attribute [local irreducible] Words.ofString

/-! ## Roots -/

/-- A thread has a space: its process has it, or the process that it is about to destroy, or it is in hand. -/
def Belongings.Has (b : Belongings) (s : AddressSpace) : Prop :=
  b.space? = some s ∨ b.hands.space = some s ∨ b.hands.process.bind (·.space) = some s

theorem Belongings.not_has_fresh {s : AddressSpace} {t : Tid} : ¬(Belongings.fresh t).Has s :=
  fun has => has.elim nofun (·.elim nofun nofun)

theorem AddressSpace.root_map {s s' : AddressSpace} {page : VirtAddr} {f : Frame} {writable : Bool}
    (mapped : s.map page f writable = .ok s') : s'.root = s.root := by
  unfold map at mapped
  cases checked : s.checkMappable page with
  | error e =>
    rw [checked] at mapped
    cases mapped
  | ok =>
    rw [checked] at mapped
    obtain rfl := Except.ok.inj mapped
    rfl

namespace DeviceRequest

variable {r : DeviceRequest} {b : Belongings} {d : Devices} {s : AddressSpace}

/-- The requests that change what space is in hand, or what process. -/
def movesInHand : DeviceRequest → Bool
  | newSpace | mapFrame .. | freePage _ | dropSpace | installSpace | detachSpace | detachProcess
  | destroyProcess => true
  | _ => false

theorem inHand_serve (still : r.movesInHand = false) (b : Belongings) (d : Devices) :
    (r.serve b d).2.1.hands.space = b.hands.space ∧ (r.serve b d).2.1.hands.process = b.hands.process := by
  by_cases quiet : r.isQuiet = true
  · rw [own_of_isQuiet quiet]
    exact ⟨rfl, rfl⟩
  cases r with
  | newSpace | mapFrame | freePage | dropSpace | installSpace | detachSpace | detachProcess | destroyProcess =>
    cases still
  | register family | takeChildren family => cases family <;> exact ⟨rfl, rfl⟩
  | takeChild family =>
    simp only [serve]
    split
    · cases family <;> exact ⟨rfl, rfl⟩
    · exact ⟨rfl, rfl⟩
  | allocate | freeFrame | openFile | keepFile | takeFile | installExecutable =>
    simp only [serve, serveAllocate, serveFreeFrame, serveKeepFile, serveTakeFile]
    repeat' split
    all_goals exact ⟨rfl, rfl⟩
  | _ => first | exact absurd rfl quiet | exact ⟨rfl, rfl⟩

/-- Where the space in hand comes from. -/
theorem space_of_serve (has : (r.serve b d).2.1.hands.space = some s) :
    (∃ s', b.hands.space = some s' ∧ s'.root = s.root) ∨ r = newSpace ∧ s.root = d.spacesMade ∨
      r = detachSpace ∧ b.space? = some s ∨
      r = destroyProcess ∧ b.hands.process.bind (·.space) = some s := by
  cases moves : r.movesInHand with
  | false => exact .inl ⟨s, (inHand_serve moves b d).1.symm.trans has, rfl⟩
  | true =>
    cases r with
    | newSpace =>
      obtain rfl := Option.some.inj has
      exact .inr (.inl ⟨rfl, rfl⟩)
    | mapFrame page writable =>
      left
      simp only [serve, serveMapFrame] at has
      split at has
      · next s' f inHand _ =>
        split at has
        · next mapped =>
          obtain rfl := Option.some.inj has
          exact ⟨s', inHand, (AddressSpace.root_map mapped).symm⟩
        · exact ⟨s, has, rfl⟩
      · exact ⟨s, has, rfl⟩
    | freePage page =>
      left
      simp only [serve, serveFreePage] at has
      split at has
      · next s' inHand =>
        split at has
        · obtain rfl := Option.some.inj has
          exact ⟨s', inHand, rfl⟩
        · exact ⟨s, has, rfl⟩
      · exact ⟨s, has, rfl⟩
    | dropSpace => cases has
    | installSpace =>
      simp only [serve] at has
      split at has
      · cases has
      · exact .inl ⟨s, has, rfl⟩
    | detachSpace =>
      simp only [serve] at has
      split at has
      · next space =>
        obtain rfl := Option.some.inj has
        exact .inr (.inr (.inl ⟨rfl, space⟩))
      · exact .inl ⟨s, has, rfl⟩
    | detachProcess => exact .inl ⟨s, has, rfl⟩
    | destroyProcess =>
      simp only [serve, serveDestroyProcess] at has
      split at has
      · next p doomed =>
        rcases Option.or_eq_some_iff.1 has with space | ⟨-, inHand⟩
        · exact .inr (.inr (.inr ⟨rfl, by rw [doomed]; exact space⟩))
        · exact .inl ⟨s, inHand, rfl⟩
      · exact .inl ⟨s, has, rfl⟩
    | _ => cases moves

/-- When its memory is detached a process has none. -/
theorem space?_detachSpace (b : Belongings) (d : Devices) : (detachSpace.serve b d).2.1.space? = none := by
  simp only [serve]
  split
  · cases hosts : b.process <;> simp [Belongings.space?, Belongings.modifyProcess, hosts]
  · next unmapped => exact unmapped

/-- A space that a thread gets with a request is made by that. -/
theorem has_of_serve (has : (r.serve b d).2.1.Has s) :
    (∃ s', b.Has s' ∧ s'.root = s.root) ∨ r = newSpace ∧ s.root = d.spacesMade := by
  rcases has with space | inHand | doomed
  · left
    refine ⟨s, ?_, rfl⟩
    cases moves : r.movesSpace with
    | false => exact .inl ((space?_serve moves b d).symm.trans space)
    | true =>
      cases r with
      | newProcess | detachProcess => cases space
      | detachSpace => cases (space?_detachSpace b d).symm.trans space
      | installSpace =>
        simp only [serve] at space
        split at space
        · exact .inr (.inl space)
        · exact .inl space
      | _ => cases moves
  · rcases space_of_serve inHand with ⟨s', had, same⟩ | made | ⟨-, space⟩ | ⟨-, doomed⟩
    · exact .inl ⟨s', .inr (.inl had), same⟩
    · exact .inr made
    · exact .inl ⟨s, .inl space, rfl⟩
    · exact .inl ⟨s, .inr (.inr doomed), rfl⟩
  · left
    refine ⟨s, ?_, rfl⟩
    cases moves : r.movesInHand with
    | false => exact .inr (.inr ((congrArg (·.bind (·.space)) (inHand_serve moves b d).2).symm.trans doomed))
    | true =>
      cases r with
      | detachProcess => exact .inl doomed
      | newSpace | dropSpace => exact .inr (.inr doomed)
      | mapFrame | freePage | installSpace | detachSpace =>
        simp only [serve, serveMapFrame, serveFreePage] at doomed
        repeat' split at doomed
        all_goals exact .inr (.inr doomed)
      | destroyProcess =>
        simp only [serve, serveDestroyProcess] at doomed
        split at doomed
        · cases doomed
        · exact .inr (.inr doomed)
      | _ => cases moves

/-! ## Records -/

/-- What a request activates. -/
def activated : DeviceRequest → List (Option Nat)
  | activate root | note (.activate root) => [root]
  | _ => []

/-- What a request adds to the record of activations. -/
theorem activations_serve (r : DeviceRequest) (b : Belongings) (d : Devices) (t : Tid) :
    (r.serve b d).2.2.activations t = d.activations t ++ if b.tid = t then r.activated else [] := by
  have other (none : r.activated = []) (same : (r.serve b d).2.2.activations t = d.activations t) :
      (r.serve b d).2.2.activations t = d.activations t ++ if b.tid = t then r.activated else [] := by
    rw [none, ite_self, List.append_nil, same]
  have noted (d' : Devices) {e : Event} (plain : ∀ root, e ≠ .activate root) :
      (d'.note b.tid e).activations t = d'.activations t :=
    (Devices.Idle.note d' b.tid plain).activations t
  cases r with
  | activate root => exact Devices.activations_note d b.tid _ t
  | note e =>
    refine (Devices.activations_note d b.tid e t).trans ?_
    cases e <;> simp [activated]
  | decode | checkRange | copyIn | copyString =>
    refine other rfl ?_
    simp only [serve, devices_onMemory]
  | allocate | openFile | freeFrame | mapFrame | freePage | copyOut | load | store | readBytes | writeBytes
  | destroyProcess | keepFile | takeFile | findFile | fill | clear | installSpace | installExecutable | detachSpace
  | takeChild =>
    refine other rfl ?_
    simp only [serve, serveAllocate, serveFreeFrame, serveMapFrame, serveFreePage, serveDestroyProcess,
      serveKeepFile, serveTakeFile]
    repeat' split
    all_goals first | rfl | exact noted _ (by rintro _ ⟨⟩)
  | create | remove | read | write | seek | deny | allow | close | put | disableInterrupts | setInterrupts
  | powerOff => exact other rfl (noted _ (by rintro _ ⟨⟩))
  | _ => exact other rfl rfl

/-- How many spaces a request makes. -/
def makesSpaces : DeviceRequest → Nat
  | newSpace => 1
  | _ => 0

theorem spacesMade_serve (r : DeviceRequest) (b : Belongings) (d : Devices) :
    (r.serve b d).2.2.spacesMade = d.spacesMade + r.makesSpaces := by
  cases r with
  | decode | checkRange | copyIn | copyString =>
    simp only [serve, devices_onMemory]
    rfl
  | allocate | openFile | freeFrame | mapFrame | freePage | copyOut | load | store | readBytes | writeBytes
  | destroyProcess | keepFile | takeFile | findFile | fill | clear | installSpace | installExecutable | detachSpace
  | takeChild =>
    simp only [serve, serveAllocate, serveFreeFrame, serveMapFrame, serveFreePage, serveDestroyProcess,
      serveKeepFile, serveTakeFile]
    repeat' split
    all_goals rfl
  | _ => rfl

/-- A frame that comes back with interrupts on is not counted. -/
theorem freed_serve (r : DeviceRequest) {b : Belongings} (d : Devices)
    (on : ∀ f ∈ r.givesBack b, b.interrupts = .on) :
    (r.serve b d).2.2.freedWithInterruptsOff = d.freedWithInterruptsOff := by
  cases r with
  | decode | checkRange | copyIn | copyString => simp only [serve, devices_onMemory]
  | freeFrame =>
    simp only [serve, serveFreeFrame, givesBack] at on ⊢
    split
    · next f inHand =>
      rw [inHand] at on
      simp [Devices.releaseFrame, Devices.note, on f (by simp), InterruptLevel.isOn]
    · rfl
  | mapFrame page writable =>
    simp only [serve, serveMapFrame, givesBack] at on ⊢
    split
    · next s f inHand inHand' =>
      split
      · rfl
      · next e refused =>
        simp only [inHand, inHand', refused] at on
        simp [Devices.releaseFrame, Devices.note, on f (by simp), InterruptLevel.isOn]
    · rfl
  | freePage page =>
    simp only [serve, serveFreePage, givesBack] at on ⊢
    split
    · next s inHand =>
      split
      · next t found =>
        simp only [inHand, Option.bind_some, found] at on
        simp [Devices.releaseFrame, Devices.note, on t.frame (by simp), InterruptLevel.isOn]
      · rfl
    · rfl
  | allocate | openFile | copyOut | load | store | readBytes | writeBytes | destroyProcess | keepFile | takeFile
  | findFile | fill | clear | installSpace | installExecutable | detachSpace | takeChild =>
    simp only [serve, serveAllocate, serveDestroyProcess, serveKeepFile, serveTakeFile]
    repeat' split
    all_goals rfl
  | _ => rfl

/-- What gives a frame back fits a slot with interrupts on. -/
theorem Fits.on_of_givesBack {o : Slot} {f : Frame} (fits : r.Fits o) (mem : f ∈ r.givesBack b) :
    o.interrupts = .on := by
  cases r with
  | freeFrame | mapFrame | freePage => exact fits
  | _ => cases mem

end DeviceRequest

namespace Scenario

variable {x : Scenario} {turns : ℕ → Turn} {i j n : ℕ} {t u : Tid} {s s' : AddressSpace}

/-! ## Roots over time -/

/-- Roots go up. -/
theorem spacesMade_le (le : i ≤ j) :
    (x.machineAt turns i).devices.spacesMade ≤ (x.machineAt turns j).devices.spacesMade := by
  induction le with
  | refl => exact Nat.le_refl _
  | @step j _ ih =>
    refine Nat.le_trans ih ?_
    rw [machineAt]
    rcases (x.machineAt turns j).serve_turn x.environment (turns j) with ⟨u, r, next, -, devices⟩ | idle
    · rw [devices, DeviceRequest.spacesMade_serve]
      exact Nat.le_add_right _ _
    · exact Nat.le_of_eq idle.spacesMade.symm

theorem Does.makes_space (does : x.Does turns i t (.device .newSpace) ()) :
    (x.machineAt turns (i + 1)).devices.spacesMade = (x.machineAt turns i).devices.spacesMade + 1 := by
  rw [does.served.2.1, DeviceRequest.spacesMade_serve]
  rfl

/-- A space that a thread has was made by it, with the root that it has. -/
theorem made_root (has : (x.standingAt turns i t).own.Has s) : ∃ k < i, x.Does turns k t (.device .newSpace) () ∧
    (x.machineAt turns k).devices.spacesMade = s.root := by
  induction i generalizing s with
  | zero =>
    obtain ⟨v, fresh⟩ := x.own_zero turns t
    exact (Belongings.not_has_fresh (fresh ▸ has)).elim
  | succ i ih =>
    have earlier {s' : AddressSpace} (same : s'.root = s.root) (had : (x.standingAt turns i t).own.Has s') :
        ∃ k < i + 1, x.Does turns k t (.device .newSpace) () ∧
          (x.machineAt turns k).devices.spacesMade = s.root := by
      obtain ⟨k, before, made, root⟩ := ih had
      exact ⟨k, Nat.lt_succ_of_lt before, made, root.trans same⟩
    -- A turn leaves a space its root, unless it is the one that makes the space.
    rcases x.own_turned turns i t with own | ⟨-, fresh⟩ | ⟨r, answer, does, own⟩
    · exact earlier rfl (own ▸ has)
    · exact (Belongings.not_has_fresh (fresh ▸ has)).elim
    · rw [own] at has
      rcases DeviceRequest.has_of_serve has with ⟨s', had, same⟩ | ⟨rfl, root⟩
      · exact earlier same had
      · exact ⟨i, Nat.lt_succ_self i, does, root.symm⟩

/-- A root is that of spaces of one thread. -/
theorem same_owner (has : (x.standingAt turns i t).own.Has s) (has' : (x.standingAt turns j u).own.Has s')
    (same : s.root = s'.root) : t = u := by
  obtain ⟨k, -, made, root⟩ := made_root has
  obtain ⟨k', -, made', root'⟩ := made_root has'
  -- Each making raises the count, so the same count is that before one making.
  obtain rfl : k = k' := by
    have count := root.trans (same.trans root'.symm)
    rcases Nat.lt_trichotomy k k' with earlier | same | later
    · have more := @spacesMade_le x turns _ _ (Nat.succ_le_of_lt earlier)
      rw [Nat.succ_eq_add_one, made.makes_space] at more
      omega
    · exact same
    · have more := @spacesMade_le x turns _ _ (Nat.succ_le_of_lt later)
      rw [Nat.succ_eq_add_one, made'.makes_space] at more
      omega
  exact Turn.step.inj (made.goes.2.1.symm.trans made'.goes.2.1)

/-! ## Activations over time -/

/-- Nobody puts activations on record otherwise. -/
theorem not_notes_activate {root : Option Nat} {answer : Unit} :
    ¬x.Does turns i t (.device (.note (.activate root))) answer := fun does => by
  obtain ⟨k, -, t', start, makes, deed⟩ := does.deed rfl
  cases deed with
  | starting d first now left => exact (starts_of_left left).elim nofun (·.elim nofun nofun)
  | acting program j current next started le conduct =>
    cases conduct with
    | ordinary plain => cases plain
  | exiting result j b d status first started le now begins left =>
    rcases exits_of_left left with ⟨⟨⟩⟩ | ⟨⟨⟩⟩ | ⟨_, ⟨⟩⟩ | ⟨_, ⟨⟩⟩ | ⟨⟨⟩⟩

variable (x) (turns) in
/-- The record of what a thread has activated goes on when it activates something. -/
theorem activations_succ (i : ℕ) (t : Tid) :
    (x.machineAt turns (i + 1)).devices.activations t = (x.machineAt turns i).devices.activations t ∧
      (∀ root, ¬x.Does turns i t (.device (.activate root)) ()) ∨
    ∃ root, x.Does turns i t (.device (.activate root)) () ∧
      (x.machineAt turns (i + 1)).devices.activations t =
        (x.machineAt turns i).devices.activations t ++ [root] := by
  by_cases activates : ∃ root, x.Does turns i t (.device (.activate root)) ()
  · obtain ⟨root, does⟩ := activates
    refine .inr ⟨root, does, ?_⟩
    obtain ⟨next, here⟩ := does.1
    have tid : (x.standingAt turns i t).own.tid = t := (x.tid_at turns i t).resolve_left fun gone => by
      cases here.symm.trans gone
    rw [does.served.2.1, DeviceRequest.activations_serve, if_pos tid]
    rfl
  · refine .inl ⟨?_, not_exists.1 activates⟩
    rw [machineAt]
    rcases (x.machineAt turns i).serve_turn x.environment (turns i) with ⟨u, r, next, attempts, devices⟩ | idle
    swap
    · exact idle.activations t
    -- Whoever took the turn, what it put on record is no activation of this thread.
    have does := does_of_attempts attempts
    have tid : ((x.machineAt turns i).thread u).own.tid = u := (x.tid_at turns i u).resolve_left fun gone => by
      cases attempts.does.symm.trans gone
    rw [devices, DeviceRequest.activations_serve, tid]
    split
    · next same =>
      subst same
      cases r with
      | activate root => exact absurd ⟨root, does⟩ activates
      | note e =>
        cases e with
        | activate root => exact absurd does not_notes_activate
        | _ => exact List.append_nil _
      | _ => exact List.append_nil _
    · exact List.append_nil _

/-- What is the last that a thread has activated was activated by it, and nothing since then. -/
theorem activated_last {root : Option Nat}
    (last : ((x.machineAt turns j).devices.activations t).getLast? = some root) :
    ∃ i < j, x.Does turns i t (.device (.activate root)) () ∧
      ∀ n, i < n → n < j → ∀ root', ¬x.Does turns n t (.device (.activate root')) () := by
  induction j with
  | zero => cases last
  | succ j ih =>
    rcases x.activations_succ turns j t with ⟨same, still⟩ | ⟨root', does, more⟩
    · rw [same] at last
      obtain ⟨i, before, does, after⟩ := ih last
      refine ⟨i, Nat.lt_succ_of_lt before, does, fun n later early root' => ?_⟩
      rcases Nat.lt_or_eq_of_le (Nat.le_of_lt_succ early) with early | rfl
      · exact after n later early root'
      · exact still root'
    · rw [more, List.getLast?_concat] at last
      obtain rfl := Option.some.inj last
      exact ⟨j, Nat.lt_succ_self j, does, fun n later early => absurd early (Nat.not_lt.2 later)⟩

/-- The memory of a process was installed by its thread, and was not detached since then. -/
theorem installed_last (mapped : (x.standingAt turns j t).own.space? = some s) :
    ∃ i < j, x.Does turns i t (.device .installSpace) () ∧
      ∀ n, i < n → n < j → ∀ answer, ¬x.Does turns n t (.device .detachSpace) answer := by
  induction j with
  | zero =>
    obtain ⟨v, fresh⟩ := x.own_zero turns t
    rw [fresh] at mapped
    cases mapped
  | succ j ih =>
    have still (answer : Bool) : ¬x.Does turns j t (.device .detachSpace) answer := fun does => by
      rw [does.served.1, DeviceRequest.space?_detachSpace] at mapped
      cases mapped
    have earlier (mapped : (x.standingAt turns j t).own.space? = some s) : ∃ i < j + 1,
        x.Does turns i t (.device .installSpace) () ∧
        ∀ n, i < n → n < j + 1 → ∀ answer, ¬x.Does turns n t (.device .detachSpace) answer := by
      obtain ⟨i, before, does, since⟩ := ih mapped
      refine ⟨i, Nat.lt_succ_of_lt before, does, fun n later early answer => ?_⟩
      rcases Nat.lt_or_eq_of_le (Nat.le_of_lt_succ early) with early | rfl
      · exact since n later early answer
      · exact still answer
    rcases x.own_turned turns j t with own | ⟨-, fresh⟩ | ⟨r, answer, does, own⟩
    · exact earlier (own ▸ mapped)
    · rw [fresh] at mapped
      cases mapped
    rw [own] at mapped
    cases had : (x.standingAt turns j t).own.space? with
    | none =>
      obtain ⟨rfl, -⟩ := DeviceRequest.installs_of_space? _ had mapped
      exact ⟨j, Nat.lt_succ_self j, does, fun n later early => absurd early (Nat.not_lt.2 later)⟩
    | some s' =>
      -- Memory that is there is kept by all that is allowed, but for the request that detaches it.
      obtain ⟨next, here⟩ := id does.1
      have kept := DeviceRequest.keeps_space? (allowed_at here).2
        (by rintro rfl; exact still answer does) (x.machineAt turns j).devices had
      rw [mapped] at kept
      exact earlier (had.trans kept.symm)

/-! ## Frames over time -/

variable (x) (turns) in
/-- Frames come back with interrupts on. -/
theorem freed_at (i : ℕ) : (x.machineAt turns i).devices.freedWithInterruptsOff = 0 := by
  induction i with
  | zero => rfl
  | succ i ih =>
    rw [machineAt]
    rcases (x.machineAt turns i).serve_turn x.environment (turns i) with ⟨u, r, next, attempts, devices⟩ | idle
    · rw [devices, DeviceRequest.freed_serve r _ fun f mem => ?_, ih]
      have fits : r.Fits (x.slotAt turns i u) := fits (a := .device r) attempts.does
      exact fits.on_of_givesBack mem
    · exact idle.freed.trans ih

end Scenario

end Userland

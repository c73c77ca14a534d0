import Userland.Proofs.Roots
import Userland.Proofs.Sections

/-!
# Teardown

What a process has is given back in the right order. Frames come back with interrupts on. In an exit the memory is
detached, and the kernel's page tables are activated, in a section with interrupts off, before any of its frames
comes back; so the root that a thread has activated last is never that of a space that is being given back, or has
been. The process itself is detached with interrupts off and destroyed with interrupts on, when it has nothing left
(`Scenario.tears_down_safely`).
-/

namespace Userland

open ThreadProgram
open Belongings (Slot)

-- Which words a line has does not matter for what is done with them.
attribute [local irreducible] Words.ofString

/-! ## What is given back -/

namespace DeviceRequest

variable {r : DeviceRequest} {b : Belongings} {f : Frame} {s : AddressSpace}

/-- A frame that is given back is in hand, or backs a page of the space in hand that is given back. -/
theorem givesBack_cases (mem : f ∈ r.givesBack b) :
    b.hands.frame = some f ∨ r.empties = true ∧ ∃ s, b.hands.space = some s ∧ f ∈ s.frames := by
  cases r with
  | freeFrame => exact .inl (Option.mem_toList.1 mem)
  | mapFrame page writable =>
    left
    simp only [givesBack] at mem
    split at mem
    · next s g inHand inHand' =>
      split at mem
      · cases mem
      · obtain rfl := List.mem_singleton.1 mem
        exact inHand'
    · cases mem
  | freePage page =>
    obtain ⟨t, found, rfl⟩ := Option.map_eq_some_iff.1 (Option.mem_toList.1 mem)
    obtain ⟨s, inHand, found⟩ := Option.bind_eq_some_iff.1 found
    exact .inr ⟨rfl, s, inHand, AddressSpace.mem_frames_of_translate found⟩
  | _ => cases mem

/-- What a thread gives back it has. -/
theorem mem_frames_of_givesBack (mem : f ∈ r.givesBack b) : f ∈ b.frames := by
  rcases givesBack_cases mem with inHand | ⟨-, s, inHand, mem⟩
  · exact List.mem_append_right _ (Option.mem_toList.2 inHand)
  · refine List.mem_append_left _ (List.mem_append_right _ ?_)
    rw [inHand]
    exact mem

/-- The frames of the spaces that a thread has are its own. -/
theorem mem_frames_of_has (orderly : b.Orderly) (has : b.Has s) (mem : f ∈ s.frames) : f ∈ b.frames := by
  rcases has with mapped | inHand | doomed
  · refine List.mem_append_left _ (List.mem_append_left _ ?_)
    rw [mapped]
    exact mem
  · refine List.mem_append_left _ (List.mem_append_right _ ?_)
    rw [inHand]
    exact mem
  · obtain ⟨p, inHand, space⟩ := Option.bind_eq_some_iff.1 doomed
    cases (orderly.process p inHand).space.symm.trans space

/-- A frame of a space that is given back is given back with the space, and that is in hand. -/
theorem empties_of_givesBack (mem : f ∈ r.givesBack b) (once : b.frames.Nodup) (orderly : b.Orderly)
    (has : b.Has s) (mem' : f ∈ s.frames) : b.hands.space = some s ∧ r.empties = true := by
  obtain ⟨spaces, -, frame⟩ := List.nodup_append'.1 once
  obtain ⟨-, -, space⟩ := List.nodup_append'.1 spaces
  have own {s' : AddressSpace} (inHand : b.hands.space = some s') (mem : f ∈ s'.frames) :
      f ∈ Belongings.framesOf b.hands.space := by
    rw [inHand]
    exact mem
  rcases has with mapped | inHand | doomed
  · have mapped : f ∈ Belongings.framesOf b.space? := by
      rw [mapped]
      exact mem'
    rcases givesBack_cases mem with inHand | ⟨-, s', inHand, mem⟩
    · exact (frame (List.mem_append_left _ mapped) (Option.mem_toList.2 inHand)).elim
    · exact (space mapped (own inHand mem)).elim
  · rcases givesBack_cases mem with inHand' | ⟨empties, -⟩
    · exact (frame (List.mem_append_right _ (own inHand mem')) (Option.mem_toList.2 inHand')).elim
    · exact ⟨inHand, empties⟩
  · obtain ⟨p, inHand, space⟩ := Option.bind_eq_some_iff.1 doomed
    cases (orderly.process p inHand).space.symm.trans space

end DeviceRequest

namespace Scenario

variable {x : Scenario} {turns : ℕ → Turn} {i j k b l n : ℕ} {t u : Tid} {status : Int32} {s : AddressSpace}
  {f : Frame}

/-- A frame that goes out of use is given back, by the thread that has it and with interrupts on. -/
theorem frees_at (used : (x.machineAt turns i).devices.pool.inUse f = true)
    (free : (x.machineAt turns (i + 1)).devices.pool.inUse f = false) : ∃ t r answer,
      x.Does turns i t (.device r) answer ∧ f ∈ r.givesBack (x.standingAt turns i t).own ∧
      f ∈ (x.standingAt turns i t).own.frames ∧ (x.standingAt turns i t).own.interrupts = .on := by
  rw [machineAt] at free
  rcases (x.machineAt turns i).serve_turn x.environment (turns i) with ⟨u, r, next, attempts, devices⟩ | idle
  swap
  · rw [idle.pool, used] at free
    cases free
  rw [devices, ← Bool.not_eq_true, DeviceRequest.inUse_serve, not_and, not_not] at free
  have mem : f ∈ r.givesBack (x.standingAt turns i u).own := free (.inl used)
  have fits : r.Fits (x.slotAt turns i u) := fits (a := .device r) attempts.does
  exact ⟨u, r, _, does_of_attempts attempts, mem, DeviceRequest.mem_frames_of_givesBack mem,
    fits.on_of_givesBack mem⟩

/-- A thread gives a space back: it has the space in hand, and frees a page of it, or drops it. -/
def GivesUp (x : Scenario) (turns : ℕ → Turn) (i : ℕ) (t : Tid) (s : AddressSpace) : Prop :=
  (x.standingAt turns i t).own.hands.space = some s ∧
    ∃ r answer, x.Does turns i t (.device r) answer ∧ r.empties = true

/-! ## Exits -/

namespace Begins

variable (begins : x.Begins turns b u (.exit status))
include begins

/-- A thread that begins to exit has no space in hand. -/
theorem empty_handed : (x.standingAt turns b u).own.hands.space = none := by
  obtain ⟨k, before, t, start, makes⟩ := begins.made
  obtain ⟨result, j, started, le, begun⟩ := begins.begun makes
  cases result with
  | ok program =>
    -- A running process has none.
    by_contra inHand
    obtain ⟨p, hosts, stopped⟩ := ((x.sound turns b).orderly u).space inHand
    generalize slot : (x.standingAt turns b u).own.slot = o at begun
    cases begun
    have process := congrArg Slot.process slot
    change (x.standingAt turns b u).own.process.map Process.outline = _ at process
    change (x.standingAt turns b u).own.process = some p at hosts
    rw [hosts] at process
    exact stopped (congrArg Process.Outline.state (Option.some.inj process))
  | error e =>
    have unexited (b' : ℕ) (_ : j ≤ b') (early : b' < b) (status' : Int32) :
        ¬x.Begins turns b' u (.exit status') := fun begins' => begins'.last early _ begins
    -- A load that has failed leaves nothing in hand, and the thread does nothing from then until it exits.
    rw [(failing_at makes started le unexited).2]
    obtain ⟨d, rfl, left, ongoing⟩ := started
    have keeps := (wp_at (Q := fun result s => (∃ e, result = .error e) → s.own.hands.space = none) makes.starts
      (makes.inside (Nat.lt_succ_self k)) remains_starting
      (makes.stands ▸ Kernel.wp_starting (fun _ _ => rfl) fun _ _ _ => rfl) ongoing).2
    rw [left] at keeps
    exact keeps ⟨e, rfl⟩

/-- In an exit a space that is in hand has been detached. -/
theorem detached (le : b ≤ i) (inHand : (x.standingAt turns i u).own.hands.space = some s) : ∃ l, b ≤ l ∧ l < i ∧
    x.Does turns l u (.device .detachSpace) true ∧
    ∃ s', (x.standingAt turns l u).own.space? = some s' ∧ s'.root = s.root := by
  induction le generalizing s with
  | refl => cases begins.empty_handed.symm.trans inHand
  | @step i le ih =>
    have earlier {s' : AddressSpace} (inHand : (x.standingAt turns i u).own.hands.space = some s')
        (same : s'.root = s.root) : ∃ l, b ≤ l ∧ l < i + 1 ∧ x.Does turns l u (.device .detachSpace) true ∧
          ∃ s', (x.standingAt turns l u).own.space? = some s' ∧ s'.root = s.root := by
      obtain ⟨l, after, before, does, s'', mapped, same'⟩ := ih inHand
      exact ⟨l, after, Nat.lt_succ_of_lt before, does, s'', mapped, same'.trans same⟩
    rcases own_succ (begins.inside_later le) with own | ⟨r, answer, does, permitted, own⟩
    · exact earlier (own ▸ inHand) rfl
    rw [own] at inHand
    -- The space was there before, or it is new, or detached now, or comes out of the process that is destroyed.
    rcases DeviceRequest.space_of_serve inHand with ⟨s', had, same⟩ | ⟨rfl, -⟩ | ⟨rfl, mapped⟩ | ⟨rfl, doomed⟩
    · exact earlier had same
    · exact (begins.inExit does le).elim nofun (·.elim nofun (·.elim nofun (·.elim nofun nofun)))
    · obtain rfl : answer = true := by
        rw [does.redraws.detached_eq, Belongings.space?_slot, mapped]
        rfl
      exact ⟨i, le, Nat.lt_succ_self i, does, s, mapped, rfl⟩
    · obtain ⟨p, dooms, has⟩ := Option.bind_eq_some_iff.1 doomed
      cases (permitted p dooms).space.symm.trans has

end Begins

/-- What thread `u` has in hand at time `i`, in the exit that it began at time `b`, is the memory of its process:
    it has detached that at time `l`, activated the kernel's page tables at time `m`, and turned interrupts on at
    time `n`. -/
structure Detached (x : Scenario) (turns : ℕ → Turn) (b i : ℕ) (u : Tid) (s : AddressSpace) (l m n : ℕ) :
    Prop where
  /-- The order of the times. -/
  order : b ≤ l ∧ l < m ∧ m < n ∧ n < i
  /-- First the memory is detached. -/
  detaches : x.Does turns l u (.device .detachSpace) true
  /-- It is what is in hand later. -/
  same : ∃ s', (x.standingAt turns l u).own.space? = some s' ∧ s'.root = s.root ∧
    (x.standingAt turns i u).own.frames ⊆ s'.frames
  /-- Then the kernel's page tables are activated. -/
  activates : x.Does turns m u (.device (.activate none)) ()
  /-- Then interrupts are turned on. -/
  restores : x.Does turns n u (.device (.setInterrupts .on)) ()
  /-- They were off all the time. -/
  off : ∀ j, l ≤ j → j ≤ n → (x.slotAt turns j u).interrupts = .off

/-- In an exit a space is given back when it was detached and the kernel's page tables were activated. -/
theorem Begins.detached_of_givesUp (begins : x.Begins turns b u (.exit status)) (le : b ≤ i)
    (gives : x.GivesUp turns i u s) : ∃ l m n, x.Detached turns b i u s l m n := by
  obtain ⟨inHand, r, answer, does, empties⟩ := gives
  obtain ⟨l, after, before, detaches, s', mapped, same⟩ := begins.detached le inHand
  obtain ⟨next, here⟩ := does.1
  have other : (Action.device r).isShielded = false := by
    cases r with
    | freePage | dropSpace => rfl
    | _ => cases empties
  obtain ⟨m, n, lt, lt', lt'', activates, restores, off⟩ := begins.detaches after detaches before here other
  refine ⟨l, m, n, ⟨after, lt, lt', lt''⟩, detaches, ⟨s', mapped, same, fun f mem => ?_⟩, activates, restores, off⟩
  -- What the thread has left it had when it detached the memory, and it had nothing else.
  obtain ⟨next', there⟩ := detaches.1
  obtain ⟨-, ⟨p, hosts, exiting⟩, nothing⟩ := allowed_at there
  have unfilled : (x.standingAt turns l u).own.hands.frame = none := by
    by_contra inHand
    obtain ⟨p', hosts', loading⟩ := ((x.sound turns l).orderly u).frame inHand
    obtain rfl := Option.some.inj (hosts.symm.trans hosts')
    cases exiting.symm.trans loading
  have mem := (begins.sheds after (Nat.le_of_lt before)).1 mem
  simpa only [Belongings.frames, Belongings.framesOf, mapped, nothing, unfilled, Option.map_some, Option.map_none,
    Option.getD_some, Option.getD_none, Option.toList_none, List.append_nil] using mem

/-- Who gives back a frame of a space that a thread has is that thread, and gives the space back. -/
theorem Does.givesUp {r : DeviceRequest} {answer : r.Answer} (does : x.Does turns i t (.device r) answer)
    (mem : f ∈ r.givesBack (x.standingAt turns i t).own) (has : (x.standingAt turns i u).own.Has s)
    (mem' : f ∈ s.frames) : u = t ∧ x.GivesUp turns i t s := by
  have sound := x.sound turns i
  obtain rfl : u = t := sound.frames.apart u t f (DeviceRequest.mem_frames_of_has (sound.orderly u) has mem')
    (DeviceRequest.mem_frames_of_givesBack mem)
  obtain ⟨inHand, empties⟩ :=
    DeviceRequest.empties_of_givesBack mem (sound.frames.once u) (sound.orderly u) has mem'
  exact ⟨rfl, inHand, r, answer, does, empties⟩

/-- In an exit frames are given back with the space in hand only. -/
theorem Begins.givesUp (begins : x.Begins turns b u (.exit status)) (le : b ≤ i) {r : DeviceRequest}
    {answer : r.Answer} (does : x.Does turns i u (.device r) answer)
    (mem : f ∈ r.givesBack (x.standingAt turns i u).own) : ∃ s, x.GivesUp turns i u s ∧ f ∈ s.frames := by
  have exits := begins.inExit does le
  cases r with
  | freeFrame | mapFrame => exact exits.elim nofun (·.elim nofun (·.elim nofun (·.elim nofun nofun)))
  | freePage page =>
    obtain ⟨g, found, rfl⟩ := Option.map_eq_some_iff.1 (Option.mem_toList.1 mem)
    obtain ⟨s, inHand, found⟩ := Option.bind_eq_some_iff.1 found
    exact ⟨s, ⟨inHand, .freePage page, answer, does, rfl⟩, AddressSpace.mem_frames_of_translate found⟩
  | _ => cases mem

/-! ## Roots -/

/-- Who gives a space back does so in its start or in its exit. -/
theorem GivesUp.deed (gives : x.GivesUp turns i t s) : ∃ k < i, ∃ t' start, x.Makes turns k t' start t ∧
    ((∃ d r answer first, i = k + 1 + d ∧ r.empties = true ∧ x.toldAt turns i t (.device r) = some answer ∧
      x.leftAt turns t (x.kernel.starting start) (k + 1) d = Program.ask (Action.device r) first) ∨
    ∃ b ≤ i, ∃ status result j,
      x.Begins turns b t (.exit status) ∧ x.Started turns t start k result j ∧ j ≤ b) := by
  obtain ⟨-, r, answer, does, empties⟩ := gives
  have extra : (Action.device r).isOrdinary = false := by
    cases r with
    | freePage | dropSpace => rfl
    | _ => cases empties
  obtain ⟨k, before, t', start, makes, deed⟩ := does.deed extra
  refine ⟨k, before, t', start, makes, ?_⟩
  cases deed with
  | starting d first now left => exact .inl ⟨d, r, answer, first, now, empties, does.2, left⟩
  | acting program j current next started le conduct =>
    cases conduct with
    | ordinary plain => cases extra.symm.trans plain
    | _ => cases empties
  | exiting result j b d status first started le now begins =>
    exact .inr ⟨b, now ▸ Nat.le_add_right b d, status, result, j, begins, started, le⟩

/-- Who gets other page tables to run on than the kernel's gets them in its start. -/
theorem Does.engages {r : DeviceRequest} {answer : r.Answer} (does : x.Does turns i t (.device r) answer)
    (engages : r.engages = true) (own : r ≠ .activate none) : ∃ k < i, ∃ t' start, x.Makes turns k t' start t ∧
      ∃ d first, i = k + 1 + d ∧
        x.leftAt turns t (x.kernel.starting start) (k + 1) d = Program.ask (Action.device r) first := by
  have extra : (Action.device r).isOrdinary = false := by
    cases r with
    | installSpace | activate => rfl
    | _ => cases engages
  obtain ⟨next, here⟩ := id does.1
  obtain ⟨k, before, t', start, makes, deed⟩ := does.deed extra
  refine ⟨k, before, t', start, makes, ?_⟩
  cases deed with
  | starting d first now left => exact ⟨d, first, now, left⟩
  | acting program j current next started le conduct =>
    cases conduct with
    | ordinary plain => cases extra.symm.trans plain
    | _ => cases engages
  | exiting result j b d status first started le now begins =>
    -- An exit installs no memory, and activates the kernel's page tables only.
    obtain ⟨p, -, -, -, -, unmakes⟩ := begins.unmakes_at (now ▸ Nat.le_add_right b d : b ≤ i)
    have unmakes : r.Unmakes t p status (x.slotAt turns i t) := unmakes (.device r) next here
    cases r with
    | installSpace => exact unmakes.elim
    | activate root => exact absurd (congrArg DeviceRequest.activate unmakes.1) own
    | _ => cases engages

/-- What is done in a start is done before the start has come to its result. -/
theorem Started.lt_of_ask {start : NewProcess} {result : Except LoadError LoadedProgram} {d : ℕ} {a : Action}
    {first : a.Answer → ThreadProgram (Except LoadError LoadedProgram)}
    (started : x.Started turns u start k result j)
    (left : x.leftAt turns u (x.kernel.starting start) (k + 1) d = Program.ask a first) : k + 1 + d < j := by
  obtain ⟨e, rfl, over', -⟩ := started
  by_contra late
  cases left.symm.trans (leftAt_of_pure (by omega) over')

/-- A thread that has page tables of its own to run on gives a space back in its exit only: if its load had failed
    it would have got none. -/
theorem GivesUp.detached (gives : x.GivesUp turns i t s) {r : DeviceRequest} {answer : r.Answer}
    (does : x.Does turns n t (.device r) answer) (engages : r.engages = true) (own : r ≠ .activate none) :
    ∃ b l m n', n < b ∧ x.Detached turns b i t s l m n' := by
  obtain ⟨k, early, t', start, makes, d, first, rfl, left⟩ := does.engages engages own
  obtain ⟨k', early', t'', start', makes', gives'⟩ := gives.deed
  obtain ⟨rfl, rfl, rfl⟩ := makes.unique makes'
  have sequel := @leads_leftAt x turns (k + 1) t _ _ _ (@Kernel.leads_starting_sequel x.kernel start)
  rcases gives' with ⟨e, r', answer', first', rfl, empties, told, left'⟩ |
    ⟨b, le, status, result, j, begins, started, le'⟩
  · -- In a start the one rules out the other, whichever comes first.
    rcases Nat.lt_trichotomy d e with earlier | same | later
    · have leads := sequel d
      rw [left] at leads
      have only := only_after left does.2 ((leads answer).1.engages engages) earlier
      rw [left'] at only
      cases empties.symm.trans only.1
    · subst same
      rw [left] at left'
      cases (Program.ask.inj left').1
      cases r with
      | installSpace | activate => cases empties
      | _ => cases engages
    · have leads := sequel e
      rw [left'] at leads
      have only := only_after left' told ((leads answer').1.empties empties) later
      rw [left] at only
      cases engages.symm.trans only.1
  · obtain ⟨l, m, n, detached⟩ := begins.detached_of_givesUp le gives
    exact ⟨b, l, m, n, Nat.lt_of_lt_of_le (started.lt_of_ask left) le', detached⟩

/-- The root that a thread has activated last is not that of a space that is given back, or has been. -/
theorem GivesUp.not_activated (gives : x.GivesUp turns i t s) (le : i ≤ j) (u : Tid) :
    ((x.machineAt turns j).devices.activations u).getLast? ≠ some (some s.root) := fun last => by
  obtain ⟨n, before, activates, since⟩ := activated_last last
  obtain ⟨next, here⟩ := id activates.1
  have fits : DeviceRequest.Fits (.activate (some s.root)) (x.slotAt turns n u) := fits here
  rcases fits with ⟨-, ⟨⟩⟩ | ⟨-, same⟩
  rw [Belongings.space?_slot] at same
  obtain ⟨s', mapped, root⟩ := Option.map_eq_some_iff.1 same.symm
  obtain rfl : u = t := same_owner (.inl mapped) (.inr (.inl gives.1)) root
  -- It was activated in a start, so the kernel's page tables have been activated since then.
  obtain ⟨b, l, m, n', early, detached⟩ := gives.detached activates rfl nofun
  obtain ⟨after, lt, lt', lt''⟩ := detached.order
  exact since m (by omega) (by omega) none detached.activates

/-- Nor is it that of the memory of a process. -/
theorem GivesUp.not_mapped (gives : x.GivesUp turns i t s) (le : i ≤ j) {s' : AddressSpace}
    (mapped : (x.standingAt turns j u).own.space? = some s') : s'.root ≠ s.root := fun root => by
  obtain rfl : u = t := same_owner (.inl mapped) (.inr (.inl gives.1)) root
  obtain ⟨n, before, installs, since⟩ := installed_last mapped
  -- It was installed in a start, so it has been detached since then.
  obtain ⟨b, l, m, n', early, detached⟩ := gives.detached installs rfl nofun
  obtain ⟨after, lt, lt', lt''⟩ := detached.order
  exact since l (by omega) (by omega) true detached.detaches

/-! ## Processes -/

/-- A process is detached in an exit, with interrupts off, when it has nothing left and nothing is in hand. -/
theorem Does.detachProcess (does : x.Does turns i t (.device .detachProcess) ()) :
    (∃ b < i, ∃ status, x.Begins turns b t (.exit status)) ∧ (x.slotAt turns i t).interrupts = .off ∧
    (x.standingAt turns i t).own.hands = .empty ∧ ∃ p, (x.standingAt turns i t).own.process = some p ∧ p.Bare := by
  obtain ⟨next, here⟩ := id does.1
  obtain ⟨off, o, hosts, -⟩ : DeviceRequest.Fits .detachProcess (x.slotAt turns i t) := fits here
  obtain ⟨p, hosts, -⟩ := Option.map_eq_some_iff.1 hosts
  obtain ⟨-, nothing, bare⟩ := allowed_at here
  exact ⟨does.exits rfl rfl rfl rfl, off, nothing, p, hosts, bare p hosts⟩

/-- A process that a thread is about to destroy was detached. -/
theorem detached_of_doomed {p : Process.Outline} (doomed : (x.slotAt turns i t).doomed = some p) :
    ∃ l < i, x.Does turns l t (.device .detachProcess) () := by
  induction i with
  | zero =>
    obtain ⟨u, fresh⟩ := x.slotAt_zero turns t
    rw [fresh] at doomed
    cases doomed
  | succ i ih =>
    have earlier (before : (x.slotAt turns i t).doomed = some p) :
        ∃ l < i + 1, x.Does turns l t (.device .detachProcess) () :=
      (ih before).imp fun l detached => ⟨Nat.lt_succ_of_lt detached.1, detached.2⟩
    have turned := x.turned turns i t
    generalize x.slotAt turns i t = o at turned earlier
    generalize x.slotAt turns (i + 1) t = o' at turned doomed
    cases turned with
    | same => exact earlier doomed
    | made => cases doomed
    | installs o space => exact earlier doomed
    | asks r answer o does =>
      cases r with
      | detachProcess => exact ⟨i, Nat.lt_succ_self i, does⟩
      | destroyProcess => cases doomed
      | _ => exact earlier doomed

/-- A process is destroyed with interrupts on, when it has nothing left; it was detached before, with interrupts
    off. Nothing comes out of it. -/
theorem Does.destroys {answer : Option Leftovers} (does : x.Does turns i t (.device .destroyProcess) answer) :
    (x.slotAt turns i t).interrupts = .on ∧ (x.standingAt turns i t).own.process = none ∧
    (∃ p : Process, (x.standingAt turns i t).own.hands = { Hands.empty with process := some p } ∧ p.Bare) ∧
    answer = some ⟨false, [], none, [], none⟩ ∧
    ∃ l n, l < n ∧ n < i ∧ x.Does turns l t (.device .detachProcess) () ∧
      x.Does turns n t (.device (.setInterrupts .on)) () ∧
      ∀ j, l ≤ j → j ≤ n → (x.slotAt turns j t).interrupts = .off := by
  obtain ⟨next, here⟩ := id does.1
  obtain ⟨on, gone, doomed⟩ : DeviceRequest.Fits .destroyProcess (x.slotAt turns i t) := fits here
  have gone : (x.standingAt turns i t).own.process = none := Option.map_eq_none_iff.1 gone
  obtain ⟨o, doomed⟩ := Option.isSome_iff_exists.1 doomed
  obtain ⟨p, inHand, -⟩ := Option.map_eq_some_iff.1 doomed
  have orderly := (x.sound turns i).orderly t
  have bare := orderly.process p inHand
  -- The rest of what may be in hand is there only while the thread has a process.
  have unhosted {P : Process → Prop} : ¬∃ p, (x.standingAt turns i t).own.process = some p ∧ P p := by
    rintro ⟨q, hosts, -⟩
    cases gone.symm.trans hosts
  have hands : (x.standingAt turns i t).own.hands = { Hands.empty with process := some p } := by
    have space : (x.standingAt turns i t).own.hands.space = none := by
      by_contra some
      exact unhosted (orderly.space some)
    have frame : (x.standingAt turns i t).own.hands.frame = none := by
      by_contra some
      exact unhosted (orderly.frame some)
    have files : (x.standingAt turns i t).own.hands.files = [] := by
      by_contra some
      exact unhosted (orderly.files some)
    change (x.standingAt turns i t).own.hands.process = some p at inHand
    generalize (x.standingAt turns i t).own.hands = hands at *
    obtain ⟨_, _, _, _⟩ := hands
    simp only at space frame files inHand
    simp only [space, frame, files, inHand, Hands.empty]
  refine ⟨on, gone, ⟨p, hands, bare⟩, ?_, ?_⟩
  · rw [does.served.2.2]
    simp only [DeviceRequest.serve, DeviceRequest.serveDestroyProcess, hands, bare.space, bare.files,
      bare.executable, bare.children, bare.exitSignal]
    rfl
  · obtain ⟨l, before, detaches⟩ := detached_of_doomed doomed
    obtain ⟨⟨b, early, status, begins⟩, -⟩ := detaches.detachProcess
    obtain ⟨n, lt, lt', restores, off, -⟩ := begins.vanishes (Nat.le_of_lt early) detaches before here rfl
    exact ⟨l, n, lt, lt', detaches, restores, off⟩

/-! ## Runs -/

/-- How what processes have is given back in a run. -/
structure TearsDownSafely (x : Scenario) (turns : ℕ → Turn) : Prop where
  /-- A frame goes out of use when a thread that has it gives it back, with interrupts on. -/
  frees : ∀ i f, (x.machineAt turns i).devices.pool.inUse f = true →
    (x.machineAt turns (i + 1)).devices.pool.inUse f = false → ∃ t r answer,
      x.Does turns i t (.device r) answer ∧ f ∈ r.givesBack (x.standingAt turns i t).own ∧
      f ∈ (x.standingAt turns i t).own.frames ∧ (x.standingAt turns i t).own.interrupts = .on
  /-- So none is counted that has come back with interrupts off. -/
  counts : ∀ i, (x.machineAt turns i).devices.freedWithInterruptsOff = 0
  /-- The memory of a process is detached in the exit of the process, in a section with interrupts off in which the
      kernel's page tables are activated. -/
  detaches : ∀ l u answer, x.Does turns l u (.device .detachSpace) answer →
    (∃ b < l, ∃ status, x.Begins turns b u (.exit status)) ∧ (x.slotAt turns l u).interrupts = .off ∧
    ∀ i (a : Action) next, l < i → x.programAt turns i u = Program.ask a next → a.isShielded = false →
      ∃ m n, l < m ∧ m < n ∧ n < i ∧ x.Does turns m u (.device (.activate none)) () ∧
        x.Does turns n u (.device (.setInterrupts .on)) () ∧
        ∀ j, l ≤ j → j ≤ n → (x.slotAt turns j u).interrupts = .off
  /-- In an exit frames come back from the space that was detached, when that section is over. -/
  exits : ∀ b u status i (r : DeviceRequest) answer f, x.Begins turns b u (.exit status) → b ≤ i →
    x.Does turns i u (.device r) answer → f ∈ r.givesBack (x.standingAt turns i u).own →
    ∃ s l m n, x.GivesUp turns i u s ∧ f ∈ s.frames ∧ x.Detached turns b i u s l m n
  /-- At any time, who gives back a frame of a space that a thread has is that thread, and gives up the space. -/
  returns : ∀ i t u (r : DeviceRequest) answer f s, x.Does turns i t (.device r) answer →
    f ∈ r.givesBack (x.standingAt turns i t).own → (x.standingAt turns i u).own.Has s → f ∈ s.frames →
    u = t ∧ x.GivesUp turns i t s
  /-- From then on the root of that space is not what any thread has activated last. -/
  roots : ∀ i j t u s, x.GivesUp turns i t s → i ≤ j →
    ((x.machineAt turns j).devices.activations u).getLast? ≠ some (some s.root)
  /-- Nor is it that of the memory of any process, which would be activated on a switch to its thread. -/
  unmapped : ∀ i j t u s s', x.GivesUp turns i t s → i ≤ j → (x.standingAt turns j u).own.space? = some s' →
    s'.root ≠ s.root
  /-- A process is detached in its exit, with interrupts off, when it has nothing left and nothing is in hand. -/
  vanishes : ∀ i t, x.Does turns i t (.device .detachProcess) () →
    (∃ b < i, ∃ status, x.Begins turns b t (.exit status)) ∧ (x.slotAt turns i t).interrupts = .off ∧
    (x.standingAt turns i t).own.hands = .empty ∧ ∃ p, (x.standingAt turns i t).own.process = some p ∧ p.Bare
  /-- Then interrupts are turned on, and it is destroyed. It has nothing left then, so nothing comes out of it. -/
  destroys : ∀ i t answer, x.Does turns i t (.device .destroyProcess) answer →
    (x.slotAt turns i t).interrupts = .on ∧ (x.standingAt turns i t).own.process = none ∧
    (∃ p : Process, (x.standingAt turns i t).own.hands = { Hands.empty with process := some p } ∧ p.Bare) ∧
    answer = some ⟨false, [], none, [], none⟩ ∧
    ∃ l n, l < n ∧ n < i ∧ x.Does turns l t (.device .detachProcess) () ∧
      x.Does turns n t (.device (.setInterrupts .on)) () ∧
      ∀ j, l ≤ j → j ≤ n → (x.slotAt turns j t).interrupts = .off
  /-- Interrupts are off in sections only. -/
  sections : ∀ i t, (x.slotAt turns i t).interrupts = .off → x.Shielded turns i t
  /-- A section begins with interrupts on. -/
  opens : ∀ i t answer, x.Does turns i t (.device .disableInterrupts) answer →
    answer = .on ∧ (x.slotAt turns i t).interrupts = .on ∧ (x.slotAt turns (i + 1) t).interrupts = .off
  /-- When it is over they are on as before. -/
  restores : ∀ i t level, x.Does turns i t (.device (.setInterrupts level)) () →
    level = .on ∧ (x.slotAt turns i t).interrupts = .off ∧ (x.slotAt turns (i + 1) t).interrupts = .on
  /-- A call leaves the interrupt level as it was. -/
  calls : ∀ t (c : KernelCall) b r i, x.Returns turns t c b r i →
    (x.slotAt turns i t).interrupts = (x.slotAt turns b t).interrupts
  /-- So does a start. -/
  starts : ∀ k t start u result j, x.Makes turns k t start u → x.Started turns u start k result j →
    (x.slotAt turns (k + 1) u).interrupts = .on ∧ (x.slotAt turns j u).interrupts = .on
  /-- And an exit. -/
  ends : ∀ b u status i, x.Begins turns b u (.exit status) → b ≤ i → x.programAt turns i u = Program.pure () →
    (x.slotAt turns b u).interrupts = .on ∧ (x.slotAt turns i u).interrupts = .on
  /-- A thread has interrupts on whenever it is in user mode: when a program enters user mode or comes back to it,
      and when it traps or takes a fault. -/
  user : ∀ i t (code : UserCode), x.programAt turns i t = code.program x.kernel →
    (x.slotAt turns i t).interrupts = .on

/-- Whatever threads do, and in whatever order, what processes have is given back safely. -/
theorem tears_down_safely (x : Scenario) (turns : ℕ → Turn) : x.TearsDownSafely turns where
  frees i f used free := frees_at used free
  counts i := x.freed_at turns i
  detaches l u answer does := by
    obtain ⟨b, before, status, begins⟩ := does.exits rfl rfl rfl rfl
    obtain ⟨next, here⟩ := id does.1
    have fits : DeviceRequest.Fits .detachSpace (x.slotAt turns l u) := fits here
    exact ⟨⟨b, before, status, begins⟩, fits.1, fun i a next later there other =>
      begins.detaches (Nat.le_of_lt before) does later there other⟩
  exits b u status i r answer f begins le does mem := by
    obtain ⟨s, gives, mem⟩ := begins.givesUp le does mem
    obtain ⟨l, m, n, detached⟩ := begins.detached_of_givesUp le gives
    exact ⟨s, l, m, n, gives, mem, detached⟩
  returns i t u r answer f s does mem has mem' := does.givesUp mem has mem'
  roots i j t u s gives le := gives.not_activated le u
  unmapped i j t u s s' gives le mapped := gives.not_mapped le mapped
  vanishes i t does := does.detachProcess
  destroys i t answer does := does.destroys
  sections i t off := shielded_of_off off
  opens i t answer does := by
    obtain ⟨next, here⟩ := id does.1
    exact ⟨does.disables, fits here, congrArg Slot.interrupts (does.redraws.slot_eq nofun)⟩
  restores i t level does := does.restores
  calls t c b r i returns := returns.interrupts_eq
  starts k t start u result j makes started := by
    obtain ⟨p, slot, -⟩ := (makes.begun_of_started started).shape
    refine ⟨?_, congrArg Slot.interrupts slot⟩
    rw [slotAt, makes.stands]
    rfl
  ends b u status i begins le gone := by
    obtain ⟨first, here, -⟩ := begins.looks
    exact ⟨(fits here).1, begins.on_of_gone le gone⟩
  user i t code here := by
    obtain ⟨start, program, acts⟩ := acts_of_user here
    obtain ⟨p, slot, -⟩ := acts.begun.shape
    exact congrArg Slot.interrupts slot

end Scenario

end Userland

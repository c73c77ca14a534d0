import Userland.Proofs.Denying
import Userland.Proofs.OwnFrames
import Userland.Proofs.Shielding

/-!
# The stack page in a start

The loader maps the stack page last (`Loader.yields_loadStack`), and what a child does then until its program
runs leaves its memory alone (`Belongings.SameMemory`), save that the space in its hands becomes the memory
of its process. So when a start is over, the process has the page that the arguments ask for where its stack
is (`Kernel.yields_starting`).
-/

namespace Userland

open ThreadProgram
open Program (Only)

-- Which words a line has does not matter for what is done with them.
attribute [local irreducible] Words.ofString

/-! ## What leaves memory alone -/

/-- A thread has the same memory as before. -/
structure Belongings.SameMemory (b : Belongings) (pool : FramePool) (b' : Belongings) (pool' : FramePool) :
    Prop where
  /-- Its process has the same space. -/
  space : b'.space? = b.space?
  /-- The same space is in hand. -/
  inHand : b'.hands.space = b.hands.space
  /-- The same frame is in hand. -/
  frame : b'.hands.frame = b.hands.frame
  /-- All frames hold what they held. -/
  sees : b.Sees pool pool'

/-- The requests of a start that leave the memory of a thread alone. -/
def DeviceRequest.sparesMemory : DeviceRequest → Bool
  | installExecutable _ | disableInterrupts | setInterrupts _ | setState _ | process | activate _ | note _
  | spacePages | log .. => true
  | _ => false

/-- So are all actions that are no requests. -/
def Action.SparesMemory (a : Action) : Prop := ∀ r, a = .device r → r.sparesMemory = true

namespace Belongings.SameMemory

variable {b b' b'' : Belongings} {pool pool' pool'' : FramePool}

theorem refl (b : Belongings) (pool : FramePool) : b.SameMemory pool b pool := ⟨rfl, rfl, rfl, fun _ _ => rfl⟩

theorem frames_eq (same : b.SameMemory pool b' pool') : b'.frames = b.frames := by
  rw [Belongings.frames, Belongings.frames, same.space, same.inHand, same.frame]

theorem trans (same : b.SameMemory pool b' pool') (same' : b'.SameMemory pool' b'' pool'') :
    b.SameMemory pool b'' pool'' where
  space := same'.space.trans same.space
  inHand := same'.inHand.trans same.inHand
  frame := same'.frame.trans same.frame
  sees f mem := (same'.sees f (same.frames_eq ▸ mem)).trans (same.sees f mem)

end Belongings.SameMemory

theorem DeviceRequest.sameMemory_serve {r : DeviceRequest} (spares : r.sparesMemory = true) (b : Belongings)
    (d : Devices) : b.SameMemory d.pool (r.serve b d).2.1 (r.serve b d).2.2.pool := by
  cases r with
  | disableInterrupts | setInterrupts | process | activate | note | spacePages | log =>
    exact ⟨rfl, rfl, rfl, fun _ _ => rfl⟩
  | setState => exact ⟨DeviceRequest.space?_modifyProcess b fun _ => rfl, rfl, rfl, fun _ _ => rfl⟩
  | installExecutable file =>
    refine ⟨DeviceRequest.space?_serve rfl b d, ?_, ?_, fun f _ => ?_⟩
    all_goals
      simp only [serve]
      split <;> rfl
  | _ => cases spares

theorem Alters.sameMemory {a : Action} {b b' : Belongings} {pool pool' : FramePool} {answer : a.Answer}
    (alters : Alters a b pool answer b' pool') (spares : a.SparesMemory) : b.SameMemory pool b' pool' := by
  cases alters with
  | act => exact .refl b pool
  | device r b pool d sees =>
    obtain ⟨space, inHand, frame, served⟩ := r.sameMemory_serve (spares r rfl) b d
    exact ⟨space, inHand, frame, fun f mem => (served f mem).trans (sees f mem)⟩

namespace ThreadProgram

variable {α β : Type} {Q : α → Belongings → FramePool → Prop} {b : Belongings} {pool : FramePool}

/-- What leaves memory alone at every step leaves it alone. -/
theorem yields_of_spares {p : ThreadProgram α} (spares : p.Only Action.SparesMemory fun _ => True)
    (same : ∀ x b' pool', b.SameMemory pool b' pool' → Q x b' pool') : p.Yields Q b pool :=
  (yields_of_only spares (fun _ _ _ _ _ _ spares alters same => same.trans (alters.sameMemory spares))
    (.refl b pool)).mono fun x b' pool' kept => same x b' pool' kept.2

theorem yields_routine_bind (p : Routine α) (next : α → Routine β) (Q : β → Belongings → FramePool → Prop) :
    Yields (ofRoutine (p >>= next)) Q b pool ↔
      Yields (ofRoutine p) (fun x => Yields (ofRoutine (next x)) Q) b pool := by
  rw [ofRoutine_bind, yields_bind]

theorem spares_ask {r : DeviceRequest} (spares : r.sparesMemory = true) :
    (ask r).Only Action.SparesMemory fun _ => True :=
  only_ask (fun _ same => Action.device.inj same ▸ spares) fun _ => trivial

theorem spares_bind {p : ThreadProgram α} {next : α → ThreadProgram β}
    (first : p.Only Action.SparesMemory fun _ => True) (rest : ∀ x, (next x).Only Action.SparesMemory fun _ => True) :
    (p >>= next).Only Action.SparesMemory fun _ => True := first.bind fun x _ => rest x

theorem spares_unlock (l : LockId) : (unlock l).Only Action.SparesMemory fun _ => True :=
  only_unlock l fun _ other r same => absurd same (other r)

theorem spares_send (c : ChannelId) (value : Signal) : (send c value).Only Action.SparesMemory fun _ => True := by
  refine spares_bind (only_act (a := .hasReceiver c) (fun _ => nofun) fun _ => trivial) fun receives => ?_
  split
  · refine spares_bind (spares_bind (only_act (a := .settle c (some value)) (fun _ => nofun) fun _ => trivial)
      fun waiter => ?_) fun _ => trivial
    cases waiter with
    | none => trivial
    | some u => exact only_act (a := .unblock u) (fun _ => nofun) fun _ => trivial
  · trivial

end ThreadProgram

/-! ## The page -/

/-- Where the stack is the space has a page. -/
def AddressSpace.HasStack (s : AddressSpace) (pool : FramePool) (page : Page) : Prop :=
  ∃ t, s.translate stackPage = some t ∧ pool.page? t.frame = some page

namespace Loader

open DeviceRequest Routine

variable {arguments : List String} {stack : VirtAddr} {b b' : Belongings} {pool pool' : FramePool}

/-- One of some spaces has the page that the arguments ask for where its stack is. -/
def Stacked (arguments : List String) (stack : VirtAddr) (spaces : List AddressSpace) (pool : FramePool) : Prop :=
  ∃ page, InitialStack.build arguments = some (page, stack) ∧ ∃ s ∈ spaces, s.HasStack pool page

/-- The space in hand has it. -/
def InHand (arguments : List String) (stack : VirtAddr) (b : Belongings) (pool : FramePool) : Prop :=
  Stacked arguments stack b.hands.space.toList pool

/-- That has it, or the memory of the process. -/
def InPlace (arguments : List String) (stack : VirtAddr) (b : Belongings) (pool : FramePool) : Prop :=
  Stacked arguments stack (b.space?.toList ++ b.hands.space.toList) pool

theorem Stacked.of_sees {spaces : List AddressSpace} (stacked : Stacked arguments stack spaces pool)
    (own : spaces ⊆ b.space?.toList ++ b.hands.space.toList) (sees : b.Sees pool pool') :
    Stacked arguments stack spaces pool' := by
  obtain ⟨page, built, s, mem, t, found, held⟩ := stacked
  refine ⟨page, built, s, mem, t, found, (sees t.frame ?_).trans held⟩
  have mapped := AddressSpace.mem_frames_of_translate found
  rcases List.mem_append.1 (own mem) with mine | inHand
  · simp [Belongings.frames, Belongings.framesOf, Option.mem_toList.1 mine, mapped]
  · simp [Belongings.frames, Belongings.framesOf, Option.mem_toList.1 inHand, mapped]

theorem InHand.of_sameMemory (inHand : InHand arguments stack b pool) (same : b.SameMemory pool b' pool') :
    InHand arguments stack b' pool' := by
  rw [InHand, same.inHand]
  exact inHand.of_sees (List.subset_append_right _ _) same.sees

theorem InPlace.of_sameMemory (inPlace : InPlace arguments stack b pool) (same : b.SameMemory pool b' pool') :
    InPlace arguments stack b' pool' := by
  rw [InPlace, same.space, same.inHand]
  exact inPlace.of_sees (List.Subset.refl _) same.sees

/-- When the space in hand is installed it is the memory of the process. -/
theorem InHand.installed (inHand : InHand arguments stack b pool) {d : Devices} (sees : b.Sees pool d.pool) :
    InPlace arguments stack (installSpace.serve b d).2.1 (installSpace.serve b d).2.2.pool := by
  have stacked := inHand.of_sees (List.subset_append_right _ _) sees
  unfold InPlace
  simp only [serve]
  cases b.process with
  | none =>
    obtain ⟨page, built, s, mem, has⟩ := stacked
    exact ⟨page, built, s, List.mem_append_right _ mem, has⟩
  | some p =>
    obtain ⟨page, built, s, mem, has⟩ := stacked
    exact ⟨page, built, s, List.mem_append_left _ mem, has⟩

/-- The frame in hand holds a page. -/
def HoldsPage (b : Belongings) (pool : FramePool) (page : Page) : Prop :=
  ∃ f, b.hands.frame = some f ∧ pool.page? f = some page

theorem HoldsPage.of_sees {page : Page} (holds : HoldsPage b pool page) (sees : b.Sees pool pool') :
    HoldsPage b pool' page := by
  obtain ⟨f, held, there⟩ := holds
  exact ⟨f, held, (sees f (by simp [Belongings.frames, held])).trans there⟩

/-- A frame is cleared when it is handed out. -/
theorem yields_allocate : (ThreadProgram.ask allocate).Yields
    (fun given b pool => given = true → HoldsPage b pool (Page.filled 0)) b pool := by
  refine yields_ask fun d sees => ?_
  cases given : d.pool.allocate? with
  | none =>
    obtain ⟨d₁, served, -⟩ := serve_allocate_none (b := b) given
    rw [served]
    exact nofun
  | some got =>
    obtain ⟨f, pool₁⟩ := got
    obtain ⟨b₁, d₁, served, -, held, same, -⟩ := serve_allocate (b := b) given
    rw [served]
    intro _
    exact ⟨f, held, by rw [same, FramePool.page?_allocate? given, if_pos rfl]⟩

/-- A whole page that is stored in the frame in hand is there. -/
theorem yields_fill {old page : Page} (holds : HoldsPage b pool old) :
    (ThreadProgram.ask (fill 0 page.toList)).Yields (fun _ b pool => HoldsPage b pool page) b pool := by
  refine yields_ask fun d sees => ?_
  obtain ⟨f, held, there⟩ := holds.of_sees sees
  obtain ⟨d₁, served, same, -⟩ := serve_fill (d := d) held page.toList
  rw [served]
  exact ⟨f, held, by rw [same, FramePool.page?_write, if_pos rfl, there, Option.map_some, Page.write_toList]⟩

/-- The frame in hand is mapped where the stack is, with what it holds. -/
theorem yields_mapStack {page : Page} (holds : HoldsPage b pool page) :
    (ThreadProgram.ask (mapFrame stackPage true)).Yields
      (fun mapped b pool => mapped = .ok () → ∃ s ∈ b.hands.space.toList, s.HasStack pool page) b pool := by
  refine yields_ask fun d sees => ?_
  obtain ⟨f, held, there⟩ := holds.of_sees sees
  cases inHand : b.hands.space with
  | none =>
    simp only [serve, serveMapFrame, inHand]
    rintro ⟨⟩
  | some s =>
    cases mapped : s.map stackPage f true with
    | error e =>
      obtain ⟨b₁, d₁, served, -⟩ := serve_mapFrame_error (d := d) inHand held mapped
      rw [served]
      rintro ⟨⟩
    | ok s' =>
      obtain ⟨b₁, served, space⟩ := serve_mapFrame (d := d) inHand held mapped
      rw [served]
      intro _
      refine ⟨s', by rw [space]; exact List.mem_singleton_self s', (AddressSpace.userEntry f true).translation,
        AddressSpace.translate_eq_some.2
          ⟨by decide, _, (AddressSpace.presentAt_map mapped _).trans (if_pos rfl), rfl⟩, ?_⟩
      rw [← there]
      exact congrArg _ (AddressSpace.frame_userEntry f true)

/-- When the loader has mapped the stack page, it is in the space in hand, and what the arguments ask for is in
    it. -/
theorem yields_loadStack : Yields (ofRoutine (loadStack arguments))
    (fun result b pool => ∀ stack, result = .ok stack → InHand arguments stack b pool) b pool := by
  unfold loadStack
  rw [yields_routine_bind]
  refine yields_allocate.mono fun given b pool cleared => ?_
  split
  swap
  · exact nofun
  next yes =>
  cases built : InitialStack.build arguments with
  | none =>
    dsimp only
    rw [yields_routine_bind]
    exact yields_of_all fun _ _ _ _ => nofun
  | some got =>
    obtain ⟨page, stack⟩ := got
    dsimp only
    rw [yields_routine_bind]
    refine (yields_fill (cleared yes)).mono fun _ b pool filled => ?_
    rw [yields_routine_bind]
    refine (yields_mapStack filled).mono fun mapped b pool has => ?_
    cases mapped with
    | error e => exact nofun
    | ok =>
      rintro _ ⟨⟩
      exact ⟨page, built, has rfl⟩

theorem yields_loadImage {file : Handle} : Yields (ofRoutine (loadImage file arguments))
    (fun result b pool => ∀ entry stack, result = .ok (entry, stack) → InHand arguments stack b pool) b pool := by
  unfold loadImage
  -- What the rest of the image is like does not matter.
  rw [yields_routine_bind]
  refine yields_of_all fun _ b pool => ?_
  rw [yields_routine_bind]
  refine yields_of_all fun raw b pool => ?_
  split
  · exact nofun
  split
  · exact nofun
  rw [yields_routine_bind]
  refine yields_of_all fun fileLength b pool => ?_
  rw [yields_routine_bind]
  refine yields_of_all fun loaded b pool => ?_
  split
  · exact nofun
  rw [yields_routine_bind]
  refine yields_loadStack.mono fun result b pool inHand => ?_
  cases result with
  | error e => exact nofun
  | ok stack =>
    rintro _ _ ⟨⟩
    exact inHand stack rfl

/-- When a program is loaded the space in hand has its stack page. -/
theorem yields_load : Yields (ofRoutine (load arguments))
    (fun result b pool => ∀ program, result = .ok program → InHand arguments program.stack b pool) b pool := by
  cases arguments with
  | nil => exact nofun
  | cons name rest =>
    rw [load_eq, yields_routine_bind]
    refine yields_of_all fun opened b pool => ?_
    cases opened with
    | none => exact nofun
    | some file =>
      dsimp only
      rw [yields_routine_bind]
      refine yields_of_all fun _ b pool => ?_
      rw [yields_routine_bind, fillFrom, yields_routine_bind]
      refine yields_loadImage.mono fun loaded b pool inHand => ?_
      rcases loaded with e | ⟨entry, stack⟩
      · dsimp only
        rw [yields_routine_bind]
        refine yields_of_all fun _ b pool => ?_
        rw [yields_routine_bind]
        refine yields_of_all fun _ b pool => ?_
        refine (yields_routine_bind _ _ _).2 (yields_of_all fun _ b pool => ?_)
        exact (yields_routine_bind _ _ _).2 (yields_of_all fun _ b pool => nofun)
      · dsimp only
        have inHand := inHand entry stack rfl
        rw [yields_routine_bind]
        refine yields_of_spares (spares_ask rfl) fun mapped b' pool' same => ?_
        have inHand := inHand.of_sameMemory same
        rw [yields_routine_bind]
        refine yields_of_spares (spares_ask rfl) fun _ b' pool' same => ?_
        rintro _ ⟨⟩
        exact inHand.of_sameMemory same

end Loader

namespace Kernel

open DeviceRequest Loader

variable {k : Kernel} {start : NewProcess} {arguments : List String} {b : Belongings} {pool : FramePool}

/-- When a program is installed its stack page is in the memory of the process. -/
theorem yields_install {program : LoadedProgram} (inHand : InHand arguments program.stack b pool) :
    (install program).Yields (fun _ => InPlace arguments program.stack) b pool := by
  rw [install, yields_bind]
  refine yields_of_spares (spares_ask rfl) fun _ b pool same => ?_
  have inHand := inHand.of_sameMemory same
  rw [yields_bind, withoutInterrupts, yields_bind]
  refine yields_of_spares (spares_ask rfl) fun before b pool same => ?_
  have inHand := inHand.of_sameMemory same
  rw [yields_bind]
  refine yields_ask fun d sees => ?_
  have inPlace := inHand.installed sees
  rw [yields_bind]
  refine yields_of_spares (spares_ask rfl) fun _ b pool same => ?_
  have inPlace := inPlace.of_sameMemory same
  change Yields (ask (setState .running) >>= fun _ => activateOwn) _ b pool
  refine yields_of_spares ?_ fun _ b pool same => inPlace.of_sameMemory same
  exact spares_bind (spares_ask rfl) fun _ => spares_bind (spares_ask rfl) fun _ => spares_ask rfl

/-- When a start has come to a program, the page that its arguments ask for is where its stack is. -/
theorem yields_starting : (starting k start).Yields (fun result b pool => ∀ program, result = .ok program →
    InPlace ((Words.ofString start.command).take k.settings.maxArguments) program.stack b pool) b pool := by
  rw [starting, yields_bind, loading, yields_bind]
  refine yields_of_all fun _ b pool => ?_
  rw [withVolume, withLock, yields_bind]
  refine yields_of_all fun _ b pool => ?_
  rw [yields_bind]
  refine yields_load.mono fun result b pool inHand => ?_
  rw [yields_bind]
  refine yields_of_spares (spares_unlock _) fun _ b pool same => ?_
  change Yields (announcing start result >>= fun _ => pure result) _ b pool
  rw [yields_bind]
  cases result with
  | error e =>
    refine yields_of_all fun _ b pool => ?_
    rintro program ⟨⟩
  | ok program =>
    rw [announcing, yields_bind]
    refine (yields_install ((inHand program rfl).of_sameMemory same)).mono fun _ b pool inPlace => ?_
    refine yields_of_spares ?_ fun _ b pool same => ?_
    · exact spares_bind (spares_bind (spares_send _ _) fun _ => trivial) fun _ => spares_ask rfl
    · rintro _ ⟨⟩
      exact inPlace.of_sameMemory same

end Kernel

/-! ## Runs -/

namespace Scenario

variable {x : Scenario} {turns : ℕ → Turn} {j k : ℕ} {t u : Tid} {start : NewProcess}

/-- When a child has loaded its program, the page that its arguments ask for is where its stack is. -/
theorem Makes.stack_of_started (makes : x.Makes turns k t start u) {program : LoadedProgram}
    (started : x.Started turns u start k (.ok program) j) : ∃ page s,
      InitialStack.build ((Words.ofString start.command).take x.settings.maxArguments) =
        some (page, program.stack) ∧
      ((x.machineAt turns j).thread u).own.space? = some s ∧
      s.HasStack (x.machineAt turns j).devices.pool page ∧ s.Backed (x.machineAt turns j).devices.pool := by
  have sound := x.sound turns j
  obtain ⟨-, space, core⟩ := makes.proceeds_of_started started
  obtain ⟨p, hosted, same⟩ := Option.map_eq_some_iff.1 core
  have hosted : ((x.machineAt turns j).thread u).own.process = some p := hosted
  have mapped : ((x.machineAt turns j).thread u).own.space? = some space := by
    rw [Belongings.space?, hosted]
    exact congrArg Process.Core.space same
  -- A process that runs has no other space in hand.
  have single : ((x.machineAt turns j).thread u).own.hands.space = none := by
    by_contra inHand
    obtain ⟨p', hosted', other⟩ := (sound.orderly u).space inHand
    obtain rfl := Option.some.inj (hosted.symm.trans hosted')
    exact other (congrArg Process.Core.state same)
  obtain ⟨d, rfl, left, ongoing⟩ := started
  obtain ⟨pool, sees, yields⟩ := yields_at makes.starts (makes.inside (Nat.lt_succ_self k)) remains_starting
    Kernel.yields_starting ongoing
  rw [left] at yields
  obtain ⟨page, built, s, mem, has⟩ := Loader.Stacked.of_sees (yields program rfl) (List.Subset.refl _) sees
  have own : (x.standingAt turns (k + 1 + d) u).own = ((x.machineAt turns (k + 1 + d)).thread u).own := rfl
  rw [own, mapped, single] at mem
  obtain rfl := List.mem_singleton.1 mem
  refine ⟨page, s, built, mapped, has, fun f listed => (sound.frames.live f).2 ⟨u, ?_⟩⟩
  simp [Belongings.frames, Belongings.framesOf, mapped, listed]

end Scenario

end Userland

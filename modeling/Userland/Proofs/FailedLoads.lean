import Userland.Executable.Builder
import Userland.Executable.Loader
import Userland.Proofs.Custody

/-!
# A failed load leaves nothing behind

While a program is loaded its thread has a space in hand, and for a while a frame, and these are all the
frames that the pool has handed out meanwhile (`Loader.Holding`). If the load fails each of them has gone
back, once, and of the volume nothing has changed but that one more handle was used up
(`Loader.failed_leaves_nothing`). Files may read as they like, and have any length.
-/

namespace Userland

/-! ## The volume meanwhile -/

namespace Volume

variable {v v' : Volume} {h : Handle}

/-- What was put at the end of a list may be replaced. -/
theorem setIfInBounds_push {α : Type} (l : Array α) (x y : α) :
    (l.push x).setIfInBounds l.size y = l.push y := by
  rw [← Array.toList_inj]
  simp

/-- The volume with one more handle, which denies writes to its file. -/
def denied (v : Volume) (node : Nat) (position : UInt32) : Volume :=
  { v with
    nodes := v.nodes.modify node fun f => { f with denials := f.denials + 1 }
    handles := v.handles.push (some ⟨node, position, true⟩)
    openHandles := v.openHandles + 1 }

/-- The volume with one more handle, which is closed. -/
def spent (v : Volume) : Volume := { v with handles := v.handles.push none }

/-- Who opens a file and denies writes to it has one more handle. -/
theorem deny_openFile? {path : String} (given : v.openFile? path = some (h, v')) :
    h = ⟨v.handles.size⟩ ∧ ∃ node, v'.deny h = v.denied node 0 := by
  obtain ⟨node, -, result⟩ := Option.map_eq_some_iff.1 given
  obtain ⟨rfl, rfl⟩ := Prod.mk.inj result
  refine ⟨rfl, node, ?_⟩
  simp [deny, opened?, denied, setOpened, modifyNode, setIfInBounds_push]

section

variable (v) (node : Nat) (position : UInt32)

theorem opened?_denied :
    (v.denied node position).opened? ⟨v.handles.size⟩ = some ⟨node, position, true⟩ := by
  simp [opened?, denied]

theorem setOpened_denied (position' : UInt32) :
    (v.denied node position).setOpened ⟨v.handles.size⟩ ⟨node, position', true⟩ =
      v.denied node position' := by
  simp [setOpened, denied, setIfInBounds_push]

theorem seek_denied (position' : UInt32) :
    (v.denied node position).seek ⟨v.handles.size⟩ position' = v.denied node position' := by
  rw [seek, opened?_denied]
  exact setOpened_denied ..

/-- Reading moves the position. -/
theorem read_denied (n : Nat) : ∃ position',
    ((v.denied node position).read ⟨v.handles.size⟩ n).2 = v.denied node position' := by
  rw [read, opened?_denied]
  cases (v.denied node position).node? ⟨v.handles.size⟩ with
  | none => exact ⟨position, rfl⟩
  | some f => exact ⟨_, setOpened_denied ..⟩

/-- A denial that is lifted leaves no trace, nor does the handle once it is closed. -/
theorem close_allow_denied :
    ((v.denied node position).allow ⟨v.handles.size⟩).close ⟨v.handles.size⟩ = v.spent := by
  have nodes : (v.nodes.modify node fun f => { f with denials := f.denials + 1 }).modify node
      (fun f => { f with denials := f.denials - 1 }) = v.nodes := by
    refine Array.ext_getElem? fun i => ?_
    rw [Array.getElem?_modify, Array.getElem?_modify]
    split
    · cases v.nodes[i]? <;> rfl
    · rfl
  have allowed : (v.denied node position).allow ⟨v.handles.size⟩ =
      { v with
        handles := v.handles.push (some ⟨node, position, false⟩)
        openHandles := v.openHandles + 1 } := by
    rw [allow, opened?_denied]
    simp [setOpened, modifyNode, denied, setIfInBounds_push, nodes]
  rw [allowed]
  simp [close, allow, opened?, spent, setIfInBounds_push]

end

end Volume

/-! ## What is in hand -/

namespace Loader

open DeviceRequest Routine

/-- What has come of `b` and `d` while a program is loaded: space `s` is in hand, and maybe a frame, and
    the handle on the executable; the frames of the space and the one in hand are those that the pool has
    handed out meanwhile and not taken back. -/
structure Holding (b : Belongings) (d : Devices) (s : AddressSpace) (frame : Option Frame) (c : Custody) :
    Prop where
  /-- What the thread has. -/
  own : c.own = { b with hands := ⟨some s, frame, [⟨d.volume.handles.size⟩], none⟩ }
  /-- Of the volume nothing has changed but the handle. -/
  volume : ∃ node position, c.devices.volume = d.volume.denied node position
  /-- Each frame that was handed out is in hand or was given back. -/
  frames : c.taken.Perm (frame.toList ++ s.frames ++ c.returned)
  /-- None was handed out twice. -/
  distinct : c.taken.Nodup
  /-- None was in use before. -/
  fresh : ∀ f ∈ c.taken, d.pool.inUse f = false
  /-- Those in hand are in use, and those that were before. -/
  used : ∀ f, c.devices.pool.inUse f = true ↔ d.pool.inUse f = true ∨ f ∈ frame.toList ++ s.frames
  /-- They are counted. -/
  counted : c.devices.pool.usedFrames = d.pool.usedFrames + (frame.toList ++ s.frames).length

namespace Holding

variable {b : Belongings} {d : Devices} {s : AddressSpace} {frame : Option Frame} {f : Frame}
  {c c' : Custody}

/-- A request that moves no frame, and changes the volume in the position of the handle at most. -/
theorem still (h : Holding b d s frame c) (own : c'.own = c.own)
    (volume : ∀ node position, c.devices.volume = d.volume.denied node position →
      ∃ position', c'.devices.volume = d.volume.denied node position')
    (pool : ∀ f, c'.devices.pool.inUse f = c.devices.pool.inUse f)
    (count : c'.devices.pool.usedFrames = c.devices.pool.usedFrames) (taken : c'.taken = c.taken)
    (returned : c'.returned = c.returned) : Holding b d s frame c' where
  own := own.trans h.own
  volume := by
    obtain ⟨node, position, same⟩ := h.volume
    obtain ⟨position', same'⟩ := volume node position same
    exact ⟨node, position', same'⟩
  frames := by
    rw [taken, returned]
    exact h.frames
  distinct := by
    rw [taken]
    exact h.distinct
  fresh := by
    rw [taken]
    exact h.fresh
  used f := by
    rw [pool]
    exact h.used f
  counted := count.trans h.counted

/-- Whatever a file gives when it is read, and wherever its handle is then. -/
theorem read {n : Nat} {data : Bytes} (h : Holding b d s frame c)
    (serves : c.Serves (.read ⟨d.volume.handles.size⟩ n) data c') :
    Holding b d s frame c' ∧ c'.returned = c.returned := by
  cases serves with
  | served =>
    refine ⟨h.still rfl (fun node position same => ?_) (fun _ => rfl) rfl rfl rfl, rfl⟩
    obtain ⟨position', moved⟩ := d.volume.read_denied node position n
    exact ⟨position', by rw [← moved, ← same]; rfl⟩
  | read _ _ _ _ o position' opened =>
    refine ⟨h.still rfl (fun node position same => ?_) (fun _ => rfl) rfl rfl rfl, rfl⟩
    rw [same, Volume.opened?_denied] at opened
    obtain rfl := Option.some.inj opened
    exact ⟨position', by rw [← d.volume.setOpened_denied node position, ← same]; rfl⟩

theorem length {file : Handle} {n : UInt32} (h : Holding b d s frame c)
    (serves : c.Serves (.length file) n c') : Holding b d s frame c' ∧ c'.returned = c.returned := by
  cases serves with
  | served => exact ⟨h.still rfl (fun _ position same => ⟨position, same⟩) (fun _ => rfl) rfl rfl rfl, rfl⟩
  | length => exact ⟨h, rfl⟩

theorem seek {position' : UInt32} (h : Holding b d s frame c)
    (serves : c.Serves (.seek ⟨d.volume.handles.size⟩ position') () c') :
    Holding b d s frame c' ∧ c'.returned = c.returned := by
  obtain ⟨-, rfl⟩ := serves.eq nofun nofun
  refine ⟨h.still rfl (fun node position same => ?_) (fun _ => rfl) rfl rfl rfl, rfl⟩
  exact ⟨position', by rw [← d.volume.seek_denied node position, ← same]; rfl⟩

theorem fill {offset : Nat} {data : Bytes} (h : Holding b d s frame c)
    (serves : c.Serves (.fill offset data) () c') :
    Holding b d s frame c' ∧ c'.returned = c.returned := by
  obtain ⟨-, rfl⟩ := serves.eq nofun nofun
  refine ⟨h.still ?_ (fun _ position same => ⟨position, ?_⟩) (fun f => ?_) ?_ rfl rfl, rfl⟩
  · change (DeviceRequest.serve (.fill offset data) _ _).2.1 = _
    simp only [serve]
    split <;> rfl
  · exact (volume_serve (r := .fill offset data) rfl c.own c.devices).trans same
  · exact (sameUse_serve (r := .fill offset data) rfl c.own c.devices).inUse f
  · change (DeviceRequest.serve (.fill offset data) _ _).2.2.pool.usedFrames = _
    simp only [serve]
    split
    · exact FramePool.usedFrames_write ..
    · rfl

theorem clear {offset : Nat} (h : Holding b d s frame c) (serves : c.Serves (.clear offset) () c') :
    Holding b d s frame c' ∧ c'.returned = c.returned := by
  obtain ⟨-, rfl⟩ := serves.eq nofun nofun
  refine ⟨h.still ?_ (fun _ position same => ⟨position, ?_⟩) (fun f => ?_) ?_ rfl rfl, rfl⟩
  · change (DeviceRequest.serve (.clear offset) _ _).2.1 = _
    simp only [serve]
    split <;> rfl
  · exact (volume_serve (r := .clear offset) rfl c.own c.devices).trans same
  · exact (sameUse_serve (r := .clear offset) rfl c.own c.devices).inUse f
  · change (DeviceRequest.serve (.clear offset) _ _).2.2.pool.usedFrames = _
    simp only [serve]
    split
    · exact FramePool.usedFrames_modify ..
    · rfl

/-- A frame comes in hand, or there is none left. -/
theorem allocate {given : Bool} (h : Holding b d s none c) (nothing : c.returned = [])
    (serves : c.Serves .allocate given c') : c'.returned = [] ∧
      (given = false → Holding b d s none c') ∧
      (given = true → ∃ f, Holding b d s (some f) c') := by
  obtain ⟨rfl, rfl⟩ := serves.eq (by simp) (by simp)
  simp only [Custody.after, serve, serveAllocate, handsOut, givesBack, List.nil_append]
  cases given : c.devices.pool.allocate? with
  | none =>
    exact ⟨nothing, fun _ => h.still rfl (fun _ position same => ⟨position, same⟩) (fun _ => rfl) rfl rfl rfl,
      by simp⟩
  | some result =>
    obtain ⟨f, pool⟩ := result
    have unused : c.devices.pool.inUse f = false := (FramePool.allocate?_eq_some given).2.1
    have kept : c.taken.Perm s.frames := by simpa [nothing] using h.frames
    -- The pool hands out what is not in use, so the frame is none of those in hand, and no old one.
    have out : f ∉ s.frames := fun mem => by
      rw [(h.used f).2 (.inr mem)] at unused
      cases unused
    have old : d.pool.inUse f = false := by
      by_contra live
      rw [(h.used f).2 (.inl (by simpa using live))] at unused
      cases unused
    refine ⟨nothing, by simp, fun _ => ⟨f, ?_⟩⟩
    exact
      { own := by rw [h.own]
        volume := h.volume
        frames := by simpa [nothing] using kept.cons f
        distinct := List.nodup_cons.2 ⟨fun mem => out (kept.mem_iff.1 mem), h.distinct⟩
        fresh := List.forall_mem_cons.2 ⟨old, h.fresh⟩
        used := fun g => by
          change pool.inUse g = true ↔ _
          rw [FramePool.inUse_allocate? given, Bool.or_eq_true, decide_eq_true_eq, h.used g]
          simp [or_left_comm]
        counted := by
          change pool.usedFrames = _
          rw [FramePool.usedFrames_allocate? given, h.counted]
          simp [Nat.add_assoc] }

/-- A frame that was in hand goes back. -/
theorem giveBack {s' : AddressSpace} {frame' : Option Frame} (h : Holding b d s frame c)
    (inHand : (frame.toList ++ s.frames).Perm (f :: (frame'.toList ++ s'.frames)))
    (own : c'.own = { b with hands := ⟨some s', frame', [⟨d.volume.handles.size⟩], none⟩ })
    (volume : c'.devices.volume = c.devices.volume)
    (pool : c'.devices.pool = c.devices.pool.release f) (taken : c'.taken = c.taken)
    (returned : c'.returned = f :: c.returned) : Holding b d s' frame' c' := by
  have frames : c.taken.Perm (f :: (frame'.toList ++ s'.frames ++ c.returned)) :=
    h.frames.trans (inHand.append_right c.returned)
  -- It was handed out once, so it is not among those that stay in hand.
  have apart : f ∉ frame'.toList ++ s'.frames := fun mem =>
    (List.nodup_cons.1 (frames.nodup_iff.1 h.distinct)).1 (List.mem_append_left _ mem)
  have old : d.pool.inUse f = false := h.fresh f (frames.mem_iff.2 List.mem_cons_self)
  have live : c.devices.pool.inUse f = true :=
    (h.used f).2 (.inr (inHand.mem_iff.2 List.mem_cons_self))
  refine ⟨own, volume ▸ h.volume, ?_, taken ▸ h.distinct, taken ▸ h.fresh, fun g => ?_, ?_⟩
  · rw [taken, returned]
    exact frames.trans List.perm_middle.symm
  · rw [pool, FramePool.inUse_release, Bool.and_eq_true, h.used g, inHand.mem_iff, List.mem_cons]
    by_cases same : g = f
    · subst same
      simp [old, apart]
    · simp [same]
  · have fewer := FramePool.usedFrames_release live
    rw [h.counted, inHand.length_eq, List.length_cons] at fewer
    rw [pool]
    omega

theorem freeFrame (h : Holding b d s (some f) c) (serves : c.Serves .freeFrame () c') :
    Holding b d s none c' := by
  obtain ⟨-, rfl⟩ := serves.eq nofun nofun
  simp only [Custody.after, serve, serveFreeFrame, givesBack, handsOut, h.own]
  exact h.giveBack (f := f) (.refl _) rfl rfl rfl rfl rfl

/-- A frame that is refused goes back. -/
theorem mapFrame {page : VirtAddr} {writable : Bool} {result : Except MappingError Unit}
    (h : Holding b d s (some f) c) (serves : c.Serves (.mapFrame page writable) result c') :
    (result = .ok () → c'.returned = c.returned ∧ ∃ s', Holding b d s' none c') ∧
      ∀ e, result = .error e → Holding b d s none c' := by
  obtain ⟨rfl, rfl⟩ := serves.eq (by simp) (by simp)
  simp only [Custody.after, serve, serveMapFrame, givesBack, handsOut, h.own]
  cases mapped : s.map page f writable with
  | error e => exact ⟨by simp, fun _ _ => h.giveBack (f := f) (.refl _) rfl rfl rfl rfl (by simp)⟩
  | ok s' =>
    have frames := AddressSpace.frames_map mapped
    refine ⟨fun _ => ⟨by simp, s', ?_⟩, by simp⟩
    exact
      { own := rfl
        volume := h.volume
        frames := by simpa using h.frames.trans (frames.symm.append_right c.returned)
        distinct := h.distinct
        fresh := h.fresh
        used := fun g => by simpa [frames.mem_iff] using h.used g
        counted := by simpa [frames.length_eq, Nat.add_comm 1] using h.counted }

theorem freePage {page : VirtAddr} {e : PageEntry} {rest : List (VirtAddr × PageEntry)}
    (h : Holding b d s none c) (pages : s.pages = (page, e) :: rest)
    (serves : c.Serves (.freePage page) () c') : Holding b d (s.unmap page) none c' := by
  obtain ⟨-, rfl⟩ := serves.eq nofun nofun
  obtain ⟨found, left⟩ := AddressSpace.unmap_head pages
  simp only [Custody.after, serve, serveFreePage, givesBack, handsOut, h.own, found]
  refine h.giveBack (f := e.translation.frame) (.of_eq ?_) rfl rfl rfl rfl (by simp [found])
  simp [AddressSpace.frames, pages, left, PageEntry.translation]

end Holding

/-! ## Loading -/

variable {b : Belongings} {d : Devices} {s : AddressSpace} {c c' : Custody}

/-- A space is in hand but no frame, and if `ok` holds none has gone back. -/
def Kept (b : Belongings) (d : Devices) (c : Custody) (ok : Prop) : Prop :=
  (∃ s, Holding b d s none c) ∧ (ok → c.returned = [])

theorem kept_loadPages {writable : Bool} {page readBytes count : Nat} {result : Except LoadError Unit}
    (h : Holding b d s none c) (nothing : c.returned = [])
    (ends : (loadPages ⟨d.volume.handles.size⟩ writable page readBytes count).Ends c result c') :
    Kept b d c' (result = .ok ()) := by
  induction count generalizing s c page readBytes with
  | zero =>
    obtain ⟨rfl, rfl⟩ := ends_pure.1 ends
    exact ⟨⟨s, h⟩, fun _ => nothing⟩
  | succ count ih =>
    obtain ⟨given, c₁, asks, ends⟩ := ends_bind.1 ends
    obtain ⟨nothing₁, refused, inHand⟩ := h.allocate nothing (ends_ask.1 asks)
    cases given with
    | false =>
      obtain ⟨rfl, rfl⟩ := ends_pure.1 ends
      exact ⟨⟨s, refused rfl⟩, nofun⟩
    | true =>
      obtain ⟨f, h₁⟩ := inHand rfl
      obtain ⟨data, c₂, asks, ends⟩ := ends_bind.1 ends
      obtain ⟨h₂, nothing₂⟩ := h₁.read (ends_ask.1 asks)
      split at ends
      · obtain ⟨⟨⟩, c₃, asks, ends⟩ := ends_bind.1 ends
        obtain ⟨h₃, nothing₃⟩ := h₂.fill (ends_ask.1 asks)
        obtain ⟨⟨⟩, c₄, asks, ends⟩ := ends_bind.1 ends
        obtain ⟨h₄, nothing₄⟩ := h₃.clear (ends_ask.1 asks)
        obtain ⟨mapped, c₅, asks, ends⟩ := ends_bind.1 ends
        obtain ⟨entered, refused⟩ := h₄.mapFrame (ends_ask.1 asks)
        cases mapped with
        | ok =>
          obtain ⟨nothing₅, s', h₅⟩ := entered rfl
          exact ih h₅ (by rw [nothing₅, nothing₄, nothing₃, nothing₂, nothing₁]) ends
        | error e =>
          obtain ⟨rfl, rfl⟩ := ends_pure.1 ends
          exact ⟨⟨s, refused e rfl⟩, nofun⟩
      · obtain ⟨⟨⟩, c₃, asks, ends⟩ := ends_bind.1 ends
        obtain ⟨rfl, rfl⟩ := ends_pure.1 ends
        exact ⟨⟨s, h₂.freeFrame (ends_ask.1 asks)⟩, nofun⟩

theorem kept_loadSegment {layout : SegmentLayout} {result : Except LoadError Unit}
    (h : Holding b d s none c) (nothing : c.returned = [])
    (ends : (loadSegment ⟨d.volume.handles.size⟩ layout).Ends c result c') :
    Kept b d c' (result = .ok ()) := by
  obtain ⟨⟨⟩, c₁, asks, ends⟩ := ends_bind.1 ends
  obtain ⟨h₁, nothing₁⟩ := h.seek (ends_ask.1 asks)
  exact kept_loadPages h₁ (nothing₁.trans nothing) ends

theorem kept_loadSegments {fileLength : UInt32} {offset segments : Nat} {result : Except LoadError Unit}
    (h : Holding b d s none c) (nothing : c.returned = [])
    (ends : (loadSegments ⟨d.volume.handles.size⟩ fileLength offset segments).Ends c result c') :
    Kept b d c' (result = .ok ()) := by
  induction segments generalizing s c offset with
  | zero =>
    obtain ⟨rfl, rfl⟩ := ends_pure.1 ends
    exact ⟨⟨s, h⟩, fun _ => nothing⟩
  | succ segments ih =>
    have failed {c : Custody} {e : LoadError} (h : Holding b d s none c)
        (ends : (pure (.error e) : Routine (Except LoadError Unit)).Ends c result c') :
        Kept b d c' (result = .ok ()) := by
      obtain ⟨rfl, rfl⟩ := ends_pure.1 ends
      exact ⟨⟨s, h⟩, nofun⟩
    unfold loadSegments at ends
    split at ends
    · exact failed h ends
    obtain ⟨⟨⟩, c₁, asks, ends⟩ := ends_bind.1 ends
    obtain ⟨h₁, nothing₁⟩ := h.seek (ends_ask.1 asks)
    obtain ⟨raw, c₂, asks, ends⟩ := ends_bind.1 ends
    obtain ⟨h₂, nothing₂⟩ := h₁.read (ends_ask.1 asks)
    have nothing₂ : c₂.returned = [] := by rw [nothing₂, nothing₁, nothing]
    split at ends
    · exact failed h₂ ends
    split at ends
    · exact failed h₂ ends
    split at ends
    · exact failed h₂ ends
    split at ends
    · exact failed h₂ ends
    split at ends
    · -- A segment that is to be loaded.
      split at ends
      · exact failed h₂ ends
      · obtain ⟨loaded, c₃, segment, ends⟩ := ends_bind.1 ends
        obtain ⟨⟨s', h₃⟩, nothing₃⟩ := kept_loadSegment h₂ nothing₂ segment
        cases loaded with
        | error e =>
          obtain ⟨rfl, rfl⟩ := ends_pure.1 ends
          exact ⟨⟨s', h₃⟩, nofun⟩
        | ok => exact ih h₃ (nothing₃ rfl) ends
    · exact ih h₂ nothing₂ ends

theorem kept_loadStack {arguments : List String} {result : Except LoadError VirtAddr}
    (h : Holding b d s none c) (nothing : c.returned = [])
    (ends : (loadStack arguments).Ends c result c') : ∃ s, Holding b d s none c' := by
  obtain ⟨given, c₁, asks, ends⟩ := ends_bind.1 ends
  obtain ⟨-, refused, inHand⟩ := h.allocate nothing (ends_ask.1 asks)
  cases given with
  | false =>
    obtain ⟨-, rfl⟩ := ends_pure.1 ends
    exact ⟨s, refused rfl⟩
  | true =>
    obtain ⟨f, h₁⟩ := inHand rfl
    simp only [if_true] at ends
    split at ends
    · obtain ⟨⟨⟩, c₂, asks, ends⟩ := ends_bind.1 ends
      obtain ⟨-, rfl⟩ := ends_pure.1 ends
      exact ⟨s, h₁.freeFrame (ends_ask.1 asks)⟩
    · obtain ⟨⟨⟩, c₂, asks, ends⟩ := ends_bind.1 ends
      obtain ⟨h₂, -⟩ := h₁.fill (ends_ask.1 asks)
      obtain ⟨mapped, c₃, asks, ends⟩ := ends_bind.1 ends
      obtain ⟨entered, refused⟩ := h₂.mapFrame (ends_ask.1 asks)
      cases mapped with
      | ok =>
        obtain ⟨-, rfl⟩ := ends_pure.1 ends
        exact (entered rfl).2
      | error e =>
        obtain ⟨-, rfl⟩ := ends_pure.1 ends
        exact ⟨s, refused e rfl⟩

/-- However far an image gets, its frames are in hand or have gone back. -/
theorem kept_loadImage {arguments : List String} {result : Except LoadError (VirtAddr × VirtAddr)}
    (own : c.own = { b with hands := ⟨none, none, [⟨d.volume.handles.size⟩], none⟩ })
    (volume : ∃ node position, c.devices.volume = d.volume.denied node position)
    (pool : c.devices.pool = d.pool) (taken : c.taken = []) (nothing : c.returned = [])
    (ends : (loadImage ⟨d.volume.handles.size⟩ arguments).Ends c result c') :
    ∃ s, Holding b d s none c' := by
  obtain ⟨⟨⟩, c₁, asks, ends⟩ := ends_bind.1 ends
  obtain ⟨-, rfl⟩ := (ends_ask.1 asks).eq nofun nofun
  have h₁ : Holding b d (.empty c.devices.spacesMade) none (c.after .newSpace) :=
    { own := by
        simp only [Custody.after, serve]
        rw [own]
      volume := volume
      frames := by simp [Custody.after, handsOut, givesBack, taken, nothing]
      distinct := by simp [Custody.after, handsOut, taken]
      fresh := by simp [Custody.after, handsOut, taken]
      used := by simp [Custody.after, serve, pool]
      counted := by simp [Custody.after, serve, pool] }
  obtain ⟨raw, c₂, asks, ends⟩ := ends_bind.1 ends
  obtain ⟨h₂, nothing₂⟩ := h₁.read (ends_ask.1 asks)
  split at ends
  · obtain ⟨-, rfl⟩ := ends_pure.1 ends
    exact ⟨_, h₂⟩
  split at ends
  · obtain ⟨-, rfl⟩ := ends_pure.1 ends
    exact ⟨_, h₂⟩
  obtain ⟨fileLength, c₃, asks, ends⟩ := ends_bind.1 ends
  obtain ⟨h₃, nothing₃⟩ := h₂.length (ends_ask.1 asks)
  obtain ⟨loaded, c₄, segments, ends⟩ := ends_bind.1 ends
  obtain ⟨⟨s₄, h₄⟩, nothing₄⟩ := kept_loadSegments h₃ (nothing₃.trans (nothing₂.trans nothing)) segments
  cases loaded with
  | error e =>
    obtain ⟨-, rfl⟩ := ends_pure.1 ends
    exact ⟨s₄, h₄⟩
  | ok =>
    obtain ⟨built, c₅, stack, ends⟩ := ends_bind.1 ends
    have kept := kept_loadStack h₄ (nothing₄ rfl) stack
    cases built with
    | error e =>
      obtain ⟨-, rfl⟩ := ends_pure.1 ends
      exact kept
    | ok esp =>
      obtain ⟨-, rfl⟩ := ends_pure.1 ends
      exact kept

/-! ## Giving back -/

/-- Page by page all frames of a space go back. -/
theorem holding_freePages (h : Holding b d s none c)
    (ends : ((s.pages.map (·.1)).forM fun page => ask (freePage page)).Ends c () c') :
    ∃ s', s'.pages = [] ∧ Holding b d s' none c' := by
  induction listed : s.pages generalizing s c with
  | nil =>
    rw [listed] at ends
    obtain ⟨-, rfl⟩ := ends_pure.1 ends
    exact ⟨s, listed, h⟩
  | cons entry rest ih =>
    obtain ⟨page, e⟩ := entry
    rw [listed, List.map_cons] at ends
    obtain ⟨⟨⟩, c₁, asks, ends⟩ := ends_bind.1 ends
    have h₁ := h.freePage listed (ends_ask.1 asks)
    have left := (AddressSpace.unmap_head listed).2
    exact ih h₁ (by rwa [left]) left

/-- What a thread has when it has given a space back, and what the pool has taken back by then. -/
theorem returned_releaseSpace (h : Holding b d s none c) (ends : releaseSpace.Ends c () c') :
    c'.own = { b with hands := ⟨none, none, [⟨d.volume.handles.size⟩], none⟩ } ∧
      (∃ node position, c'.devices.volume = d.volume.denied node position) ∧
      c'.returned.Perm c'.taken ∧ c'.taken.Nodup ∧ (∀ f ∈ c'.taken, d.pool.inUse f = false) ∧
      (∀ f, c'.devices.pool.inUse f = d.pool.inUse f) ∧
      c'.devices.pool.usedFrames = d.pool.usedFrames := by
  obtain ⟨mapped, c₁, asks, ends⟩ := ends_bind.1 ends
  obtain ⟨rfl, rfl⟩ := (ends_ask.1 asks).eq (by simp) (by simp)
  obtain ⟨⟨⟩, c₂, frees, ends⟩ := ends_bind.1 ends
  have listed : (serve spacePages c.own c.devices).1 = s.pages.map (·.1) := by
    rw [h.own]
    rfl
  rw [listed] at frees
  have h₁ : Holding b d s none (c.after .spacePages) :=
    h.still rfl (fun _ position same => ⟨position, same⟩) (fun _ => rfl) rfl rfl rfl
  obtain ⟨s', bare, h₂⟩ := holding_freePages h₁ frees
  have frames : s'.frames = [] := by rw [AddressSpace.frames, bare, List.map_nil]
  obtain ⟨⟨⟩, c₃, asks, ends⟩ := ends_bind.1 ends
  obtain ⟨-, rfl⟩ := (ends_ask.1 asks).eq (by simp) (by simp)
  obtain ⟨-, rfl⟩ := (ends_ask.1 ends).eq (by simp) (by simp)
  refine ⟨?_, h₂.volume, ?_, h₂.distinct, h₂.fresh, fun f => ?_, ?_⟩
  · simp only [Custody.after, serve]
    rw [h₂.own]
  · simpa [Custody.after, handsOut, givesBack, frames] using h₂.frames.symm
  · refine Bool.eq_iff_iff.2 ((h₂.used f).trans ?_)
    simp [frames]
  · refine h₂.counted.trans ?_
    simp [frames]

/-- Nothing is left of what was done since the thread had `b` and the devices were `d`. -/
structure Restores (b : Belongings) (d : Devices) (c : Custody) : Prop where
  /-- The thread has what it had. -/
  own : c.own = b
  /-- Each frame that the pool has handed out meanwhile has gone back. -/
  returned : c.returned.Perm c.taken
  /-- None was handed out twice, so none has gone back twice. -/
  distinct : c.taken.Nodup
  /-- None was in use before. -/
  fresh : ∀ f ∈ c.taken, d.pool.inUse f = false
  /-- The same frames are in use. -/
  used : ∀ f, c.devices.pool.inUse f = d.pool.inUse f
  /-- They are as many as before. -/
  counted : c.devices.pool.usedFrames = d.pool.usedFrames
  /-- The volume is as it was, the denials of each file included, save that one more handle may have been
      used up, which is closed. -/
  volume : c.devices.volume = d.volume ∨ c.devices.volume = d.volume.spent

/-- If a program is not loaded, whatever its file is like, nothing is left of the attempt. -/
theorem failed_leaves_nothing {arguments : List String} {e : LoadError} (idle : b.hands = .empty)
    (fails : (load arguments).Ends (.start b d) (.error e) c') : Restores b d c' := by
  cases arguments with
  | nil =>
    obtain ⟨-, rfl⟩ := ends_pure.1 fails
    exact ⟨rfl, .nil, .nil, by rintro _ ⟨⟩, fun _ => rfl, rfl, .inl rfl⟩
  | cons name rest =>
    obtain ⟨opened, c₁, asks, ends⟩ := ends_bind.1 fails
    obtain ⟨rfl, rfl⟩ := (ends_ask.1 asks).eq (by simp) (by simp)
    cases given : d.volume.openFile? name with
    | none =>
      simp only [Custody.after, Custody.start, serve, given] at ends
      obtain ⟨-, rfl⟩ := ends_pure.1 ends
      exact ⟨rfl, .nil, .nil, by rintro _ ⟨⟩, fun _ => rfl, rfl, .inl rfl⟩
    | some result =>
      obtain ⟨file, volume⟩ := result
      obtain ⟨rfl, node, denied⟩ := Volume.deny_openFile? given
      simp only [Custody.after, Custody.start, serve, given] at ends
      obtain ⟨⟨⟩, c₂, asks, ends⟩ := ends_bind.1 ends
      obtain ⟨-, rfl⟩ := (ends_ask.1 asks).eq (by simp) (by simp)
      obtain ⟨result, c₃, image, ends⟩ := ends_bind.1 ends
      obtain ⟨s, h⟩ := kept_loadImage (b := b) (d := d) (by simp [Custody.after, serve, idle, Hands.empty])
        ⟨node, 0, denied⟩ rfl rfl rfl image
      cases result with
      | ok loaded =>
        obtain ⟨mapped, c₄, asks, ends⟩ := ends_bind.1 ends
        obtain ⟨⟨⟩, c₅, asks, ends⟩ := ends_bind.1 ends
        cases (ends_pure.1 ends).1
      | error e =>
        obtain ⟨⟨⟩, c₄, release, ends⟩ := ends_bind.1 ends
        obtain ⟨own, ⟨node, position, volume⟩, returned, distinct, fresh, used, counted⟩ :=
          returned_releaseSpace h release
        obtain ⟨⟨⟩, c₅, asks, ends⟩ := ends_bind.1 ends
        obtain ⟨-, rfl⟩ := (ends_ask.1 asks).eq (by simp) (by simp)
        obtain ⟨⟨⟩, c₆, asks, ends⟩ := ends_bind.1 ends
        obtain ⟨-, rfl⟩ := (ends_ask.1 asks).eq (by simp) (by simp)
        obtain ⟨⟨⟩, c₇, asks, ends⟩ := ends_bind.1 ends
        obtain ⟨-, rfl⟩ := (ends_ask.1 asks).eq (by simp) (by simp)
        obtain ⟨-, rfl⟩ := ends_pure.1 ends
        refine ⟨?_, returned, distinct, fresh, used, counted, .inr ?_⟩
        · have same : { b with hands := .empty } = b := by rw [← idle]
          rw [← same]
          simp only [Custody.after, serve]
          rw [own]
          simp [Hands.empty]
        · rw [← d.volume.close_allow_denied node position, ← volume]
          rfl

/-- There is a frame for the segment of a program, but none for its stack. The file claims to be longer than
    it is. -/
theorem failed_leaves_nothing_halfway : ∃ (b : Belongings) (d : Devices) (e : LoadError) (c' : Custody),
    b.hands = .empty ∧ (load ["program"]).Ends (.start b d) (.error e) c' ∧
      c'.devices.trace.any (·.2.isFree) = true ∧ Restores b d c' := by
  let image : ExecutableImage := ⟨0x08048000, [⟨1, 0x08048000, [], 16, 6⟩]⟩
  let bytes := image.fileHeader ++ PlacedSegment.header ⟨⟨1, 0x08048000, [], 16, 6⟩, 0⟩
  let file := { FileNode.ofContents "program" (.ofExtents [.ofBytes 0 bytes]) 84 with
    claimedLength := some 0x10000 }
  let d : Devices := .fresh ⟨[("program", 0)], #[file], #[], 0, .bounded⟩ (.ofFrames 1) []
  have fails : ((load ["program"]).run (.fresh 1) d).1.isOk = false := by decide +kernel
  have freed : ((load ["program"]).run (.fresh 1) d).2.2.trace.any (·.2.isFree) = true := by decide +kernel
  obtain ⟨taken, returned, ends⟩ := ends_run (load ["program"]) (.fresh 1) d [] []
  generalize (load ["program"]).run (.fresh 1) d = outcome at fails freed ends
  obtain ⟨result, own, devices⟩ := outcome
  cases result with
  | ok p => cases fails
  | error e => exact ⟨.fresh 1, d, e, _, rfl, ends, freed, failed_leaves_nothing rfl ends⟩

end Loader

end Userland

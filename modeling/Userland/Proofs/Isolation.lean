import Mathlib.Algebra.GroupWithZero.Nat
import Mathlib.Data.List.Perm.Basic
import Userland.Proofs.Tenants

/-!
# That a pool is shared does not show

Frames move from the pool into hands, from hands into spaces and back into the pool, and each of them is
always in one place. With what is told of the spaces this is an invariant of all operations
(`Tenants.Sound`, `Tenants.Sound.perform`). It follows that each space is a finite map of its own: what is
done with one space does not show in another, and what was in a frame before does not show at all
(`Tenants.run_isAsTold`).
-/

namespace Userland

/-! ## Giving a space back -/

namespace Loader

open DeviceRequest Routine

variable {b : Belongings} {d : Devices} {s : AddressSpace}

/-- The loop gives back the frames of the pages, and nothing else. -/
theorem run_freePages {mapped : List VirtAddr} (inHand : b.hands.space = some s)
    (listed : s.pages.map (·.1) = mapped) :
    (((mapped.forM fun page => ask (freePage page)) : Routine Unit).run b d).2.2.pool =
      s.frames.foldl (·.release ·) d.pool := by
  induction mapped generalizing b d s with
  | nil =>
    have : s.frames = [] := by rw [AddressSpace.frames, List.map_eq_nil_iff.1 listed]; rfl
    rw [this]
    rfl
  | cons page rest ih =>
    obtain ⟨⟨a, e⟩, tail, first, rfl, below⟩ := List.map_eq_cons_iff.1 listed
    obtain ⟨found, others⟩ := AddressSpace.unmap_head first
    have served : (freePage a).serve b d =
        ((), { b with hands := { b.hands with space := some (s.unmap a) } },
          d.releaseFrame b.tid b.interrupts e.translation.frame) := by
      change serveFreePage a b d = _
      simp only [serveFreePage, inHand, found]
    have frames : s.frames = e.translation.frame :: (s.unmap a).frames := by
      rw [AddressSpace.frames, AddressSpace.frames, first, others, List.map_cons]
      rfl
    change ((ask (freePage a) >>= fun _ => rest.forM fun page => ask (freePage page)).run b
      d).2.2.pool = _
    rw [run_bind, run_ask, served, frames, List.foldl_cons]
    exact ih rfl (others ▸ below)

theorem run_releaseSpace (inHand : b.hands.space = some s) :
    (releaseSpace.run b d).2.2.pool = s.frames.foldl (·.release ·) d.pool ∧
      (releaseSpace.run b d).2.1.hands.space = none := by
  have listed : (spacePages.serve b d).1 = s.pages.map (·.1) := by
    simp only [serve, inHand]
    rfl
  rw [releaseSpace, run_bind, run_ask, run_bind, run_bind]
  exact ⟨run_freePages (s := s) inHand listed.symm, rfl⟩

end Loader

namespace FramePool

variable {pool : FramePool} {fs : List Frame}

theorem inUse_releaseAll (pool : FramePool) (fs : List Frame) (g : Frame) :
    (fs.foldl (·.release ·) pool).inUse g = (!decide (g ∈ fs) && pool.inUse g) := by
  induction fs generalizing pool with
  | nil => simp
  | cons f fs ih =>
    rw [List.foldl_cons, ih, inUse_release]
    by_cases first : g = f <;> by_cases later : g ∈ fs <;> simp [first, later]

theorem page?_releaseAll (pool : FramePool) (fs : List Frame) (g : Frame) :
    (fs.foldl (·.release ·) pool).page? g = pool.page? g := by
  induction fs generalizing pool with
  | nil => rfl
  | cons f fs ih => rw [List.foldl_cons, ih, page?_release]

theorem Addressable.releaseAll (addressable : pool.Addressable) (fs : List Frame) :
    (fs.foldl (·.release ·) pool).Addressable := by
  induction fs generalizing pool with
  | nil => exact addressable
  | cons f fs ih => exact ih (addressable.release f)

/-- If each frame in use is listed once, there are as many in use as are listed. -/
theorem usedFrames_eq_length (addressable : pool.Addressable) (once : fs.Nodup)
    (live : ∀ f, pool.inUse f = true ↔ f ∈ fs) : pool.usedFrames = fs.length := by
  have numbers : (fs.map (·.index)).Perm
      ((List.range pool.slots.size).filter fun i => (pool.slots[i]?.map (·.inUse)).getD false) := by
    refine (List.perm_ext_iff_of_nodup (once.map fun _ _ => Frame.index_injective)
      (List.nodup_range.filter _)).2 fun i => ?_
    rw [List.mem_map, List.mem_filter, List.mem_range]
    constructor
    · rintro ⟨f, mem, rfl⟩
      have used := (live f).2 mem
      exact ⟨lt_size_of_inUse used, used⟩
    · rintro ⟨lt, used⟩
      have found := Array.getElem?_eq_getElem lt
      have small := addressable i _ found (by simpa [found] using used)
      exact ⟨⟨i, small⟩, (live ⟨i, small⟩).1 used, rfl⟩
  have slots := AddressSpace.filterMap_range_getElem? pool.slots.toList
  rw [← List.length_map (f := (·.index)), numbers.length_eq, ← List.countP_eq_length_filter,
    usedFrames, ← Array.countP_toList, ← slots, List.countP_filterMap, Array.length_toList]
  simp only [Array.getElem?_toList]

end FramePool

/-! ## One place for each frame -/

namespace Tenants

variable {m : Tenants} {told : Nat → SpaceRecord} {i j : Nat} {s s' : AddressSpace} {f g : Frame}
  {x : Option AddressSpace} {page : VirtAddr} {writable : Bool} {d : Devices} {held : List Frame}

/-- The frames that a space maps; none if it was dropped. -/
def framesOf : Option AddressSpace → List Frame
  | some s => s.frames
  | none => []

/-- The frames that are mapped somewhere or held. -/
def owned (m : Tenants) : List Frame := m.spaces.flatMap framesOf ++ m.held

theorem getElem?_of_space? (found : m.space? i = some s) : m.spaces[i]? = some (some s) := by
  rwa [space?, Option.join_eq_some_iff] at found

theorem lt_of_space? (found : m.space? i = some s) : i < m.spaces.length :=
  (List.getElem?_eq_some_iff.1 (getElem?_of_space? found)).1

theorem space?_set (found : m.space? i = some s) (x : Option AddressSpace) (j : Nat) :
    (⟨d, m.spaces.set i x, held⟩ : Tenants).space? j = if j = i then x else m.space? j := by
  rw [space?, List.getElem?_set]
  by_cases same : j = i
  · rw [if_pos same, if_pos same.symm, if_pos (lt_of_space? found)]
    rfl
  · rw [if_neg same, if_neg (Ne.symm same)]
    rfl

theorem mem_owned_of_space? (found : m.space? i = some s) (mem : f ∈ s.frames) : f ∈ m.owned :=
  List.mem_append_left _ (List.mem_flatMap.2
    ⟨some s, List.mem_of_getElem? (getElem?_of_space? found), mem⟩)

theorem mem_owned_of_held (mem : f ∈ m.held) : f ∈ m.owned := List.mem_append_right _ mem

/-- What is owned after one space is replaced: the frames of the new one, and what is left of the
    others. -/
theorem owned_set (found : m.space? i = some s) : ∃ rest, m.owned.Perm (s.frames ++ (rest ++ m.held)) ∧
    ∀ d x held, (⟨d, m.spaces.set i x, held⟩ : Tenants).owned.Perm
      (framesOf x ++ (rest ++ held)) := by
  obtain ⟨lt, here⟩ := List.getElem?_eq_some_iff.1 (getElem?_of_space? found)
  refine ⟨(m.spaces.eraseIdx i).flatMap framesOf, ?_, fun d x held => ?_⟩
  · have front := (List.getElem_cons_eraseIdx_perm lt).symm.flatMap_right framesOf
    rw [here] at front
    rw [← List.append_assoc]
    exact front.append_right m.held
  · rw [← List.append_assoc]
    exact ((List.set_perm_cons_eraseIdx lt x).flatMap_right framesOf).append_right held

/-- Frames are in one place each, and spaces show what is told of them. -/
structure Sound (m : Tenants) (told : Nat → SpaceRecord) : Prop where
  /-- Each space is as told. -/
  asTold : ∀ i s, m.space? i = some s → s.IsAsTold m.pool (told i)
  /-- It counts its pages. -/
  counted : ∀ i s, m.space? i = some s → s.mapped = s.frames.length
  /-- No frame is in two places. -/
  once : m.owned.Nodup
  /-- The frames in use are those that are somewhere. -/
  live : ∀ f, m.pool.inUse f = true ↔ f ∈ m.owned
  /-- All of them have an address. -/
  addressable : m.pool.Addressable
  /-- A frame that is held is as it was handed out. -/
  blank : ∀ f ∈ m.held, m.pool.page? f = some (Page.filled 0)

theorem Sound.backed (sound : m.Sound told) (found : m.space? i = some s) : s.Backed m.pool :=
  fun f mem => (sound.live f).2 (mem_owned_of_space? found mem)

theorem Sound.nodup_frames (sound : m.Sound told) (found : m.space? i = some s) : s.frames.Nodup := by
  obtain ⟨rest, perm, -⟩ := owned_set found
  exact (List.nodup_append.1 (perm.nodup_iff.1 sound.once)).1

/-- A frame of one space is neither held nor a frame of another. -/
theorem Sound.notMem (sound : m.Sound told) (found : m.space? i = some s) (mem : f ∈ s.frames) :
    f ∉ m.held ∧ ∀ j s', m.space? j = some s' → j ≠ i → f ∉ s'.frames := by
  obtain ⟨rest, perm, replaced⟩ := owned_set found
  have apart := (List.nodup_append.1 (perm.nodup_iff.1 sound.once)).2.2
  refine ⟨fun held => apart f mem f (List.mem_append_right _ held) rfl,
    fun j s' found' other mem' => apart f mem f ?_ rfl⟩
  -- The other space is still there when this one is taken away.
  have there : (⟨m.devices, m.spaces.set i none, m.held⟩ : Tenants).space? j = some s' := by
    rw [space?_set found, if_neg other, found']
  exact (replaced _ none _).mem_iff.1 (mem_owned_of_space? there mem')

theorem sound_start {d : Devices} (unused : d.pool.usedFrames = 0) :
    (start d).Sound fun _ => .empty where
  asTold i s found := by cases found
  counted i s found := by cases found
  once := List.nodup_nil
  live f := by
    have free := (FramePool.usedFrames_eq_zero (FramePool.addressable_of_usedFrames unused)).1 unused f
    rw [pool, start, free]
    exact ⟨nofun, fun mem => nomatch mem⟩
  addressable := FramePool.addressable_of_usedFrames unused
  blank f mem := nomatch mem

theorem Sound.create (sound : m.Sound told) :
    (m.perform .create).2.Sound (TenantOp.create.told told (m.perform .create).1) := by
  have spaces (j : Nat) : (m.perform .create).2.space? j =
      if j = m.spaces.length then some (.empty m.devices.spacesMade) else m.space? j := by
    change (m.spaces ++ [some (AddressSpace.empty m.devices.spacesMade)])[j]?.join = _
    rcases Nat.lt_trichotomy j m.spaces.length with before | rfl | after
    · rw [List.getElem?_append_left before, if_neg (Nat.ne_of_lt before)]
      rfl
    · rw [List.getElem?_append_right (Nat.le_refl _), if_pos rfl, Nat.sub_self]
      rfl
    · rw [if_neg (Nat.ne_of_gt after), space?, List.getElem?_eq_none (by simp; omega),
        List.getElem?_eq_none (by omega)]
  have owned : (m.perform .create).2.owned = m.owned := by
    change (m.spaces ++ [some (AddressSpace.empty m.devices.spacesMade)]).flatMap framesOf ++ m.held = _
    rw [List.flatMap_append, List.flatMap_singleton, framesOf, AddressSpace.frames_empty,
      List.append_nil]
    rfl
  refine ⟨fun j s found => ?_, fun j s found => ?_, owned ▸ sound.once, owned ▸ sound.live,
    sound.addressable, sound.blank⟩ <;> rw [spaces] at found
  · change s.IsAsTold m.pool (Function.update told m.spaces.length .empty j)
    split at found
    · rename_i here
      cases found
      rw [here, Function.update_self]
      exact AddressSpace.isAsTold_empty _ _
    · rename_i other
      rw [Function.update_of_ne other]
      exact sound.asTold j s found
  · split at found
    · cases found
      rw [AddressSpace.frames_empty]
      rfl
    · exact sound.counted j s found

/-- What taking a frame does. -/
theorem perform_allocate (m : Tenants) :
    (m.pool.allocate? = none ∧
      m.perform .allocate = (.given none, ⟨m.devices.note 0 (.allocate false), m.spaces, m.held⟩)) ∨
    ∃ f pool, m.pool.allocate? = some (f, pool) ∧ m.perform .allocate =
      (.given (some f), ⟨{ m.devices with pool := pool }.note 0 (.allocate true), m.spaces,
        f :: m.held⟩) := by
  have served : m.perform .allocate =
      (.given (DeviceRequest.serveAllocate (holding none none) m.devices).2.1.hands.frame,
        ⟨(DeviceRequest.serveAllocate (holding none none) m.devices).2.2, m.spaces,
          (DeviceRequest.serveAllocate (holding none none) m.devices).2.1.hands.frame.toList ++
            m.held⟩) := rfl
  rw [served, DeviceRequest.serveAllocate, pool]
  cases given : m.devices.pool.allocate? with
  | none => exact .inl ⟨rfl, rfl⟩
  | some handed => exact .inr ⟨handed.1, handed.2, rfl, rfl⟩

theorem Sound.allocate (sound : m.Sound told) :
    (m.perform .allocate).2.Sound (TenantOp.allocate.told told (m.perform .allocate).1) := by
  rcases m.perform_allocate with ⟨-, after⟩ | ⟨f, pool, given, after⟩ <;> rw [after]
  · exact ⟨sound.asTold, sound.counted, sound.once, sound.live, sound.addressable, sound.blank⟩
  · obtain ⟨-, free, -⟩ := FramePool.allocate?_eq_some given
    have fresh : f ∉ m.owned := fun mem => by
      rw [(sound.live f).2 mem] at free
      cases free
    have owned : (m.spaces.flatMap framesOf ++ f :: m.held).Perm (f :: m.owned) := List.perm_middle
    refine ⟨fun j s found => (sound.asTold j s found).congr fun g mem => ?_, sound.counted,
      owned.nodup_iff.2 (List.nodup_cons.2 ⟨fresh, sound.once⟩), fun g => ?_,
      sound.addressable.allocate? given, List.forall_mem_cons.2 ⟨?_, fun g mem => ?_⟩⟩
    · have other : g ≠ f := fun same => fresh (same ▸ mem_owned_of_space? found mem)
      exact (FramePool.page?_allocate? given g).trans (if_neg other)
    · refine (Bool.eq_iff_iff.1 (FramePool.inUse_allocate? given g)).trans (Iff.trans ?_
        owned.mem_iff.symm)
      rw [Bool.or_eq_true, decide_eq_true_eq, List.mem_cons, sound.live]
    · exact (FramePool.page?_allocate? given f).trans (if_pos rfl)
    · have other : g ≠ f := fun same => fresh (same ▸ mem_owned_of_held mem)
      exact (FramePool.page?_allocate? given g).trans ((if_neg other).trans (sound.blank g mem))

/-- A frame that is held goes back. -/
theorem Sound.release (sound : m.Sound told) (mem : f ∈ m.held) (d : Devices)
    (pool : d.pool = m.pool.release f) : (⟨d, m.spaces, m.held.erase f⟩ : Tenants).Sound told := by
  have owned : m.owned.Perm (f :: (⟨d, m.spaces, m.held.erase f⟩ : Tenants).owned) :=
    ((List.perm_cons_erase mem).append_left _).trans List.perm_middle
  have once := List.nodup_cons.1 (owned.nodup_iff.1 sound.once)
  refine ⟨fun j s found => (sound.asTold j s found).congr fun g _ => ?_, sound.counted, once.2,
    fun g => ?_, ?_, fun g mem => ?_⟩
  · exact (congrArg (·.page? g) pool).trans (FramePool.page?_release ..)
  · have released := (congrArg (·.inUse g) pool).trans (FramePool.inUse_release m.pool f g)
    rw [Tenants.pool, released, Bool.and_eq_true, Bool.not_eq_true', decide_eq_false_iff_not,
      sound.live, owned.mem_iff, List.mem_cons]
    constructor
    · rintro ⟨other, rfl | mem⟩
      · exact absurd rfl other
      · exact mem
    · exact fun mem => ⟨fun same => once.1 (same ▸ mem), .inr mem⟩
  · rw [Tenants.pool, pool]
    exact sound.addressable.release f
  · exact (congrArg (·.page? g) pool).trans
      ((FramePool.page?_release ..).trans (sound.blank g (List.mem_of_mem_erase mem)))

/-- What mapping does: the page is refused and the frame goes back, or the page is in the space. -/
theorem perform_map (found : m.space? i = some s) (mem : f ∈ m.held) (page : VirtAddr)
    (writable : Bool) :
    (∃ e d, s.checkMappable page = .error e ∧ d.pool = m.pool.release f ∧
      m.perform (.map i page f writable) = (.mapped (.error e), ⟨d, m.spaces, m.held.erase f⟩)) ∨
    ∃ s', s.map page f writable = .ok s' ∧ m.perform (.map i page f writable) =
      (.mapped (.ok ()), ⟨m.devices, m.spaces.set i (some s'), m.held.erase f⟩) := by
  have served : m.perform (.map i page f writable) =
      (.mapped (DeviceRequest.serveMapFrame page writable (holding (some s) (some f)) m.devices).1,
        ⟨(DeviceRequest.serveMapFrame page writable (holding (some s) (some f)) m.devices).2.2,
          m.spaces.set i (DeviceRequest.serveMapFrame page writable (holding (some s) (some f))
            m.devices).2.1.hands.space, m.held.erase f⟩) := by
    rw [perform]
    simp only [found, if_pos mem]
    rfl
  have inHand : (holding (some s) (some f)).hands.space = some s := rfl
  have frame : (holding (some s) (some f)).hands.frame = some f := rfl
  rw [served, DeviceRequest.serveMapFrame]
  simp only [inHand, frame]
  cases mapped : s.map page f writable with
  | error e =>
    have same : m.spaces.set i (some s) = m.spaces := by
      obtain ⟨lt, here⟩ := List.getElem?_eq_some_iff.1 (getElem?_of_space? found)
      rw [← here, List.set_getElem_self]
    refine .inl ⟨e, m.devices.releaseFrame 0 .on f, AddressSpace.map_eq_error mapped, rfl, ?_⟩
    simp only [same]
    rfl
  | ok s' => exact .inr ⟨s', rfl, rfl⟩

theorem Sound.map (sound : m.Sound told) (found : m.space? i = some s) (mem : f ∈ m.held)
    (page : VirtAddr) (writable : Bool) : (m.perform (.map i page f writable)).2.Sound
      ((TenantOp.map i page f writable).told told (m.perform (.map i page f writable)).1) := by
  rcases m.perform_map found mem page writable with ⟨e, d, -, pool, after⟩ | ⟨s', mapped, after⟩ <;>
    rw [after]
  · exact sound.release mem d pool
  · change Tenants.Sound _ (Function.update told i _)
    obtain ⟨rest, before, replaced⟩ := owned_set found
    have frames := AddressSpace.frames_map mapped
    -- The frame moves from the hands into the space.
    have owned : (⟨m.devices, m.spaces.set i (some s'), m.held.erase f⟩ : Tenants).owned.Perm
        m.owned := by
      refine (replaced _ _ _).trans ((frames.append_right _).trans ?_)
      refine List.Perm.trans ?_ before.symm
      rw [List.cons_append, ← List.append_assoc, ← List.append_assoc]
      exact List.perm_middle.symm.trans ((List.perm_cons_erase mem).symm.append_left _)
    refine ⟨fun j t found' => ?_, fun j t found' => ?_, owned.nodup_iff.2 sound.once,
      fun g => (sound.live g).trans owned.mem_iff.symm, sound.addressable,
      fun g mem => sound.blank g (List.mem_of_mem_erase mem)⟩ <;>
      rw [space?_set found] at found'
    · split at found'
      · rename_i here
        cases found'
        rw [here, Function.update_self]
        exact (sound.asTold i s found).install mapped (sound.blank f mem)
      · rename_i other
        rw [Function.update_of_ne other]
        exact sound.asTold j t found'
    · split at found'
      · cases found'
        obtain ⟨-, rfl⟩ := AddressSpace.map_eq_ok mapped
        rw [frames.length_eq, List.length_cons, ← sound.counted i s found]
      · exact sound.counted j t found'

theorem Sound.write (sound : m.Sound told) (found : m.space? i = some s) (start : VirtAddr)
    (data : Bytes) : (m.perform (.write i start data)).2.Sound
      ((TenantOp.write i start data).told told (m.perform (.write i start data)).1) := by
  have after : m.perform (.write i start data) = (.written (s.writeBytes m.pool start data).1,
      { m with devices := { m.devices with pool := (s.writeBytes m.pool start data).2 } }) := by
    rw [perform]
    simp only [found]
  have same := AddressSpace.sameUse_writeFrom s m.pool start 0 data
  have untouched {g : Frame} (notMem : g ∉ s.frames) :=
    AddressSpace.page?_writeFrom m.pool notMem start 0 data
  rw [after]
  change Tenants.Sound _ (Function.update told i _)
  refine ⟨fun j t found' => ?_, sound.counted, sound.once,
    fun g => (Bool.eq_iff_iff.1 (same.inUse g)).trans (sound.live g),
    same.addressable sound.addressable, fun g mem => ?_⟩
  · by_cases here : j = i
    · subst here
      obtain rfl := Option.some.inj (found'.symm.trans found)
      rw [Function.update_self]
      exact (sound.asTold j t found).store (sound.nodup_frames found) (sound.backed found) start data
    · rw [Function.update_of_ne here]
      exact (sound.asTold j t found').congr fun g mem =>
        untouched ((sound.notMem found' mem).2 i s found (Ne.symm here))
  · exact (untouched fun inside => (sound.notMem found inside).1 mem).trans (sound.blank g mem)

/-- What dropping does: all frames of the space go back. -/
theorem perform_drop (found : m.space? i = some s) : ∃ d, d.pool = s.frames.foldl (·.release ·) m.pool ∧
    m.perform (.drop i) = (.done, ⟨d, m.spaces.set i none, m.held⟩) := by
  obtain ⟨pool, space⟩ := Loader.run_releaseSpace (b := holding (some s) none) (d := m.devices)
    (s := s) rfl
  refine ⟨_, pool, ?_⟩
  rw [perform]
  simp only [found, handle, space]

theorem Sound.drop (sound : m.Sound told) (found : m.space? i = some s) :
    (m.perform (.drop i)).2.Sound ((TenantOp.drop i).told told (m.perform (.drop i)).1) := by
  obtain ⟨d, pool, after⟩ := perform_drop found
  rw [after]
  change Tenants.Sound _ told
  obtain ⟨rest, before, replaced⟩ := owned_set found
  have owned : m.owned.Perm (s.frames ++ (⟨d, m.spaces.set i none, m.held⟩ : Tenants).owned) :=
    before.trans ((replaced d none m.held).symm.append_left _)
  have once := List.nodup_append.1 (owned.nodup_iff.1 sound.once)
  have there {j : Nat} {t : AddressSpace}
      (found' : (⟨d, m.spaces.set i none, m.held⟩ : Tenants).space? j = some t) :
      m.space? j = some t := by
    rw [space?_set found] at found'
    split at found'
    · cases found'
    · exact found'
  refine ⟨fun j t found' => (sound.asTold j t (there found')).congr fun g _ => ?_,
    fun j t found' => sound.counted j t (there found'), once.2.1, fun g => ?_, ?_, fun g mem => ?_⟩
  · exact (congrArg (·.page? g) pool).trans (FramePool.page?_releaseAll ..)
  · have released := (congrArg (·.inUse g) pool).trans (FramePool.inUse_releaseAll m.pool s.frames g)
    rw [Tenants.pool, released, Bool.and_eq_true, Bool.not_eq_true', decide_eq_false_iff_not,
      sound.live, owned.mem_iff, List.mem_append]
    exact ⟨fun ⟨notMem, mem⟩ => mem.resolve_left notMem,
      fun mem => ⟨fun mem' => once.2.2 g mem' g mem rfl, .inr mem⟩⟩
  · rw [Tenants.pool, pool]
    exact sound.addressable.releaseAll s.frames
  · exact (congrArg (·.page? g) pool).trans
      ((FramePool.page?_releaseAll ..).trans (sound.blank g mem))

/-- No operation puts a frame in two places, or shows what was not told. -/
theorem Sound.perform (sound : m.Sound told) (op : TenantOp) :
    (m.perform op).2.Sound (op.told told (m.perform op).1) := by
  cases op with
  | create => exact sound.create
  | allocate => exact sound.allocate
  | map i page f writable =>
    cases found : m.space? i with
    | none =>
      simp only [Tenants.perform, found]
      exact sound
    | some s =>
      by_cases mem : f ∈ m.held
      · exact sound.map found mem page writable
      · simp only [Tenants.perform, found, if_neg mem]
        exact sound
  | free f =>
    by_cases mem : f ∈ m.held
    · simp only [Tenants.perform, if_pos mem]
      exact sound.release mem _ rfl
    · simp only [Tenants.perform, if_neg mem]
      exact sound
  | read i start n =>
    cases found : m.space? i with
    | none =>
      simp only [Tenants.perform, found]
      exact sound
    | some s =>
      simp only [Tenants.perform, found]
      exact sound
  | write i start data =>
    cases found : m.space? i with
    | none =>
      simp only [Tenants.perform, found]
      exact sound
    | some s => exact sound.write found start data
  | drop i =>
    cases found : m.space? i with
    | none =>
      simp only [Tenants.perform, found]
      exact sound
    | some s => exact sound.drop found

theorem sound_run {d : Devices} (unused : d.pool.usedFrames = 0) (ops : List TenantOp) :
    (run d ops).1.Sound (run d ops).2 := by
  induction ops using List.reverseRecOn with
  | nil => exact sound_start unused
  | append_singleton ops op ih =>
    have next : run d (ops ++ [op]) =
        (((run d ops).1.perform op).2, op.told (run d ops).2 ((run d ops).1.perform op).1) := by
      rw [run, List.foldl_append]
      rfl
    rw [next]
    exact ih.perform op

/-! ## What shows of the pool -/

/-- How many pages a space says that it maps. -/
def pagesOf (x : Option AddressSpace) : Nat := (x.map (·.mapped)).getD 0

/-- The spaces and the pool are as the operations tell. -/
structure IsAsTold (m : Tenants) (told : Nat → SpaceRecord) : Prop where
  /-- Each space is a finite map from user pages to frames and permissions, and counts its pages. -/
  space : ∀ i s, m.space? i = some s → s.IsAsTold m.pool (told i) ∧
    s.mapped = (List.range AddressSpace.userPages).countP fun n => ((told i).pages n).isSome
  /-- No frame is mapped at two places. -/
  apart : ∀ i j s s' n k f writable writable', m.space? i = some s → m.space? j = some s' →
    (told i).pages n = some (f, writable) → (told j).pages k = some (f, writable') → i = j ∧ n = k
  /-- A frame that is held is held once, and not mapped. -/
  held : m.held.Nodup ∧ ∀ f ∈ m.held, ∀ i s n writable, m.space? i = some s →
    (told i).pages n ≠ some (f, writable)
  /-- The bytes in use are those of the mapped pages and of the frames that are held. -/
  used : m.pool.usedBytes = pageSize * ((m.spaces.map pagesOf).sum + m.held.length)

/-- What operations answer, and what they do to frames and to other spaces. -/
structure Answers (m : Tenants) (told : Nat → SpaceRecord) : Prop where
  /-- A page is refused exactly if it is misaligned, page 0, a page of the kernel, or mapped already. -/
  map : ∀ i s page f writable, m.space? i = some s → f ∈ m.held →
    ((m.perform (.map i page f writable)).1 = .mapped (.ok ()) ↔
      page.isAligned = true ∧ pageSize ≤ page.toNat ∧ page.toNat < userTop ∧
        (told i).pages (page.toNat / pageSize) = none)
  /-- If it is refused, the frame goes back, and no space changes. -/
  refused : ∀ i s page f writable, m.space? i = some s → f ∈ m.held →
    (m.perform (.map i page f writable)).1 ≠ .mapped (.ok ()) →
    (m.perform (.map i page f writable)).2.spaces = m.spaces ∧
      ∀ g, (m.perform (.map i page f writable)).2.pool.inUse g = true ↔
        m.pool.inUse g = true ∧ g ≠ f
  /-- If it is not refused, the page is all zeros, whatever was in the frame. -/
  blank : ∀ i s page f writable, m.space? i = some s → f ∈ m.held →
    (m.perform (.map i page f writable)).1 = .mapped (.ok ()) →
    ∃ s', (m.perform (.map i page f writable)).2.space? i = some s' ∧
      ∀ a : VirtAddr, a.toNat / pageSize = page.toNat / pageSize →
        s'.byte? (m.perform (.map i page f writable)).2.pool a = some 0
  /-- A read succeeds if all pages are mapped, and gives the bytes that were stored. -/
  read : ∀ i s start n bs, m.space? i = some s →
    ((m.perform (.read i start n)).1 = .read (.ok bs) ↔ bs.length = n ∧ ∀ k < n, ∃ a : VirtAddr,
      a.toNat = start.toNat + k ∧ ((told i).pages (a.toNat / pageSize)).isSome = true ∧
        bs[k]? = some ((told i).byte a.toNat))
  /-- A write leaves every byte of every other space as it was. -/
  write : ∀ i start data j s, j ≠ i → m.space? j = some s →
    (m.perform (.write i start data)).2.space? j = some s ∧
      ∀ a, s.byte? (m.perform (.write i start data)).2.pool a = s.byte? m.pool a
  /-- When a space is dropped, exactly its frames go back, and the other spaces stay. -/
  drop : ∀ i s, m.space? i = some s → (m.perform (.drop i)).2.spaces = m.spaces.set i none ∧
    ∀ g, (m.perform (.drop i)).2.pool.inUse g = true ↔
      m.pool.inUse g = true ∧ ∀ n writable, (told i).pages n ≠ some (g, writable)

end Tenants

namespace AddressSpace

variable {s : AddressSpace} {pool : FramePool} {r : SpaceRecord} {f : Frame} {n : Nat}
  {writable : Bool}

/-- The frames of a space are those that it is told to map. -/
theorem IsAsTold.mem_frames_iff (asTold : s.IsAsTold pool r) :
    f ∈ s.frames ↔ ∃ n writable, r.pages n = some (f, writable) := by
  constructor
  · intro mem
    obtain ⟨⟨a, e⟩, listed, rfl⟩ := List.mem_map.1 mem
    obtain ⟨n, lt, found, rfl⟩ := mem_pages.1 listed
    have told := asTold.translate (pageAddress n)
    have number : (pageAddress n).toNat / pageSize = n := number_of_lt lt
    rw [translate_eq, if_pos (isUser_pageAddress lt), number, found, Option.map_some, eq_comm,
      Option.map_eq_some_iff] at told
    obtain ⟨⟨g, writable⟩, told, same⟩ := told
    exact ⟨n, writable, told.trans (by rw [show g = _ from congrArg Translation.frame same]; rfl)⟩
  · rintro ⟨n, writable, told⟩
    have lt := (asTold.user n (by rw [told]; rfl)).2
    have number : (pageAddress n).toNat / pageSize = n := number_of_lt lt
    refine mem_frames_of_translate (a := pageAddress n) (t := ⟨f, .ofUser writable⟩) ?_
    rw [asTold.translate, number, told]
    rfl

/-- A frame that is mapped once is told once. -/
theorem IsAsTold.number_of_frame (asTold : s.IsAsTold pool r) (once : s.frames.Nodup) {k : Nat}
    {writable' : Bool} (told : r.pages n = some (f, writable))
    (told' : r.pages k = some (f, writable')) : n = k := by
  have entry {n : Nat} {writable : Bool} (told : r.pages n = some (f, writable)) :
      ∃ e, n < userPages ∧ s.presentAt n = some e ∧ Frame.ofAddress e.frame = f := by
    have lt := (asTold.user n (by rw [told]; rfl)).2
    have shown := asTold.translate (pageAddress n)
    have number : (pageAddress n).toNat / pageSize = n := number_of_lt lt
    rw [number, told, Option.map_some, translate_eq_some, number] at shown
    obtain ⟨-, e, present, same⟩ := shown
    exact ⟨e, lt, present, congrArg Translation.frame same⟩
  obtain ⟨e, lt, present, same⟩ := entry told
  obtain ⟨e', lt', present', same'⟩ := entry told'
  exact AddressSpace.number_of_frame once lt lt' present present' (same.trans same'.symm)

theorem IsAsTold.length_frames (asTold : s.IsAsTold pool r) :
    s.frames.length = (List.range userPages).countP fun n => (r.pages n).isSome := by
  rw [frames, List.length_map, pages_eq, List.length_filterMap_eq_countP]
  refine List.countP_congr fun n inside => ?_
  rw [Option.isSome_map, ← asTold.maps_iff]
  exact ⟨fun some => ⟨List.mem_range.1 inside, some⟩, fun maps => maps.2⟩

/-- A page can be mapped if it is aligned, a user page, and not told to be mapped already. -/
theorem IsAsTold.checkMappable_eq_ok (asTold : s.IsAsTold pool r) {page : VirtAddr} :
    s.checkMappable page = .ok () ↔ page.isAligned = true ∧ pageSize ≤ page.toNat ∧ page.toNat < userTop ∧
      r.pages (page.toNat / pageSize) = none := by
  have below : page.isUser = true ↔ page.toNat < userTop := by
    rw [VirtAddr.isUser, decide_eq_true_eq]
  have free (user : page.isUser = true) : s.presentAt (page.toNat / pageSize) = none ↔
      r.pages (page.toNat / pageSize) = none := by
    rw [← Option.not_isSome_iff_eq_none, ← Option.not_isSome_iff_eq_none, ← asTold.maps_iff]
    exact not_congr ⟨fun some => ⟨isUser_iff.1 user, some⟩, fun maps => maps.2⟩
  rw [AddressSpace.checkMappable_eq_ok, ← below]
  exact and_congr_right fun _ => and_congr_right fun _ => and_congr_right free

/-- A read succeeds if each of its pages is told to be mapped, and gives what is told of the bytes. -/
theorem IsAsTold.readBytes_eq_ok (asTold : s.IsAsTold pool r) (backed : s.Backed pool)
    {start : VirtAddr} {count : Nat} {bs : List UInt8} :
    s.readBytes pool start count = .ok bs ↔ bs.length = count ∧ ∀ k < count, ∃ a : VirtAddr,
      a.toNat = start.toNat + k ∧ (r.pages (a.toNat / pageSize)).isSome = true ∧
        bs[k]? = some (r.byte a.toNat) := by
  rw [readBytes, readFrom_eq_ok backed]
  refine and_congr_right fun length => forall₂_congr fun k lt => exists_congr fun a => ?_
  rw [Nat.add_zero, asTold.byte, List.getElem?_eq_getElem (length ▸ lt), eq_comm (b := some bs[k])]
  refine and_congr_right fun _ => ?_
  cases r.pages (a.toNat / pageSize) with
  | none => simp
  | some place => simp

end AddressSpace

namespace Tenants

variable {m : Tenants} {told : Nat → SpaceRecord}

theorem Sound.isAsTold (sound : m.Sound told) : m.IsAsTold told where
  space i s found := by
    have asTold := sound.asTold i s found
    exact ⟨asTold, (sound.counted i s found).trans asTold.length_frames⟩
  apart i j s s' n k f writable writable' found found' page page' := by
    have mem := (sound.asTold i s found).mem_frames_iff.2 ⟨n, writable, page⟩
    have mem' := (sound.asTold j s' found').mem_frames_iff.2 ⟨k, writable', page'⟩
    have same : j = i := by
      by_contra other
      exact (sound.notMem found mem).2 j s' found' other mem'
    subst same
    exact ⟨rfl, (sound.asTold j s found).number_of_frame (sound.nodup_frames found) page page'⟩
  held := by
    refine ⟨(List.nodup_append.1 sound.once).2.1, fun f mem i s n writable found page => ?_⟩
    have inside := (sound.asTold i s found).mem_frames_iff.2 ⟨n, writable, page⟩
    exact (sound.notMem found inside).1 mem
  used := by
    have counted : m.spaces.map pagesOf = m.spaces.map fun x => (framesOf x).length := by
      refine List.map_congr_left fun x mem => ?_
      cases x with
      | none => rfl
      | some s =>
        obtain ⟨i, found⟩ := List.mem_iff_getElem?.1 mem
        exact sound.counted i s (by rw [space?, found]; rfl)
    rw [FramePool.usedBytes, FramePool.usedFrames_eq_length sound.addressable sound.once sound.live,
      owned, List.length_append, List.length_flatMap, counted]

/-- A page that has been mapped is all zeros, whatever was in the frame. -/
theorem Sound.blank_of_map (sound : m.Sound told) {i : Nat} {s s' : AddressSpace} {page : VirtAddr} {f : Frame}
    {writable : Bool} (found : m.space? i = some s) (mem : f ∈ m.held)
    (goes : m.perform (.map i page f writable) =
      (.mapped (.ok ()), ⟨m.devices, m.spaces.set i (some s'), m.held.erase f⟩))
    {a : VirtAddr} (here : a.toNat / pageSize = page.toNat / pageSize) : s'.byte? m.pool a = some 0 := by
  have after := sound.map found mem page writable
  rw [goes] at after
  have there : (⟨m.devices, m.spaces.set i (some s'), m.held.erase f⟩ : Tenants).space? i = some s' := by
    rw [space?_set found, if_pos rfl]
  have shown := (after.asTold i s' there).byte a
  change s'.byte? m.pool a =
    Option.map _ ((Function.update told i ((told i).install _ f writable) i).pages _) at shown
  rw [Function.update_self, SpaceRecord.pages_install, if_pos here] at shown
  rw [shown]
  change some ((Function.update told i _ i).byte _) = _
  rw [Function.update_self, SpaceRecord.byte_install, if_pos here]

theorem Sound.answers (sound : m.Sound told) : m.Answers told where
  map i s page f writable found mem := by
    rw [← (sound.asTold i s found).checkMappable_eq_ok]
    rcases m.perform_map found mem page writable with ⟨e, d, refused, -, after⟩ | ⟨s', mapped, after⟩
    · rw [after, refused]
      exact ⟨by simp, by simp⟩
    · rw [after]
      exact ⟨fun _ => (AddressSpace.map_eq_ok mapped).1, fun _ => rfl⟩
  refused i s page f writable found mem failed := by
    rcases m.perform_map found mem page writable with ⟨e, d, -, pool, after⟩ | ⟨s', mapped, after⟩
    · rw [after]
      refine ⟨rfl, fun g => ?_⟩
      rw [Tenants.pool, pool, FramePool.inUse_release, Bool.and_eq_true, Bool.not_eq_true',
        decide_eq_false_iff_not, and_comm]
    · exact absurd (congrArg Prod.fst after) failed
  blank i s page f writable found mem done := by
    rcases m.perform_map found mem page writable with ⟨e, d, -, -, failed⟩ | ⟨s', mapped, goes⟩
    · rw [failed] at done
      cases done
    · have there : (m.perform (.map i page f writable)).2.space? i = some s' := by
        rw [goes, space?_set found, if_pos rfl]
      refine ⟨s', there, fun a here => ?_⟩
      rw [goes]
      exact sound.blank_of_map found mem goes here
  read i s start n bs found := by
    have got : (m.perform (.read i start n)).1 = .read (s.readBytes m.pool start n) := by
      rw [Tenants.perform]
      simp only [found]
    rw [got, TenantReply.read.injEq, (sound.asTold i s found).readBytes_eq_ok (sound.backed found)]
  write i start data j s other found := by
    cases found' : m.space? i with
    | none =>
      rw [Tenants.perform]
      simp only [found']
      exact ⟨found, fun _ => trivial⟩
    | some t =>
      rw [Tenants.perform]
      simp only [found']
      refine ⟨found, AddressSpace.byte?_congr fun f mem => ?_⟩
      exact AddressSpace.page?_writeFrom m.pool
        ((sound.notMem found mem).2 i t found' (Ne.symm other)) start 0 data
  drop i s found := by
    obtain ⟨d, pool, after⟩ := perform_drop found
    rw [after]
    refine ⟨rfl, fun g => ?_⟩
    rw [Tenants.pool, pool, FramePool.inUse_releaseAll, Bool.and_eq_true, Bool.not_eq_true',
      decide_eq_false_iff_not, (sound.asTold i s found).mem_frames_iff, and_comm]
    simp only [not_exists, ne_eq]

/-- Whatever is done with spaces that share a pool, each of them is what the operations on it alone tell,
    each frame is in one place, and what is refused or dropped gives back its frames and no others. -/
theorem run_isAsTold {d : Devices} (unused : d.pool.usedFrames = 0) (ops : List TenantOp) :
    (run d ops).1.IsAsTold (run d ops).2 ∧ (run d ops).1.Answers (run d ops).2 :=
  ⟨(sound_run unused ops).isAsTold, (sound_run unused ops).answers⟩

/-- Devices with two frames full of leftovers. -/
def twoFrames : Devices := .fresh (Volume.empty .bounded) (.ofFrames 2) []

/-- A frame goes from one space to another. -/
def passedOn : List TenantOp :=
  let page := VirtAddr.ofNat 0x08048000
  let f : Frame := ⟨0, by decide⟩
  [.create, .create, .allocate, .map 0 page f true, .write 0 page [7], .drop 0, .allocate,
    .map 1 page f false]

/-- What was written through the first space does not show in the second. -/
theorem run_isAsTold_passedOn : twoFrames.pool.usedFrames = 0 ∧
    ∃ s, (run twoFrames passedOn).1.space? 1 = some s ∧
      s.byte? (run twoFrames passedOn).1.pool (.ofNat 0x08048000) = some 0 := by
  have unused : twoFrames.pool.usedFrames = 0 := by decide
  have there : ((run twoFrames passedOn).1.space? 1).isSome = true := by decide +kernel
  obtain ⟨s, found⟩ := Option.isSome_iff_exists.1 there
  refine ⟨unused, s, found, ?_⟩
  have told : ((run twoFrames passedOn).2 1).pages 0x08048 = some (⟨0, by decide⟩, false) ∧
      ((run twoFrames passedOn).2 1).byte 0x08048000 = 0 := by
    decide +kernel
  have number : (VirtAddr.ofNat 0x08048000).toNat = 0x08048000 := by decide
  have page : 0x08048000 / pageSize = 0x08048 := by decide
  rw [((run_isAsTold unused passedOn).1.space 1 s found).1.byte, number, page, told.1, told.2]
  rfl

end Tenants

end Userland

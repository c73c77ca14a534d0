import Mathlib.Tactic.Common
import Userland.Memory.Access

/-!
# The pool, operation by operation

What each operation of the pool does to the two things that can be told of a frame: whether it is
handed out (`FramePool.inUse`) and what it holds (`FramePool.page?`). No operation changes how many
frames there are.
-/

namespace Userland

namespace Frame

/-- A frame is found again at its address. -/
@[simp] theorem ofAddress_address (f : Frame) : ofAddress f.address = f := by
  obtain ⟨i, lt⟩ := f
  have bound : i < 0xFFFFFFFFFFFFF := lt
  simp only [ofAddress, address, PhysAddr.ofNat, pageSize, addressLimit, mk.injEq]
  omega

theorem index_injective {f g : Frame} (h : f.index = g.index) : f = g := by
  cases f
  cases g
  cases h
  rfl

theorem isAligned_address (f : Frame) : f.address.isAligned = true := by
  refine decide_eq_true ?_
  simp only [address, PhysAddr.ofNat, pageSize, addressLimit]
  omega

end Frame

/-- A whole page that is stored leaves nothing of the old one. -/
theorem Page.write_toList (p page : Page) : p.write 0 page.toList = page := by
  refine Vector.ext fun i lt => ?_
  rw [getElem_write]
  simp [lt]

namespace FramePool

variable {pool pool' : FramePool} {f g : Frame}

/-- Only frames that exist are handed out. -/
theorem lt_size_of_inUse (h : pool.inUse f = true) : f.index < pool.slots.size := by
  unfold inUse at h
  by_contra beyond
  simp [Array.getElem?_eq_none (Nat.le_of_not_lt beyond)] at h

/-- A frame that is handed out holds a page. -/
theorem isSome_page?_of_inUse (h : pool.inUse f = true) : (pool.page? f).isSome = true := by
  simp [page?, Array.getElem?_eq_getElem (lt_size_of_inUse h)]

/-! ## Writing -/

@[simp] theorem inUse_modify (pool : FramePool) (f g : Frame) (change : Page → Page) :
    (pool.modify f change).inUse g = pool.inUse g := by
  simp only [modify, inUse, Array.getElem?_modify]
  split
  · cases pool.slots[g.index]? <;> rfl
  · rfl

theorem page?_modify (pool : FramePool) (f g : Frame) (change : Page → Page) :
    (pool.modify f change).page? g =
      if g = f then (pool.page? f).map change else pool.page? g := by
  simp only [modify, page?, Array.getElem?_modify]
  by_cases same : g = f
  · subst same
    simp only [if_true]
    cases pool.slots[g.index]? <;> rfl
  · have other : f.index ≠ g.index := fun e => same (Frame.index_injective e.symm)
    simp [same, other]

@[simp] theorem inUse_write (pool : FramePool) (f g : Frame) (offset : Nat) (bs : Bytes) :
    (pool.write f offset bs).inUse g = pool.inUse g := inUse_modify ..

theorem page?_write (pool : FramePool) (f g : Frame) (offset : Nat) (bs : Bytes) :
    (pool.write f offset bs).page? g =
      if g = f then (pool.page? f).map (·.write offset bs) else pool.page? g := page?_modify ..

/-- Two changes of a frame are one. -/
theorem modify_modify (pool : FramePool) (f : Frame) (change change' : Page → Page) :
    (pool.modify f change).modify f change' = pool.modify f fun p => change' (change p) := by
  simp only [modify, FramePool.mk.injEq, and_true]
  refine Array.ext (by simp) fun i _ _ => ?_
  by_cases here : f.index = i <;> simp [Array.getElem_modify, here]

/-! ## Handing out -/

/-- The frame that is handed out, and the pool afterwards. -/
theorem allocate?_eq_some (h : pool.allocate? = some (f, pool')) :
    f.index < pool.slots.size ∧ pool.inUse f = false ∧
      pool' = { pool with slots := pool.slots.setIfInBounds f.index ⟨Page.filled 0, true⟩ } := by
  simp only [allocate?, Option.bind_eq_some_iff, Option.dite_none_right_eq_some,
    Option.some.injEq, Prod.mk.injEq] at h
  obtain ⟨i, found, small, rfl, rfl⟩ := h
  obtain ⟨lt, free, -⟩ := Array.findIdx?_eq_some_iff_getElem.1 found
  refine ⟨lt, ?_, rfl⟩
  simp only [inUse, Array.getElem?_eq_getElem lt]
  simpa using free

theorem inUse_allocate? (h : pool.allocate? = some (f, pool')) (g : Frame) :
    pool'.inUse g = (decide (g = f) || pool.inUse g) := by
  obtain ⟨lt, -, rfl⟩ := allocate?_eq_some h
  obtain ⟨i⟩ := f
  obtain ⟨j⟩ := g
  simp only [inUse, Frame.mk.injEq] at *
  by_cases same : j = i
  · subst same
    simp [lt]
  · simp [same, Ne.symm same]

/-- A frame is handed out cleared, and what other frames hold stays. -/
theorem page?_allocate? (h : pool.allocate? = some (f, pool')) (g : Frame) :
    pool'.page? g = if g = f then some (Page.filled 0) else pool.page? g := by
  obtain ⟨lt, -, rfl⟩ := allocate?_eq_some h
  obtain ⟨i⟩ := f
  obtain ⟨j⟩ := g
  simp only [page?, Frame.mk.injEq] at *
  by_cases same : j = i
  · subst same
    simp [lt]
  · simp [same, Ne.symm same]

/-- What a frame in use holds is the same after another frame was handed out. -/
theorem page?_of_allocate? (given : pool.allocate? = some (f, pool')) (live : pool.inUse g = true) :
    g ≠ f ∧ pool'.page? g = pool.page? g := by
  obtain ⟨-, free, -⟩ := allocate?_eq_some given
  have other : g ≠ f := by
    rintro rfl
    rw [live] at free
    cases free
  exact ⟨other, by rw [page?_allocate? given, if_neg other]⟩

/-! ## Taking back -/

theorem inUse_release (pool : FramePool) (f g : Frame) :
    (pool.release f).inUse g = (!decide (g = f) && pool.inUse g) := by
  simp only [release, inUse, Array.getElem?_modify]
  by_cases same : g = f
  · subst same
    simp only [if_true]
    cases pool.slots[g.index]? <;> simp
  · have other : f.index ≠ g.index := fun e => same (Frame.index_injective e.symm)
    simp [same, other]

theorem page?_release (pool : FramePool) (f g : Frame) :
    (pool.release f).page? g = pool.page? g := by
  simp only [release, page?, Array.getElem?_modify]
  split
  · cases pool.slots[g.index]? <;> rfl
  · rfl

/-! ## Counting -/

/-- Only frames that have an address are handed out. -/
def Addressable (pool : FramePool) : Prop :=
  ∀ i slot, pool.slots[i]? = some slot → slot.inUse = true → i < frameLimit

theorem Addressable.modify (h : pool.Addressable) (f : Frame) (change : Page → Page) :
    (pool.modify f change).Addressable := by
  intro i slot found used
  simp only [FramePool.modify, Array.getElem?_modify] at found
  split at found
  · obtain ⟨before, old, rfl⟩ := Option.map_eq_some_iff.1 found
    exact h i before old used
  · exact h i slot found used

theorem Addressable.allocate? (h : pool.Addressable) (given : pool.allocate? = some (f, pool')) :
    pool'.Addressable := by
  obtain ⟨lt, -, rfl⟩ := allocate?_eq_some given
  intro i slot found used
  rw [Array.getElem?_setIfInBounds] at found
  split at found
  · rename_i same
    exact same ▸ f.isLt
  · exact h i slot found used

theorem Addressable.release (h : pool.Addressable) (f : Frame) : (pool.release f).Addressable := by
  intro i slot found used
  simp only [FramePool.release, Array.getElem?_modify] at found
  split at found
  · obtain ⟨before, -, rfl⟩ := Option.map_eq_some_iff.1 found
    cases used
  · exact h i slot found used

theorem addressable_of_usedFrames (h : pool.usedFrames = 0) : pool.Addressable := by
  intro i slot found used
  simp only [usedFrames, Array.countP_eq_zero] at h
  exact absurd used (h slot (Array.mem_of_getElem? found))

/-- A pool of which no frame is handed out counts none. -/
theorem usedFrames_eq_zero (h : pool.Addressable) :
    pool.usedFrames = 0 ↔ ∀ f, pool.inUse f = false := by
  simp only [usedFrames, Array.countP_eq_zero, inUse]
  constructor
  · intro unused f
    cases found : pool.slots[f.index]? with
    | none => rfl
    | some slot => simpa using unused slot (Array.mem_of_getElem? found)
  · intro unused slot mem used
    obtain ⟨i, lt, rfl⟩ := Array.mem_iff_getElem.1 mem
    have found := Array.getElem?_eq_getElem lt
    have := unused ⟨i, h i _ found used⟩
    rw [found, Option.map_some, Option.getD_some, used] at this
    cases this

/-! ## Frames that are left -/

/-- How many frames can still be handed out: those that have an address and are not in use. -/
def freeFrames (pool : FramePool) : Nat :=
  (pool.slots.toList.take frameLimit).countP fun slot => !slot.inUse

theorem freeFrames_eq_zero : pool.freeFrames = 0 ↔
    ∀ i slot, i < frameLimit → pool.slots[i]? = some slot → slot.inUse = true := by
  simp only [freeFrames, List.countP_eq_zero, Bool.not_eq_true', Bool.not_eq_false,
    List.mem_take_iff_getElem, Array.length_toList, Array.getElem_toList]
  constructor
  · intro used i slot small found
    obtain ⟨lt, rfl⟩ := Array.getElem?_eq_some_iff.1 found
    exact used _ ⟨i, by omega, rfl⟩
  · rintro used _ ⟨i, lt, rfl⟩
    exact used i _ (by omega) (Array.getElem?_eq_getElem _)

/-- No frame is handed out exactly if none is free. -/
theorem allocate?_eq_none : pool.allocate? = none ↔ pool.freeFrames = 0 := by
  rw [freeFrames_eq_zero]
  constructor
  · intro refused i slot small found
    simp only [allocate?, Option.bind_eq_none_iff, dite_eq_right_iff, reduceCtorEq] at refused
    by_contra free
    obtain ⟨lt, rfl⟩ := Array.getElem?_eq_some_iff.1 found
    cases first : pool.slots.findIdx? fun s => !s.inUse with
    | none =>
      have passed := Array.findIdx?_eq_none_iff.1 first _ (Array.getElem_mem lt)
      exact free (by simpa using passed)
    | some j =>
      obtain ⟨_, -, before⟩ := Array.findIdx?_eq_some_iff_getElem.1 first
      have passed := before i (Nat.lt_of_lt_of_le small (Nat.not_lt.1 (refused j first)))
      exact free (by simpa using passed)
  · intro used
    by_contra given
    obtain ⟨⟨f, pool'⟩, given⟩ := Option.ne_none_iff_exists'.1 given
    obtain ⟨lt, free, -⟩ := allocate?_eq_some given
    have := used f.index _ f.isLt (Array.getElem?_eq_getElem lt)
    simp [inUse, lt, this] at free

theorem freeFrames_allocate? (given : pool.allocate? = some (f, pool')) :
    pool'.freeFrames + 1 = pool.freeFrames := by
  obtain ⟨lt, free, rfl⟩ := allocate?_eq_some given
  have inside : f.index < (pool.slots.toList.take frameLimit).length := by
    have := f.isLt
    simp
    omega
  have unused : (pool.slots[f.index]).inUse = false := by simpa [inUse, lt] using free
  have some : 0 < (pool.slots.toList.take frameLimit).countP fun slot => !slot.inUse :=
    List.countP_pos_iff.2 ⟨_, List.getElem_mem inside, by simp [unused]⟩
  simp only [freeFrames, Array.toList_setIfInBounds, List.take_set, List.countP_set inside]
  simp only [List.getElem_take, Array.getElem_toList, unused]
  simp
  omega

@[simp] theorem freeFrames_modify (pool : FramePool) (f : Frame) (change : Page → Page) :
    (pool.modify f change).freeFrames = pool.freeFrames := by
  have same : (pool.modify f change).slots.toList.map (·.inUse) =
      pool.slots.toList.map (·.inUse) := by
    refine List.ext_getElem? fun i => ?_
    simp only [modify, List.getElem?_map, Array.getElem?_toList, Array.getElem?_modify]
    split
    · cases pool.slots[i]? <;> rfl
    · rfl
  have counted (pool : FramePool) : pool.freeFrames =
      ((pool.slots.toList.map (·.inUse)).take frameLimit).countP (!·) := by
    rw [← List.map_take, List.countP_map]
    rfl
  rw [counted, counted, same]

/-! ## Storing -/

/-- The same frames are handed out. -/
structure SameUse (pool pool' : FramePool) : Prop where
  /-- Frame by frame. -/
  inUse : ∀ f, pool'.inUse f = pool.inUse f
  /-- All of them still have an address. -/
  addressable : pool.Addressable → pool'.Addressable

theorem SameUse.refl (pool : FramePool) : pool.SameUse pool := ⟨fun _ => rfl, id⟩

theorem SameUse.trans {pool₁ pool₂ pool₃ : FramePool} (h : pool₁.SameUse pool₂)
    (h' : pool₂.SameUse pool₃) : pool₁.SameUse pool₃ :=
  ⟨fun f => (h'.inUse f).trans (h.inUse f), h'.addressable ∘ h.addressable⟩

theorem sameUse_modify (pool : FramePool) (f : Frame) (change : Page → Page) :
    pool.SameUse (pool.modify f change) :=
  ⟨fun g => inUse_modify pool f g change, fun h => h.modify f change⟩

theorem sameUse_write (pool : FramePool) (f : Frame) (offset : Nat) (bs : Bytes) :
    pool.SameUse (pool.write f offset bs) := sameUse_modify ..

end FramePool

namespace AddressSpace

theorem sameUse_writeFrom (s : AddressSpace) (pool : FramePool) (start : VirtAddr) (done : Nat)
    (data : Bytes) : pool.SameUse (s.writeFrom pool start done data).2 := by
  fun_induction writeFrom s pool start done data with
  | case1 => exact .refl _
  | case2 => exact .refl _
  | case3 => exact .refl _
  | case4 pool done data _ a _ t _ piece ih => exact (pool.sameUse_write t.frame _ _).trans ih

theorem sameUse_copyOut (s : AddressSpace) (pool : FramePool) (start : VirtAddr) (data : Bytes) :
    pool.SameUse (s.copyOut pool start data).2 := by
  unfold copyOut
  split
  · exact .refl _
  · exact sameUse_writeFrom s pool start 0 data

theorem sameUse_store (s : AddressSpace) (pool : FramePool) (a : Nat) (data : Bytes) :
    pool.SameUse (s.store pool a data).2 := by
  induction data generalizing pool a with
  | nil => exact .refl _
  | cons b bs ih =>
    unfold store
    split
    · exact .refl _
    · split
      · exact (pool.sameUse_write _ _ _).trans (ih _ _)
      · exact .refl _

end AddressSpace

end Userland

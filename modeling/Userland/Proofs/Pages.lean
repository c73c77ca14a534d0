import Mathlib.Data.List.Induction
import Mathlib.Data.List.Nodup
import Mathlib.Tactic.Common
import Userland.Memory.AddressSpace
import Userland.Proofs.Frames

/-!
# An address space as a finite map

Pages are numbered from zero, and a space has at most one present entry for each number
(`AddressSpace.presentAt`). What an address resolves to depends on the entry of its page only
(`translate_eq`), changing an entry changes no other (`presentAt_setEntry`), and the list of mapped
pages goes through the numbers in order (`pages_eq`). So mapping a page adds one element to that list
(`pages_map`), and unmapping takes it away again (`pages_unmap`).
-/

namespace Userland

/-- What an entry resolves to. -/
def PageEntry.translation (e : PageEntry) : Translation := ⟨Frame.ofAddress e.frame, e.flags⟩

/-- The entry that maps a frame resolves to that frame. -/
theorem PageEntry.translation_page (f : Frame) (flags : PageFlags) :
    (PageEntry.page f.address flags).translation = ⟨f, flags⟩ := by
  rw [translation, frame_page f.isAligned_address, flags_page, Frame.ofAddress_address]

namespace AddressSpace

variable {s s' : AddressSpace} {page a : VirtAddr} {f : Frame} {writable : Bool}

/-! ## Entries by page number -/

/-- How many pages lie below the kernel. -/
abbrev userPages : Nat := userTop / pageSize

/-- The present entry of page number `n`. -/
def presentAt (s : AddressSpace) (n : Nat) : Option PageEntry :=
  ((s.table? (n / tableSize)).bind (·[n % tableSize]?)).filter (·.isPresent)

theorem entry?_eq (s : AddressSpace) (a : VirtAddr) :
    s.entry? a =
      (s.table? (a.toNat / pageSize / tableSize)).bind (·[a.toNat / pageSize % tableSize]?) := by
  unfold entry?
  rw [VirtAddr.directoryIndex, VirtAddr.tableIndex, Nat.div_div_eq_div_mul]

/-- A user address resolves to the present entry of its page. -/
theorem translate_eq (s : AddressSpace) (a : VirtAddr) :
    s.translate a =
      if a.isUser then (s.presentAt (a.toNat / pageSize)).map PageEntry.translation else none := by
  unfold translate
  split
  · rw [presentAt, ← entry?_eq]
    cases s.entry? a with
    | none => rfl
    | some e => cases present : e.isPresent <;> simp [present, Option.filter, PageEntry.translation]
  · rfl

@[simp] theorem presentAt_empty (root n : Nat) : (empty root).presentAt n = none := by
  simp only [presentAt, table?, empty]
  by_cases inside : n / tableSize < tableSize
  · simp [inside]
  · simp [inside]

/-- Changing an entry changes that of no other page. -/
theorem presentAt_setEntry (user : page.isUser = true) (e : PageEntry) (n : Nat) :
    (s.setEntry page e).presentAt n =
      if n = page.toNat / pageSize then (some e).filter (·.isPresent) else s.presentAt n := by
  have directory : page.directoryIndex = page.toNat / pageSize / tableSize := by
    rw [VirtAddr.directoryIndex, Nat.div_div_eq_div_mul]
  have inDirectory := VirtAddr.directoryIndex_lt user
  have inTable := page.tableIndex_lt
  have split : n = page.toNat / pageSize ↔
      page.directoryIndex = n / tableSize ∧ page.tableIndex = n % tableSize := by
    rw [directory, VirtAddr.tableIndex]
    simp only [tableSize]
    omega
  simp only [presentAt, table?, setEntry, Vector.getElem?_setIfInBounds]
  by_cases same : page.directoryIndex = n / tableSize
  · simp only [same, if_true]
    rw [same] at inDirectory
    simp only [inDirectory, if_true, Option.join_some, Option.bind_some,
      Vector.getElem?_setIfInBounds]
    by_cases entry : page.tableIndex = n % tableSize
    · rw [if_pos entry, if_pos inTable, if_pos (split.2 ⟨same, entry⟩)]
    · rw [if_neg entry, if_neg fun e => entry (split.1 e).2]
      -- A table that is made for the occasion has no present entry, like the missing one.
      cases s.directory[n / tableSize]?.join with
      | none =>
      simp only [PageTable.empty, Option.getD_none, Vector.getElem?_replicate]
      split <;> rfl
      | some table => rfl
  · have other : ¬ n = page.toNat / pageSize := fun e => same (split.1 e).1
    simp [same, other]

/-! ## Mapping and unmapping -/

/-- A page can be mapped if it starts at a page boundary, is a user page other than page 0, and is
    not mapped. -/
theorem checkMappable_eq_ok : s.checkMappable page = .ok () ↔
    page.isAligned = true ∧ pageSize ≤ page.toNat ∧ page.isUser = true ∧
      s.presentAt (page.toNat / pageSize) = none := by
  simp only [checkMappable, translate_eq]
  by_cases first : page.toNat < pageSize <;> cases page.isAligned <;> cases page.isUser <;>
    cases s.presentAt (page.toNat / pageSize) <;> simp [first, Nat.le_of_not_lt]

/-- The entry under which `map` enters a frame. -/
def userEntry (f : Frame) (writable : Bool) : PageEntry :=
  .page f.address (.ofUser writable)

@[simp] theorem isPresent_userEntry (f : Frame) (writable : Bool) :
    (userEntry f writable).isPresent = true :=
  PageEntry.isPresent_page ..

@[simp] theorem frame_userEntry (f : Frame) (writable : Bool) :
    Frame.ofAddress (userEntry f writable).frame = f :=
  congrArg Translation.frame (PageEntry.translation_page f (.ofUser writable))

@[simp] theorem writable_userEntry (f : Frame) (writable : Bool) :
    (userEntry f writable).flags.writable = writable := by
  rw [userEntry, PageEntry.flags_page, PageFlags.ofUser]

theorem map_eq_ok (h : s.map page f writable = .ok s') :
    s.checkMappable page = .ok () ∧
      s' = { s.setEntry page (userEntry f writable) with mapped := s.mapped + 1 } := by
  simp only [map] at h
  cases checked : s.checkMappable page with
  | error e =>
    rw [checked] at h
    cases h
  | ok u =>
    rw [checked] at h
    exact ⟨rfl, (Except.ok.inj h).symm⟩

/-- Only the check refuses a page. -/
theorem map_eq_error {e : MappingError} (h : s.map page f writable = .error e) :
    s.checkMappable page = .error e := by
  simp only [map] at h
  cases checked : s.checkMappable page with
  | error e' =>
    rw [checked] at h
    exact congrArg _ (Except.error.inj h)
  | ok u =>
    rw [checked] at h
    cases h

theorem presentAt_map (h : s.map page f writable = .ok s') (n : Nat) :
    s'.presentAt n =
      if n = page.toNat / pageSize then some (userEntry f writable) else s.presentAt n := by
  obtain ⟨checked, rfl⟩ := map_eq_ok h
  obtain ⟨-, -, user, -⟩ := checkMappable_eq_ok.1 checked
  have := presentAt_setEntry (s := s) user (userEntry f writable) n
  simpa [presentAt, table?, Option.filter] using this

theorem presentAt_unmap (user : page.isUser = true) (n : Nat) :
    (s.unmap page).presentAt n =
      if n = page.toNat / pageSize then none else s.presentAt n := by
  have := presentAt_setEntry (s := s) user PageEntry.empty n
  simpa [unmap, presentAt, table?, Option.filter] using this

/-! ## The list of pages -/

/-- The address of page number `n`. -/
def pageAddress (n : Nat) : VirtAddr := .ofNat (n * pageSize)

theorem toNat_pageAddress {n : Nat} (user : n < userPages) :
    (pageAddress n).toNat = n * pageSize := by
  simp only [userPages, userTop, pageSize] at user
  simp only [pageAddress, VirtAddr.ofNat, addressLimit, pageSize]
  omega

theorem number_of_lt {n : Nat} (user : n < userPages) :
    (VirtAddr.ofNat (n * pageSize)).toNat / pageSize = n := by
  have := toNat_pageAddress user
  rw [pageAddress] at this
  rw [this, Nat.mul_div_cancel _ (by decide)]

theorem isUser_pageAddress {n : Nat} (user : n < userPages) : (pageAddress n).isUser = true := by
  rw [VirtAddr.isUser, toNat_pageAddress user, decide_eq_true_eq]
  simp only [userPages, userTop, pageSize] at *
  omega

theorem pageAddress_inj {n k : Nat} (user : n < userPages) (user' : k < userPages)
    (h : pageAddress n = pageAddress k) : n = k := by
  have := congrArg VirtAddr.toNat h
  rw [toNat_pageAddress user, toNat_pageAddress user'] at this
  simp only [pageSize] at this
  omega

/-- A page of user memory is the page of its number. -/
theorem pageAddress_div (aligned : page.isAligned = true) :
    pageAddress (page.toNat / pageSize) = page := by
  have bound : page.toNat < 0x10000000000000000 := page.isLt
  simp only [VirtAddr.isAligned, decide_eq_true_eq, pageSize] at aligned
  have : page.toNat / pageSize * pageSize % addressLimit = page.toNat := by
    simp only [addressLimit, pageSize]
    omega
  simp only [pageAddress, VirtAddr.ofNat, this]

theorem div_lt_userPages (user : a.isUser = true) : a.toNat / pageSize < userPages := by
  simp only [VirtAddr.isUser, decide_eq_true_eq, userTop] at user
  simp only [userPages, userTop, pageSize]
  omega

theorem range_mul (m k : Nat) :
    List.range (m * k) = (List.range m).flatMap fun i => (List.range k).map (i * k + ·) := by
  induction m with
  | zero => simp
  | succ m ih => rw [Nat.succ_mul, List.range_add, List.range_succ, List.flatMap_append, ih]; simp

theorem filterMap_range_getElem? {α : Type} (l : List α) :
    (List.range l.length).filterMap (l[·]?) = l := by
  induction l using List.reverseRecOn with
  | nil => rfl
  | append_singleton l x ih =>
    rw [List.length_append, List.length_singleton, List.range_succ, List.filterMap_append]
    congr 1
    · conv_rhs => rw [← ih]
      refine List.filterMap_congr fun i inside => ?_
      rw [List.getElem?_append_left (List.mem_range.1 inside)]
    · simp

theorem zipIdx_eq {α : Type} (l : List α) :
    l.zipIdx = (List.range l.length).filterMap fun i => l[i]?.map fun x => (x, i) := by
  conv_lhs => rw [← filterMap_range_getElem? l.zipIdx, List.length_zipIdx]
  simp

theorem present_eq (t : PageTable) :
    t.present = (List.range tableSize).filterMap fun j =>
      ((t[j]?).filter (·.isPresent)).map fun e => (j, e) := by
  have length : t.toList.length = tableSize := t.length_toList
  rw [PageTable.present, zipIdx_eq, length, List.filter_filterMap, List.map_filterMap]
  refine List.filterMap_congr fun j _ => ?_
  simp only [Vector.getElem?_toList]
  cases found : t[j]? with
  | none => rfl
  | some e => cases present : e.isPresent <;> simp [present, Option.filter]

/-- The mapped pages are the present entries, by page number. -/
theorem pages_eq (s : AddressSpace) :
    s.pages = (List.range userPages).filterMap fun n =>
      (s.presentAt n).map fun e => (pageAddress n, e) := by
  have pageCount : userPages = userDirectorySize * tableSize := rfl
  have length : (s.directory.toList.take userDirectorySize).length = userDirectorySize := by
    rw [List.length_take, Vector.length_toList]
    rfl
  rw [pages, zipIdx_eq, length, pageCount, range_mul, List.filterMap_flatMap,
    List.filterMap_eq_flatMap_toList, List.flatMap_assoc]
  refine List.flatMap_congr fun i inside => ?_
  have small : i < userDirectorySize := List.mem_range.1 inside
  have known : i < tableSize := Nat.lt_trans small (by decide)
  have entry (j : Nat) (lt : j < tableSize) : s.presentAt (i * tableSize + j) =
      (s.directory[i].bind (·[j]?)).filter (·.isPresent) := by
    have table : (i * tableSize + j) / tableSize = i := by simp only [tableSize] at *; omega
    have index : (i * tableSize + j) % tableSize = j := by simp only [tableSize] at *; omega
    rw [presentAt, table?, table, index, Vector.getElem?_eq_getElem known, Option.join_some]
  simp only [List.getElem?_take, small, if_true, Vector.getElem?_toList,
    Vector.getElem?_eq_getElem known, Option.map_some, Option.toList_some, List.flatMap_cons,
    List.flatMap_nil, List.append_nil, List.filterMap_map]
  cases found : s.directory[i] with
  | none =>
    refine (List.filterMap_eq_nil_iff.2 fun j lt => ?_).symm
    simp [entry j (List.mem_range.1 lt), found]
  | some table =>
    simp only [present_eq, List.map_filterMap]
    refine List.filterMap_congr fun j lt => ?_
    simp only [Function.comp, entry j (List.mem_range.1 lt), found, Option.bind_some,
      Option.map_map]
    rfl

theorem mem_pages {e : PageEntry} :
    (a, e) ∈ s.pages ↔ ∃ n < userPages, s.presentAt n = some e ∧ a = pageAddress n := by
  simp only [pages_eq, List.mem_filterMap, List.mem_range, Option.map_eq_some_iff, Prod.mk.injEq]
  constructor
  · rintro ⟨n, lt, e, found, rfl, rfl⟩
    exact ⟨n, lt, found, rfl⟩
  · rintro ⟨n, lt, found, rfl⟩
    exact ⟨n, lt, e, found, rfl, rfl⟩

/-- No page is listed twice. -/
theorem nodup_pages (s : AddressSpace) : (s.pages.map (·.1)).Nodup := by
  rw [pages_eq, List.map_filterMap, List.Nodup, List.pairwise_filterMap]
  refine List.nodup_range.imp_of_mem fun {n k} inside inside' different => ?_
  simp only [Option.map_map, Option.map_eq_some_iff, Function.comp]
  rintro _ ⟨_, _, rfl⟩ _ ⟨_, _, rfl⟩ same
  exact different (pageAddress_inj (List.mem_range.1 inside) (List.mem_range.1 inside') same)

theorem pages_empty (root : Nat) : (empty root).pages = [] := by
  simp [pages_eq]

/-- Unmapping a page takes it off the list. -/
theorem pages_unmap (aligned : page.isAligned = true) (user : page.isUser = true) :
    (s.unmap page).pages = s.pages.filter (·.1 ≠ page) := by
  rw [pages_eq, pages_eq, List.filter_filterMap]
  refine List.filterMap_congr fun n inside => ?_
  have small := List.mem_range.1 inside
  rw [presentAt_unmap user]
  by_cases same : n = page.toNat / pageSize
  · subst same
    rw [if_pos rfl, pageAddress_div aligned]
    cases s.presentAt (page.toNat / pageSize) <;> simp [Option.filter]
  · rw [if_neg same]
    have other : pageAddress n ≠ page := by
      intro e
      rw [← pageAddress_div aligned] at e
      exact same (pageAddress_inj small (div_lt_userPages user) e)
    cases s.presentAt n <;> simp [other, Option.filter]

theorem filterMap_perm_cons {α β : Type} [DecidableEq α] {l : List α} {g g' : α → Option β} {k : α}
    {x : β} (distinct : l.Nodup) (mem : k ∈ l) (old : g k = none) (new : g' k = some x)
    (others : ∀ i, i ≠ k → g' i = g i) : (l.filterMap g').Perm (x :: l.filterMap g) := by
  have front := List.perm_cons_erase mem
  have rest : (l.erase k).filterMap g' = (l.erase k).filterMap g :=
    List.filterMap_congr fun i inside => others i (distinct.mem_erase_iff.1 inside).1
  calc l.filterMap g'
    _ |>.Perm ((k :: l.erase k).filterMap g') := front.filterMap g'
    _ = x :: (k :: l.erase k).filterMap g := by simp [new, old, rest]
    _ |>.Perm (x :: l.filterMap g) := (front.symm.filterMap g).cons x

/-- Mapping a page adds it to the list. -/
theorem pages_map (h : s.map page f writable = .ok s') :
    s'.pages.Perm ((page, userEntry f writable) :: s.pages) := by
  obtain ⟨aligned, -, user, free⟩ := checkMappable_eq_ok.1 (map_eq_ok h).1
  rw [pages_eq, pages_eq]
  refine filterMap_perm_cons List.nodup_range (List.mem_range.2 (div_lt_userPages user))
    (by simp [free]) ?_ fun n other => ?_
  · simp [presentAt_map h, pageAddress_div aligned]
  · rw [presentAt_map h, if_neg other]

/-! ## The frames of a space -/

/-- The frames that are mapped, by ascending page. -/
def frames (s : AddressSpace) : List Frame := s.pages.map fun (_, e) => Frame.ofAddress e.frame

@[simp] theorem frames_empty (root : Nat) : (empty root).frames = [] := by
  simp [frames, pages_empty]

theorem frames_map (h : s.map page f writable = .ok s') : s'.frames.Perm (f :: s.frames) := by
  have listed := (pages_map h).map fun p => Frame.ofAddress p.2.frame
  rwa [List.map_cons, frame_userEntry] at listed

/-- What is left after the first page is unmapped, and the frame that backed it. -/
theorem unmap_head {e : PageEntry} {rest : List (VirtAddr × PageEntry)}
    (h : s.pages = (page, e) :: rest) :
    s.translate page = some e.translation ∧ (s.unmap page).pages = rest := by
  have distinct := nodup_pages s
  obtain ⟨n, lt, found, rfl⟩ := mem_pages.1 (h ▸ List.mem_cons_self : (page, e) ∈ s.pages)
  have user := isUser_pageAddress lt
  have number : (pageAddress n).toNat / pageSize = n := by
    rw [toNat_pageAddress lt]
    simp
  have aligned : (pageAddress n).isAligned = true := by
    rw [VirtAddr.isAligned, toNat_pageAddress lt, decide_eq_true_eq, Nat.mul_mod_left]
  refine ⟨by rw [translate_eq, if_pos user, number, found]; rfl, ?_⟩
  rw [pages_unmap aligned user, h, List.filter_cons_of_neg (by simp)]
  rw [h, List.map_cons, List.nodup_cons] at distinct
  refine List.filter_eq_self.2 fun (a, e') inside => ?_
  have : a ≠ pageAddress n := fun same =>
    distinct.1 (List.mem_map.2 ⟨(a, e'), inside, same⟩)
  simpa using this

end AddressSpace

end Userland

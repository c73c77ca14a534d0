import Mathlib.Data.Nat.PSub
import Mathlib.Order.Bounds.Basic
import Userland.Proofs.Image
import Userland.Proofs.Loading

/-!
# Segments in user memory

A header that is accepted can be laid out in machine words: no sum reaches 32 bits, and no difference is
negative (`SegmentHeader.layoutIn_eq`). Its pages are those that hold a byte of the segment and no others,
they lie in user memory above page 0, and the bytes from the file end with the last of them
(`SegmentHeader.paged_of_validate`). So the loop over the pages comes to its end with all these bytes
read, in machine words too (`Loader.loadSegmentIn_eq`). No page of a load, then, is refused for its
address (`Loader.served_load`): all that can stand in its way is a page that is mapped already.
-/

namespace Userland

/-! ## Layouts in machine words -/

/-- A sum of words that lie below a limit. -/
def sumIn (limit a b : Nat) : Option Nat := if a + b < limit then some (a + b) else none

theorem sumIn_eq {limit a b : Nat} (lt : a + b < limit) : sumIn limit a b = some (a + b) := if_pos lt

/-- The number of pages, computed in words below a limit. -/
def SegmentLayout.pagesIn (limit : Nat) (l : SegmentLayout) : Option Nat := do
  let total ← sumIn limit l.readBytes l.zeroBytes
  return total / pageSize

/-- The page numbers of a layout. -/
def SegmentLayout.pageNumbers (l : SegmentLayout) : Set Nat :=
  .Ico (l.firstPage.toNat / pageSize) (l.firstPage.toNat / pageSize + l.pages)

namespace SegmentHeader

variable {h : SegmentHeader} {fileLength : UInt32} {limit : Nat}

/-- The number of bytes to read, computed in words below a limit. -/
def readBytesIn (limit : Nat) (h : SegmentHeader) : Option Nat :=
  if h.fileSize = 0 then some 0 else sumIn limit (h.address.toNat % pageSize) h.fileSize.toNat

/-- The layout, computed in words below a limit. There is none if a sum reaches the limit or a
    difference is negative. -/
def layoutIn (limit : Nat) (h : SegmentHeader) : Option SegmentLayout := do
  let readBytes ← h.readBytesIn limit
  let covered ← sumIn limit (h.address.toNat % pageSize) h.memorySize.toNat
  let raised ← sumIn limit covered (pageSize - 1)
  let zeroBytes ← (raised / pageSize * pageSize).psub readBytes
  return {
    filePage := UInt32.ofNat (pageDown h.offset.toNat)
    firstPage := (VirtAddr.ofWord h.address).page
    readBytes := readBytes
    zeroBytes := zeroBytes
    writable := h.writable }

theorem pageSize_le_of_validate (ok : h.validate fileLength = .ok ()) : pageSize ≤ h.address.toNat := by
  unfold validate at ok
  iterate 6 split at ok <;> [cases ok; skip]
  split at ok
  · cases ok
  · exact Nat.le_of_not_lt ‹_›

/-- What is covered from the start of the first page on ends below the kernel. -/
theorem Valid.covered_lt (valid : h.Valid) :
    h.address.toNat % pageSize + h.memorySize.toNat + (pageSize - 1) < wordLimit := by
  have := valid.user
  simp only [pageSize, userTop, wordLimit] at *
  omega

theorem Valid.readBytes_le (valid : h.Valid) :
    h.layout.readBytes ≤ pageUp (h.address.toNat % pageSize + h.memorySize.toNat) := by
  have := valid.fits
  simp only [layout, pageUp, pageSize]
  split <;> omega

/-- The bytes from the file and the zeros after them fill whole pages. -/
theorem Valid.total (valid : h.Valid) :
    h.layout.readBytes + h.layout.zeroBytes = pageUp (h.address.toNat % pageSize + h.memorySize.toNat) :=
  Nat.add_sub_cancel' valid.readBytes_le

theorem Valid.pages_mul (valid : h.Valid) :
    h.layout.readBytes + h.layout.zeroBytes = h.layout.pages * pageSize := by
  rw [SegmentLayout.pages, valid.total, pageUp, Nat.mul_div_cancel _ (by decide)]

/-- In words of 32 bits or more there is no overflow. -/
theorem layoutIn_eq (valid : h.Valid) (wide : wordLimit ≤ limit) : h.layoutIn limit = some h.layout := by
  have inWords := valid.covered_lt
  have ends := valid.readBytes_le
  have fits := valid.fits
  have readBytes : h.readBytesIn limit = some h.layout.readBytes := by
    simp only [readBytesIn, layout]
    split
    · rfl
    · exact sumIn_eq (by omega)
  have zeroBytes : ((h.address.toNat % pageSize + h.memorySize.toNat + (pageSize - 1)) / pageSize *
      pageSize).psub h.layout.readBytes = some h.layout.zeroBytes := Nat.psub_eq_sub ends
  rw [layoutIn, readBytes, sumIn_eq (by omega)]
  simp only [Option.bind_eq_bind, Option.bind_some, sumIn_eq (Nat.lt_of_lt_of_le inWords wide), zeroBytes]
  rfl

theorem pagesIn_eq (valid : h.Valid) (wide : wordLimit ≤ limit) :
    h.layout.pagesIn limit = some h.layout.pages := by
  have inWords : h.layout.readBytes + h.layout.zeroBytes < limit := by
    rw [valid.total]
    refine Nat.lt_of_le_of_lt (Nat.div_mul_le_self ..) (Nat.lt_of_lt_of_le valid.covered_lt wide)
  rw [SegmentLayout.pagesIn, sumIn_eq inWords]
  rfl

/-! ## Pages of an accepted segment -/

/-- How a segment lies on pages. -/
structure Paged (h : SegmentHeader) : Prop where
  /-- In words of 32 bits or more the layout is computed without an overflow. -/
  computes : ∀ limit ≥ wordLimit,
    h.layoutIn limit = some h.layout ∧ h.layout.pagesIn limit = some h.layout.pages
  /-- What is read and what is zero fill whole pages. -/
  whole : h.layout.readBytes + h.layout.zeroBytes = h.layout.pages * pageSize
  /-- There is a page. -/
  some : 0 < h.layout.pages
  /-- The first page starts at a page boundary. -/
  aligned : h.layout.firstPage.isAligned = true
  /-- It is not page 0. -/
  low : pageSize ≤ h.layout.firstPage.toNat
  /-- The last page ends below the kernel. -/
  high : h.layout.firstPage.toNat + h.layout.pages * pageSize ≤ userTop
  /-- No smaller set of pages has all bytes of the segment. -/
  covers : IsLeast {ns : Set Nat | ∀ a, h.address.toNat ≤ a → a < h.address.toNat + h.memorySize.toNat →
    a / pageSize ∈ ns} h.layout.pageNumbers
  /-- Reading starts at a page boundary of the file. -/
  fileAligned : h.layout.filePage.toNat % pageSize = 0
  /-- It starts as far before the segment as the first page does. -/
  before : h.layout.filePage.toNat + h.address.toNat % pageSize = h.offset.toNat
  /-- The bytes from the file lie on the pages. -/
  fits : h.layout.readBytes ≤ h.layout.pages * pageSize
  /-- They are none if the segment has none in the file. -/
  none_iff : h.layout.readBytes = 0 ↔ h.fileSize = 0

theorem pageNumbers_layout (valid : h.Valid) : h.layout.pageNumbers = .Ico h.firstPage h.endPage := by
  rw [SegmentLayout.pageNumbers, layout_firstPage, Nat.mul_div_cancel _ (by decide), layout_pages valid]

/-- Each page has a byte of the segment: its first byte, or else the first byte of the segment. -/
theorem isLeast_pageNumbers (valid : h.Valid) :
    IsLeast {ns : Set Nat | ∀ a, h.address.toNat ≤ a → a < h.address.toNat + h.memorySize.toNat →
      a / pageSize ∈ ns} h.layout.pageNumbers := by
  have some := valid.some
  rw [pageNumbers_layout valid]
  refine ⟨fun a lower upper => ?_, fun ns covering n ⟨lower, upper⟩ => ?_⟩
  · simp only [Set.mem_Ico, firstPage, endPage, pageSize]
    omega
  -- The first page may start below the segment, so its first byte need not be one of the segment.
  · have inPage : max h.address.toNat (n * pageSize) / pageSize = n := by
      simp only [firstPage, pageSize] at *
      omega
    rw [← inPage]
    refine covering _ (Nat.le_max_left ..) ?_
    simp only [endPage, pageSize] at *
    omega

theorem layout_readBytes_eq_zero (h : SegmentHeader) : h.layout.readBytes = 0 ↔ h.fileSize = 0 := by
  rw [← UInt32.toNat_inj, UInt32.toNat_zero]
  simp only [layout]
  split
  · simp [*]
  · have : h.fileSize.toNat ≠ 0 := fun zero => ‹¬ h.fileSize = 0› (UInt32.toNat_inj.1 zero)
    omega

/-- A segment that is accepted lies on user pages above page 0. -/
theorem paged_of_validate (ok : h.validate fileLength = .ok ()) : h.Paged := by
  have valid := valid_of_validate ok
  have low := pageSize_le_of_validate ok
  have stop := layout_pages valid
  have user := endPage_le valid
  have starts := layout_firstPage h
  have some := valid.some
  refine ⟨fun limit wide => ⟨layoutIn_eq valid wide, pagesIn_eq valid wide⟩, valid.pages_mul, ?_, ?_, ?_, ?_,
    isLeast_pageNumbers valid, ?_, ?_, layout_readBytes_le valid, layout_readBytes_eq_zero h⟩
  · simp only [firstPage, endPage, pageSize] at stop
    omega
  · rw [VirtAddr.isAligned, starts, Nat.mul_mod_left]
    rfl
  · rw [starts, firstPage]
    simp only [pageSize] at *
    omega
  · rw [starts, ← Nat.add_mul, stop]
    exact (Nat.mul_le_mul_right _ user).trans (by decide)
  · rw [layout_filePage, pageDown, Nat.mul_mod_left]
  · rw [layout_filePage, ← valid.aligned]
    exact Nat.div_add_mod' ..

end SegmentHeader

/-! ## The loop over the pages -/

namespace Loader

open DeviceRequest Routine

variable {file : Handle} {writable : Bool} {page readBytes count limit : Nat}

/-- The loop over the pages of a segment, with its variables in words below a limit. There is no result if
    a sum reaches the limit or a difference is negative; if all pages are mapped, the result tells what the
    variables are in the end: the next page, and the number of bytes that are still to be read. -/
def loadPagesIn (limit : Nat) (file : Handle) (writable : Bool) (page readBytes : Nat) :
    Nat → Routine (Option (Except LoadError (Nat × Nat)))
  | 0 => return some (.ok (page, readBytes))
  | count + 1 => do
    if ← ask allocate then
      let wanted := min readBytes pageSize
      let data ← ask (read file wanted)
      if data.length = wanted then
        ask (fill 0 data)
        ask (clear wanted)
        match ← ask (mapFrame (VirtAddr.ofNat page) writable) with
        | .ok () =>
          match readBytes.psub wanted, sumIn limit page pageSize with
          | some readBytes, some page => loadPagesIn limit file writable page readBytes count
          | _, _ => return none
        | .error e => return some (.error (.mapping e))
      else
        ask freeFrame
        return some (.error .shortRead)
    else return some (.error (.mapping .outOfMemory))

/-- One segment, with all numbers in words below a limit. -/
def loadSegmentIn (limit : Nat) (file : Handle) (l : SegmentLayout) :
    Routine (Option (Except LoadError (Nat × Nat))) := do
  ask (seek file l.filePage)
  match l.pagesIn limit with
  | some n => loadPagesIn limit file l.writable l.firstPage.toNat l.readBytes n
  | none => return none

/-- In words the loop does the same, and it ends with nothing left to read, if the bytes to be read lie on
    the pages and the pages below the limit. -/
theorem loadPagesIn_eq (fits : readBytes ≤ count * pageSize) (inWords : page + count * pageSize < limit) :
    loadPagesIn limit file writable page readBytes count =
      (fun result => some (result.map fun _ => (page + count * pageSize, 0))) <$>
        loadPages file writable page readBytes count := by
  -- On the number of pages: after each of them the rest is read on the pages that are left.
  induction count generalizing page readBytes with
  | zero =>
    obtain rfl : readBytes = 0 := by omega
    rw [Nat.zero_mul]
    rfl
  | succ count ih =>
    have next : page + pageSize + count * pageSize = page + (count + 1) * pageSize := by
      rw [Nat.succ_mul]
      omega
    have fits' : readBytes - min readBytes pageSize ≤ count * pageSize := by
      rw [Nat.succ_mul] at fits
      omega
    have below : page + pageSize < limit := by
      rw [← next] at inWords
      omega
    simp only [loadPagesIn, loadPages, map_bind]
    refine bind_congr fun allocated => ?_
    cases allocated with
    | false => rfl
    | true =>
      simp only [if_true, map_bind]
      refine bind_congr fun data => ?_
      split
      · simp only [map_bind]
        refine bind_congr fun _ => bind_congr fun _ => bind_congr fun mapped => ?_
        cases mapped with
        | error e => rfl
        | ok =>
          simp only [Nat.psub_eq_sub (Nat.min_le_left ..), sumIn_eq below]
          rw [ih fits' (next ▸ inWords), next]
      · rfl

theorem loadSegmentIn_eq {h : SegmentHeader} (paged : h.Paged) (wide : wordLimit ≤ limit) (file : Handle) :
    loadSegmentIn limit file h.layout =
      (fun result => some (result.map fun _ =>
        (h.layout.firstPage.toNat + h.layout.pages * pageSize, 0))) <$> loadSegment file h.layout := by
  have below : h.layout.firstPage.toNat + h.layout.pages * pageSize < limit :=
    Nat.lt_of_le_of_lt paged.high (Nat.lt_of_lt_of_le (by decide) wide)
  simp only [loadSegmentIn, loadSegment, (paged.computes limit wide).2, map_bind]
  exact bind_congr fun _ => loadPagesIn_eq paged.fits below

end Loader

/-! ## What is asked, and what comes of it -/

namespace Routine

variable {α β : Type} {P : DeviceRequest → Prop} {R : α → Prop}

/-- In whatever state of the machine each request is served, all that a routine asks for is so, and its
    results are so. -/
def Served (P : DeviceRequest → Prop) (R : α → Prop) : Routine α → Prop
  | Program.pure x => R x
  | Program.ask r next => P r ∧ ∀ b d, Served P R (next (r.serve b d).1)

theorem Served.bind {R' : β → Prop} {p : Routine α} {f : α → Routine β} (first : Served P R p)
    (rest : ∀ x, R x → Served P R' (f x)) : Served P R' (p >>= f) := by
  change Served P R' (Program.bind p f)
  induction p with
  | pure x => exact rest x first
  | ask r next ih => exact ⟨first.1, fun b d => ih _ (first.2 b d)⟩

/-- What is so for all answers is so for those that the machine gives. -/
theorem served_of_only {p : Routine α} (only : p.Only P R) : Served P R p := by
  induction p with
  | pure x => exact only
  | ask r next ih => exact ⟨only.1, fun b d => ih _ (only.2 _)⟩

theorem Served.run {p : Routine α} (served : Served P R p) (b : Belongings) (d : Devices) :
    R (p.run b d).1 := by
  induction p generalizing b d with
  | pure x => exact served
  | ask r next ih => exact ih _ (served.2 b d) _ _

end Routine

/-- A page that is refused for its address. -/
def MappingError.isMisuse : MappingError → Bool
  | misalignedAddress | invalidPermissions => true
  | _ => false

/-- The error is that of a page that is refused for its address. -/
def LoadError.isMisuse : LoadError → Bool
  | mapping e => e.isMisuse
  | _ => false

/-- The request maps a page. -/
def DeviceRequest.isMapping : DeviceRequest → Bool
  | mapFrame .. => true
  | _ => false

/-- Where a page may be mapped: it starts at a page boundary, is not page 0, and lies below the kernel. -/
structure VirtAddr.IsUserPage (page : VirtAddr) : Prop where
  /-- It starts at a page boundary. -/
  aligned : page.isAligned = true
  /-- It is not page 0. -/
  low : pageSize ≤ page.toNat
  /-- It lies below the kernel. -/
  user : page.isUser = true

/-- No space refuses a user page for its address. -/
theorem VirtAddr.IsUserPage.not_misuse {page : VirtAddr} (ok : page.IsUserPage) {s : AddressSpace} {f : Frame}
    {writable : Bool} {e : MappingError} (refused : s.map page f writable = .error e) :
    e.isMisuse = false := by
  have checked := AddressSpace.map_eq_error refused
  simp only [AddressSpace.checkMappable, ok.aligned, ok.user, Nat.not_lt_of_le ok.low, Bool.not_true,
    Bool.false_eq_true, or_self, if_false] at checked
  split at checked
  · cases checked
    rfl
  · cases checked

/-- If the request maps a page, this is a user page, which no space refuses for its address. -/
def DeviceRequest.MapsUserPage (r : DeviceRequest) : Prop :=
  ∀ page writable, r = mapFrame page writable → page.IsUserPage ∧
    ∀ (s : AddressSpace) (f : Frame) e, s.map page f writable = .error e → e.isMisuse = false

namespace Loader

open DeviceRequest Routine

variable {α β : Type} {file : Handle} {writable : Bool} {page readBytes count : Nat}

/-- A load does not fail because a page is refused for its address. -/
def NoMisuse (result : Except LoadError α) : Prop := ∀ e, result = .error e → e.isMisuse = false

/-- A routine that maps user pages only, and does not fail for the address of one. -/
abbrev KeepsToUserPages (p : Routine (Except LoadError α)) : Prop := Served MapsUserPage NoMisuse p

theorem mapsUserPage_of_other {r : DeviceRequest} (other : r.isMapping = false) : r.MapsUserPage := by
  rintro page writable rfl
  cases other

theorem keeps_bind {r : DeviceRequest} {next : r.Answer → Routine (Except LoadError α)}
    (other : r.isMapping = false) (rest : ∀ answer, KeepsToUserPages (next answer)) :
    KeepsToUserPages (ask r >>= next) :=
  ⟨mapsUserPage_of_other other, fun _ _ => rest _⟩

theorem keeps_error {e : LoadError} (other : e.isMisuse = false) :
    KeepsToUserPages (α := α) (return .error e) := by
  rintro _ ⟨⟩
  exact other

theorem keeps_ok {x : α} : KeepsToUserPages (return .ok x) := nofun

/-- What comes after a part that may fail fails as the part does, or does what is left. -/
theorem keeps_try {p : Routine (Except LoadError α)} {next : Except LoadError α → Routine (Except LoadError β)}
    (first : KeepsToUserPages p) (fails : ∀ e, next (.error e) = return .error e)
    (rest : ∀ x, KeepsToUserPages (next (.ok x))) : KeepsToUserPages (p >>= next) := by
  refine first.bind fun result fine => ?_
  cases result with
  | ok x => exact rest x
  | error e =>
    rw [fails]
    exact keeps_error (fine e rfl)

theorem keeps_mapFrame {page : VirtAddr} {next : Except MappingError Unit → Routine (Except LoadError α)}
    (ok : page.IsUserPage) (fails : ∀ e, next (.error e) = return .error (.mapping e))
    (rest : KeepsToUserPages (next (.ok ()))) : KeepsToUserPages (ask (mapFrame page writable) >>= next) := by
  refine ⟨?_, fun b d => ?_⟩
  · rintro _ _ ⟨⟩
    exact ⟨ok, fun s f e => ok.not_misuse⟩
  · change KeepsToUserPages (next (serveMapFrame page writable b d).1)
    simp only [serveMapFrame]
    split
    · split
      · exact rest
      · rw [fails]
        exact keeps_error (ok.not_misuse ‹_›)
    · rw [fails]
      exact keeps_error rfl

theorem keeps_loadPages (aligned : page % pageSize = 0) (low : pageSize ≤ page)
    (high : page + count * pageSize ≤ userTop) :
    KeepsToUserPages (loadPages file writable page readBytes count) := by
  induction count generalizing page readBytes with
  | zero => exact keeps_ok
  | succ count ih =>
    -- The bound is on the end of the last page, which the next page has in common with this one.
    rw [Nat.succ_mul, Nat.add_comm _ pageSize, ← Nat.add_assoc] at high
    have user : page < userTop := Nat.lt_of_lt_of_le (Nat.lt_add_of_pos_right (by decide))
      (Nat.le_of_add_right_le high)
    have same : (VirtAddr.ofNat page).toNat = page := Nat.mod_eq_of_lt (user.trans (by decide))
    have ok : (VirtAddr.ofNat page).IsUserPage :=
      ⟨decide_eq_true (same.symm ▸ aligned), same.symm ▸ low, decide_eq_true (same.symm ▸ user)⟩
    refine keeps_bind rfl fun allocated => ?_
    split
    · refine keeps_bind rfl fun data => ?_
      split
      · refine keeps_bind rfl fun _ => keeps_bind rfl fun _ => keeps_mapFrame ok (fun _ => rfl) ?_
        exact ih ((Nat.add_mod_right ..).trans aligned) (Nat.le_add_right_of_le low) high
      · exact keeps_bind rfl fun _ => keeps_error rfl
    · exact keeps_error rfl

theorem keeps_loadSegment {h : SegmentHeader} (paged : h.Paged) :
    KeepsToUserPages (loadSegment file h.layout) :=
  keeps_bind rfl fun _ =>
    keeps_loadPages (of_decide_eq_true paged.aligned) paged.low paged.high

theorem keeps_loadSegments {fileLength : UInt32} {offset segments : Nat} :
    KeepsToUserPages (loadSegments file fileLength offset segments) := by
  have header {e : HeaderError} : KeepsToUserPages (α := Unit) (return .error (.badSegment e)) :=
    keeps_error rfl
  induction segments generalizing offset with
  | zero => exact keeps_ok
  | succ segments ih =>
    unfold loadSegments
    split
    · exact header
    refine keeps_bind rfl fun _ => keeps_bind rfl fun raw => ?_
    split
    · exact header
    split
    · exact header
    split
    · exact header
    split
    · exact header
    split
    · split
      · exact header
      · rename_i accepted
        exact keeps_try (keeps_loadSegment (SegmentHeader.paged_of_validate accepted)) (fun _ => rfl)
          fun _ => ih
    · exact ih

theorem keeps_loadStack {arguments : List String} : KeepsToUserPages (loadStack arguments) := by
  refine keeps_bind rfl fun allocated => ?_
  split
  · split
    · exact keeps_bind rfl fun _ => keeps_error rfl
    · have ok : stackPage.IsUserPage := ⟨by decide, by decide, by decide⟩
      exact keeps_bind rfl fun _ => keeps_mapFrame ok (fun _ => rfl) keeps_ok
  · exact keeps_error rfl

theorem keeps_loadImage {arguments : List String} : KeepsToUserPages (loadImage file arguments) := by
  refine keeps_bind rfl fun _ => keeps_bind rfl fun raw => ?_
  split
  · exact keeps_error rfl
  split
  · exact keeps_error rfl
  refine keeps_bind rfl fun fileLength => keeps_try keeps_loadSegments (fun _ => rfl) fun _ => ?_
  exact keeps_try keeps_loadStack (fun _ => rfl) fun _ => keeps_ok

theorem served_releaseSpace : Served MapsUserPage (fun _ => True) releaseSpace := by
  have only {r : DeviceRequest} (other : r.isMapping = false) : (ask r).Only MapsUserPage fun _ => True :=
    ⟨mapsUserPage_of_other other, fun _ => trivial⟩
  refine served_of_only ((only rfl).bind fun mapped _ => ?_)
  exact Program.Only.bind (R := fun _ => True) (.forM (fun _ _ => only rfl) trivial) fun _ _ =>
    (only rfl).bind fun _ _ => only rfl

/-- Every page of a load is mapped where pages may be mapped, whatever the file and whatever else the
    machine does in between. -/
theorem served_load {arguments : List String} : KeepsToUserPages (load arguments) := by
  unfold load
  split
  · exact keeps_error rfl
  refine keeps_bind rfl fun opened => ?_
  split
  · exact keeps_error rfl
  refine keeps_bind rfl fun _ => keeps_loadImage.bind fun loaded fine => ?_
  split
  · exact keeps_bind rfl fun _ => keeps_bind rfl fun _ => keeps_ok
  · refine served_releaseSpace.bind fun _ _ => ?_
    refine keeps_bind rfl fun _ => keeps_bind rfl fun _ =>
      keeps_bind rfl fun _ => keeps_error (fine _ rfl)

/-- A segment that is accepted is laid out on user pages above page 0, and its bytes are read to the last,
    all without an overflow. So in a load, whatever the file is, no page is refused for its address. -/
theorem segments_on_user_pages :
    (∀ (h : SegmentHeader) (fileLength : UInt32), h.validate fileLength = .ok () →
      h.Paged ∧ ∀ limit ≥ wordLimit, ∀ file, loadSegmentIn limit file h.layout =
        (fun result => some (result.map fun _ =>
          (h.layout.firstPage.toNat + h.layout.pages * pageSize, 0))) <$> loadSegment file h.layout) ∧
    ∀ arguments, Served MapsUserPage NoMisuse (load arguments) ∧
      ∀ b d, NoMisuse ((load arguments).run b d).1 := by
  refine ⟨fun h fileLength accepted => ?_, fun arguments => ⟨served_load, served_load.run⟩⟩
  have paged := SegmentHeader.paged_of_validate accepted
  exact ⟨paged, fun limit wide => loadSegmentIn_eq paged wide⟩

/-- A segment that takes the last two pages of user memory, less its last byte. -/
def topSegment : SegmentHeader := ⟨.load, 0x1010, 0xBFFFE010, 0x20, 0x1FEF, 6⟩

theorem segments_on_user_pages_top : topSegment.validate 0x1030 = .ok () ∧
    topSegment.layout.firstPage.toNat + 2 * pageSize = userTop ∧
    topSegment.Paged ∧ loadSegmentIn wordLimit ⟨0⟩ topSegment.layout =
      (fun result => some (result.map fun _ => (userTop, 0))) <$> loadSegment ⟨0⟩ topSegment.layout := by
  obtain ⟨paged, loads⟩ := segments_on_user_pages.1 topSegment 0x1030 (by decide)
  exact ⟨by decide, by decide, paged, loads wordLimit le_rfl ⟨0⟩⟩

end Loader

end Userland

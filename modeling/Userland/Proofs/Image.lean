import Userland.Executable.Builder
import Userland.Proofs.Filling

/-!
# The memory image of a loaded program

The program headers of a file prescribe what user memory shows (`AddressSpace.IsImage`): which pages
are mapped, which bytes they hold, and which of them may be written. Segment by segment the loader
brings about what is prescribed so far (`Loader.Shows`), and a program that is loaded shows the whole
image, whatever the frames held before (`load_image`).
-/

namespace Userland

/-! ## Segments -/

/-- A segment that lies on user pages, at the same place of its pages in the file and in memory. -/
structure SegmentHeader.Valid (h : SegmentHeader) : Prop where
  /-- The places within a page are the same. -/
  aligned : h.offset.toNat % pageSize = h.address.toNat % pageSize
  /-- All bytes in the file have a place in memory. -/
  fits : h.fileSize.toNat ≤ h.memorySize.toNat
  /-- There is something to map. -/
  some : 0 < h.memorySize.toNat
  /-- The segment ends below the kernel. -/
  user : h.address.toNat + h.memorySize.toNat < userTop

namespace SegmentHeader

variable {h : SegmentHeader} {fileLength : UInt32}

theorem valid_of_validate (ok : h.validate fileLength = .ok ()) : h.Valid := by
  unfold validate at ok
  split at ok <;> [cases ok; rename_i aligned]
  split at ok <;> [cases ok; rename_i inside]
  split at ok <;> [cases ok; rename_i fits]
  split at ok <;> [cases ok; rename_i some]
  split at ok <;> [cases ok; rename_i word]
  split at ok <;> [cases ok; rename_i user]
  refine ⟨Decidable.not_not.1 aligned, ?_, ?_, ?_⟩
  · exact Nat.le_of_not_lt fun lt => fits (UInt32.lt_iff_toNat_lt.2 lt)
  · exact Nat.pos_of_ne_zero fun zero => some (UInt32.toNat_inj.1 zero)
  · omega

/-- The number of the first page. -/
def firstPage (h : SegmentHeader) : Nat := h.address.toNat / pageSize

/-- One past the number of the last page. -/
def endPage (h : SegmentHeader) : Nat :=
  (h.address.toNat + h.memorySize.toNat + (pageSize - 1)) / pageSize

theorem endPage_le (valid : h.Valid) : h.endPage ≤ AddressSpace.userPages := by
  have := valid.user
  simp only [endPage, AddressSpace.userPages, userTop, pageSize] at *
  omega

theorem layout_firstPage (h : SegmentHeader) :
    h.layout.firstPage.toNat = h.firstPage * pageSize := rfl

theorem layout_pages (valid : h.Valid) : h.firstPage + h.layout.pages = h.endPage := by
  have := valid.fits
  have := valid.some
  simp only [firstPage, endPage, layout, SegmentLayout.pages, pageUp, pageSize]
  split <;> omega

theorem layout_readBytes_le (valid : h.Valid) :
    h.layout.readBytes ≤ h.layout.pages * pageSize := by
  have := valid.fits
  have := valid.some
  simp only [layout, SegmentLayout.pages, pageUp, pageSize]
  split <;> omega

theorem lt_layout_readBytes {n : Nat} : n < h.layout.readBytes ↔
    0 < h.fileSize.toNat ∧ n < h.address.toNat % pageSize + h.fileSize.toNat := by
  simp only [layout]
  split
  · rename_i zero
    simp [zero]
  · rename_i some
    have : h.fileSize.toNat ≠ 0 := fun zero => some (UInt32.toNat_inj.1 zero)
    omega

theorem layout_filePage (h : SegmentHeader) :
    h.layout.filePage.toNat = pageDown h.offset.toNat := by
  have := h.offset.toNat_lt
  simp only [layout, pageDown, pageSize, UInt32.toNat_ofNat']
  omega

end SegmentHeader

namespace Loader

open DeviceRequest Routine

variable {b b' : Belongings} {d d' : Devices} {s s' : AddressSpace} {file : Handle} {f : FileNode}
  {pos : Nat} {h : SegmentHeader} {hs : List SegmentHeader}

/-- What page number `n` holds if it is a page of segment `h`. -/
def segmentPage (f : FileNode) (h : SegmentHeader) (n : Nat) : Page :=
  filePage f (pageDown h.offset.toNat) h.layout.readBytes (n - h.firstPage)

/-- The pages that can be seen are those of some segments and no others. -/
structure Shows (view : Nat → Option (Page × Bool)) (f : FileNode) (hs : List SegmentHeader) :
    Prop where
  /-- The segments lie on user pages. -/
  valid : ∀ h ∈ hs, h.Valid
  /-- What comes from the file lies in the file. -/
  inFile : ∀ h ∈ hs, 0 < h.layout.readBytes →
    pageDown h.offset.toNat + h.layout.readBytes ≤ f.size
  /-- Each page holds what its segment says. -/
  page : ∀ h ∈ hs, ∀ n, h.firstPage ≤ n → n < h.endPage →
    view n = some (segmentPage f h n, h.writable)
  /-- Other pages are not mapped. -/
  others : ∀ n < AddressSpace.userPages, (∀ h ∈ hs, ¬ (h.firstPage ≤ n ∧ n < h.endPage)) →
    view n = none

theorem shows_loadSegment (finite : f.endless = false) (short : f.size < positionLimit)
    (filling : Filling b d s file f pos) (shows : Shows (s.contentsAt d.pool) f hs) (valid : h.Valid)
    (loaded : (loadSegment file h.layout).run b d = (.ok (), b', d')) :
    ∃ s' pos', Filling b' d' s' file f pos' ∧
      Shows (s'.contentsAt d'.pool) f (hs ++ [h]) := by
  obtain ⟨d₁, moved, pool₁, reads₁⟩ := serve_seek (b := b) filling.reads h.layout.filePage
  rw [loadSegment, run_bind, run_ask, moved, SegmentHeader.layout_firstPage] at loaded
  rw [SegmentHeader.layout_filePage] at reads₁
  have stop := SegmentHeader.layout_pages valid
  have user := SegmentHeader.endPage_le valid
  obtain ⟨s', filling', inFile, pages⟩ := contentsAt_loadPages finite short
    ⟨filling.inHand, pool₁ ▸ filling.backed, reads₁⟩ (stop.symm ▸ user) loaded
  rw [stop, pool₁] at pages
  rw [Nat.min_eq_left (SegmentHeader.layout_readBytes_le valid)] at inFile
  refine ⟨s', _, filling', ⟨?_, ?_, ?_, fun n lt outside => ?_⟩⟩
  · exact List.forall_mem_append.2 ⟨shows.valid, by simpa using valid⟩
  · exact List.forall_mem_append.2 ⟨shows.inFile, by simpa using inFile⟩
  · refine List.forall_mem_append.2 ⟨fun g mem n start below => ?_, fun g mem n start below => ?_⟩
    · have old := shows.page g mem n start below
      have := pages n (Nat.lt_of_lt_of_le below (SegmentHeader.endPage_le (shows.valid g mem)))
      -- A page that is mapped already cannot be one of the new pages.
      split at this
      · rw [AddressSpace.contentsAt, this.1] at old
        cases old
      · rw [this, old]
    · obtain rfl := List.mem_singleton.1 mem
      have := pages n (Nat.lt_of_lt_of_le below user)
      rw [if_pos ⟨start, below⟩] at this
      exact this.2
  · have := pages n lt
    rw [if_neg (outside h (by simp))] at this
    rw [this, shows.others n lt fun g mem => outside g (List.mem_append_left _ mem)]

/-- The program headers that lie at a place of a file and after it. -/
def segmentHeaders (f : FileNode) (offset : Nat) : Nat → List SegmentHeader
  | 0 => []
  | count + 1 =>
    match SegmentHeader.parse (f.contents.read offset segmentHeaderSize) with
    | .ok h => h :: segmentHeaders f (offset + segmentHeaderSize) count
    | .error _ => segmentHeaders f (offset + segmentHeaderSize) count

/-- Those of the headers that describe a piece of the program's memory. -/
def loadable (hs : List SegmentHeader) : List SegmentHeader := hs.filter (·.kind = .load)

theorem loadable_cons_of_load (kind : h.kind = .load) : loadable (h :: hs) = h :: loadable hs := by
  simp [loadable, kind]

theorem loadable_cons_of_ne_load (kind : h.kind ≠ .load) : loadable (h :: hs) = loadable hs := by
  simp [loadable, kind]

theorem segmentHeaders_succ {offset : Nat}
    (parsed : SegmentHeader.parse (f.contents.read offset segmentHeaderSize) = .ok h) (count : Nat) :
    segmentHeaders f offset (count + 1) =
      h :: segmentHeaders f (offset + segmentHeaderSize) count := by
  rw [segmentHeaders, parsed]

theorem parse_read (f : FileNode) (offset : Nat) :
    ∃ h, SegmentHeader.parse (f.contents.read offset segmentHeaderSize) = .ok h := by
  rw [SegmentHeader.parse, Contents.length_read, if_neg (Nat.lt_irrefl _)]
  exact ⟨_, rfl⟩

/-- How the loop over program headers ends with a header, or goes on after it, where `b` and `d` are what
    is there once the header was looked for. -/
inductive HeaderEnds (f : FileNode) (file : Handle) (fileLength : UInt32) (offset count : Nat)
    (b : Belongings) (d : Devices) : Except LoadError Unit × Belongings × Devices → Prop
  /-- The header would lie past the end of the file. -/
  | beyond : fileLength.toNat < offset →
    HeaderEnds f file fileLength offset count b d (.error (.badSegment .invalidPhoff), b, d)
  /-- The file ends within the header. -/
  | cut : f.size < offset + segmentHeaderSize →
    HeaderEnds f file fileLength offset count b d (.error (.badSegment .truncatedPhdr), b, d)
  /-- The program needs a dynamic linker. -/
  | linked {h : SegmentHeader} :
    SegmentHeader.parse (f.contents.read offset segmentHeaderSize) = .ok h →
    h.kind.needsLinker = true →
    HeaderEnds f file fileLength offset count b d
      (.error (.badSegment (.unsupportedSegment h.kind)), b, d)
  /-- The header does not describe what can be loaded. -/
  | refused {h : SegmentHeader} {e : HeaderError} :
    SegmentHeader.parse (f.contents.read offset segmentHeaderSize) = .ok h → h.kind = .load →
    h.validate fileLength = .error e →
    HeaderEnds f file fileLength offset count b d (.error (.badSegment e), b, d)
  /-- The segment cannot be loaded. -/
  | failed {h : SegmentHeader} {e : LoadError} {b' : Belongings} {d' : Devices} :
    SegmentHeader.parse (f.contents.read offset segmentHeaderSize) = .ok h → h.kind = .load →
    h.validate fileLength = .ok () →
    (loadSegment file h.layout).run b d = (.error e, b', d') →
    HeaderEnds f file fileLength offset count b d (.error e, b', d')
  /-- The segment is loaded. -/
  | loaded {h : SegmentHeader} {b' : Belongings} {d' : Devices} :
    offset + segmentHeaderSize ≤ f.size →
    SegmentHeader.parse (f.contents.read offset segmentHeaderSize) = .ok h → h.kind = .load →
    h.validate fileLength = .ok () →
    (loadSegment file h.layout).run b d = (.ok (), b', d') →
    HeaderEnds f file fileLength offset count b d
      ((loadSegments file fileLength (offset + segmentHeaderSize) count).run b' d')
  /-- There is nothing to load. -/
  | passed {h : SegmentHeader} :
    offset + segmentHeaderSize ≤ f.size →
    SegmentHeader.parse (f.contents.read offset segmentHeaderSize) = .ok h →
    h.kind.needsLinker = false → h.kind ≠ .load →
    HeaderEnds f file fileLength offset count b d
      ((loadSegments file fileLength (offset + segmentHeaderSize) count).run b d)

/-- Looking for the next header changes nothing but the position in the file. -/
theorem headerEnds_loadSegments (fileLength : UInt32) (offset count : Nat)
    (finite : f.endless = false) (short : f.size < positionLimit)
    (filling : Filling b d s file f pos) : ∃ d₁ pos₁, d₁.pool = d.pool ∧
      Filling b d₁ s file f pos₁ ∧ HeaderEnds f file fileLength offset count b d₁
        ((loadSegments file fileLength offset (count + 1)).run b d) := by
  rw [loadSegments]
  split
  · rename_i beyond
    exact ⟨d, pos, rfl, filling, .beyond beyond⟩
  · rename_i inside
    have start : (UInt32.ofNat offset).toNat = offset := by
      have := fileLength.toNat_lt
      rw [UInt32.toNat_ofNat']
      omega
    obtain ⟨d₁, moved, pool₁, reads₁⟩ := serve_seek (b := b) filling.reads (UInt32.ofNat offset)
    rw [start] at reads₁
    obtain ⟨d₂, got, pool₂, reads₂⟩ := serve_read (b := b) finite short reads₁ segmentHeaderSize
    have same := pool₂.trans pool₁
    rw [run_bind, run_ask, moved, run_bind, run_ask, got]
    simp only [Contents.length_read]
    refine ⟨d₂, _, same, ⟨filling.inHand, same ▸ filling.backed, reads₂⟩, ?_⟩
    split
    · exact .cut (by omega)
    · rename_i whole
      rw [Decidable.not_not.1 whole]
      have whole : offset + segmentHeaderSize ≤ f.size := by
        have : 0 < segmentHeaderSize := by decide
        omega
      -- The file ends below the greatest position, so no header that was read reaches it.
      rw [if_neg (by simp only [positionLimit] at *; omega)]
      obtain ⟨header, parsed⟩ := parse_read f offset
      simp only [parsed]
      split
      · rename_i linked
        exact .linked parsed linked
      · rename_i unlinked
        split
        · rename_i kind
          cases checked : header.validate fileLength with
          | error e => exact .refused parsed kind checked
          | ok u =>
            simp only [run_bind]
            rcases ran : (loadSegment file header.layout).run b d₂ with ⟨e | u, b₃, d₃⟩
            · exact .failed parsed kind checked ran
            · exact .loaded whole parsed kind checked ran
        · rename_i kind
          exact .passed whole parsed (Bool.eq_false_iff.2 unlinked) kind

theorem shows_loadSegments {fileLength : UInt32} {offset count : Nat} (finite : f.endless = false)
    (short : f.size < positionLimit) (filling : Filling b d s file f pos)
    (shows : Shows (s.contentsAt d.pool) f hs)
    (loaded : (loadSegments file fileLength offset count).run b d = (.ok (), b', d')) :
    ∃ s' pos', Filling b' d' s' file f pos' ∧
      Shows (s'.contentsAt d'.pool) f (hs ++ loadable (segmentHeaders f offset count)) := by
  induction count generalizing b d s pos offset hs with
  | zero =>
    cases loaded
    exact ⟨s, pos, filling, by simpa [segmentHeaders, loadable] using shows⟩
  | succ count ih =>
    obtain ⟨d₁, pos₁, pool₁, filling₁, ends⟩ :=
      headerEnds_loadSegments fileLength offset count finite short filling
    rw [← pool₁] at shows
    generalize (loadSegments file fileLength offset (count + 1)).run b d = out at loaded ends
    cases ends with
    | beyond | cut | linked | refused | failed => cases loaded
    | loaded whole parsed kind checked ran =>
      obtain ⟨s₂, pos₂, filling₂, shows₂⟩ := shows_loadSegment finite short filling₁ shows
        (SegmentHeader.valid_of_validate checked) ran
      obtain ⟨s', pos', filling', shows'⟩ := ih filling₂ shows₂ loaded
      refine ⟨s', pos', filling', ?_⟩
      rw [segmentHeaders_succ parsed, loadable_cons_of_load kind, List.append_cons]
      exact shows'
    | passed whole parsed unlinked kind =>
      obtain ⟨s', pos', filling', shows'⟩ := ih filling₁ shows loaded
      refine ⟨s', pos', filling', ?_⟩
      rw [segmentHeaders_succ parsed, loadable_cons_of_ne_load kind]
      exact shows'

/-- What loading leaves: the pages of the segments, of which `view` tells, and the stack page on top of
    them. -/
structure Leaves (s : AddressSpace) (pool : FramePool) (f : FileNode) (arguments : List String)
    (entry stack : VirtAddr) (header : FileHeader) (page : Page)
    (view : Nat → Option (Page × Bool)) : Prop where
  /-- The file starts with a file header. -/
  parsed : FileHeader.parse (f.contents.read 0 fileHeaderSize) = .ok header
  /-- It gives the entry point. -/
  entry : entry = .ofWord header.entry
  /-- The arguments fit the stack page. -/
  built : InitialStack.build arguments = some (page, stack)
  /-- The segments are there. -/
  segments : Shows view f
    (loadable (segmentHeaders f header.tableOffset.toNat header.segments.toNat))
  /-- None of them has the stack page. -/
  free : view (stackBase / pageSize) = none
  /-- The stack page is there. -/
  contents : ∀ n < AddressSpace.userPages, s.contentsAt pool n =
    if n = stackBase / pageSize then some (page, true) else view n
  /-- All frames are handed out. -/
  backed : s.Backed pool

/-- What laying out a stack comes to, from a space and a pool: the result, the space and the pool afterwards. -/
inductive StackEnds (s : AddressSpace) (pool : FramePool) (arguments : List String) :
    Except LoadError VirtAddr → AddressSpace → FramePool → Prop
  /-- There is no frame. -/
  | noFrame : pool.allocate? = none → StackEnds s pool arguments (.error (.mapping .outOfMemory)) s pool
  /-- The arguments do not fit the page, and the frame goes back. -/
  | overflow {fr : Frame} {pool₁ : FramePool} : pool.allocate? = some (fr, pool₁) →
    InitialStack.build arguments = none →
    StackEnds s pool arguments (.error .stackOverflow) s (pool₁.release fr)
  /-- The page is refused, and the frame goes back. -/
  | refused {fr : Frame} {pool₁ : FramePool} {page : Page} {stack : VirtAddr} {e : MappingError} :
    pool.allocate? = some (fr, pool₁) → InitialStack.build arguments = some (page, stack) →
    s.checkMappable stackPage = .error e →
    StackEnds s pool arguments (.error (.mapping e)) s ((pool₁.write fr 0 page.toList).release fr)
  /-- The page is mapped. -/
  | mapped {fr : Frame} {pool₁ : FramePool} {page : Page} {stack : VirtAddr} {s' : AddressSpace} :
    pool.allocate? = some (fr, pool₁) → InitialStack.build arguments = some (page, stack) →
    s.map stackPage fr true = .ok s' →
    StackEnds s pool arguments (.ok stack) s' (pool₁.write fr 0 page.toList)

theorem stackEnds_loadStack {arguments : List String} {result : Except LoadError VirtAddr}
    (inHand : b.hands.space = some s) (ran : (loadStack arguments).run b d = (result, b', d')) :
    ∃ s' pool', b'.hands.space = some s' ∧ d'.pool = pool' ∧ StackEnds s d.pool arguments result s' pool' := by
  rw [loadStack, run_bind, run_ask] at ran
  cases given : d.pool.allocate? with
  | none =>
    obtain ⟨d₁, refused, pool₁⟩ := serve_allocate_none (b := b) given
    rw [refused] at ran
    cases ran
    exact ⟨s, _, inHand, pool₁, .noFrame given⟩
  | some handed =>
    obtain ⟨fr, pool⟩ := handed
    obtain ⟨b₁, d₁, allocated, space₁, held, rfl, -⟩ := serve_allocate (b := b) given
    have inHand₁ := space₁.trans inHand
    rw [allocated, if_pos rfl] at ran
    cases built : InitialStack.build arguments with
    | none =>
      obtain ⟨b₂, d₂, freed, space₂, pool₂⟩ := serve_freeFrame (d := d₁) held
      simp only [built] at ran
      rw [run_bind, run_ask, freed] at ran
      cases ran
      exact ⟨s, _, space₂.trans inHand₁, pool₂, .overflow given built⟩
    | some result =>
      obtain ⟨page, start⟩ := result
      obtain ⟨d₂, stored, pool₂, -⟩ := serve_fill (d := d₁) held page.toList
      simp only [built] at ran
      rw [run_bind, run_ask, stored, run_bind, run_ask] at ran
      cases mapped : s.map stackPage fr true with
      | error e =>
        obtain ⟨b₃, d₃, refused, space₃, pool₃⟩ := serve_mapFrame_error (d := d₂) inHand₁ held mapped
        rw [refused] at ran
        cases ran
        rw [pool₂] at pool₃
        exact ⟨s, _, space₃, pool₃, .refused given built (AddressSpace.map_eq_error mapped)⟩
      | ok s' =>
        obtain ⟨b₃, done, space₃⟩ := serve_mapFrame (d := d₂) inHand₁ held mapped
        rw [done] at ran
        cases ran
        exact ⟨s', _, space₃, pool₂, .mapped given built mapped⟩

/-- The stack page holds what `InitialStack.build` wrote; the other pages stay as they are. -/
theorem contentsAt_loadStack {arguments : List String} {stack : VirtAddr}
    (inHand : b.hands.space = some s) (backed : s.Backed d.pool)
    (loaded : (loadStack arguments).run b d = (.ok stack, b', d')) :
    ∃ s' page, b'.hands.space = some s' ∧ InitialStack.build arguments = some (page, stack) ∧
      s.contentsAt d.pool (stackBase / pageSize) = none ∧ s'.Backed d'.pool ∧
      ∀ n < AddressSpace.userPages, s'.contentsAt d'.pool n =
        if n = stackBase / pageSize then some (page, true) else s.contentsAt d.pool n := by
  obtain ⟨s', pool', space, same, ends⟩ := stackEnds_loadStack inHand loaded
  cases ends with
  | @mapped _ _ page _ _ given built mapped =>
    have free := (AddressSpace.checkMappable_eq_ok.1 (AddressSpace.map_eq_ok mapped).1).2.2.2
    refine ⟨s', page, space, built, ?_, same ▸ backed.fresh given mapped _, fun n lt => ?_⟩
    · change s.presentAt (stackBase / pageSize) = none at free
      rw [AddressSpace.contentsAt, free]
      rfl
    rw [same, FramePool.write, AddressSpace.contentsAt_fresh backed given mapped _ lt, Page.write_toList]
    rfl

theorem shows_empty (root : Nat) (pool : FramePool) (f : FileNode) :
    Shows ((AddressSpace.empty root).contentsAt pool) f [] :=
  ⟨by simp, by simp, by simp, fun n _ _ => by simp [AddressSpace.contentsAt]⟩

/-- The stack page comes on top of the pages of the segments. -/
theorem leaves_loadImage {arguments : List String} {entry stack : VirtAddr}
    (finite : f.endless = false) (short : f.size < positionLimit)
    (reads : d.volume.Reads file f 0)
    (loaded : (loadImage file arguments).run b d = (.ok (entry, stack), b', d')) :
    ∃ s' header page view, b'.hands.space = some s' ∧
      Leaves s' d'.pool f arguments entry stack header page view := by
  rw [loadImage, run_bind, run_ask, run_bind, run_ask] at loaded
  obtain ⟨d₁, got, pool₁, reads₁⟩ :=
    serve_read (b := (newSpace.serve b d).2.1) (d := (newSpace.serve b d).2.2) finite short reads
      fileHeaderSize
  rw [got] at loaded
  simp only [Contents.length_read] at loaded
  split at loaded
  · cases loaded
  · rename_i whole
    rw [Decidable.not_not.1 whole] at loaded
    cases parsed : FileHeader.parse (f.contents.read 0 fileHeaderSize) with
    | error e =>
      rw [parsed] at loaded
      cases loaded
    | ok header =>
      simp only [parsed] at loaded
      rw [run_bind, run_ask, serve_length, run_bind] at loaded
      have filling₁ : Filling (newSpace.serve b d).2.1 d₁ (.empty d.spacesMade) file f _ :=
        ⟨rfl, by simp [AddressSpace.Backed], reads₁⟩
      rcases ran : (loadSegments file (d₁.volume.length file) header.tableOffset.toNat
        header.segments.toNat).run (newSpace.serve b d).2.1 d₁ with ⟨e | u, b₂, d₂⟩
      · rw [ran] at loaded
        cases loaded
      · rw [ran] at loaded
        dsimp only at loaded
        obtain ⟨s₂, pos₂, filling₂, shows₂⟩ :=
          shows_loadSegments finite short filling₁ (shows_empty _ _ f) ran
        rw [run_bind] at loaded
        rcases ended : (loadStack arguments).run b₂ d₂ with ⟨e | start, b₃, d₃⟩
        · rw [ended] at loaded
          cases loaded
        · rw [ended] at loaded
          cases loaded
          obtain ⟨s', page, inHand, built, free, backed, contents⟩ :=
            contentsAt_loadStack filling₂.inHand filling₂.backed ended
          exact ⟨s', header, page, _, inHand, parsed, rfl, built, shows₂, free, contents, backed⟩

/-- What `load` leaves in hand. -/
theorem leaves_load {name : String} {rest : List String} {p : LoadedProgram}
    (named : d.volume.file? name = some f) (finite : f.endless = false)
    (short : f.size < positionLimit)
    (loaded : (load (name :: rest)).run b d = (.ok p, b', d')) :
    ∃ s' header page view, b'.hands.space = some s' ∧
      Leaves s' d'.pool f (name :: rest) p.entry p.stack header page view := by
  rw [load, run_bind, run_ask] at loaded
  cases opened : d.volume.openFile? name with
  | none =>
    obtain ⟨d₁, refused⟩ := serve_openFile_none (b := b) opened
    rw [refused] at loaded
    cases loaded
  | some result =>
    obtain ⟨file, volume⟩ := result
    obtain ⟨b₁, d₁, done, rfl⟩ := serve_openFile (b := b) opened
    obtain ⟨d₂, denied, reads⟩ := serve_deny (b := b₁) (Volume.reads_openFile? opened named)
    rw [done] at loaded
    dsimp only at loaded
    rw [run_bind, run_ask, denied, run_bind] at loaded
    rcases ran : (loadImage file (name :: rest)).run b₁ d₂ with ⟨e | ⟨entry, stack⟩, b₃, d₃⟩
    · rw [ran] at loaded
      dsimp only at loaded
      have result := congrArg Prod.fst loaded
      rw [run_bind, run_bind, run_bind, run_bind] at result
      cases result
    · rw [ran] at loaded
      cases loaded
      obtain ⟨s', header, page, view, image⟩ := leaves_loadImage finite short reads ran
      exact ⟨s', header, page, view, image⟩

end Loader

/-! ## The image, address by address -/

namespace SegmentHeader

/-- An address in one of the pages of the segment. -/
def Covers (h : SegmentHeader) (a : VirtAddr) : Prop :=
  pageDown h.address.toNat ≤ a.toNat ∧ a.toNat < pageUp (h.address.toNat + h.memorySize.toNat)

/-- The byte that the segment prescribes for an address in its pages. -/
def byteAt (h : SegmentHeader) (f : FileNode) (a : VirtAddr) : UInt8 :=
  let distance := a.toNat - pageDown h.address.toNat
  if 0 < h.fileSize.toNat ∧ distance < h.address.toNat % pageSize + h.fileSize.toNat then
    f.contents.get (pageDown h.offset.toNat + distance)
  else 0

theorem covers_iff {h : SegmentHeader} {a : VirtAddr} :
    h.Covers a ↔ h.firstPage ≤ a.toNat / pageSize ∧ a.toNat / pageSize < h.endPage := by
  simp only [Covers, firstPage, endPage, pageDown, pageUp, pageSize]
  omega

end SegmentHeader

/-- What user memory shows is what some segments of a file and a stack page prescribe. -/
structure AddressSpace.IsImage (s : AddressSpace) (pool : FramePool) (f : FileNode)
    (segments : List SegmentHeader) (stack : Page) : Prop where
  /-- The pages of the segments and the stack page are mapped, and no others. -/
  mapped : ∀ a, (s.translate a).isSome = true ↔
    (∃ h ∈ segments, h.Covers a) ∨ a.page = stackPage
  /-- In the pages of a segment, bytes of the file come first, and zeros after them. -/
  byte : ∀ h ∈ segments, ∀ a, h.Covers a → s.byte? pool a = some (h.byteAt f a)
  /-- The bytes of the file are there, and the segment has each of them where its header says. -/
  data : ∀ h ∈ segments, ∀ i < h.fileSize.toNat, h.offset.toNat + i < f.size ∧
    ∀ a : VirtAddr, a.toNat = h.address.toNat + i →
      s.byte? pool a = some (f.contents.get (h.offset.toNat + i))
  /-- A segment is writable if its header says so. -/
  writable : ∀ h ∈ segments, ∀ a, h.Covers a →
    (s.translate a).map (·.flags.writable) = some h.writable
  /-- The stack page holds the initial stack and is writable. -/
  stack : ∀ a : VirtAddr, a.page = stackPage →
    s.byte? pool a = stack[a.offset]? ∧ (s.translate a).map (·.flags.writable) = some true

namespace Loader

variable {s : AddressSpace} {pool : FramePool} {f : FileNode} {arguments : List String}
  {entry stack : VirtAddr} {header : FileHeader} {page : Page}
  {view : Nat → Option (Page × Bool)} {h : SegmentHeader} {hs : List SegmentHeader} {a : VirtAddr}

theorem isUser_of_covers (valid : h.Valid) (covers : h.Covers a) : a.isUser = true := by
  have := valid.user
  simp only [SegmentHeader.Covers, pageDown, pageUp, VirtAddr.isUser, userTop, pageSize,
    decide_eq_true_eq] at *
  omega

theorem page_eq_stackPage : a.page = stackPage ↔ a.toNat / pageSize = stackBase / pageSize := by
  have base : stackPage.toNat = stackBase / pageSize * pageSize := rfl
  constructor
  · intro same
    have := congrArg VirtAddr.toNat same
    rw [VirtAddr.toNat_page, base] at this
    exact Nat.eq_of_mul_eq_mul_right (by decide) this
  · intro same
    have : a.page.toNat = stackPage.toNat := by rw [VirtAddr.toNat_page, base, same]
    cases ha : a.page
    cases hs : stackPage
    simp_all

theorem isUser_of_stackPage (same : a.page = stackPage) : a.isUser = true := by
  have := page_eq_stackPage.1 same
  simp only [VirtAddr.isUser, stackBase, userTop, pageSize, decide_eq_true_eq] at *
  omega

/-- In its pages a segment shows the bytes that it prescribes. -/
theorem getElem_segmentPage (covers : h.Covers a) :
    (segmentPage f h (a.toNat / pageSize))[a.offset]? = some (h.byteAt f a) := by
  have lt := a.offset_lt
  have place : (a.toNat / pageSize - h.firstPage) * pageSize + a.offset =
      a.toNat - pageDown h.address.toNat := by
    have := (SegmentHeader.covers_iff.1 covers).1
    simp only [SegmentHeader.firstPage, VirtAddr.offset, pageDown, pageSize] at *
    omega
  rw [segmentPage, Vector.getElem?_eq_getElem lt, getElem_filePage _ _ _ _ _ lt, place,
    SegmentHeader.byteAt]
  simp only [SegmentHeader.lt_layout_readBytes]

/-- A page of a segment is not the stack page. -/
theorem Leaves.contentsAt (leaves : Leaves s pool f arguments entry stack header page view)
    (mem : h ∈ loadable (segmentHeaders f header.tableOffset.toNat header.segments.toNat))
    (covers : h.Covers a) : s.contentsAt pool (a.toNat / pageSize) =
      some (segmentPage f h (a.toNat / pageSize), h.writable) := by
  have valid := leaves.segments.valid h mem
  obtain ⟨start, below⟩ := SegmentHeader.covers_iff.1 covers
  have shown := leaves.segments.page h mem _ start below
  have other : a.toNat / pageSize ≠ stackBase / pageSize := by
    intro same
    rw [same, leaves.free] at shown
    cases shown
  rw [leaves.contents _ (AddressSpace.div_lt_userPages (isUser_of_covers valid covers)),
    if_neg other, shown]

/-- The pages of the segments and the stack page are mapped, and no others. -/
theorem Leaves.isSome_translate (leaves : Leaves s pool f arguments entry stack header page view) :
    (s.translate a).isSome = true ↔
      (∃ h ∈ loadable (segmentHeaders f header.tableOffset.toNat header.segments.toNat), h.Covers a) ∨
        a.page = stackPage := by
  by_cases user : a.isUser = true
  · have shown := congrArg Option.isSome (AddressSpace.writable_eq leaves.backed user)
    rw [Option.isSome_map, Option.isSome_map,
      leaves.contents _ (AddressSpace.div_lt_userPages user)] at shown
    rw [shown]
    by_cases stackPage : a.toNat / pageSize = stackBase / pageSize
    · simp [stackPage, page_eq_stackPage]
    · simp only [page_eq_stackPage, stackPage, or_false]
      constructor
      · intro visible
        by_contra none
        have := leaves.segments.others _ (AddressSpace.div_lt_userPages user)
          fun h mem inside => none ⟨h, mem, SegmentHeader.covers_iff.2 inside⟩
        rw [this] at visible
        cases visible
      · rintro ⟨h, mem, covers⟩
        obtain ⟨start, below⟩ := SegmentHeader.covers_iff.1 covers
        rw [leaves.segments.page h mem _ start below]
        rfl
  · -- What is mapped belongs to the user, and so do the segments and the stack page.
    have unmapped : s.translate a = none := by rw [AddressSpace.translate_eq, if_neg user]
    rw [unmapped]
    refine ⟨fun h => absurd h (by simp), ?_⟩
    rintro (⟨h, mem, covers⟩ | same)
    · exact absurd (isUser_of_covers (leaves.segments.valid h mem) covers) user
    · exact absurd (isUser_of_stackPage same) user

theorem Leaves.byte?_of_covers (leaves : Leaves s pool f arguments entry stack header page view)
    (mem : h ∈ loadable (segmentHeaders f header.tableOffset.toNat header.segments.toNat))
    (covers : h.Covers a) : s.byte? pool a = some (h.byteAt f a) := by
  rw [AddressSpace.byte?_eq (isUser_of_covers (leaves.segments.valid h mem) covers),
    leaves.contentsAt mem covers, Option.bind_some, getElem_segmentPage covers]

/-- A segment covers the places of its bytes in the file, and prescribes those bytes there. -/
theorem byteAt_of_lt_fileSize {i : Nat} (valid : h.Valid) (lt : i < h.fileSize.toNat)
    (address : a.toNat = h.address.toNat + i) :
    h.Covers a ∧ h.byteAt f a = f.contents.get (h.offset.toNat + i) := by
  have distance : a.toNat - pageDown h.address.toNat = h.address.toNat % pageSize + i := by
    simp only [pageDown, pageSize]
    omega
  have place : pageDown h.offset.toNat + (h.address.toNat % pageSize + i) = h.offset.toNat + i := by
    have := valid.aligned
    simp only [pageDown, pageSize] at *
    omega
  have some : 0 < h.fileSize.toNat := Nat.zero_lt_of_lt lt
  constructor
  · have := valid.fits
    simp only [SegmentHeader.Covers, pageDown, pageUp, pageSize]
    omega
  · rw [SegmentHeader.byteAt, distance, place, if_pos ⟨some, Nat.add_lt_add_left lt _⟩]

theorem Leaves.isImage (leaves : Leaves s pool f arguments entry stack header page view) :
    s.IsImage pool f
      (loadable (segmentHeaders f header.tableOffset.toNat header.segments.toNat)) page where
  mapped a := leaves.isSome_translate
  byte h mem a covers := leaves.byte?_of_covers mem covers
  data h mem i lt := by
    have valid := leaves.segments.valid h mem
    have inRead := SegmentHeader.lt_layout_readBytes.2
      ⟨Nat.zero_lt_of_lt lt, Nat.add_lt_add_left lt (h.address.toNat % pageSize)⟩
    have inFile := leaves.segments.inFile h mem (Nat.zero_lt_of_lt inRead)
    have aligned := valid.aligned
    refine ⟨?_, fun a address => ?_⟩
    · simp only [pageDown, pageSize] at *
      omega
    · obtain ⟨covers, same⟩ := byteAt_of_lt_fileSize (f := f) valid lt address
      rw [leaves.byte?_of_covers mem covers, same]
  writable h mem a covers := by
    have valid := leaves.segments.valid h mem
    rw [AddressSpace.writable_eq leaves.backed (isUser_of_covers valid covers),
      leaves.contentsAt mem covers, Option.map_some]
  stack a same := by
    have user := isUser_of_stackPage same
    have shown := leaves.contents _ (AddressSpace.div_lt_userPages user)
    rw [if_pos (page_eq_stackPage.1 same)] at shown
    rw [AddressSpace.byte?_eq user, AddressSpace.writable_eq leaves.backed user, shown]
    exact ⟨rfl, rfl⟩

end Loader

/-- A space shows only what is prescribed. -/
theorem AddressSpace.IsImage.unique {s s' : AddressSpace} {pool pool' : FramePool} {f : FileNode}
    {hs : List SegmentHeader} {stack : Page} (image : s.IsImage pool f hs stack)
    (image' : s'.IsImage pool' f hs stack) (a : VirtAddr) : s.byte? pool a = s'.byte? pool' a := by
  by_cases mapped : (s.translate a).isSome = true
  · rcases (image.mapped a).1 mapped with ⟨h, mem, covers⟩ | same
    · rw [image.byte h mem a covers, image'.byte h mem a covers]
    · rw [(image.stack a same).1, (image'.stack a same).1]
  · have mapped' : ¬ (s'.translate a).isSome = true :=
      fun other => mapped ((image.mapped a).2 ((image'.mapped a).1 other))
    rw [Option.not_isSome_iff_eq_none] at mapped mapped'
    rw [AddressSpace.byte?, AddressSpace.byte?, mapped, mapped']
    rfl

/-- Whatever the frames held before, a program that is loaded shows exactly the image that its file
    prescribes: the segments of its program headers and the stack page with its arguments. It starts
    at the entry point of its file header. -/
theorem load_image {name : String} {rest : List String} {b b' : Belongings} {d d' : Devices}
    {f : FileNode} {p : LoadedProgram} (named : d.volume.file? name = some f)
    (finite : f.endless = false) (short : f.size < positionLimit)
    (loaded : (Loader.load (name :: rest)).run b d = (.ok p, b', d')) :
    ∃ s header stack, b'.hands.space = some s ∧
      FileHeader.parse (f.contents.read 0 fileHeaderSize) = .ok header ∧
      p.entry = .ofWord header.entry ∧ InitialStack.build (name :: rest) = some (stack, p.stack) ∧
      s.IsImage d'.pool f (Loader.loadable
        (Loader.segmentHeaders f header.tableOffset.toNat header.segments.toNat)) stack ∧
      ∀ b₂ d₂ p₂ b₂' d₂', d₂.volume = d.volume →
        (Loader.load (name :: rest)).run b₂ d₂ = (.ok p₂, b₂', d₂') →
        ∃ s₂, b₂'.hands.space = some s₂ ∧ ∀ a, s₂.byte? d₂'.pool a = s.byte? d'.pool a := by
  obtain ⟨s, header, stack, view, inHand, leaves⟩ :=
    Loader.leaves_load named finite short loaded
  refine ⟨s, header, stack, inHand, leaves.parsed, leaves.entry, leaves.built, leaves.isImage,
    fun b₂ d₂ p₂ b₂' d₂' same loaded₂ => ?_⟩
  obtain ⟨s₂, header₂, stack₂, view₂, inHand₂, leaves₂⟩ :=
    Loader.leaves_load (same ▸ named) finite short loaded₂
  have sameHeader := leaves₂.parsed.symm.trans leaves.parsed
  have sameStack := leaves₂.built.symm.trans leaves.built
  cases sameHeader
  simp only [Option.some.injEq, Prod.mk.injEq] at sameStack
  obtain ⟨rfl, -⟩ := sameStack
  exact ⟨s₂, inHand₂, AddressSpace.IsImage.unique leaves₂.isImage leaves.isImage⟩

/-- A program of a read-only segment and a writable one. The bytes of each begin and end inside a page, and
    the second has another page without any. -/
def layered : ExecutableImage :=
  ⟨0x08048010, [.loadable 0x08048010 [144, 195, 7] 5 false, .loadable 0x08049020 [1, 2, 3] 0x1000 true]⟩

/-- Its file. -/
def layeredFile : FileNode :=
  .ofContents "layered" (.ofExtents [.ofBytes 0 layered.build]) layered.build.length

/-- Devices with this file and four frames full of leftovers. -/
def layeredDevices : Devices := .fresh ((Volume.empty .bounded).add layeredFile) (.ofFrames 4) []

theorem load_image_layered : ∃ p b' d' s stack, ∃ header : FileHeader,
    (Loader.load ["layered", "-v"]).run (.fresh 1) layeredDevices = (.ok p, b', d') ∧
      b'.hands.space = some s ∧ s.IsImage d'.pool layeredFile (Loader.loadable
        (Loader.segmentHeaders layeredFile header.tableOffset.toNat header.segments.toNat))
        stack := by
  have works : ((Loader.load ["layered", "-v"]).run (.fresh 1) layeredDevices).1.isOk = true := by
    decide +kernel
  have short : layeredFile.size < positionLimit := by decide +kernel
  rcases ran : (Loader.load ["layered", "-v"]).run (.fresh 1) layeredDevices with ⟨e | p, b', d'⟩
  · rw [ran] at works
    cases works
  · obtain ⟨s, header, stack, inHand, -, -, -, image, -⟩ :=
      load_image (f := layeredFile) rfl rfl short ran
    exact ⟨p, b', d', s, stack, header, rfl, inHand, image⟩

end Userland

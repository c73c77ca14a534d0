import Mathlib.Algebra.GroupWithZero.Nat
import Userland.Proofs.Image

/-!
# Which executables can be loaded

Nine routines of the loader refuse a program, each for reasons of its own and each in the middle of the
work. Taken together they refuse exactly the files that are not well-formed (`FileNode.WellFormed`), for
which the pool has too few frames, or whose arguments do not fit the stack page (`loads_iff`).

Each routine is told by one predicate, `Loader.Decides`: it succeeds exactly if some condition on what
it starts from holds, and then it leaves something that the next routine can start from. The condition
for a list of segments is `Loader.Admits`, in which the pages that are taken already grow from segment
to segment.
-/

namespace Userland

/-! ## Room for the arguments -/

namespace InitialStack

variable {w w' : InitialStack} {arguments : List String}

/-- The bytes that strings take, each with the zero at its end. -/
def stringBytes (arguments : List String) : Nat :=
  (arguments.map fun arg => (Bytes.ofString arg).length + 1).sum

/-- The strings fit in the stack page, and so do the words below them: an address for each string, and
    four more. -/
def Fits (arguments : List String) : Prop :=
  stringBytes arguments ≤ pageSize ∧
    wordSize * arguments.length + 16 ≤ (pageSize - stringBytes arguments) / wordSize * wordSize

theorem stringBytes_cons (arg : String) (rest : List String) :
    stringBytes (arg :: rest) = (Bytes.ofString arg ++ [0]).length + stringBytes rest := by
  simp [stringBytes]

theorem push_eq_none {bs : Bytes} : w.push bs = none ↔ w.top < bs.length := by
  simp [push]

theorem top_push {bs : Bytes} (pushed : w.push bs = some w') :
    bs.length ≤ w.top ∧ w'.top = w.top - bs.length := by
  simp only [push, Option.ite_none_right_eq_some, Option.some.injEq] at pushed
  obtain ⟨fits, rfl⟩ := pushed
  exact ⟨fits, rfl⟩

/-- Strings are written if there is room for them. -/
theorem pushStrings_eq (w : InitialStack) (arguments : List String) :
    match w.pushStrings arguments with
    | none => w.top < stringBytes arguments
    | some (addresses, w') => addresses.length = arguments.length ∧
        stringBytes arguments ≤ w.top ∧ w'.top = w.top - stringBytes arguments := by
  induction arguments with
  | nil => simp [pushStrings, stringBytes]
  | cons arg rest ih =>
    have total := stringBytes_cons arg rest
    rw [pushStrings]
    cases below : w.pushStrings rest with
    | none =>
      rw [below] at ih
      exact Nat.lt_of_lt_of_le ih (total ▸ Nat.le_add_left ..)
    | some result =>
      obtain ⟨addresses, w₁⟩ := result
      rw [below] at ih
      obtain ⟨length, room, top⟩ := ih
      cases pushed : w₁.push (Bytes.ofString arg ++ [0]) with
      | none =>
        have := push_eq_none.1 pushed
        simp only [Option.bind_eq_bind, Option.bind_some, pushed, Option.bind_none]
        omega
      | some w₂ =>
        have := top_push pushed
        simp only [Option.bind_eq_bind, Option.bind_some, pushed, Option.pure_def, List.length_cons]
        omega

theorem isSome_build : (build arguments).isSome = true ↔ Fits arguments := by
  have strings := pushStrings_eq empty arguments
  have top : empty.top = pageSize := rfl
  rw [build]
  cases pushed : empty.pushStrings arguments with
  | none =>
    rw [pushed] at strings
    simp only [Option.bind_eq_bind, Option.bind_none, Option.isSome_none, Fits]
    simp
    omega
  | some result =>
    obtain ⟨addresses, w₁⟩ := result
    rw [pushed] at strings
    obtain ⟨length, room, below⟩ := strings
    have aligned : w₁.align.top = (pageSize - stringBytes arguments) / wordSize * wordSize := by
      rw [align, below, top]
    have words (list : Nat) : (([0, arguments.length, list] ++ addresses ++ [0]).flatMap fun n =>
        Bytes.ofWord (UInt32.ofNat n)).length = wordSize * arguments.length + 16 := by
      simp only [List.length_flatMap, Bytes.ofWord, Bytes.length_ofNat, List.map_const',
        List.sum_replicate_nat, List.length_append, List.length_cons, List.length_nil, length,
        wordSize]
      omega
    -- The strings are there. What is left is one push of words, which fits or does not.
    simp only [Option.bind_eq_bind, Option.bind_some, Option.pure_def, pushWords]
    cases written : w₁.align.push (([0, arguments.length,
        w₁.align.address - wordSize * (arguments.length + 1)] ++ addresses ++ [0]).flatMap fun n =>
          Bytes.ofWord (UInt32.ofNat n)) with
    | none =>
      have full := push_eq_none.1 written
      rw [words, aligned] at full
      simp only [Option.bind_none, Option.isSome_none, Fits]
      simp
      omega
    | some w₂ =>
      have room := (top_push written).1
      rw [words, aligned] at room
      simp only [Option.bind_some, Option.isSome_some, Fits]
      simp
      omega

end InitialStack

/-! ## Well-formed files -/

/-- A file that has an end and reports its length as it is. -/
structure FileNode.Honest (f : FileNode) : Prop where
  /-- Reads come to its end. -/
  finite : f.endless = false
  /-- Its length is its size. -/
  length : f.length.toNat = f.size

theorem FileNode.Honest.size_lt {f : FileNode} (honest : f.Honest) : f.size < positionLimit :=
  honest.length ▸ f.length.toNat_lt

namespace SegmentHeader

variable {h g : SegmentHeader} {fileLength : UInt32} {size : Nat}

/-- Page number `n` is one of the segment's. -/
def HasPage (h : SegmentHeader) (n : Nat) : Prop := h.firstPage ≤ n ∧ n < h.endPage

/-- How many pages the segment has. -/
def pageCount (h : SegmentHeader) : Nat := h.endPage - h.firstPage

/-- Two segments have no page in common. -/
def Apart (h g : SegmentHeader) : Prop := ∀ n, ¬ (h.HasPage n ∧ g.HasPage n)

/-- A piece of the program's memory that a file of `size` bytes can have. -/
structure Loadable (h : SegmentHeader) (size : Nat) : Prop where
  /-- The places within a page are the same in the file and in memory. -/
  aligned : h.offset.toNat % pageSize = h.address.toNat % pageSize
  /-- It starts in the file, or at its end. -/
  starts : h.offset.toNat ≤ size
  /-- All bytes in the file have a place in memory. -/
  fits : h.fileSize.toNat ≤ h.memorySize.toNat
  /-- There is something to map. -/
  some : 0 < h.memorySize.toNat
  /-- It leaves page 0 alone. -/
  above : pageSize ≤ h.address.toNat
  /-- It ends below the kernel. -/
  user : h.address.toNat + h.memorySize.toNat < userTop
  /-- Its bytes lie in the file. -/
  inFile : 0 < h.fileSize.toNat → h.offset.toNat + h.fileSize.toNat ≤ size

theorem Loadable.valid (loadable : h.Loadable size) : h.Valid :=
  ⟨loadable.aligned, loadable.fits, loadable.some, loadable.user⟩

theorem validate_eq_ok : h.validate fileLength = .ok () ↔
    h.Valid ∧ h.offset.toNat ≤ fileLength.toNat ∧ pageSize ≤ h.address.toNat := by
  constructor
  · intro ok
    refine ⟨valid_of_validate ok, ?_⟩
    unfold validate at ok
    split at ok <;> [cases ok; skip]
    split at ok <;> [cases ok; rename_i inside]
    iterate 4 split at ok <;> [cases ok; skip]
    split at ok <;> [cases ok; rename_i above]
    exact ⟨Nat.le_of_not_lt fun lt => inside (UInt32.lt_iff_toNat_lt.2 lt), Nat.le_of_not_lt above⟩
  · rintro ⟨valid, starts, above⟩
    have fits : ¬ h.memorySize < h.fileSize := fun lt =>
      Nat.not_lt.2 valid.fits (UInt32.lt_iff_toNat_lt.1 lt)
    have some : ¬ h.memorySize = 0 := fun zero => by
      have := valid.some
      rw [zero] at this
      exact absurd this (by decide)
    have starts : ¬ h.offset > fileLength := fun lt =>
      Nat.not_lt.2 starts (UInt32.lt_iff_toNat_lt.1 lt)
    have user := valid.user
    simp only [userTop] at user
    rw [validate, if_neg (not_not.2 valid.aligned), if_neg starts, if_neg fits, if_neg some,
      if_neg (by simp only [wordLimit]; omega), if_neg (by simp only [userTop]; omega),
      if_neg (by omega)]

/-- The check of a segment has nothing to say about where its header lies. -/
theorem validate_ne_invalidPhoff (h : SegmentHeader) (fileLength : UInt32) :
    h.validate fileLength ≠ .error .invalidPhoff := by
  unfold validate
  iterate 7 split <;> [exact nofun; skip]
  exact nofun

/-- What the segment reads from the first of its pages on lies in the file if its bytes do. -/
theorem layout_inFile (valid : h.Valid) :
    (0 < h.layout.readBytes → pageDown h.offset.toNat + h.layout.readBytes ≤ size) ↔
      (0 < h.fileSize.toNat → h.offset.toNat + h.fileSize.toNat ≤ size) := by
  have aligned := valid.aligned
  simp only [layout, pageDown, pageSize] at *
  split
  · rename_i zero
    simp [zero]
  · rename_i some
    have : h.fileSize.toNat ≠ 0 := fun zero => some (UInt32.toNat_inj.1 zero)
    omega

end SegmentHeader

namespace FileNode

variable {f : FileNode}

/-- The bytes of the file header. -/
def headerBytes (f : FileNode) : Bytes := f.contents.read 0 fileHeaderSize

/-- Where the file header says that the program headers lie. -/
def tableOffset (f : FileNode) : Nat := (f.headerBytes.wordAt 28).toNat

/-- How many program headers there are, as the file header says. -/
def tableLength (f : FileNode) : Nat := (f.headerBytes.word16At 44).toNat

/-- The program headers. -/
def programHeaders (f : FileNode) : List SegmentHeader :=
  Loader.segmentHeaders f f.tableOffset f.tableLength

/-- The pieces of the program's memory. -/
def segments (f : FileNode) : List SegmentHeader := Loader.loadable f.programHeaders

/-- How many pages they have. -/
def pageCount (f : FileNode) : Nat := (f.segments.map (·.pageCount)).sum

/-- An executable as it must be to be loaded. -/
structure WellFormed (f : FileNode) : Prop where
  /-- There is a whole file header. -/
  long : fileHeaderSize ≤ f.size
  /-- It starts as a file header does. -/
  magic : f.headerBytes.take executableMagic.length = executableMagic
  /-- It is for this machine. -/
  machine : f.headerBytes.word16At 18 = machineX86
  /-- Program headers have the known size. -/
  entrySize : (f.headerBytes.word16At 42).toNat = segmentHeaderSize
  /-- There are not too many. -/
  few : f.tableLength ≤ maxSegments
  /-- Each of them lies in the file. -/
  table : ∀ i < f.tableLength, f.tableOffset + segmentHeaderSize * (i + 1) ≤ f.size
  /-- None of them needs a dynamic linker. -/
  unlinked : ∀ h ∈ f.programHeaders, h.kind ≠ .dynamic ∧ h.kind ≠ .interp ∧ h.kind ≠ .shlib
  /-- Each piece of memory can be laid out. -/
  loadable : ∀ h ∈ f.segments, h.Loadable f.size
  /-- No two of them share a page. -/
  apart : f.segments.Pairwise SegmentHeader.Apart
  /-- None of them has the stack page. -/
  stackFree : ∀ h ∈ f.segments, ¬ h.HasPage (stackBase / pageSize)

end FileNode

/-- A file header is accepted for five reasons, and tells where the program headers lie. -/
theorem FileHeader.parse_eq_ok {bs : Bytes} (header : FileHeader) (whole : bs.length = fileHeaderSize) :
    parse bs = .ok header ↔
      (bs.take executableMagic.length = executableMagic ∧ bs.word16At 18 = machineX86 ∧
        (bs.word16At 42).toNat = segmentHeaderSize ∧ (bs.word16At 44).toNat ≤ maxSegments) ∧
      header = ⟨bs.wordAt 24, bs.wordAt 28, bs.word16At 44⟩ := by
  simp only [parse, whole, Nat.lt_irrefl, if_false]
  split
  · rename_i magic
    simp [magic]
  · rename_i magic
    split
    · rename_i machine
      simp [machine]
    · rename_i machine
      split
      · rename_i entrySize
        simp [entrySize]
      · rename_i entrySize
        split
        · rename_i few
          simp [Nat.not_le.2 few]
        · rename_i few
          rw [not_not] at magic machine entrySize
          simp only [magic, machine, entrySize, Nat.le_of_not_lt few, true_and, Except.ok.injEq]
          exact eq_comm

namespace Loader

open DeviceRequest Routine

variable {b b' : Belongings} {d d' : Devices} {s s' : AddressSpace} {file : Handle} {f : FileNode}
  {pos first readBytes count free size : Nat} {writable : Bool} {h : SegmentHeader}
  {hs : List SegmentHeader} {taken : Nat → Prop} {α : Type}

/-! ## What a routine decides -/

/-- Loading goes on exactly if `may` holds, and then `after` holds of what is left. Where it does not, a
    program header outside of the file is the reason only in case of `outside`. -/
def Decides (may outside : Prop) (after : α → Belongings → Devices → Prop) :
    Except LoadError α × Belongings × Devices → Prop
  | (.ok x, b, d) => may ∧ after x b d
  | (.error e, _, _) => ¬ may ∧ (e = .badSegment .invalidPhoff → outside)

section Decides

variable {may may' outside outside' : Prop} {after after' : α → Belongings → Devices → Prop}
  {out : Except LoadError α × Belongings × Devices} {e : LoadError}

theorem decides_error (failed : out.1 = .error e) (refused : ¬ may)
    (reason : e = .badSegment .invalidPhoff → outside) : Decides may outside after out := by
  obtain ⟨_, _, _⟩ := out
  cases failed
  exact ⟨refused, reason⟩

theorem Decides.mono (decides : Decides may outside after out) (same : may ↔ may')
    (weaker : outside → outside') (implies : ∀ x b d, after x b d → after' x b d) :
    Decides may' outside' after' out := by
  obtain ⟨e | x, b, d⟩ := out
  · exact ⟨fun holds => decides.1 (same.2 holds), weaker ∘ decides.2⟩
  · exact ⟨same.1 decides.1, implies x b d decides.2⟩

/-- Loading succeeds exactly if it may. -/
theorem Decides.isOk_iff (decides : Decides may outside after out) : out.1.isOk = true ↔ may := by
  obtain ⟨e | x, b, d⟩ := out
  · exact ⟨nofun, fun holds => absurd holds decides.1⟩
  · exact ⟨fun _ => decides.1, fun _ => rfl⟩

theorem Decides.of_invalidPhoff (decides : Decides may outside after out)
    (failed : out.1 = .error (.badSegment .invalidPhoff)) : outside := by
  obtain ⟨e | x, b, d⟩ := out
  · exact decides.2 (Except.error.inj failed)
  · cases failed

end Decides

/-- A space in which exactly the pages in `taken` are mapped is being filled, and `free` frames are
    left. -/
structure Stands (b : Belongings) (d : Devices) (file : Handle) (f : FileNode) (taken : Nat → Prop)
    (free : Nat) : Prop where
  /-- The space. -/
  filling : ∃ s pos, Filling b d s file f pos ∧ ∀ n, (s.presentAt n).isSome = true ↔ taken n
  /-- The frames. -/
  free : d.pool.freeFrames = free

theorem Stands.congr {taken' : Nat → Prop} {free' : Nat} (stands : Stands b d file f taken free)
    (same : ∀ n, taken n ↔ taken' n) (equal : free = free') : Stands b d file f taken' free' := by
  obtain ⟨⟨s, pos, filling, maps⟩, rfl⟩ := stands
  exact ⟨⟨s, pos, filling, fun n => (maps n).trans (same n)⟩, equal⟩

/-! ## Pages and segments -/

/-- A user page above the first one can only be refused for being mapped. -/
theorem checkMappable_pageAddress (above : 0 < first) (user : first < AddressSpace.userPages) :
    s.checkMappable (AddressSpace.pageAddress first) = .ok () ↔ s.presentAt first = none := by
  have number := AddressSpace.number_of_lt user
  have address := AddressSpace.toNat_pageAddress user
  have aligned : (AddressSpace.pageAddress first).isAligned = true := by
    rw [VirtAddr.isAligned, address, decide_eq_true_eq, Nat.mul_mod_left]
  have beyond : pageSize ≤ (AddressSpace.pageAddress first).toNat := by
    rw [address]
    exact Nat.le_mul_of_pos_left _ above
  rw [AddressSpace.checkMappable_eq_ok, AddressSpace.pageAddress, number]
  exact ⟨fun mappable => mappable.2.2.2, fun free =>
    ⟨aligned, beyond, AddressSpace.isUser_pageAddress user, free⟩⟩

/-- The first page and those after it are taken. -/
theorem taken_succ {n : Nat} :
    (taken n ∨ n = first) ∨ (first + 1 ≤ n ∧ n < first + 1 + count) ↔
      taken n ∨ (first ≤ n ∧ n < first + (count + 1)) := by
  rw [or_assoc]
  exact or_congr_right (by omega)

/-- Where the first page is free, all pages are if those after it are. -/
theorem untaken_succ (free : ¬ taken first) :
    (∀ n, first + 1 ≤ n → n < first + 1 + count → ¬ (taken n ∨ n = first)) ↔
      ∀ n, first ≤ n → n < first + (count + 1) → ¬ taken n := by
  constructor
  · intro later n start stop held
    rcases Nat.eq_or_lt_of_le start with rfl | after
    · exact free held
    · exact later n after (by omega) (.inl held)
  · rintro all n start stop (held | rfl)
    · exact all n (by omega) (by omega) held
    · omega

/-- The loop over pages needs a frame and a free place for each of them, and the bytes of the file. -/
theorem decides_loadPages (readBytes : Nat) (writable : Bool) (finite : f.endless = false)
    (short : f.size < positionLimit)
    (filling : Filling b d s file f pos) (maps : ∀ n, (s.presentAt n).isSome = true ↔ taken n)
    (above : 0 < first) (user : first + count ≤ AddressSpace.userPages) :
    Decides (count ≤ d.pool.freeFrames ∧ (∀ n, first ≤ n → n < first + count → ¬ taken n) ∧
        (0 < min readBytes (count * pageSize) →
          pos + min readBytes (count * pageSize) ≤ f.size)) False
      (fun _ b' d' => Stands b' d' file f (fun n => taken n ∨ (first ≤ n ∧ n < first + count))
        (d.pool.freeFrames - count))
      ((loadPages file writable (first * pageSize) readBytes count).run b d) := by
  induction count generalizing b d s pos first readBytes taken with
  | zero =>
    refine ⟨⟨Nat.zero_le _, fun n start stop => ?_, ?_⟩, ⟨s, pos, filling, fun n => ?_⟩, rfl⟩
    · omega
    · simp
    · rw [maps]
      exact ⟨.inl, fun either => either.resolve_right fun inside => by omega⟩
  | succ count ih =>
    have vacant : s.presentAt first = none ↔ ¬ taken first := by
      rw [← maps, Bool.not_eq_true, Option.isSome_eq_false_iff, Option.isNone_iff_eq_none]
    have mappable := (checkMappable_pageAddress (s := s) above (by omega)).trans vacant
    -- The first page is refused for one of the three parts of the condition, or the rest are decided with it
    -- taken.
    rcases loadPages_succ finite short filling (first * pageSize) readBytes count with
      ⟨none, failed⟩ | ⟨cut, failed⟩ | ⟨e, refused, failed⟩ |
      ⟨b₁, d₁, s₁, fr, pool, given, whole, mapped, pool₁, filling₁, goes⟩
    · refine decides_error failed (fun may => ?_) nofun
      have := FramePool.allocate?_eq_none.1 none
      omega
    · refine decides_error failed (fun may => ?_) nofun
      have := may.2.2
      rw [Nat.succ_mul] at this
      omega
    · refine decides_error failed (fun may => ?_) nofun
      have ok := mappable.2 (may.2.1 first (Nat.le_refl _) (by omega))
      rw [AddressSpace.pageAddress, refused] at ok
      cases ok
    · have left : d₁.pool.freeFrames + 1 = d.pool.freeFrames := by
        rw [pool₁, FramePool.freeFrames_modify]
        exact FramePool.freeFrames_allocate? given
      have free : ¬ taken first := mappable.1 (AddressSpace.map_eq_ok mapped).1
      have maps₁ : ∀ n, (s₁.presentAt n).isSome = true ↔ taken n ∨ n = first := by
        intro n
        rw [AddressSpace.presentAt_map mapped, AddressSpace.number_of_lt (by omega)]
        by_cases here : n = first
        · simp [here]
        · simp [here, maps]
      -- For the pages that are left, the first one is taken, and there is one frame less.
      rw [goes, ← Nat.succ_mul]
      refine (ih _ filling₁ maps₁ (Nat.succ_pos _) (by omega)).mono ?_ id fun _ _ _ stands =>
        stands.congr (fun n => taken_succ) (by omega)
      rw [Nat.succ_mul count]
      exact and_congr (by omega) (and_congr (untaken_succ free) (by omega))

/-- A segment that lies on user pages needs its pages, and its bytes in the file. -/
theorem decides_loadSegment (finite : f.endless = false) (short : f.size < positionLimit)
    (stands : Stands b d file f taken free) (valid : h.Valid) (above : pageSize ≤ h.address.toNat) :
    Decides (h.pageCount ≤ free ∧ (∀ n, h.HasPage n → ¬ taken n) ∧
        (0 < h.fileSize.toNat → h.offset.toNat + h.fileSize.toNat ≤ f.size)) False
      (fun _ b' d' => Stands b' d' file f (fun n => taken n ∨ h.HasPage n) (free - h.pageCount))
      ((loadSegment file h.layout).run b d) := by
  obtain ⟨⟨s, pos, filling, maps⟩, rfl⟩ := stands
  obtain ⟨d₁, moved, pool₁, reads₁⟩ := serve_seek (b := b) filling.reads h.layout.filePage
  rw [SegmentHeader.layout_filePage] at reads₁
  have stop := SegmentHeader.layout_pages valid
  have user := SegmentHeader.endPage_le valid
  have count : h.layout.pages = h.pageCount := by
    rw [SegmentHeader.pageCount, ← stop, Nat.add_sub_cancel_left]
  have first : 0 < h.firstPage := Nat.div_pos above (by decide)
  have decides := decides_loadPages h.layout.readBytes h.layout.writable finite
    short ⟨filling.inHand, pool₁ ▸ filling.backed, reads₁⟩ maps first (stop.symm ▸ user)
  rw [Nat.min_eq_left (SegmentHeader.layout_readBytes_le valid), stop, count, pool₁,
    SegmentHeader.layout_inFile valid] at decides
  rw [loadSegment, run_bind, run_ask, moved, SegmentHeader.layout_firstPage, count]
  refine decides.mono (and_congr_right fun _ => and_congr_left fun _ => ?_) id fun _ _ _ => id
  exact forall_congr' fun n => and_imp.symm

/-! ## The table of program headers -/

/-- Segments that can be loaded into a space with some pages taken, from a file of `size` bytes, when
    there are `free` frames. -/
structure Admits (taken : Nat → Prop) (free size : Nat) (hs : List SegmentHeader) : Prop where
  /-- None of them needs a dynamic linker. -/
  unlinked : ∀ h ∈ hs, h.kind.needsLinker = false
  /-- Each piece of memory can be laid out. -/
  loadable : ∀ h ∈ loadable hs, h.Loadable size
  /-- No two of them share a page. -/
  apart : (Loader.loadable hs).Pairwise SegmentHeader.Apart
  /-- None of them has a page that is taken. -/
  untaken : ∀ h ∈ Loader.loadable hs, ∀ n, h.HasPage n → ¬ taken n
  /-- There are frames for all of their pages. -/
  room : ((Loader.loadable hs).map (·.pageCount)).sum ≤ free

theorem admits_nil (taken : Nat → Prop) (free size : Nat) : Admits taken free size [] :=
  ⟨by simp, by simp [loadable], by simp [loadable], by simp [loadable], by simp [loadable]⟩

theorem admits_cons_of_ne_load (kind : h.kind ≠ .load) : Admits taken free size (h :: hs) ↔
    h.kind.needsLinker = false ∧ Admits taken free size hs := by
  have same : Loader.loadable (h :: hs) = Loader.loadable hs := loadable_cons_of_ne_load kind
  constructor
  · rintro ⟨unlinked, loadable, apart, untaken, room⟩
    rw [same] at loadable apart untaken room
    exact ⟨unlinked h (by simp), fun g mem => unlinked g (by simp [mem]), loadable, apart, untaken,
      room⟩
  · rintro ⟨first, unlinked, loadable, apart, untaken, room⟩
    exact ⟨List.forall_mem_cons.2 ⟨first, unlinked⟩, same ▸ loadable, same ▸ apart, same ▸ untaken,
      same ▸ room⟩

/-- The pages of the first segment are taken for those after it. -/
theorem admits_cons_of_load (kind : h.kind = .load) : Admits taken free size (h :: hs) ↔
    h.Loadable size ∧ h.pageCount ≤ free ∧ (∀ n, h.HasPage n → ¬ taken n) ∧
      Admits (fun n => taken n ∨ h.HasPage n) (free - h.pageCount) size hs := by
  have first : Loader.loadable (h :: hs) = h :: Loader.loadable hs := loadable_cons_of_load kind
  constructor
  · rintro ⟨unlinked, loadable, apart, untaken, room⟩
    rw [first] at loadable apart untaken room
    rw [List.map_cons, List.sum_cons] at room
    obtain ⟨fromFirst, others⟩ := List.pairwise_cons.1 apart
    refine ⟨loadable h (by simp), by omega, untaken h (by simp), fun g mem => unlinked g (by simp [mem]),
      fun g mem => loadable g (by simp [mem]), others, fun g mem n page => ?_, by omega⟩
    rintro (held | shared)
    · exact untaken g (by simp [mem]) n page held
    · exact fromFirst g mem n ⟨shared, page⟩
  · rintro ⟨own, fits, places, unlinked, loadable, apart, untaken, room⟩
    refine ⟨List.forall_mem_cons.2 ⟨by rw [kind]; rfl, unlinked⟩, ?_, ?_, ?_, ?_⟩ <;> rw [first]
    · exact List.forall_mem_cons.2 ⟨own, loadable⟩
    · exact List.pairwise_cons.2
        ⟨fun g mem n both => untaken g mem n both.2 (.inr both.1), apart⟩
    · exact List.forall_mem_cons.2
        ⟨places, fun g mem n page held => untaken g mem n page (.inl held)⟩
    · rw [List.map_cons, List.sum_cons]
      omega

/-- A table of program headers lies in a file if the first of them and the table after it do. -/
theorem table_succ {offset : Nat} :
    (∀ i < count + 1, offset + segmentHeaderSize * (i + 1) ≤ size) ↔
      offset + segmentHeaderSize ≤ size ∧
        ∀ i < count, offset + segmentHeaderSize + segmentHeaderSize * (i + 1) ≤ size := by
  constructor
  · intro table
    refine ⟨table 0 (Nat.succ_pos _), fun i lt => ?_⟩
    have := table (i + 1) (by omega)
    simp only [segmentHeaderSize] at *
    omega
  · rintro ⟨first, others⟩ i lt
    rcases Nat.eq_zero_or_pos i with rfl | later
    · exact first
    · have := others (i - 1) (by omega)
      simp only [segmentHeaderSize] at *
      omega

/-- Segments are loaded exactly if all of their headers lie in the file and they are admitted. Only the
    very first header can lie past the end of the file: one that comes after a whole header starts at the
    end at most. So no position overflows either. -/
theorem decides_loadSegments {fileLength : UInt32} (honest : f.Honest)
    (length : fileLength.toNat = f.size) (stands : Stands b d file f taken free)
    (offset count : Nat) :
    Decides ((∀ i < count, offset + segmentHeaderSize * (i + 1) ≤ f.size) ∧
        Admits taken free f.size (segmentHeaders f offset count)) (f.size < offset)
      (fun _ b' d' => Stands b' d' file f
        (fun n => taken n ∨ ∃ h ∈ loadable (segmentHeaders f offset count), h.HasPage n)
        (free - ((loadable (segmentHeaders f offset count)).map (·.pageCount)).sum))
      ((loadSegments file fileLength offset count).run b d) := by
  induction count generalizing b d offset taken free with
  | zero =>
    refine ⟨⟨by simp, admits_nil ..⟩, stands.congr (fun n => ?_) rfl⟩
    simp [segmentHeaders, loadable]
  | succ count ih =>
    obtain ⟨⟨s, pos, filling, maps⟩, left⟩ := stands
    obtain ⟨d₁, pos₁, pool₁, filling₁, ends⟩ :=
      headerEnds_loadSegments fileLength offset count honest.finite honest.size_lt filling
    have stands₁ : Stands b d₁ file f taken free := ⟨⟨s, pos₁, filling₁, maps⟩, pool₁ ▸ left⟩
    rw [table_succ]
    generalize (loadSegments file fileLength offset (count + 1)).run b d = out at ends ⊢
    cases ends with
    | beyond beyond =>
      rw [length] at beyond
      exact decides_error rfl (fun may => by have := may.1.1; omega) fun _ => beyond
    | cut cut => exact decides_error rfl (fun may => by have := may.1.1; omega) (by simp)
    | @linked header parsed linked =>
      rw [segmentHeaders_succ parsed]
      refine decides_error rfl (fun may => ?_) (by simp)
      rw [may.2.unlinked header (by simp)] at linked
      cases linked
    | @refused header e parsed kind checked =>
      rw [segmentHeaders_succ parsed, admits_cons_of_load kind]
      refine decides_error rfl (fun may => ?_) fun reason => ?_
      · -- The check has refused what the condition says is in order.
        have own := may.2.1
        have ok := SegmentHeader.validate_eq_ok.2 ⟨own.valid, length.symm ▸ own.starts, own.above⟩
        rw [checked] at ok
        cases ok
      · cases reason
        exact absurd checked (SegmentHeader.validate_ne_invalidPhoff _ _)
    | failed parsed kind checked ran =>
      obtain ⟨valid, starts, above⟩ := SegmentHeader.validate_eq_ok.1 checked
      have decides := decides_loadSegment honest.finite honest.size_lt stands₁ valid above
      rw [ran] at decides
      rw [segmentHeaders_succ parsed, admits_cons_of_load kind]
      refine decides_error rfl (fun may => decides.1 ?_) fun reason => (decides.2 reason).elim
      exact ⟨may.2.2.1, may.2.2.2.1, may.2.1.inFile⟩
    | @loaded header b₂ d₂ first parsed kind checked ran =>
      obtain ⟨valid, starts, above⟩ := SegmentHeader.validate_eq_ok.1 checked
      have decides := decides_loadSegment honest.finite honest.size_lt stands₁ valid above
      rw [ran] at decides
      obtain ⟨⟨frames, places, bytes⟩, stands₂⟩ := decides
      -- What the check has said, and that the pages were loaded, make up the first segment's part.
      have own : header.Loadable f.size := ⟨valid.aligned, length ▸ starts, valid.fits,
        valid.some, above, valid.user, bytes⟩
      rw [segmentHeaders_succ parsed, admits_cons_of_load kind, loadable_cons_of_load kind]
      refine (ih stands₂ (offset + segmentHeaderSize)).mono ?_ (fun _ => by omega)
        fun _ _ _ stands => stands.congr (fun n => ?_) ?_
      · constructor
        · rintro ⟨table, admits⟩
          exact ⟨⟨first, table⟩, own, frames, places, admits⟩
        · rintro ⟨⟨-, table⟩, -, -, -, admits⟩
          exact ⟨table, admits⟩
      · rw [List.exists_mem_cons_iff, or_assoc]
      · rw [List.map_cons, List.sum_cons, Nat.sub_sub]
    | passed first parsed unlinked kind =>
      rw [segmentHeaders_succ parsed, admits_cons_of_ne_load kind, loadable_cons_of_ne_load kind]
      refine (ih stands₁ (offset + segmentHeaderSize)).mono ?_ (fun _ => by omega) fun _ _ _ => id
      constructor
      · rintro ⟨table, admits⟩
        exact ⟨⟨first, table⟩, unlinked, admits⟩
      · rintro ⟨⟨-, table⟩, -, admits⟩
        exact ⟨table, admits⟩

/-! ## The stack page and the whole image -/

/-- The stack page needs a frame, and room for the arguments. -/
theorem decides_loadStack (arguments : List String) (stands : Stands b d file f taken free) :
    Decides (0 < free ∧ InitialStack.Fits arguments ∧ ¬ taken (stackBase / pageSize)) False
      (fun _ _ _ => True) ((loadStack arguments).run b d) := by
  obtain ⟨⟨s, pos, filling, maps⟩, rfl⟩ := stands
  have mappable : s.checkMappable stackPage = .ok () ↔ ¬ taken (stackBase / pageSize) := by
    rw [AddressSpace.checkMappable_eq_ok, ← maps, Bool.not_eq_true,
      Option.isSome_eq_false_iff, Option.isNone_iff_eq_none]
    exact ⟨fun mappable => mappable.2.2.2, fun free => ⟨by decide, by decide, by decide, free⟩⟩
  rcases ran : (loadStack arguments).run b d with ⟨result, b', d'⟩
  obtain ⟨s', pool', -, -, ends⟩ := stackEnds_loadStack filling.inHand ran
  rw [← mappable, ← InitialStack.isSome_build]
  cases ends with
  | noFrame none =>
    have := FramePool.allocate?_eq_none.1 none
    exact decides_error rfl (fun may => by omega) (by simp)
  | overflow given full => exact decides_error rfl (by simp [full]) (by simp)
  | refused given built refused => exact decides_error rfl (by simp [refused]) (by simp)
  | mapped given built mapped =>
    have some := FramePool.freeFrames_allocate? given
    exact ⟨⟨by omega, by simp [built], (AddressSpace.map_eq_ok mapped).1⟩, trivial⟩

theorem needsLinker_eq_false {kind : SegmentKind} : kind.needsLinker = false ↔
    kind ≠ .dynamic ∧ kind ≠ .interp ∧ kind ≠ .shlib := by
  cases kind <;> simp [SegmentKind.needsLinker]

/-- What the routines ask of a file one after the other is that it is well-formed. -/
theorem wellFormed_iff (free : Nat) (long : fileHeaderSize ≤ f.size)
    (magic : f.headerBytes.take executableMagic.length = executableMagic)
    (machine : f.headerBytes.word16At 18 = machineX86)
    (entrySize : (f.headerBytes.word16At 42).toNat = segmentHeaderSize)
    (few : f.tableLength ≤ maxSegments) : f.WellFormed ∧ f.pageCount + 1 ≤ free ↔
      ((∀ i < f.tableLength, f.tableOffset + segmentHeaderSize * (i + 1) ≤ f.size) ∧
        Admits (fun _ => False) free f.size f.programHeaders) ∧
      0 < free - f.pageCount ∧
      ¬ (False ∨ ∃ h ∈ f.segments, h.HasPage (stackBase / pageSize)) := by
  constructor
  · rintro ⟨wellFormed, room⟩
    have admits : Admits (fun _ => False) free f.size f.programHeaders :=
      ⟨fun h mem => needsLinker_eq_false.2 (wellFormed.unlinked h mem), wellFormed.loadable,
        wellFormed.apart, fun _ _ _ _ => id, Nat.le_of_lt room⟩
    refine ⟨⟨wellFormed.table, admits⟩, Nat.sub_pos_of_lt room, ?_⟩
    rintro (taken | ⟨h, mem, page⟩)
    · exact taken
    · exact wellFormed.stackFree h mem page
  · rintro ⟨⟨table, admits⟩, room, stackFree⟩
    refine ⟨⟨long, magic, machine, entrySize, few, table, fun h mem => ?_, admits.loadable,
      admits.apart, fun h mem page => stackFree (.inr ⟨h, mem, page⟩)⟩, Nat.lt_of_sub_pos room⟩
    exact needsLinker_eq_false.1 (admits.unlinked h mem)

/-- A file that is open from its start is loaded exactly if it is well-formed, there are frames for its
    pages and the stack page, and the arguments fit. -/
theorem decides_loadImage (b : Belongings) (arguments : List String) (honest : f.Honest)
    (reads : d.volume.Reads file f 0) (length : d.volume.length file = f.length) :
    Decides (f.WellFormed ∧ f.pageCount + 1 ≤ d.pool.freeFrames ∧ InitialStack.Fits arguments)
      (f.size < f.tableOffset) (fun _ _ _ => True) ((loadImage file arguments).run b d) := by
  rw [loadImage, run_bind, run_ask, run_bind, run_ask]
  obtain ⟨d₁, got, pool₁, reads₁⟩ :=
    serve_read (b := (newSpace.serve b d).2.1) (d := (newSpace.serve b d).2.2) honest.finite
      honest.size_lt reads fileHeaderSize
  have length₁ := congrArg (fun out => out.2.2.volume.length file) got
  simp only [length_serve_read] at length₁
  rw [got]
  simp only [Contents.length_read]
  split
  · refine decides_error rfl (fun may => ?_) (by simp)
    have := may.1.long
    omega
  · rename_i whole
    rw [Decidable.not_not.1 whole]
    have long : fileHeaderSize ≤ f.size := by omega
    have whole : f.headerBytes.length = fileHeaderSize := by simp [FileNode.headerBytes]
    have known (header : FileHeader) := FileHeader.parse_eq_ok header whole
    cases parsed : FileHeader.parse (f.contents.read 0 fileHeaderSize) with
    | error e =>
      refine decides_error rfl (fun may => ?_) (by simp)
      have ok := (known _).2 ⟨⟨may.1.magic, may.1.machine, may.1.entrySize, may.1.few⟩, rfl⟩
      rw [FileNode.headerBytes, parsed] at ok
      cases ok
    | ok header =>
      obtain ⟨⟨magic, machine, entrySize, few⟩, rfl⟩ := (known header).1 parsed
      simp only []
      rw [run_bind, run_ask, serve_length, run_bind]
      -- The segments find a space in which nothing is taken, and all frames that there are.
      have stands : Stands (newSpace.serve b d).2.1 d₁ file f (fun _ => False)
          d.pool.freeFrames :=
        ⟨⟨.empty d.spacesMade, _, ⟨rfl, by simp [AddressSpace.Backed], reads₁⟩, by simp⟩,
          congrArg FramePool.freeFrames pool₁⟩
      have decides := decides_loadSegments honest (length₁ ▸ length ▸ honest.length) stands
        f.tableOffset f.tableLength
      have parts := wellFormed_iff d.pool.freeFrames long magic machine entrySize few
      dsimp only
      rcases ran : (loadSegments file (d₁.volume.length file) (f.headerBytes.wordAt 28).toNat
        (f.headerBytes.word16At 44).toNat).run (newSpace.serve b d).2.1 d₁ with ⟨e | u, b₂, d₂⟩
      · rw [FileNode.tableOffset, FileNode.tableLength, ran] at decides
        refine decides_error rfl (fun may => decides.1 ?_) decides.2
        exact (parts.1 ⟨may.1, may.2.1⟩).1
      · rw [FileNode.tableOffset, FileNode.tableLength, ran] at decides
        have stack := decides_loadStack arguments decides.2
        dsimp only
        rw [run_bind]
        rcases ended : (loadStack arguments).run b₂ d₂ with ⟨e | start, b₃, d₃⟩
        · rw [ended] at stack
          refine decides_error rfl (fun may => stack.1 ?_) fun reason => (stack.2 reason).elim
          obtain ⟨-, room, stackFree⟩ := parts.1 ⟨may.1, may.2.1⟩
          exact ⟨room, may.2.2, stackFree⟩
        · rw [ended] at stack
          obtain ⟨room, fit, stackFree⟩ := stack.1
          obtain ⟨wellFormed, frames⟩ := parts.2 ⟨decides.1, room, stackFree⟩
          exact ⟨⟨wellFormed, frames, fit⟩, trivial⟩

/-- A handle without a file is refused: not even a file header can be read. -/
theorem loadImage_of_node?_eq_none {arguments : List String} (absent : d.volume.node? file = none) :
    ((loadImage file arguments).run b d).1 = .error (.badHeader .tooSmall) := by
  rw [loadImage, run_bind, run_ask, run_bind, run_ask]
  have nothing : ((DeviceRequest.read file fileHeaderSize).serve (newSpace.serve b d).2.1
      (newSpace.serve b d).2.2).1 = [] := Volume.read_of_node?_eq_none absent _
  rw [nothing]
  rfl

/-- An open executable is loaded exactly if its image is. -/
theorem load_opened (b : Belongings) (rest : List String) {name : String} {volume : Volume}
    (opened : d.volume.openFile? name = some (file, volume)) : ∃ b₁ d₁,
    d₁.volume = volume.deny file ∧ d₁.pool = d.pool ∧
      ((load (name :: rest)).run b d).1.map (fun p => (p.entry, p.stack)) =
        ((loadImage file (name :: rest)).run b₁ d₁).1 := by
  obtain ⟨b₁, d₁, done, volume₁, pool₁⟩ : ∃ b₁ d₁, (openFile name).serve b d = (some file, b₁, d₁) ∧
      d₁.volume = volume ∧ d₁.pool = d.pool := by
    simp only [serve, opened]
    exact ⟨_, _, rfl, rfl, rfl⟩
  refine ⟨b₁, ((deny file).serve b₁ d₁).2.2, congrArg (Volume.deny · file) volume₁, pool₁, ?_⟩
  rw [load, run_bind, run_ask, done]
  dsimp only
  rw [run_bind, run_ask, run_bind]
  rcases ran : (loadImage file (name :: rest)).run b₁ ((deny file).serve b₁ d₁).2.2 with
    ⟨e | ⟨entry, stack⟩, b₂, d₂⟩
  · have same : ((deny file).serve b₁ d₁).2.1 = b₁ := rfl
    rw [same, ran]
    dsimp only
    rw [run_bind, run_bind, run_bind, run_bind]
    rfl
  · have same : ((deny file).serve b₁ d₁).2.1 = b₁ := rfl
    rw [same, ran]
    rfl

end Loader

/-- A program is loaded exactly if its name opens a well-formed executable, there are frames for its
    pages and one more for the stack, and the arguments fit the stack page. If the reason why it is not
    loaded is that a program header lies outside of the file, then the whole table lies past its end; it
    is never that a position overflows. -/
theorem loads_iff {name : String} {rest : List String} {b : Belongings} {d : Devices}
    (honest : ∀ f, d.volume.file? name = some f → f.Honest) :
    (((Loader.load (name :: rest)).run b d).1.isOk = true ↔
      ∃ f, d.volume.file? name = some f ∧ f.WellFormed ∧ f.pageCount + 1 ≤ d.pool.freeFrames ∧
        InitialStack.Fits (name :: rest)) ∧
    (((Loader.load (name :: rest)).run b d).1 = .error (.badSegment .invalidPhoff) →
      ∃ f, d.volume.file? name = some f ∧ f.size < f.tableOffset) := by
  cases opened : d.volume.openFile? name with
  | none =>
    have unnamed : d.volume.file? name = none := by
      rw [Volume.file?, Option.map_eq_none_iff.1 opened]
      rfl
    obtain ⟨d₁, refused⟩ := Loader.serve_openFile_none (b := b) opened
    rw [Loader.load, Routine.run_bind, Routine.run_ask, refused]
    refine ⟨⟨by rintro ⟨⟩, ?_⟩, by simp⟩
    rintro ⟨f, named, -⟩
    rw [unnamed] at named
    cases named
  | some result =>
    obtain ⟨file, volume⟩ := result
    obtain ⟨b₁, d₁, volume₁, pool₁, same⟩ := Loader.load_opened b rest opened
    have sameOk : ((Loader.load (name :: rest)).run b d).1.isOk =
        ((Loader.loadImage file (name :: rest)).run b₁ d₁).1.isOk := by
      rw [← same]
      cases ((Loader.load (name :: rest)).run b d).1 <;> rfl
    rw [sameOk]
    cases named : d.volume.file? name with
    | none =>
      have absent : d₁.volume.node? file = none :=
        volume₁ ▸ Volume.node?_deny (Volume.node?_openFile? opened named)
      rw [Loader.loadImage_of_node?_eq_none absent] at same ⊢
      refine ⟨⟨by rintro ⟨⟩, ?_⟩, fun failed => ?_⟩
      · rintro ⟨_, other, -⟩
        cases other
      · rw [failed] at same
        cases same
    | some f =>
      have reads : d₁.volume.Reads file f 0 :=
        volume₁ ▸ (Volume.reads_openFile? opened named).deny
      have length : d₁.volume.length file = f.length := by
        rw [volume₁, Volume.length_deny, Volume.length_openFile? opened named]
      have decides := Loader.decides_loadImage b₁ (name :: rest) (honest f named) reads length
      rw [pool₁] at decides
      refine ⟨decides.isOk_iff.trans ⟨fun may => ⟨f, rfl, may⟩, ?_⟩, fun failed => ⟨f, rfl, ?_⟩⟩
      · rintro ⟨g, other, may⟩
        cases other
        exact may
      · rw [failed] at same
        exact decides.of_invalidPhoff same.symm

theorem loads_iff_layered : (∀ f, layeredDevices.volume.file? "layered" = some f → f.Honest) ∧
    layeredFile.WellFormed ∧ layeredFile.pageCount + 1 ≤ layeredDevices.pool.freeFrames ∧
      InitialStack.Fits ["layered", "-v"] := by
  have honest : ∀ f, layeredDevices.volume.file? "layered" = some f → f.Honest := by
    rintro f named
    cases (named : some layeredFile = some f)
    exact ⟨rfl, by decide +kernel⟩
  have works : ((Loader.load ["layered", "-v"]).run (.fresh 1) layeredDevices).1.isOk = true := by
    decide +kernel
  obtain ⟨f, named, wellFormed, room⟩ := (loads_iff honest).1.1 works
  cases (named : some layeredFile = some f)
  exact ⟨honest, wellFormed, room⟩

end Userland

import Userland.Proofs.Placement

/-!
# What is written is what is loaded

The writer of executables and the loader agree on the format of the file. A list of segments that have
their pages to themselves (`ExecutableImage.Sound`) is written to a file that the loader accepts
(`ExecutableImage.Sound.wellFormed`), and a program that is loaded from it shows each segment as it was given
(`AddressSpace.ShowsSource`): its data at its address, zeros in the rest of its pages, and the permission
that was asked for (`loads_built`).
-/

namespace Userland

/-! ## What may be written -/

namespace SegmentSource

/-- Page number `n` has a byte of the segment. -/
def HasPage (s : SegmentSource) (n : Nat) : Prop :=
  s.address.toNat < (n + 1) * pageSize ∧ n * pageSize < s.address.toNat + s.memorySize.toNat

/-- How many pages have one. -/
def pageCount (s : SegmentSource) : Nat := pageUp (s.address.toNat % pageSize + s.memorySize.toNat) / pageSize

/-- The address lies in one of these pages. -/
def Covers (s : SegmentSource) (a : VirtAddr) : Prop := s.HasPage (a.toNat / pageSize)

/-- The segment has memory for its data, between page 0 and the kernel. -/
structure Placeable (s : SegmentSource) : Prop where
  above : pageSize ≤ s.address.toNat
  some : 0 < s.memorySize.toNat
  fits : s.data.length ≤ s.memorySize.toNat
  user : s.address.toNat + s.memorySize.toNat < userTop

/-- A segment that can be loaded, or a header that asks neither for memory nor for a dynamic linker. -/
inductive Allowed : SegmentSource → Prop
  | loadable {address : UInt32} {data : Bytes} {memorySize : UInt32} {writable : Bool}
      (placeable : (SegmentSource.loadable address data memorySize writable).Placeable) :
      Allowed (.loadable address data memorySize writable)
  | bare {kind address : UInt32} (plain : kind ≠ 1 ∧ kind ≠ 2 ∧ kind ≠ 3 ∧ kind ≠ 5) : Allowed (.bare kind address)

variable {s : SegmentSource}

theorem needsLinker_ofNumber {n : UInt32} (linked : (SegmentKind.ofNumber n).needsLinker = true) :
    n = 2 ∨ n = 3 ∨ n = 5 := by
  unfold SegmentKind.ofNumber at linked
  repeat' split at linked
  all_goals simp_all [SegmentKind.needsLinker]

theorem Allowed.placeable (allowed : s.Allowed) (kind : s.kind = 1) : s.Placeable := by
  cases allowed with
  | loadable placeable => exact placeable
  | bare plain => exact absurd kind plain.1

theorem Allowed.unlinked (allowed : s.Allowed) : (SegmentKind.ofNumber s.kind).needsLinker = false := by
  cases allowed with
  | loadable => rfl
  | bare plain =>
    obtain ⟨-, dynamic, interp, shlib⟩ := plain
    refine Bool.eq_false_iff.2 fun linked => ?_
    rcases needsLinker_ofNumber linked with same | same | same
    · exact dynamic same
    · exact interp same
    · exact shlib same

/-- The length of its data fits a word. -/
theorem Allowed.length_lt (allowed : s.Allowed) : s.data.length < wordLimit := by
  cases allowed with
  | loadable placeable => exact Nat.lt_of_le_of_lt placeable.fits (UInt32.toNat_lt _)
  | bare => exact Nat.zero_lt_succ _

end SegmentSource

namespace ExecutableImage

/-- The segments that are to be loaded. -/
def pieces (x : ExecutableImage) : List SegmentSource := x.segments.filter (·.kind = 1)

/-- How many pages they have. -/
def pageCount (x : ExecutableImage) : Nat := (x.pieces.map (·.pageCount)).sum

/-- Segments that can be written to one file and loaded side by side. -/
structure Sound (x : ExecutableImage) : Prop where
  /-- There are not too many. -/
  few : x.segments.length ≤ maxSegments
  /-- Each of them can be dealt with. -/
  allowed : ∀ s ∈ x.segments, s.Allowed
  /-- No two that are to be loaded share a page. -/
  apart : x.pieces.Pairwise fun s t => ∀ n, ¬ (s.HasPage n ∧ t.HasPage n)
  /-- None of them has the stack page. -/
  stackFree : ∀ s ∈ x.pieces, ¬ s.HasPage (stackBase / pageSize)
  /-- The file is shorter than 4 GiB. -/
  short : x.build.length < wordLimit

end ExecutableImage

/-- A file that consists of given bytes. -/
structure FileNode.Has (f : FileNode) (bs : Bytes) : Prop where
  honest : f.Honest
  size : f.size = bs.length
  bytes : f.contents.HasBytes 0 bs

/-! ## What the loader finds in the file -/

namespace PlacedSegment

variable {p : PlacedSegment} {file : Bytes} {f : FileNode} {a : VirtAddr} {n : Nat}

theorem hasPage_segmentHeader : p.segmentHeader.HasPage n ↔ p.source.HasPage n := by
  simp only [SegmentHeader.HasPage, SegmentHeader.firstPage, SegmentHeader.endPage, SegmentSource.HasPage,
    segmentHeader, pageSize]
  omega

theorem covers_segmentHeader : p.segmentHeader.Covers a ↔ p.source.Covers a :=
  SegmentHeader.covers_iff.trans hasPage_segmentHeader

theorem pageCount_segmentHeader (p : PlacedSegment) : p.segmentHeader.pageCount = p.source.pageCount := by
  simp only [SegmentHeader.pageCount, SegmentHeader.firstPage, SegmentHeader.endPage, SegmentSource.pageCount,
    segmentHeader, pageUp, pageSize]
  omega

theorem kind_segmentHeader : p.segmentHeader.kind = .load ↔ p.source.kind = 1 := by
  simp only [segmentHeader, SegmentKind.ofNumber]
  refine ⟨fun load => ?_, fun one => by rw [one]; rfl⟩
  by_contra other
  simp only [other, if_false] at load
  repeat' split at load
  all_goals cases load

theorem toNat_offset (lies : p.Lies file) (short : file.length < wordLimit) :
    p.segmentHeader.offset.toNat = p.offset := by
  rw [segmentHeader, UInt32.toNat_ofNat']
  exact Nat.mod_eq_of_lt (Nat.lt_of_le_of_lt lies.starts short)

theorem toNat_fileSize (allowed : p.source.Allowed) :
    p.segmentHeader.fileSize.toNat = p.source.data.length := by
  rw [segmentHeader, UInt32.toNat_ofNat']
  exact Nat.mod_eq_of_lt allowed.length_lt

theorem loadable_segmentHeader (lies : p.Lies file) (short : file.length < wordLimit)
    (allowed : p.source.Allowed) (kind : p.source.kind = 1) : p.segmentHeader.Loadable file.length := by
  obtain ⟨above, some, fits, user⟩ := allowed.placeable kind
  have offset := toNat_offset lies short
  have fileSize := toNat_fileSize allowed
  refine ⟨?_, ?_, ?_, some, above, user, fun data => ?_⟩
  · rw [offset]
    exact lies.aligned
  · rw [offset]
    exact lies.starts
  · rwa [fileSize]
  · rw [fileSize] at data ⊢
    rw [offset]
    exact lies.inFile (List.ne_nil_of_length_pos data)

/-- What the header prescribes for the pages of the segment is its data, with zeros around it. -/
theorem byteAt_segmentHeader (lies : p.Lies file) (has : f.Has file) (short : file.length < wordLimit)
    (allowed : p.source.Allowed) (covers : p.source.Covers a) : p.segmentHeader.byteAt f a =
      if p.source.address.toNat ≤ a.toNat then (p.source.data[a.toNat - p.source.address.toNat]?).getD 0
      else 0 := by
  have page : pageDown p.source.address.toNat ≤ a.toNat := (covers_segmentHeader.2 covers).1
  have place : pageDown p.source.address.toNat + p.source.address.toNat % pageSize = p.source.address.toNat :=
    Nat.div_add_mod' ..
  have same : p.segmentHeader.address = p.source.address := rfl
  simp only [SegmentHeader.byteAt, same, toNat_fileSize allowed, toNat_offset lies short]
  split
  · -- The byte comes from the file, from the zeros before the data or from the data.
    rename_i inside
    obtain ⟨before, after, length, split⟩ := lies.data (List.ne_nil_of_length_pos inside.1)
    have found := (split ▸ has.bytes).right.left
    rw [length, Nat.zero_add, lies.aligned] at found
    refine found _ _ ?_
    split
    · rename_i from_address
      have there : a.toNat - pageDown p.source.address.toNat - p.source.address.toNat % pageSize =
          a.toNat - p.source.address.toNat := by omega
      have lt : a.toNat - p.source.address.toNat < p.source.data.length := by omega
      rw [List.getElem?_append_right (by simp only [Bytes.zeros, List.length_replicate]; omega), Bytes.zeros,
        List.length_replicate, there, List.getElem?_eq_getElem lt, Option.getD_some]
    · rw [List.getElem?_append_left (by simp only [Bytes.zeros, List.length_replicate]; omega), Bytes.zeros,
        List.getElem?_replicate_of_lt (by omega)]
  · rename_i outside
    split
    · rw [List.getElem?_eq_none (by omega), Option.getD_none]
    · rfl

end PlacedSegment

namespace ExecutableImage

open PlacedSegment

variable {x : ExecutableImage} {f : FileNode} {p : PlacedSegment} {s : SegmentSource}

theorem mem_segments (mem : p ∈ x.placed) : p.source ∈ x.segments :=
  x.map_source_placed ▸ List.mem_map_of_mem mem

/-- The places of the segments that are to be loaded. -/
def placedPieces (x : ExecutableImage) : List PlacedSegment := x.placed.filter (·.source.kind = 1)

theorem map_source_placedPieces (x : ExecutableImage) : x.placedPieces.map (·.source) = x.pieces := by
  rw [pieces, ← x.map_source_placed, List.filter_map]
  rfl

theorem headerBytes (has : f.Has x.build) : f.headerBytes = x.fileHeader := by
  obtain ⟨more, split⟩ := x.headers_prefix
  have front : f.contents.HasBytes 0 (x.headers ++ more) := split ▸ has.bytes
  rw [FileNode.headerBytes, ← x.length_fileHeader]
  exact front.left.left.read

theorem programHeaders (has : f.Has x.build) (few : x.segments.length ≤ maxSegments) :
    f.programHeaders = x.placed.map segmentHeader := by
  obtain ⟨more, split⟩ := x.headers_prefix
  have front : f.contents.HasBytes 0 (x.headers ++ more) := split ▸ has.bytes
  have table := front.left.right
  rw [x.length_fileHeader, Nat.zero_add] at table
  have offset : f.tableOffset = fileHeaderSize := by
    rw [FileNode.tableOffset, headerBytes has]
    rfl
  have length : f.tableLength = x.placed.length := by
    rw [FileNode.tableLength, headerBytes has, length_placed]
    exact word16At_fileHeader few
  rw [FileNode.programHeaders, offset, length]
  exact Loader.segmentHeaders_of_hasBytes table

theorem segments_eq (has : f.Has x.build) (few : x.segments.length ≤ maxSegments) :
    f.segments = x.placedPieces.map segmentHeader := by
  rw [FileNode.segments, Loader.loadable, programHeaders has few, List.filter_map, placedPieces]
  refine congrArg (List.map _) (List.filter_congr fun p _ => ?_)
  simp only [Function.comp_apply, kind_segmentHeader]

theorem pageCount_eq (has : f.Has x.build) (few : x.segments.length ≤ maxSegments) :
    f.pageCount = x.pageCount := by
  rw [FileNode.pageCount, segments_eq has few, pageCount, ← map_source_placedPieces, List.map_map, List.map_map]
  exact congrArg List.sum (List.map_congr_left fun p _ => pageCount_segmentHeader p)

/-- What holds of the segments that are to be loaded holds of what the loader finds. -/
theorem forall_segments {P : SegmentHeader → Prop} (has : f.Has x.build) (few : x.segments.length ≤ maxSegments)
    (all : ∀ p ∈ x.placed, p.source.kind = 1 → P p.segmentHeader) : ∀ h ∈ f.segments, P h := by
  rw [segments_eq has few]
  refine List.forall_mem_map.2 fun p mem => ?_
  obtain ⟨mem, kind⟩ := List.mem_filter.1 mem
  exact all p mem (of_decide_eq_true kind)

/-- A file that is written can be loaded. -/
theorem Sound.wellFormed (sound : x.Sound) (has : f.Has x.build) : f.WellFormed := by
  have headers := programHeaders has sound.few
  have start := headerBytes has
  have room : x.headersEnd ≤ f.size := by
    rw [has.size, ← x.length_headers]
    exact x.headers_prefix.length_le
  have length : f.tableLength = x.segments.length := by
    rw [FileNode.tableLength, start]
    exact word16At_fileHeader sound.few
  have offset : f.tableOffset = fileHeaderSize := by
    rw [FileNode.tableOffset, start]
    rfl
  have pages {p : PlacedSegment} {q : PlacedSegment} : p.segmentHeader.Apart q.segmentHeader ↔
      ∀ n, ¬ (p.source.HasPage n ∧ q.source.HasPage n) := by
    simp only [SegmentHeader.Apart, hasPage_segmentHeader]
  constructor
  case long => exact Nat.le_trans (Nat.le_add_right ..) room
  case magic =>
    rw [start]
    rfl
  case machine =>
    rw [start]
    rfl
  case entrySize =>
    rw [start]
    rfl
  case few => exact length ▸ sound.few
  case table =>
    intro i lt
    rw [offset]
    refine Nat.le_trans (Nat.add_le_add_left (Nat.mul_le_mul_left _ ?_) _) room
    exact length ▸ lt
  case unlinked =>
    rw [headers]
    refine List.forall_mem_map.2 fun p mem => Loader.needsLinker_eq_false.1 ?_
    exact (sound.allowed _ (mem_segments mem)).unlinked
  case loadable =>
    rw [has.size]
    exact forall_segments has sound.few fun p mem kind =>
      loadable_segmentHeader (lies_build mem) sound.short (sound.allowed _ (mem_segments mem)) kind
  case apart =>
    rw [segments_eq has sound.few, List.pairwise_map]
    simp only [pages]
    exact List.pairwise_map.1 (x.map_source_placedPieces ▸ sound.apart)
  case stackFree =>
    refine forall_segments has sound.few fun p mem kind page => ?_
    refine sound.stackFree p.source ?_ (hasPage_segmentHeader.1 page)
    exact List.mem_filter.2 ⟨mem_segments mem, decide_eq_true kind⟩

end ExecutableImage

/-! ## Loading it -/

namespace Loader

variable {name : String} {rest : List String} {b : Belongings} {d : Devices} {f : FileNode}

/-- A well-formed file is loaded if there are frames, and room for the arguments. -/
theorem isOk_load (b : Belongings) (named : d.volume.file? name = some f) (honest : f.Honest)
    (wellFormed : f.WellFormed) (frames : f.pageCount + 1 ≤ d.pool.freeFrames)
    (fits : InitialStack.Fits (name :: rest)) : ((load (name :: rest)).run b d).1.isOk = true := by
  obtain ⟨file, volume, opened⟩ : ∃ file volume, d.volume.openFile? name = some (file, volume) := by
    obtain ⟨i, found, -⟩ := Option.bind_eq_some_iff.1 named
    rw [Volume.openFile?, found]
    exact ⟨_, _, rfl⟩
  obtain ⟨b₁, d₁, volume₁, pool₁, same⟩ := load_opened b rest opened
  have reads : d₁.volume.Reads file f 0 := volume₁ ▸ (Volume.reads_openFile? opened named).deny
  have length : d₁.volume.length file = f.length := by
    rw [volume₁, Volume.length_deny, Volume.length_openFile? opened named]
  have decides := decides_loadImage b₁ (name :: rest) honest reads length
  have ok := decides.isOk_iff.2 ⟨wellFormed, pool₁ ▸ frames, fits⟩
  rw [← same] at ok
  cases result : ((load (name :: rest)).run b d).1 with
  | ok p => rfl
  | error e =>
    rw [result] at ok
    cases ok

end Loader

/-- What user memory shows is the segments of an executable as they were given, and a stack page. -/
structure AddressSpace.ShowsSource (s : AddressSpace) (pool : FramePool) (x : ExecutableImage) : Prop where
  /-- The pages of the segments and the stack page are mapped, and no others. -/
  mapped : ∀ a, (s.translate a).isSome = true ↔ (∃ g ∈ x.pieces, g.Covers a) ∨ a.page = stackPage
  /-- The data of a segment is at its address. -/
  data : ∀ g ∈ x.pieces, ∀ (i : Nat) (byte : UInt8), g.data[i]? = some byte →
    ∀ a : VirtAddr, a.toNat = g.address.toNat + i → s.byte? pool a = some byte
  /-- All other bytes in its pages are zero, before its data and after it. -/
  zero : ∀ g ∈ x.pieces, ∀ a, g.Covers a →
    ¬ (g.address.toNat ≤ a.toNat ∧ a.toNat < g.address.toNat + g.data.length) → s.byte? pool a = some 0
  /-- A segment is writable if that was asked for. -/
  writable : ∀ address data memorySize writable,
    SegmentSource.loadable address data memorySize writable ∈ x.segments →
    ∀ a, (SegmentSource.loadable address data memorySize writable).Covers a →
      (s.translate a).map (·.flags.writable) = some writable

namespace ExecutableImage

open PlacedSegment

variable {x : ExecutableImage} {f : FileNode} {s : AddressSpace} {pool : FramePool} {stack : Page}

/-- The image that the headers of a written file prescribe is that of its segments. -/
theorem Sound.showsSource (sound : x.Sound) (has : f.Has x.build) (image : s.IsImage pool f f.segments stack) :
    s.ShowsSource pool x := by
  -- What is left of a segment that is to be loaded is found in its program header.
  have found {g : SegmentSource} (mem : g ∈ x.pieces) : ∃ p ∈ x.placed, p.source = g ∧
      p.segmentHeader ∈ f.segments := by
    rw [← x.map_source_placedPieces] at mem
    obtain ⟨p, piece, rfl⟩ := List.mem_map.1 mem
    exact ⟨p, (List.mem_filter.1 piece).1, rfl, segments_eq has sound.few ▸ List.mem_map_of_mem piece⟩
  have byte {g : SegmentSource} (mem : g ∈ x.pieces) {a : VirtAddr} (covers : g.Covers a) : s.byte? pool a =
      some (if g.address.toNat ≤ a.toNat then (g.data[a.toNat - g.address.toNat]?).getD 0 else 0) := by
    obtain ⟨p, placed, rfl, header⟩ := found mem
    rw [image.byte _ header a (covers_segmentHeader.2 covers), byteAt_segmentHeader (lies_build placed) has
      sound.short (sound.allowed _ (mem_segments placed)) covers]
  constructor
  case mapped =>
    intro a
    rw [image.mapped, segments_eq has sound.few, ← x.map_source_placedPieces]
    simp only [List.mem_map, exists_exists_and_eq_and, covers_segmentHeader]
  case data =>
    intro g mem i b there a place
    have lt := (List.getElem?_eq_some_iff.1 there).1
    obtain ⟨listed, kind⟩ := List.mem_filter.1 mem
    have fits := ((sound.allowed g listed).placeable (of_decide_eq_true kind)).fits
    have covers : g.Covers a := by
      simp only [SegmentSource.Covers, SegmentSource.HasPage, pageSize]
      omega
    rw [byte mem covers, if_pos (by omega), place, Nat.add_sub_cancel_left, there, Option.getD_some]
  case zero =>
    intro g mem a covers outside
    rw [byte mem covers]
    split
    · rw [List.getElem?_eq_none (by omega), Option.getD_none]
    · rfl
  case writable =>
    intro address data memorySize writable listed a covers
    have mem : SegmentSource.loadable address data memorySize writable ∈ x.pieces :=
      List.mem_filter.2 ⟨listed, rfl⟩
    obtain ⟨p, placed, same, header⟩ := found mem
    have permission : p.segmentHeader.writable = writable := by
      rw [SegmentHeader.writable, segmentHeader, same]
      change decide (((if writable then (6 : UInt32) else 5) % 8).toNat / 2 % 2 = 1) = writable
      cases writable <;> decide
    rw [image.writable _ header a (covers_segmentHeader.2 (same ▸ covers)), permission]

end ExecutableImage

/-- Segments that are written to a file are loaded from it as they were, if there are frames for their pages
    and one more for the stack, and the arguments fit the stack page. -/
theorem loads_built {x : ExecutableImage} {name : String} {rest : List String} {b : Belongings} {d : Devices}
    {f : FileNode} (sound : x.Sound) (has : f.Has x.build) (named : d.volume.file? name = some f)
    (frames : x.pageCount + 1 ≤ d.pool.freeFrames) (fits : InitialStack.Fits (name :: rest)) :
    ∃ p b' d' s, (Loader.load (name :: rest)).run b d = (.ok p, b', d') ∧ p.entry = .ofWord x.entry ∧
      b'.hands.space = some s ∧ s.ShowsSource d'.pool x := by
  have ok := Loader.isOk_load b named has.honest (sound.wellFormed has)
    (x.pageCount_eq has sound.few ▸ frames) fits
  rcases ran : (Loader.load (name :: rest)).run b d with ⟨e | p, b', d'⟩
  · rw [ran] at ok
    cases ok
  obtain ⟨s, header, stack, view, inHand, leaves⟩ :=
    Loader.leaves_load named has.honest.finite has.honest.size_lt ran
  have parsed := leaves.parsed
  have start : f.contents.read 0 fileHeaderSize = x.fileHeader := x.headerBytes has
  rw [start, x.parse_fileHeader sound.few] at parsed
  cases parsed
  have segments : f.segments = Loader.loadable (Loader.segmentHeaders f (UInt32.ofNat fileHeaderSize).toNat
      (x.fileHeader.word16At 44).toNat) := by
    rw [FileNode.segments, FileNode.programHeaders, FileNode.tableOffset, FileNode.tableLength, x.headerBytes has]
    rfl
  exact ⟨p, b', d', s, rfl, leaves.entry, inHand, sound.showsSource has (segments ▸ leaves.isImage)⟩

/-- A read-only segment in the middle of a page, a header of another kind, and a writable segment without
    data. -/
def patchwork : ExecutableImage := ⟨0x08048123,
  [.loadable 0x08048123 [1, 2, 3] 5 false, .bare 4 0, .loadable 0x0804A010 [] 16 true]⟩

/-- Its file. -/
def patchworkFile : FileNode :=
  .ofContents "patchwork" (.ofExtents [.ofBytes 0 patchwork.build]) patchwork.build.length

/-- Devices with this file and three frames. -/
def patchworkDevices : Devices := .fresh ((Volume.empty .bounded).add patchworkFile) (.ofFrames 3) []

theorem loads_built_patchwork : patchwork.Sound ∧ patchworkFile.Has patchwork.build ∧
    patchworkDevices.volume.file? "patchwork" = some patchworkFile ∧
    patchwork.pageCount + 1 ≤ patchworkDevices.pool.freeFrames ∧ InitialStack.Fits ["patchwork"] ∧
    ∃ p b' d' s, (Loader.load ["patchwork"]).run (.fresh 1) patchworkDevices = (.ok p, b', d') ∧
      p.entry = .ofWord patchwork.entry ∧ b'.hands.space = some s ∧ s.ShowsSource d'.pool patchwork := by
  have length : patchwork.build.length = 4390 := by decide +kernel
  have sound : patchwork.Sound := by
    constructor
    case few => decide
    case allowed =>
      have first : (SegmentSource.loadable 0x08048123 [1, 2, 3] 5 false).Allowed :=
        .loadable ⟨by decide, by decide, by decide, by decide⟩
      have second : (SegmentSource.loadable 0x0804A010 [] 16 true).Allowed :=
        .loadable ⟨by decide, by decide, by decide, by decide⟩
      simpa [patchwork] using ⟨first, .bare (by decide), second⟩
    case apart =>
      refine List.pairwise_pair.2 fun n both => ?_
      obtain ⟨⟨-, low⟩, high, -⟩ := both
      change n * 4096 < 0x08048128 at low
      change 0x0804A010 < (n + 1) * 4096 at high
      omega
    case stackFree =>
      have pieces : patchwork.pieces = [.loadable 0x08048123 [1, 2, 3] 5 false, .loadable 0x0804A010 [] 16 true] :=
        rfl
      simp [pieces, SegmentSource.loadable, SegmentSource.HasPage, stackBase, userTop, pageSize]
    case short =>
      rw [length]
      decide
  have has : patchworkFile.Has patchwork.build := by
    refine ⟨⟨rfl, ?_⟩, rfl, Contents.hasBytes_ofExtents _⟩
    change (UInt32.ofNat patchwork.build.length).toNat = patchwork.build.length
    rw [length]
    rfl
  have frames : patchwork.pageCount + 1 ≤ patchworkDevices.pool.freeFrames := by decide +kernel
  have fits : InitialStack.Fits ["patchwork"] := by
    unfold InitialStack.Fits
    decide +kernel
  exact ⟨sound, has, rfl, frames, fits, loads_built sound has rfl frames fits⟩

end Userland

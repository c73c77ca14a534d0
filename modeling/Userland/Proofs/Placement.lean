import Userland.Proofs.Acceptance

/-!
# Where a written executable has its parts

The file that `ExecutableImage.build` writes starts with the file header and the program headers, and each
reads back as it was written (`FileHeader.parse_fileHeader`, `Loader.segmentHeaders_of_hasBytes`). The data
of a segment comes after them, at the place of its page that its address has, with nothing but zeros before
it on that page (`PlacedSegment.Lies`, `ExecutableImage.lies_build`). Segment by segment, the file only grows
at its end, and the cursor stays on a page boundary that is not below that end.
-/

namespace Userland

/-! ## Words in byte strings -/

namespace Bytes

variable {bs : Bytes} {k : Nat}

theorem wordAt_of_eq {w : UInt32} (before after : Bytes) (split : bs = before ++ (ofWord w ++ after))
    (length : before.length = k) : bs.wordAt k = w := by
  have whole : (ofWord w ++ after).take 4 = (ofWord w).take 4 := by
    rw [List.take_append_of_le_length (by simp [ofWord])]
  rw [wordAt, split, List.drop_left' length, word, whole]
  exact word_ofWord w

theorem value_ofWord16 (w : UInt16) : UInt16.ofNat (value (ofWord16 w)) = w := by
  have small : w.toNat % count 2 = w.toNat := Nat.mod_eq_of_lt w.toNat_lt
  rw [ofWord16, value_ofNat, small]
  exact UInt16.ofNat_toNat

/-- Words that are written one after the other are found four bytes apart. -/
theorem wordAt_flatMap (ws : List UInt32) (i : Nat) {w : UInt32} (found : ws[i]? = some w) :
    wordAt (ws.flatMap ofWord) (4 * i) = w := by
  obtain ⟨lt, rfl⟩ := List.getElem?_eq_some_iff.1 found
  refine wordAt_of_eq ((ws.take i).flatMap ofWord) ((ws.drop (i + 1)).flatMap ofWord) ?_ ?_
  · rw [← List.flatMap_cons, ← List.flatMap_append, List.getElem_cons_drop, List.take_append_drop]
  · simp only [List.length_flatMap, ofWord, length_ofNat, List.map_const', List.sum_replicate_nat,
      List.length_take]
    omega

end Bytes

/-! ## Bytes in a file -/

namespace Contents

variable {c : Contents} {bs cs : Bytes} {start : Nat}

/-- The bytes `bs` are there from a position on. -/
def HasBytes (c : Contents) (start : Nat) (bs : Bytes) : Prop :=
  ∀ (i : Nat) (byte : UInt8), bs[i]? = some byte → c.get (start + i) = byte

theorem HasBytes.left (has : c.HasBytes start (bs ++ cs)) : c.HasBytes start bs := fun i byte found =>
  have lt := (List.getElem?_eq_some_iff.1 found).1
  has i byte ((List.getElem?_append_left lt).trans found)

theorem HasBytes.right (has : c.HasBytes start (bs ++ cs)) : c.HasBytes (start + bs.length) cs :=
  fun i byte found => by
    have there := has (bs.length + i) byte
      ((List.getElem?_append_right (Nat.le_add_right ..)).trans (by rwa [Nat.add_sub_cancel_left]))
    rwa [← Nat.add_assoc] at there

theorem HasBytes.read (has : c.HasBytes start bs) : c.read start bs.length = bs := by
  refine List.ext_getElem? fun i => ?_
  rw [getElem?_read]
  split
  · rename_i lt
    rw [List.getElem?_eq_getElem lt, has i _ (List.getElem?_eq_getElem lt)]
  · rename_i beyond
    exact (List.getElem?_eq_none (Nat.le_of_not_lt beyond)).symm

/-- A file that is made of given bytes has them. -/
theorem hasBytes_ofExtents (bs : Bytes) : (Contents.ofExtents [.ofBytes 0 bs]).HasBytes 0 bs :=
  fun i byte found => by
    obtain ⟨lt, rfl⟩ := List.getElem?_eq_some_iff.1 found
    simp [ofExtents, get, Extent.covers, Extent.ofBytes, lt]

end Contents

/-! ## Headers -/

namespace PlacedSegment

variable {p : PlacedSegment}

/-- The program header as a loader reads it. -/
def segmentHeader (p : PlacedSegment) : SegmentHeader where
  kind := .ofNumber p.source.kind
  offset := UInt32.ofNat p.offset
  address := p.source.address
  fileSize := UInt32.ofNat p.source.data.length
  memorySize := p.source.memorySize
  permissions := p.source.permissions % 8

@[simp] theorem length_header (p : PlacedSegment) : p.header.length = segmentHeaderSize := by
  simp [header, Bytes.ofWord]

theorem parse_header (p : PlacedSegment) : SegmentHeader.parse p.header = .ok p.segmentHeader := by
  rw [SegmentHeader.parse, length_header, if_neg (Nat.lt_irrefl _), header]
  have word := fun i w => Bytes.wordAt_flatMap [p.source.kind, UInt32.ofNat p.offset, p.source.address,
    p.source.address, UInt32.ofNat p.source.data.length, p.source.memorySize, p.source.permissions,
    UInt32.ofNat pageSize] i (w := w)
  rw [word 0 _ rfl, word 1 _ rfl, word 2 _ rfl, word 4 _ rfl, word 5 _ rfl, word 6 _ rfl]
  rfl

end PlacedSegment

/-- Program headers that are written one after the other read back one after the other. -/
theorem Loader.segmentHeaders_of_hasBytes {f : FileNode} {offset : Nat} {placed : List PlacedSegment}
    (has : f.contents.HasBytes offset (placed.flatMap PlacedSegment.header)) :
    Loader.segmentHeaders f offset placed.length = placed.map PlacedSegment.segmentHeader := by
  induction placed generalizing offset with
  | nil => rfl
  | cons p rest ih =>
    rw [List.flatMap_cons] at has
    have first := has.left.read
    have others := has.right
    rw [PlacedSegment.length_header] at first others
    rw [List.length_cons, segmentHeaders, first, PlacedSegment.parse_header]
    exact congrArg (p.segmentHeader :: ·) (ih others)

namespace ExecutableImage

variable {x : ExecutableImage}

@[simp] theorem length_fileHeader (x : ExecutableImage) : x.fileHeader.length = fileHeaderSize := by
  simp [fileHeader, executableMagic, Bytes.zeros, Bytes.ofWord, Bytes.ofWord16]

theorem word16At_fileHeader (few : x.segments.length ≤ maxSegments) :
    (x.fileHeader.word16At 44).toNat = x.segments.length := by
  have count : x.fileHeader.word16At 44 = UInt16.ofNat x.segments.length := Bytes.value_ofWord16 _
  rw [count, UInt16.toNat_ofNat']
  exact Nat.mod_eq_of_lt (Nat.lt_of_le_of_lt few (by decide))

/-- The file header reads back. -/
theorem parse_fileHeader (few : x.segments.length ≤ maxSegments) : FileHeader.parse x.fileHeader =
    .ok ⟨x.entry, UInt32.ofNat fileHeaderSize, x.fileHeader.word16At 44⟩ := by
  have entry : x.fileHeader.wordAt 24 = x.entry := Bytes.word_ofWord x.entry
  refine (FileHeader.parse_eq_ok _ x.length_fileHeader).2 ⟨⟨rfl, rfl, rfl, ?_⟩, ?_⟩
  · rwa [word16At_fileHeader few]
  · rw [entry]
    rfl

end ExecutableImage

/-! ## Data -/

theorem pageDown_add {cursor within : Nat} (aligned : cursor % pageSize = 0) (lt : within < pageSize) :
    pageDown (cursor + within) = cursor := by
  simp only [pageDown, pageSize] at *
  omega

theorem pageUp_mod (n : Nat) : pageUp n % pageSize = 0 := Nat.mul_mod_left ..

theorem le_pageUp (n : Nat) : n ≤ pageUp n := by
  simp only [pageUp, pageSize]
  omega

namespace PlacedSegment

variable {p : PlacedSegment} {file : Bytes}

/-- The segment has its place in a file: its data starts where it does in its page in memory, and zeros
    come before it in the page. -/
structure Lies (p : PlacedSegment) (file : Bytes) : Prop where
  aligned : p.offset % pageSize = p.source.address.toNat % pageSize
  starts : p.offset ≤ file.length
  data : p.source.data ≠ [] → ∃ before after, before.length = pageDown p.offset ∧
    file = before ++ ((Bytes.zeros (p.offset % pageSize) ++ p.source.data) ++ after)

/-- It keeps the place when the file grows. -/
theorem Lies.mono {longer : Bytes} (lies : p.Lies file) (grows : file <+: longer) : p.Lies longer := by
  obtain ⟨more, rfl⟩ := grows
  refine ⟨lies.aligned, ?_, fun some => ?_⟩
  · rw [List.length_append]
    exact Nat.le_add_right_of_le lies.starts
  · obtain ⟨before, after, length, split⟩ := lies.data some
    exact ⟨before, after ++ more, length, by simp only [split, List.append_assoc]⟩

theorem Lies.inFile (lies : p.Lies file) (some : p.source.data ≠ []) :
    p.offset + p.source.data.length ≤ file.length := by
  obtain ⟨before, after, length, split⟩ := lies.data some
  have page : p.offset / pageSize * pageSize + p.offset % pageSize = p.offset := Nat.div_add_mod' ..
  rw [split, List.length_append, List.length_append, List.length_append, length, Bytes.zeros,
    List.length_replicate, pageDown]
  omega

theorem prefix_append (file : Bytes) (p : PlacedSegment) : file <+: append file p := by
  rw [append]
  split
  · exact List.prefix_refl _
  · exact ⟨_, (List.append_assoc ..).symm⟩

theorem prefix_foldl (file : Bytes) (placed : List PlacedSegment) : file <+: placed.foldl append file := by
  induction placed generalizing file with
  | nil => exact List.prefix_refl _
  | cons p rest ih => exact (prefix_append file p).trans (ih _)

/-- Data that is put on a free page has its place. -/
theorem lies_append {cursor : Nat} {s : SegmentSource} (some : s.data ≠ []) (free : file.length ≤ cursor)
    (aligned : cursor % pageSize = 0) :
    Lies ⟨s, cursor + s.address.toNat % pageSize⟩
      (append file ⟨s, cursor + s.address.toNat % pageSize⟩) := by
  have lt : s.address.toNat % pageSize < pageSize := Nat.mod_lt _ (by decide)
  have place : (cursor + s.address.toNat % pageSize) % pageSize = s.address.toNat % pageSize := by
    rw [Nat.add_mod, aligned, Nat.zero_add, Nat.mod_mod, Nat.mod_mod]
  have gap : Bytes.zeros (cursor + s.address.toNat % pageSize - file.length) =
      Bytes.zeros (cursor - file.length) ++ Bytes.zeros (s.address.toNat % pageSize) := by
    rw [Bytes.zeros, Bytes.zeros, Bytes.zeros, List.replicate_append_replicate, Nat.sub_add_comm free]
  have whole : append file ⟨s, cursor + s.address.toNat % pageSize⟩ = (file ++ Bytes.zeros (cursor - file.length)) ++
      ((Bytes.zeros (s.address.toNat % pageSize) ++ s.data) ++ []) := by
    rw [append, if_neg (by simpa using some), gap]
    simp only [List.append_assoc, List.append_nil]
  have length : (file ++ Bytes.zeros (cursor - file.length)).length = cursor := by
    rw [List.length_append, Bytes.zeros, List.length_replicate, Nat.add_sub_cancel' free]
  -- From the cursor on there are the gap and the data, and nothing else.
  refine ⟨place, ?_, fun _ => ⟨_, [], ?_, by rw [whole, place]⟩⟩
  · rw [whole, List.length_append, length, List.length_append, List.length_append, Bytes.zeros,
      List.length_replicate]
    exact Nat.add_le_add_left (Nat.le_trans (Nat.le_add_right ..) (Nat.le_add_right ..)) _
  · rw [length, pageDown_add aligned lt]

theorem length_append {cursor : Nat} {s : SegmentSource} (some : s.data ≠ []) (free : file.length ≤ cursor) :
    (append file ⟨s, cursor + s.address.toNat % pageSize⟩).length =
      cursor + s.address.toNat % pageSize + s.data.length := by
  rw [append, if_neg (by simpa using some), List.length_append, List.length_append, Bytes.zeros,
    List.length_replicate]
  dsimp only
  omega

end PlacedSegment

namespace ExecutableImage

open PlacedSegment

variable {x : ExecutableImage} {cursor : Nat} {segments : List SegmentSource}

theorem map_source_place (cursor : Nat) (segments : List SegmentSource) :
    (place cursor segments).map (·.source) = segments := by
  induction segments generalizing cursor with
  | nil => rfl
  | cons s rest ih =>
    rw [place]
    split <;> rw [List.map_cons, ih]

/-- Each segment has its place once all data is added. -/
theorem lies_place {file : Bytes} (free : file.length ≤ cursor) (aligned : cursor % pageSize = 0)
    (page : pageSize ≤ file.length) {p : PlacedSegment} (mem : p ∈ place cursor segments) :
    p.Lies ((place cursor segments).foldl append file) := by
  -- By induction on the segments, with the file as far as it has grown: it never gets past the cursor.
  induction segments generalizing cursor file with
  | nil => cases mem
  | cons s rest ih =>
    rw [place] at mem ⊢
    by_cases none : s.data = []
    · rw [if_pos (by simpa using none)] at mem ⊢
      have same : append file ⟨s, s.address.toNat % pageSize⟩ = file := if_pos (by simpa using none)
      rw [List.foldl_cons, same]
      rcases List.mem_cons.1 mem with rfl | later
      · -- A segment without data stands for the start of the file, which the headers take.
        have lt : s.address.toNat % pageSize < pageSize := Nat.mod_lt _ (by decide)
        exact ⟨Nat.mod_mod .., Nat.le_trans (Nat.le_of_lt lt)
          (Nat.le_trans page (prefix_foldl file _).length_le), fun some => absurd none some⟩
      · exact ih free aligned page later
    · rw [if_neg (by simpa using none)] at mem ⊢
      rw [List.foldl_cons]
      rcases List.mem_cons.1 mem with rfl | later
      · exact (lies_append none free aligned).mono (prefix_foldl ..)
      · have length := length_append none free
        refine ih (length ▸ le_pageUp _) (pageUp_mod _) (Nat.le_trans page ?_) later
        exact (prefix_append ..).length_le

/-- The segments with their places. -/
def placed (x : ExecutableImage) : List PlacedSegment := place (pageUp x.headersEnd) x.segments

theorem map_source_placed (x : ExecutableImage) : x.placed.map (·.source) = x.segments := map_source_place ..

theorem length_placed (x : ExecutableImage) : x.placed.length = x.segments.length := by
  rw [← List.length_map, map_source_placed]

/-- The headers. -/
def headers (x : ExecutableImage) : Bytes := x.fileHeader ++ x.placed.flatMap PlacedSegment.header

theorem length_headers (x : ExecutableImage) : x.headers.length = x.headersEnd := by
  simp only [headers, headersEnd, List.length_append, length_fileHeader, List.length_flatMap, length_header,
    List.map_const', List.sum_replicate_nat, length_placed, segmentHeaderSize]
  omega

theorem length_padded (x : ExecutableImage) :
    (x.headers ++ Bytes.zeros (pageUp x.headersEnd - x.headers.length)).length = pageUp x.headersEnd := by
  rw [List.length_append, Bytes.zeros, List.length_replicate, length_headers, Nat.add_sub_cancel' (le_pageUp _)]

theorem build_eq (x : ExecutableImage) : x.build = x.placed.foldl append
    (x.headers ++ Bytes.zeros (pageUp x.headersEnd - x.headers.length)) := rfl

/-- The file starts with the headers. -/
theorem headers_prefix (x : ExecutableImage) : x.headers <+: x.build := by
  rw [build_eq]
  exact (List.prefix_append ..).trans (prefix_foldl ..)

/-- Each segment has its place in the file. -/
theorem lies_build {p : PlacedSegment} (mem : p ∈ x.placed) : p.Lies x.build := by
  have page : pageSize ≤ pageUp x.headersEnd := by
    simp only [pageUp, headersEnd, fileHeaderSize, pageSize]
    omega
  rw [build_eq]
  exact lies_place (Nat.le_of_eq x.length_padded) (pageUp_mod _) (le_of_le_of_eq page x.length_padded.symm) mem

end ExecutableImage

end Userland

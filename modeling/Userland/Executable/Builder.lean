import Userland.Executable.Header

/-!
# Writing executables

A small executable is described by its entry point and a list of segments (`ExecutableImage`);
`ExecutableImage.build` writes the file. The headers come first. The data of a segment starts on a
page of the file that no other data uses, at the offset within the page that its address has; a
segment without data takes no place in the file.
-/

namespace Userland

/-- A segment to be written. -/
structure SegmentSource where
  /-- The number of its kind. -/
  kind : UInt32
  /-- Where it lies in memory. -/
  address : UInt32
  /-- Its bytes in the file. -/
  data : Bytes
  /-- Bytes in memory. -/
  memorySize : UInt32
  /-- Permission bits. -/
  permissions : UInt32

namespace SegmentSource

/-- A loadable segment, writable or executable. -/
def loadable (address : UInt32) (data : Bytes) (memorySize : UInt32) (writable : Bool) :
    SegmentSource :=
  ⟨1, address, data, memorySize, if writable then 6 else 5⟩

/-- A program header of any kind, without data or memory. -/
def bare (kind address : UInt32) : SegmentSource := ⟨kind, address, [], 0, 4⟩

end SegmentSource

/-- An executable to be written. -/
structure ExecutableImage where
  /-- Where the program starts. -/
  entry : UInt32
  /-- Its segments, in order. -/
  segments : List SegmentSource

/-- A segment and the place of its data in the file. -/
structure PlacedSegment where
  /-- The segment. -/
  source : SegmentSource
  /-- Where its data lies. -/
  offset : Nat

namespace PlacedSegment

/-- The program header. -/
def header (p : PlacedSegment) : Bytes :=
  [p.source.kind, UInt32.ofNat p.offset, p.source.address, p.source.address,
    UInt32.ofNat p.source.data.length, p.source.memorySize, p.source.permissions,
    UInt32.ofNat pageSize].flatMap Bytes.ofWord

/-- Add the data to a file; a gap before it is filled with zeros. -/
def append (file : Bytes) (p : PlacedSegment) : Bytes :=
  if p.source.data.isEmpty then file
  else file ++ Bytes.zeros (p.offset - file.length) ++ p.source.data

end PlacedSegment

namespace ExecutableImage

/-- Give segments their places in the file; `cursor` is the first page that is free. -/
def place (cursor : Nat) : List SegmentSource → List PlacedSegment
  | [] => []
  | s :: rest =>
    let within := s.address.toNat % pageSize
    if s.data.isEmpty then ⟨s, within⟩ :: place cursor rest
    else ⟨s, cursor + within⟩ :: place (pageUp (cursor + within + s.data.length)) rest

/-- The file header for a number of segments. -/
def fileHeader (x : ExecutableImage) : Bytes :=
  executableMagic ++ Bytes.zeros 9 ++ Bytes.ofWord16 2 ++ Bytes.ofWord16 machineX86 ++
    Bytes.ofWord 1 ++ Bytes.ofWord x.entry ++ Bytes.ofWord (UInt32.ofNat fileHeaderSize) ++
    Bytes.zeros 8 ++ Bytes.ofWord16 (UInt16.ofNat fileHeaderSize) ++
    Bytes.ofWord16 (UInt16.ofNat segmentHeaderSize) ++
    Bytes.ofWord16 (UInt16.ofNat x.segments.length) ++ Bytes.zeros 6

/-- Where the headers end. -/
def headersEnd (x : ExecutableImage) : Nat :=
  fileHeaderSize + segmentHeaderSize * x.segments.length

/-- Write the file. -/
def build (x : ExecutableImage) : Bytes :=
  let placed := place (pageUp x.headersEnd) x.segments
  let headers := x.fileHeader ++ placed.flatMap PlacedSegment.header
  placed.foldl PlacedSegment.append
    (headers ++ Bytes.zeros (pageUp x.headersEnd - headers.length))

end ExecutableImage

end Userland

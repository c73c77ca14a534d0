import Userland.Memory.Address
import Userland.Bytes

/-!
# Executable headers

Executables are ELF files for 32-bit x86, with little-endian fields. The file header names the entry
point and the table of program headers (`FileHeader.parse`); a program header describes one segment
(`SegmentHeader.parse`). A loadable segment is checked against the length of its file and the bounds
of user memory (`SegmentHeader.validate`) and then laid out on pages (`SegmentHeader.layout`).
-/

namespace Userland

/-- Bytes of a file header. -/
abbrev fileHeaderSize : Nat := 52

/-- Bytes of a program header. -/
abbrev segmentHeaderSize : Nat := 32

/-- Most program headers that an executable may have. -/
abbrev maxSegments : Nat := 1024

/-- The first bytes of every executable: the magic number, then class 32-bit, byte order
    little-endian, version 1. -/
def executableMagic : Bytes := [0x7F, 0x45, 0x4C, 0x46, 1, 1, 1]

/-- The machine number of 32-bit x86. -/
def machineX86 : UInt16 := 3

/-! ## Kinds of segment -/

/-- What a program header describes. -/
inductive SegmentKind where
  /-- Nothing. -/
  | null
  /-- A piece of the program's memory. -/
  | load
  /-- Dynamic linking tables. -/
  | dynamic
  /-- The path of an interpreter. -/
  | interp
  /-- Notes. -/
  | note
  /-- Reserved. -/
  | shlib
  /-- The table of program headers. -/
  | phdr
  /-- Permissions of the stack. -/
  | stack
  /-- Any other number. -/
  | other (number : UInt32)
deriving DecidableEq

namespace SegmentKind

/-- The kind that a number stands for. -/
def ofNumber (n : UInt32) : SegmentKind :=
  if n = 0 then null
  else if n = 1 then load
  else if n = 2 then dynamic
  else if n = 3 then interp
  else if n = 4 then note
  else if n = 5 then shlib
  else if n = 6 then phdr
  else if n = 0x6474E551 then stack
  else other n

/-- The name of a kind. -/
def name : SegmentKind → String
  | null => "Null"
  | load => "Load"
  | dynamic => "Dynamic"
  | interp => "Interp"
  | note => "Note"
  | shlib => "Shlib"
  | phdr => "Phdr"
  | stack => "Stack"
  | other n => "Other(" ++ toString n.toNat ++ ")"

/-- Whether a program with such a segment needs a dynamic linker. -/
def needsLinker : SegmentKind → Bool
  | dynamic | interp | shlib => true
  | _ => false

end SegmentKind

/-! ## Refusals -/

/-- Why a header is refused. -/
inductive HeaderError where
  /-- The file is shorter than a file header. -/
  | tooSmall
  /-- The first bytes are not those of an executable. -/
  | invalidIdent
  /-- The program is for another machine. -/
  | invalidMachine
  /-- Program headers have another size. -/
  | invalidPhentsize
  /-- There are too many program headers. -/
  | invalidPhnum
  /-- A program header lies outside the file. -/
  | invalidPhoff
  /-- The file ends within a program header. -/
  | truncatedPhdr
  /-- The program needs a dynamic linker. -/
  | unsupportedSegment (kind : SegmentKind)
  /-- A segment has different offsets within a page in the file and in memory. -/
  | misalignedSegment
  /-- A segment starts past the end of the file. -/
  | segmentOutOfBounds
  /-- A segment is smaller in memory than in the file. -/
  | invalidMemSize
  /-- A segment has no memory. -/
  | emptySegment
  /-- A segment leaves user memory. -/
  | notUserMemory
  /-- A segment starts in page 0. -/
  | mapsPageZero
deriving DecidableEq

/-- The refusal in words. -/
def HeaderError.message : HeaderError → String
  | tooSmall => "file too small for ELF header"
  | invalidIdent => "not a 32-bit little-endian ELF"
  | invalidMachine => "not an i386 executable"
  | invalidPhentsize => "bad program header size"
  | invalidPhnum => "too many program headers"
  | invalidPhoff => "program header offset out of file"
  | truncatedPhdr => "truncated program header"
  | unsupportedSegment kind => "unsupported segment " ++ kind.name
  | misalignedSegment => "segment file/memory offsets disagree"
  | segmentOutOfBounds => "segment outside file"
  | invalidMemSize => "segment memsz < filesz"
  | emptySegment => "empty segment"
  | notUserMemory => "segment outside user memory"
  | mapsPageZero => "segment maps page 0"

/-! ## The file header -/

/-- What the loader needs of a file header. -/
structure FileHeader where
  /-- Where the program starts. -/
  entry : UInt32
  /-- Where the program headers lie in the file. -/
  tableOffset : UInt32
  /-- How many program headers there are. -/
  segments : UInt16

/-- Read a file header. -/
def FileHeader.parse (bs : Bytes) : Except HeaderError FileHeader :=
  if bs.length < fileHeaderSize then .error .tooSmall
  else if bs.take executableMagic.length ≠ executableMagic then .error .invalidIdent
  else if bs.word16At 18 ≠ machineX86 then .error .invalidMachine
  else if (bs.word16At 42).toNat ≠ segmentHeaderSize then .error .invalidPhentsize
  else if (bs.word16At 44).toNat > maxSegments then .error .invalidPhnum
  else .ok ⟨bs.wordAt 24, bs.wordAt 28, bs.word16At 44⟩

/-! ## Program headers -/

/-- A program header. -/
structure SegmentHeader where
  /-- What it describes. -/
  kind : SegmentKind
  /-- Where the segment lies in the file. -/
  offset : UInt32
  /-- Where the segment lies in memory. -/
  address : UInt32
  /-- Bytes in the file. -/
  fileSize : UInt32
  /-- Bytes in memory. -/
  memorySize : UInt32
  /-- Permissions: execute, write and read are the three lowest bits, and no other bit is kept. -/
  permissions : UInt32

/-- How a loadable segment lies on pages. -/
structure SegmentLayout where
  /-- Where in the file reading starts; the start of a page of the file. -/
  filePage : UInt32
  /-- The first page in memory. -/
  firstPage : VirtAddr
  /-- Bytes that come from the file. -/
  readBytes : Nat
  /-- Bytes after them that are zero. -/
  zeroBytes : Nat
  /-- Whether the program may write to the pages. -/
  writable : Bool

/-- How many pages the segment takes. -/
def SegmentLayout.pages (l : SegmentLayout) : Nat := (l.readBytes + l.zeroBytes) / pageSize

namespace SegmentHeader

/-- Read a program header. -/
def parse (bs : Bytes) : Except HeaderError SegmentHeader :=
  if bs.length < segmentHeaderSize then .error .truncatedPhdr
  else .ok
    { kind := .ofNumber (bs.wordAt 0)
      offset := bs.wordAt 4
      address := bs.wordAt 8
      fileSize := bs.wordAt 16
      memorySize := bs.wordAt 20
      permissions := bs.wordAt 24 % 8 }

/-- Whether the program may write to the segment. -/
def writable (h : SegmentHeader) : Bool := h.permissions.toNat / 2 % 2 = 1

/-- Check that a loadable segment of a file of `fileLength` bytes can be laid out. -/
def validate (h : SegmentHeader) (fileLength : UInt32) : Except HeaderError Unit :=
  if h.offset.toNat % pageSize ≠ h.address.toNat % pageSize then .error .misalignedSegment
  else if h.offset > fileLength then .error .segmentOutOfBounds
  else if h.memorySize < h.fileSize then .error .invalidMemSize
  else if h.memorySize = 0 then .error .emptySegment
  else if h.address.toNat + h.memorySize.toNat ≥ wordLimit then .error .notUserMemory
  else if h.address.toNat ≥ userTop ∨ h.address.toNat + h.memorySize.toNat ≥ userTop then
    .error .notUserMemory
  else if h.address.toNat < pageSize then .error .mapsPageZero
  else .ok ()

/-- Lay out a loadable segment. A segment without bytes in the file reads nothing; any other reads
    from the start of its first page on. -/
def layout (h : SegmentHeader) : SegmentLayout :=
  let before := h.address.toNat % pageSize
  let readBytes := if h.fileSize = 0 then 0 else before + h.fileSize.toNat
  { filePage := UInt32.ofNat (pageDown h.offset.toNat)
    firstPage := (VirtAddr.ofWord h.address).page
    readBytes := readBytes
    zeroBytes := pageUp (before + h.memorySize.toNat) - readBytes
    writable := h.writable }

end SegmentHeader

end Userland

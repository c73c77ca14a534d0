import Userland.Executable.InitialStack
import Userland.Executable.LoadError
import Userland.Machine.Request

/-!
# Loading a program

`Loader.load` opens an executable, denies writes to it, and fills a new address space from it, one
page after the other; last comes the stack page with the arguments. If it succeeds, the space and
the handle on the executable are in the hands of the thread. If it fails, whatever it had got is given
back: the frames, then the denial, then the handle.
-/

namespace Userland

/-- A program in memory. Its space is in the hands of the thread that loaded it. -/
structure LoadedProgram where
  /-- Where it starts. -/
  entry : VirtAddr
  /-- Where its stack starts. -/
  stack : VirtAddr
  /-- The handle on the executable, which denies writes. -/
  executable : Handle

namespace Loader

open DeviceRequest Routine

/-- Give back the space in hand, page by page in ascending order. -/
def releaseSpace : Routine Unit := do
  let mapped ← ask spacePages
  mapped.forM fun page => ask (freePage page)
  ask dropSpace
  ask (log .trace ("[MM] released " ++ toString mapped.length ++ " user pages"))

/-- Fill and map the `count` pages from `page` on, of which the first `readBytes` bytes come from the
    file at its position and the others are zero. -/
def loadPages (file : Handle) (writable : Bool) (page readBytes : Nat) :
    Nat → Routine (Except LoadError Unit)
  | 0 => return .ok ()
  | count + 1 => do
    if ← ask allocate then
      let wanted := min readBytes pageSize
      let data ← ask (read file wanted)
      if data.length = wanted then
        ask (fill 0 data)
        ask (clear wanted)
        match ← ask (mapFrame (VirtAddr.ofNat page) writable) with
        | .ok () => loadPages file writable (page + pageSize) (readBytes - wanted) count
        | .error e => return .error (.mapping e)
      else
        ask freeFrame
        return .error .shortRead
    else return .error (.mapping .outOfMemory)

/-- Load one segment. -/
def loadSegment (file : Handle) (l : SegmentLayout) : Routine (Except LoadError Unit) := do
  ask (seek file l.filePage)
  loadPages file l.writable l.firstPage.toNat l.readBytes l.pages

/-- Load the segments whose program headers lie at `offset` and after it in a file of `fileLength`
    bytes. -/
def loadSegments (file : Handle) (fileLength : UInt32) (offset : Nat) :
    Nat → Routine (Except LoadError Unit)
  | 0 => return .ok ()
  | segments + 1 => do
    if offset > fileLength.toNat then return .error (.badSegment .invalidPhoff)
    else
      ask (seek file (UInt32.ofNat offset))
      let raw ← ask (read file segmentHeaderSize)
      if raw.length ≠ segmentHeaderSize then return .error (.badSegment .truncatedPhdr)
      else if offset + segmentHeaderSize ≥ positionLimit then
        return .error (.badSegment .invalidPhoff)
      else
        match SegmentHeader.parse raw with
        | .error e => return .error (.badSegment e)
        | .ok header =>
          if header.kind.needsLinker then
            return .error (.badSegment (.unsupportedSegment header.kind))
          else if header.kind = .load then
            match header.validate fileLength with
            | .error e => return .error (.badSegment e)
            | .ok () =>
              match ← loadSegment file header.layout with
              | .error e => return .error e
              | .ok () =>
                loadSegments file fileLength (offset + segmentHeaderSize) segments
          else loadSegments file fileLength (offset + segmentHeaderSize) segments

/-- Map the stack page and give the address at which the stack starts. -/
def loadStack (arguments : List String) : Routine (Except LoadError VirtAddr) := do
  if ← ask allocate then
    match InitialStack.build arguments with
    | none =>
      ask freeFrame
      return .error .stackOverflow
    | some (page, stack) =>
      ask (fill 0 page.toList)
      match ← ask (mapFrame stackPage true) with
      | .ok () => return .ok stack
      | .error e => return .error (.mapping e)
  else return .error (.mapping .outOfMemory)

/-- Fill a new space from an open executable: its entry point and the start of its stack. -/
def loadImage (file : Handle) (arguments : List String) :
    Routine (Except LoadError (VirtAddr × VirtAddr)) := do
  ask newSpace
  let raw ← ask (read file fileHeaderSize)
  if raw.length ≠ fileHeaderSize then return .error (.badHeader .tooSmall)
  else
    match FileHeader.parse raw with
    | .error e => return .error (.badHeader e)
    | .ok header =>
      let fileLength ← ask (length file)
      match ← loadSegments file fileLength header.tableOffset.toNat header.segments.toNat with
      | .error e => return .error e
      | .ok () =>
        match ← loadStack arguments with
        | .error e => return .error e
        | .ok stack => return .ok (VirtAddr.ofWord header.entry, stack)

/-- The remark about an attempt to load `name`. -/
def remark (name : String) (text : String) : Routine Unit :=
  ask (log .debug ("[LOADER] " ++ name ++ ": " ++ text))

/-- Load the program named by the first argument. -/
def load (arguments : List String) : Routine (Except LoadError LoadedProgram) := do
  match arguments with
  | [] => return .error .openFailed
  | name :: _ =>
    match ← ask (openFile name) with
    | none => return .error .openFailed
    | some file =>
      ask (deny file)
      match ← loadImage file arguments with
      | .ok (entry, stack) =>
        let mapped ← ask spacePages
        remark name ("entry " ++ entry.text ++ ", " ++ toString mapped.length ++ " pages, esp " ++
          stack.text)
        return .ok ⟨entry, stack, file⟩
      | .error e =>
        releaseSpace
        remark name e.message
        ask (allow file)
        ask (close file)
        return .error e

/-- Give back a program that was loaded: its memory, then its executable. -/
def unload (p : LoadedProgram) : Routine Unit := do
  releaseSpace
  ask (close p.executable)

end Loader

end Userland

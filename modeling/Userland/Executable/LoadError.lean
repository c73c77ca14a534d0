import Userland.Executable.Header
import Userland.Memory.PageTable

/-!
# Why a program cannot be loaded

Two of the reasons also have a text for the console (`LoadError.diagnostic?`).
-/

namespace Userland

/-- Why a program cannot be loaded. -/
inductive LoadError where
  /-- The executable cannot be opened. -/
  | openFailed
  /-- The file header is refused. -/
  | badHeader (reason : HeaderError)
  /-- A program header is refused. -/
  | badSegment (reason : HeaderError)
  /-- The file ends within a segment. -/
  | shortRead
  /-- A page cannot be had or mapped. -/
  | mapping (reason : MappingError)
  /-- The arguments do not fit the stack page. -/
  | stackOverflow
deriving DecidableEq

namespace LoadError

/-- The reason in words. -/
def message : LoadError → String
  | openFailed => "open failed"
  | badHeader reason => "bad ELF header: " ++ reason.message
  | badSegment reason => "bad program header: " ++ reason.message
  | shortRead => "short read in segment"
  | mapping reason => "mapping failed: " ++ reason.message
  | stackOverflow => "arguments overflow the stack page"

/-- The text for the console, if there is one. -/
def diagnostic? : LoadError → Option String
  | openFailed => some "open failed"
  | badHeader _ => some "error loading executable"
  | _ => none

end LoadError

end Userland

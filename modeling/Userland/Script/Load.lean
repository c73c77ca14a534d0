import Userland.Executable.Builder
import Userland.Script.Spaces

/-!
# Loading by itself

A program is loaded from a volume into an empty pool of frames, looked at, and given back.
-/

namespace Userland

/-- What a load starts from. -/
structure LoadPlan where
  /-- The mounted volume. -/
  volume : Volume
  /-- How many page frames there are. -/
  frames : Nat
  /-- The arguments, the name of the program first. -/
  arguments : List String

/-- A loaded program, by what can be told of it while it is in memory. -/
structure LoadedView where
  /-- The program. -/
  program : LoadedProgram
  /-- Its memory. -/
  space : AddressSpace
  /-- Its stack. -/
  stack : Bytes
  /-- The devices. -/
  devices : Devices

/-- What comes of a load. -/
structure LoadReport where
  /-- The loaded program, or why it could not be loaded. -/
  result : Except LoadError LoadedView
  /-- The devices after the program was given back. -/
  devices : Devices

namespace LoadedView

/-- The mapped pages. -/
def pages (v : LoadedView) : List AddressSpace.PageSummary := v.space.summary v.devices.pool

/-- Where the executable's handle stands. -/
def position (v : LoadedView) : UInt32 := v.devices.volume.tell v.program.executable

/-- The program as text. -/
def debugText (v : LoadedView) : String :=
  "LoadedImage \x7b address_space: " ++ v.space.debugText ++ ", entry: " ++
    v.program.entry.debugText ++ ", stack_pointer: " ++ v.program.stack.debugText ++ ", .. \x7d"

end LoadedView

namespace LoadPlan

/-- Load, look, and give back. -/
def run (p : LoadPlan) : LoadReport :=
  let devices := Devices.fresh p.volume (.ofFrames p.frames) []
  let (result, own, devices) := (Loader.load p.arguments).run (.fresh 0) devices
  match result with
  | .error e => ⟨.error e, devices⟩
  | .ok program =>
    let space := own.hands.space.getD (.empty 0)
    let view : LoadedView :=
      ⟨program, space, stackBytes space devices.pool program.stack, devices⟩
    ⟨.ok view, ((Loader.unload program).run own devices).2.2⟩

/-- The load of a written executable as the only file of a volume. -/
def ofImage (image : Bytes) (frames : Nat) : LoadPlan :=
  let file := FileNode.ofContents "prog" (.ofExtents [.ofBytes 0 image]) image.length
  ⟨(Volume.empty .unbounded).add file, frames, ["prog"]⟩

end LoadPlan

end Userland

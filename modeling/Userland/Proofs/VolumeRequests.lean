import Userland.Proofs.Contract

/-!
# Requests that go to the volume

Some requests go to the volume (`DeviceRequest.onVolume`). All others neither look at it nor change it
(`DeviceRequest.serve_setVolume`).
-/

namespace Userland

namespace DeviceRequest

/-- The requests that go to the volume or to one of its files. -/
def onVolume : DeviceRequest → Bool
  | openFile _ | create .. | remove _ | read .. | write .. | seek .. | tell _ | length _ | deny _
  | allow _ | close _ => true
  | _ => false

variable {r : DeviceRequest}

/-- A request that does not go to the volume neither looks at it nor changes it. -/
theorem serve_setVolume (other : r.onVolume = false) (b : Belongings) (d : Devices) (v : Volume) :
    r.serve b { d with volume := v } =
      ((r.serve b d).1, (r.serve b d).2.1, { (r.serve b d).2.2 with volume := v }) := by
  cases r with
  | openFile | create | remove | read | write | seek | tell | length | deny | allow | close => cases other
  | decode | checkRange | copyIn | copyString =>
    simp only [serve, onMemory]
    split <;> rfl
  | allocate =>
    simp only [serve, serveAllocate]
    split <;> rfl
  | freeFrame =>
    simp only [serve, serveFreeFrame]
    split <;> rfl
  | mapFrame =>
    simp only [serve, serveMapFrame]
    split
    · split <;> rfl
    · rfl
  | freePage =>
    simp only [serve, serveFreePage]
    split
    · split <;> rfl
    · rfl
  | destroyProcess =>
    simp only [serve, serveDestroyProcess]
    split <;> rfl
  | keepFile =>
    simp only [serve, serveKeepFile]
    split
    · split <;> rfl
    · rfl
  | takeFile =>
    simp only [serve, serveTakeFile]
    split
    · split <;> rfl
    · rfl
  | detachSpace | copyOut | load | store | readBytes | writeBytes | fill | clear | installSpace
  | installExecutable | findFile | takeChild =>
    simp only [serve]
    split <;> rfl
  | _ => rfl

/-- A request that does not go to the volume leaves it as it is. -/
theorem volume_serve (other : r.onVolume = false) (b : Belongings) (d : Devices) :
    (r.serve b d).2.2.volume = d.volume :=
  congrArg (·.2.2.volume) (serve_setVolume other b d d.volume)

end DeviceRequest

end Userland

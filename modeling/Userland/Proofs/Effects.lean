import Userland.Proofs.Contract

/-!
# What requests make of what a thread has, and of the pool

Most requests change one or two of the things that a thread has. `DeviceRequest.Effect` says of each kind of
request what may become of them, without saying when and why, and `DeviceRequest.effect_serve` that serving a
request comes to that. What a request leaves as it is can be seen from the effect, whatever the devices are like.

With the pool it is the other way round: most requests leave it alone, and `DeviceRequest.PoolEffect` says what
the others make of it. A request hands out one frame or takes one back, if that
(`DeviceRequest.poolEffect_serve`).
-/

namespace Userland

namespace DeviceRequest

variable {r : DeviceRequest} {b : Belongings}

/-! ## Kinds of requests -/

/-- The requests that change what is in hand, but not which process is about to be destroyed. -/
def isManual : DeviceRequest → Bool
  | newSpace | dropSpace | allocate | freeFrame | mapFrame .. | freePage _ | openFile _ | close _ => true
  | _ => false

/-- The requests that move files between the process and the hands of its thread. -/
def movesFiles : DeviceRequest → Bool
  | takeFiles | keepFile _ | takeFile _ => true
  | _ => false

/-- What a request makes of a process, if it leaves its files, its children and its memory alone. -/
def edit? : DeviceRequest → Option (Process → Process)
  | setState state => some ({ · with state := state })
  | setExitStatus status => some ({ · with exitStatus := some status })
  | takeExitSignal => some ({ · with exitSignal := none })
  | takeExecutable => some ({ · with executable := none })
  | installExecutable h => some ({ · with executable := some h })
  | _ => none

/-- The family on whose records a request works. -/
def family? : DeviceRequest → Option Family
  | register family .. | takeChild family _ | takeChildren family => some family
  | _ => none

/-- The interrupt level that a request sets. -/
def level? : DeviceRequest → Option InterruptLevel
  | disableInterrupts => some .off
  | setInterrupts level => some level
  | _ => none

/-- An edited process has the same name, files, children and memory. -/
structure SameContents (p p' : Process) : Prop where
  name : p'.name = p.name
  files : p'.files = p.files
  children : p'.children = p.children
  space : p'.space = p.space

theorem sameContents_of_edit? {f : Process → Process} (edits : r.edit? = some f) (p : Process) :
    SameContents p (f p) := by
  cases r <;> first | (cases edits; done) | (obtain rfl := Option.some.inj edits; exact ⟨rfl, rfl, rfl, rfl⟩)

/-! ## Effects -/

/-- What a request may make of what a thread has. -/
inductive Effect (b : Belongings) : DeviceRequest → Belongings → Prop where
  /-- A quiet request leaves all as it is. -/
  | quiet {r : DeviceRequest} : r.isQuiet = true → Effect b r b
  /-- Something comes in hand, or goes. -/
  | hands {r : DeviceRequest} (space : Option AddressSpace) (frame : Option Frame) (files : List Handle) :
    r.isManual = true → Effect b r { b with hands := ⟨space, frame, files, b.hands.process⟩ }
  /-- Files of the process change, and those in hand. -/
  | files {r : DeviceRequest} (table : DescriptorTable Handle → DescriptorTable Handle) (files : List Handle) :
    r.movesFiles = true → Effect b r
      { b.modifyProcess (fun p => { p with files := table p.files }) with
        hands := { b.hands with files := files } }
  /-- The process is edited. Its executable comes in hand, or goes from there. -/
  | edited {r : DeviceRequest} {f : Process → Process} (files : List Handle) : r.edit? = some f →
    Effect b r { b.modifyProcess f with hands := { b.hands with files := files } }
  /-- The records of a family change. -/
  | records {r : DeviceRequest} {family : Family} (f : Children → Children) : r.family? = some family →
    Effect b r (b.modifyChildren f family)
  /-- The interrupt level is set. -/
  | level {r : DeviceRequest} {level : InterruptLevel} : r.level? = some level →
    Effect b r { b with interrupts := level }
  /-- There is a new process. -/
  | newProcess (name : String) (maxOpenFiles : Nat) (exit : ChannelId) :
    Effect b (newProcess name maxOpenFiles exit)
      { b with process := some { Process.fresh b.tid.toPid name maxOpenFiles with exitSignal := some exit } }
  /-- The memory of the process comes in hand. -/
  | detachSpace : Effect b detachSpace
      { b.modifyProcess (fun p => { p with space := none }) with
        hands := { b.hands with space := b.space?.or b.hands.space } }
  /-- The process gets the memory in hand. -/
  | installSpace (space : Option AddressSpace) : Effect b installSpace
      { b.modifyProcess (fun p => { p with space := b.hands.space }) with
        hands := { b.hands with space := space } }
  /-- The process is about to be destroyed. -/
  | detachProcess : Effect b detachProcess
      { b with process := none, hands := { b.hands with process := b.process } }
  /-- What is left of the process comes in hand. -/
  | destroyProcess (space : Option AddressSpace) (files : List Handle) :
    Effect b destroyProcess { b with hands := ⟨space, b.hands.frame, files, none⟩ }

theorem modifyProcess_id (b : Belongings) : b.modifyProcess id = b := by
  rw [Belongings.modifyProcess, Option.map_id_fun, id]

theorem modifyChildren_id (b : Belongings) (family : Family) : b.modifyChildren id family = b := by
  cases family
  · exact modifyProcess_id b
  · rfl
  · rfl

theorem effect_of_isManual (manual : r.isManual = true) (b : Belongings) (d : Devices) :
    Effect b r (r.serve b d).2.1 := by
  have same {r : DeviceRequest} (manual : r.isManual = true) : Effect b r b :=
    .hands b.hands.space b.hands.frame b.hands.files manual
  cases r with
  | newSpace | dropSpace | close => exact .hands _ _ _ rfl
  | allocate =>
    simp only [serve, serveAllocate]
    split
    · exact .hands _ _ _ rfl
    · exact same rfl
  | freeFrame =>
    simp only [serve, serveFreeFrame]
    split
    · exact .hands _ _ _ rfl
    · exact same rfl
  | mapFrame =>
    simp only [serve, serveMapFrame]
    split
    · split <;> exact .hands _ _ _ rfl
    · exact same rfl
  | freePage =>
    simp only [serve, serveFreePage]
    split
    · split
      · exact .hands _ _ _ rfl
      · exact same rfl
    · exact same rfl
  | openFile =>
    simp only [serve]
    split
    · exact .hands _ _ _ rfl
    · exact same rfl
  | _ => cases manual

theorem effect_of_movesFiles (moves : r.movesFiles = true) (b : Belongings) (d : Devices) :
    Effect b r (r.serve b d).2.1 := by
  have same {b : Belongings} {r : DeviceRequest} (moves : r.movesFiles = true) : Effect b r b := by
    have effect := Effect.files (b := b) id b.hands.files moves
    change Effect b r (b.modifyProcess id) at effect
    rwa [modifyProcess_id] at effect
  obtain ⟨tid, interrupts, process, hands, kin, initial⟩ := b
  cases r with
  | takeFiles => exact .files (·.drainAll.2) _ rfl
  | keepFile =>
    cases process with
    | none => exact same rfl
    | some p =>
      simp only [serve, serveKeepFile]
      split
      · next files _ => exact .files (fun _ => files) _ rfl
      · exact same rfl
  | takeFile =>
    cases process with
    | none => exact same rfl
    | some p =>
      simp only [serve, serveTakeFile]
      split
      · next files _ => exact .files (fun _ => files) _ rfl
      · exact same rfl
  | _ => cases moves

/-- A request that works on the records of a family changes nothing else. -/
theorem own_of_family? {family : Family} (works : r.family? = some family) (b : Belongings) (d : Devices) :
    ∃ f, (r.serve b d).2.1 = b.modifyChildren f family := by
  cases r with
  | register _ child exit =>
    cases works
    exact ⟨(·.register child exit), rfl⟩
  | takeChildren =>
    cases works
    exact ⟨fun _ => .empty, rfl⟩
  | takeChild _ pid =>
    cases works
    simp only [serve]
    split
    · exact ⟨(·.remove _), rfl⟩
    · exact ⟨id, (modifyChildren_id b family).symm⟩
  | _ => cases works

theorem effect_of_family? {family : Family} (works : r.family? = some family) (b : Belongings) (d : Devices) :
    Effect b r (r.serve b d).2.1 := by
  obtain ⟨f, own⟩ := own_of_family? works b d
  rw [own]
  exact .records f works

/-- Serving a request has such an effect. -/
theorem effect_serve (r : DeviceRequest) (b : Belongings) (d : Devices) : Effect b r (r.serve b d).2.1 := by
  cases quiet : r.isQuiet with
  | true =>
    rw [own_of_isQuiet quiet]
    exact .quiet quiet
  | false =>
    cases r with
    | newProcess => exact .newProcess ..
    | setState | setExitStatus | takeExitSignal | takeExecutable => exact .edited _ rfl
    | takeFiles | keepFile | takeFile => exact effect_of_movesFiles rfl b d
    | newSpace | dropSpace | close | allocate | freeFrame | mapFrame | freePage | openFile =>
      exact effect_of_isManual rfl b d
    | register | takeChild | takeChildren => exact effect_of_family? rfl b d
    | disableInterrupts | setInterrupts => exact .level rfl
    | detachProcess => exact .detachProcess
    | destroyProcess =>
      simp only [serve, serveDestroyProcess]
      split
      · exact .destroyProcess _ _
      · next none =>
        have effect := Effect.destroyProcess (b := b) b.hands.space b.hands.files
        rwa [← none] at effect
    | detachSpace =>
      have effect := Effect.detachSpace (b := b)
      simp only [serve]
      split
      · next space => rwa [space, Option.some_or] at effect
      · next none =>
        -- Where there is no memory, there is none to take from the process.
        have bare : b.process.map (fun p => { p with space := Option.none }) = b.process := by
          cases hosts : b.process with
          | none => rfl
          | some p =>
            have unmapped : p.space = Option.none := by rwa [Belongings.space?, hosts] at none
            rw [Option.map_some, ← unmapped]
        rwa [none, Option.none_or, Belongings.modifyProcess, bare] at effect
    | installSpace =>
      obtain ⟨tid, interrupts, process, hands, kin, initial⟩ := b
      cases process with
      | none => exact .installSpace hands.space
      | some p => exact .installSpace none
    | installExecutable h =>
      obtain ⟨tid, interrupts, process, hands, kin, initial⟩ := b
      cases process with
      | none => exact .edited hands.files rfl
      | some p => exact .edited (f := ({ · with executable := some h })) (hands.files.filter (· ≠ h)) rfl
    | _ => cases quiet

/-! ## The pool -/

theorem devices_onMemory {α : Type} (start : VirtAddr) (b : Belongings) (d : Devices)
    (f : AddressSpace → FramePool → Except UserFault α) : (onMemory start b d f).2.2 = d := by
  unfold onMemory
  split <;> rfl

/-- The frame that a request gets from the pool. -/
def handsOut : DeviceRequest → Devices → List Frame
  | allocate, d => (d.pool.allocate?.map (·.1)).toList
  | _, _ => []

/-- The frame that a request gives back to the pool. -/
def givesBack : DeviceRequest → Belongings → List Frame
  | freeFrame, b => b.hands.frame.toList
  | mapFrame page writable, b =>
    match b.hands.space, b.hands.frame with
    | some s, some f =>
      match s.map page f writable with
      | .ok _ => []
      | .error _ => [f]
    | _, _ => []
  | freePage page, b => ((b.hands.space.bind (·.translate page)).map (·.frame)).toList
  | _, _ => []

/-- What a request may make of the pool. -/
inductive PoolEffect (b : Belongings) (d : Devices) : DeviceRequest → FramePool → Prop where
  /-- The pool stays as it is. -/
  | same {r : DeviceRequest} : r.handsOut d = [] → r.givesBack b = [] → PoolEffect b d r d.pool
  /-- Bytes are copied to the process. -/
  | copied {s : AddressSpace} (start : VirtAddr) (data : Bytes) : b.space? = some s →
    PoolEffect b d (copyOut start data) (s.copyOut d.pool start data).2
  /-- The process stores bytes. -/
  | stored {s : AddressSpace} (start : VirtAddr) (data : Bytes) : b.space? = some s →
    PoolEffect b d (store start data) (s.store d.pool start.toNat data).2
  /-- Bytes are written to the memory of the process. -/
  | written {s : AddressSpace} (start : VirtAddr) (data : Bytes) : b.space? = some s →
    PoolEffect b d (writeBytes start data) (s.writeBytes d.pool start data).2
  /-- Bytes are put in the frame in hand. -/
  | filled {f : Frame} (offset : Nat) (data : Bytes) : b.hands.frame = some f →
    PoolEffect b d (fill offset data) (d.pool.write f offset data)
  /-- Zeros are put in the frame in hand. -/
  | cleared {f : Frame} (offset : Nat) : b.hands.frame = some f →
    PoolEffect b d (clear offset) (d.pool.clear f offset)
  /-- A frame is handed out. -/
  | allocated {f : Frame} {pool : FramePool} : d.pool.allocate? = some (f, pool) → PoolEffect b d allocate pool
  /-- A frame is taken back. -/
  | released {r : DeviceRequest} {f : Frame} : r.handsOut d = [] → r.givesBack b = [f] →
    PoolEffect b d r (d.pool.release f)

/-- The frames in use are the same unless a frame is handed out or taken back. -/
theorem PoolEffect.sameUse {d : Devices} {pool : FramePool} (effect : PoolEffect b d r pool)
    (nothing : r.handsOut d = []) (none : r.givesBack b = []) : d.pool.SameUse pool := by
  cases effect with
  | same => exact .refl _
  | copied => exact AddressSpace.sameUse_copyOut ..
  | stored => exact AddressSpace.sameUse_store ..
  | written => exact AddressSpace.sameUse_writeFrom ..
  | filled | cleared => exact FramePool.sameUse_modify ..
  | allocated given => simp [handsOut, given] at nothing
  | released _ given => cases given.symm.trans none

/-- Serving a request has such an effect. -/
theorem poolEffect_serve (r : DeviceRequest) (b : Belongings) (d : Devices) :
    PoolEffect b d r (r.serve b d).2.2.pool := by
  cases r with
  | decode | checkRange | copyIn | copyString =>
    simp only [serve, devices_onMemory]
    exact .same rfl rfl
  | copyOut start data =>
    simp only [serve]
    split
    · next space => exact .copied start data space
    · exact .same rfl rfl
  | store start data =>
    simp only [serve]
    split
    · next space => exact .stored start data space
    · exact .same rfl rfl
  | writeBytes start data =>
    simp only [serve]
    split
    · next space => exact .written start data space
    · exact .same rfl rfl
  | fill offset data =>
    simp only [serve]
    split
    · next held => exact .filled offset data held
    · exact .same rfl rfl
  | clear offset =>
    simp only [serve]
    split
    · next held => exact .cleared offset held
    · exact .same rfl rfl
  | allocate =>
    cases given : d.pool.allocate? with
    | none =>
      simp only [serve, serveAllocate, given]
      exact .same (by simp [handsOut, given]) rfl
    | some pair =>
      simp only [serve, serveAllocate, given]
      exact .allocated given
  | freeFrame =>
    cases held : b.hands.frame with
    | none =>
      simp only [serve, serveFreeFrame, held]
      exact .same rfl (by simp [givesBack, held])
    | some f =>
      simp only [serve, serveFreeFrame, held]
      exact .released rfl (by simp [givesBack, held])
  | mapFrame page writable =>
    simp only [serve, serveMapFrame]
    split
    · next s f inHand held =>
      split
      · next mapped => exact .same rfl (by simp [givesBack, inHand, held, mapped])
      · next refused => exact .released rfl (by simp [givesBack, inHand, held, refused])
    · exact .same rfl (by simp only [givesBack])
  | freePage page =>
    simp only [serve, serveFreePage]
    split
    · next s inHand =>
      split
      · next found => exact .released rfl (by simp [givesBack, inHand, found])
      · next missing => exact .same rfl (by simp [givesBack, inHand, missing])
    · next nothing => exact .same rfl (by simp [givesBack, nothing])
  | load | readBytes | findFile | detachSpace | installSpace | installExecutable | takeChild | openFile
  | destroyProcess | keepFile | takeFile =>
    simp only [serve, serveDestroyProcess, serveKeepFile, serveTakeFile]
    repeat' split
    all_goals exact .same rfl rfl
  | _ => exact .same rfl rfl

end DeviceRequest

end Userland

import Userland.Proofs.Descriptors
import Userland.Proofs.Effects
import Userland.Proofs.Ledger
import Userland.Proofs.VolumeRequests

/-!
# What requests do to what a thread has

The requests that the rules permit bring frames and handles in use or put them out of use one at a
time, and leave none behind (`DeviceRequest.frames_flow`, `DeviceRequest.handles_flow`). They keep the
hands of the thread in order (`DeviceRequest.orderly_serve`).
-/

namespace Userland

namespace Belongings

@[simp] theorem frames_modifyChildren (b : Belongings) (f : Children → Children)
    (family : Family) : (b.modifyChildren f family).frames = b.frames := by
  obtain ⟨tid, interrupts, process, hands, kin, initial⟩ := b
  cases family <;> cases process <;> rfl

@[simp] theorem handles_modifyChildren (b : Belongings) (f : Children → Children)
    (family : Family) : (b.modifyChildren f family).handles = b.handles := by
  obtain ⟨tid, interrupts, process, hands, kin, initial⟩ := b
  cases family <;> cases process <;> rfl

end Belongings

namespace DeviceRequest

variable {r : DeviceRequest} {s : Standing} {d : Devices}

/-- The requests that hand out a frame or take one back. -/
def movesFrame : DeviceRequest → Bool
  | allocate | freeFrame | mapFrame .. | freePage _ => true
  | _ => false

/-- The requests that open a handle or close one. -/
def movesHandle : DeviceRequest → Bool
  | openFile _ | close _ => true
  | _ => false

theorem handsOut_eq_nil (still : r.movesFrame = false) (d : Devices) : r.handsOut d = [] := by
  cases r <;> first | rfl | cases still

theorem givesBack_eq_nil (still : r.movesFrame = false) (b : Belongings) : r.givesBack b = [] := by
  cases r <;> first | rfl | cases still

/-- Requests that move no frame leave the same frames in use. -/
theorem sameUse_serve (same : r.movesFrame = false) (b : Belongings) (d : Devices) :
    d.pool.SameUse (r.serve b d).2.2.pool :=
  (poolEffect_serve r b d).sameUse (handsOut_eq_nil same d) (givesBack_eq_nil same b)

/-- Requests that move no handle leave the same handles open. -/
theorem sameOpen_serve (same : r.movesHandle = false) (b : Belongings) (d : Devices) :
    d.volume.SameOpen (r.serve b d).2.2.volume := by
  cases goes : r.onVolume with
  | false =>
    rw [volume_serve goes]
    exact .refl _
  | true =>
    cases r with
    | create => exact Volume.sameOpen_create ..
    | remove => exact Volume.sameOpen_remove ..
    | read => exact Volume.sameOpen_read ..
    | write => exact Volume.sameOpen_write ..
    | seek => exact Volume.sameOpen_seek ..
    | tell | length => exact .refl _
    | deny => exact Volume.sameOpen_deny ..
    | allow => exact Volume.sameOpen_allow ..
    | openFile | close => cases same
    | _ => cases goes

/-- A handle that is open stays so, unless it is closed. -/
theorem isOpen_serve {b : Belongings} {d : Devices} {h : Handle} (other : r ≠ .close h)
    (live : d.volume.isOpen h = true) : (r.serve b d).2.2.volume.isOpen h = true := by
  cases r with
  | openFile path =>
    simp only [serve]
    split
    · rename_i opened
      exact ((Volume.openFile?_eq_some opened).2.1 h).trans (by simp [live])
    · exact live
  | close g =>
    have ne : h ≠ g := fun same => other (same ▸ rfl)
    exact (Volume.isOpen_close d.volume g h).trans (by simp [live, ne])
  | _ => exact ((sameOpen_serve rfl b d).isOpen h).trans live

/-- Whatever is asked for, frames that are handed out have an address. -/
theorem addressable_serve (b : Belongings) (h : d.pool.Addressable) :
    (r.serve b d).2.2.pool.Addressable := by
  have effect := poolEffect_serve r b d
  generalize (r.serve b d).2.2.pool = pool at effect ⊢
  have still := effect.sameUse
  cases effect with
  | same => exact h
  | copied | stored | written | filled | cleared => exact (still rfl rfl).addressable h
  | allocated given => exact h.allocate? given
  | released => exact h.release _

/-- Whatever is asked for, the volume counts its open handles. -/
theorem counted_serve (b : Belongings) (h : d.volume.Counted) :
    (r.serve b d).2.2.volume.Counted := by
  cases handles : r.movesHandle with
  | false => exact (sameOpen_serve handles b d).counted h
  | true =>
    cases r with
    | openFile path =>
      cases opened : d.volume.openFile? path with
      | none =>
        simp only [serve, opened]
        exact h
      | some pair =>
        simp only [serve, opened]
        exact (Volume.openFile?_eq_some opened).2.2 h
    | close file => exact h.close file
    | _ => cases handles

/-! ## Frames -/

theorem frames_of_family? {family : Family} (works : r.family? = some family) (b : Belongings) (d : Devices) :
    (r.serve b d).2.1.frames = b.frames := by
  obtain ⟨f, own⟩ := own_of_family? works b d
  rw [own, Belongings.frames_modifyChildren]

/-- Requests that move no frame leave the thread the frames that it has: a space that changes its place takes
    them along, and one that goes has none. -/
theorem frames_serve (permitted : r.Permitted s) (still : r.movesFrame = false) :
    (r.serve s.own d).2.1.frames = s.own.frames := by
  cases quiet : r.isQuiet with
  | true => rw [own_of_isQuiet quiet]
  | false =>
    obtain ⟨⟨tid, interrupts, process, ⟨space, frame, files, bare⟩, kin, initial⟩, duties⟩ := s
    cases r with
    | newProcess =>
      obtain ⟨rfl : process = none, -⟩ := permitted
      simp [serve, Belongings.frames, Belongings.space?, Belongings.framesOf, Process.fresh]
    | newSpace =>
      obtain ⟨-, rfl : space = none⟩ := permitted
      simp [serve, Belongings.frames, Belongings.space?, Belongings.framesOf]
    | dropSpace =>
      cases space with
      | none => rfl
      | some space =>
        have bare : space.pages = [] := permitted space rfl
        simp [serve, Belongings.frames, Belongings.space?, Belongings.framesOf, AddressSpace.frames, bare]
    | installSpace =>
      cases process with
      | none => rfl
      | some p =>
        have vacant : p.space = none := permitted p rfl
        simp [serve, Belongings.frames, Belongings.space?, Belongings.framesOf, vacant]
    | detachSpace =>
      obtain ⟨-, rfl : space = none⟩ := permitted
      cases process with
      | none => rfl
      | some p =>
        cases memory : p.space <;>
          simp [serve, Belongings.frames, Belongings.modifyProcess, Belongings.space?, Belongings.framesOf,
            memory]
    | detachProcess =>
      cases process with
      | none => rfl
      | some p => simp [serve, Belongings.frames, Belongings.space?, (permitted.2 p rfl).space]
    | destroyProcess =>
      cases bare with
      | none => rfl
      | some p => simp [serve, serveDestroyProcess, Belongings.frames, Belongings.space?, (permitted p rfl).space]
    | openFile =>
      simp only [serve]
      split <;> rfl
    | keepFile | takeFile =>
      simp only [serve, serveKeepFile, serveTakeFile]
      split
      · split <;> rfl
      · rfl
    | register | takeChildren | takeChild => exact frames_of_family? rfl _ d
    | allocate | freeFrame | mapFrame | freePage => cases still
    | setState | setExitStatus | takeExitSignal | takeExecutable | takeFiles | installExecutable =>
      cases process <;> rfl
    | close | disableInterrupts | setInterrupts => rfl
    | _ => cases quiet

/-- The frame in hand is one frame more than those of spaces. -/
theorem perm_frames_of_frame {b b' : Belongings} {f : Frame} (spaces : b'.space? = b.space?)
    (inHand : b'.hands.space = b.hands.space) (held : b'.hands.frame = some f) (empty : b.hands.frame = none) :
    b'.frames.Perm (f :: b.frames) := by
  simp only [Belongings.frames, spaces, inHand, held, empty, Option.toList_some, Option.toList_none, List.append_nil]
  exact List.perm_append_singleton f _

theorem flow_allocate (empty : s.own.hands.frame = none) :
    Flow s.own.frames (serveAllocate s.own d).2.1.frames (d.pool.inUse ·)
      ((serveAllocate s.own d).2.2.pool.inUse ·) := by
  cases given : d.pool.allocate? with
  | none =>
    simp only [serveAllocate, given]
    exact .keep (.refl _) fun _ => rfl
  | some pair =>
    obtain ⟨f, pool⟩ := pair
    simp only [serveAllocate, given]
    exact .take f (perm_frames_of_frame rfl rfl rfl empty) (FramePool.allocate?_eq_some given).2.1
      (FramePool.inUse_allocate? given)

theorem flow_freeFrame (b : Belongings) (d : Devices) :
    Flow b.frames (serveFreeFrame b d).2.1.frames (d.pool.inUse ·) ((serveFreeFrame b d).2.2.pool.inUse ·) := by
  cases held : b.hands.frame with
  | none =>
    simp only [serveFreeFrame, held]
    exact .keep (.refl _) fun _ => rfl
  | some f =>
    simp only [serveFreeFrame, held]
    exact .give f (perm_frames_of_frame rfl rfl held rfl) (FramePool.inUse_release d.pool f)

/-- A frame that is mapped stays the thread's, and one that is refused goes back. -/
theorem flow_mapFrame (page : VirtAddr) (writable : Bool) (b : Belongings) (d : Devices) :
    Flow b.frames (serveMapFrame page writable b d).2.1.frames (d.pool.inUse ·)
      ((serveMapFrame page writable b d).2.2.pool.inUse ·) := by
  simp only [serveMapFrame]
  split
  · next space f inHand held =>
    split
    · next space' mapped =>
      refine .keep ?_ fun _ => rfl
      simp only [Belongings.frames, Belongings.space?, inHand, held, Belongings.framesOf, Option.map_some,
        Option.getD_some, Option.toList_none, Option.toList_some, List.append_nil, List.append_assoc]
      exact ((AddressSpace.frames_map mapped).trans (List.perm_append_singleton f _).symm).append_left _
    · exact .give f (perm_frames_of_frame rfl rfl held rfl) (FramePool.inUse_release d.pool f)
  · exact .keep (.refl _) fun _ => rfl

/-- The frame of the first page of a space is the first of the frames of that space. -/
theorem flow_freePage {page : VirtAddr} {space : AddressSpace} {e : PageEntry} {rest : List (VirtAddr × PageEntry)}
    (inHand : s.own.hands.space = some space) (listed : space.pages = (page, e) :: rest) :
    Flow s.own.frames (serveFreePage page s.own d).2.1.frames (d.pool.inUse ·)
      ((serveFreePage page s.own d).2.2.pool.inUse ·) := by
  obtain ⟨found, others⟩ := AddressSpace.unmap_head listed
  simp only [serveFreePage, inHand, found]
  refine .give (Frame.ofAddress e.frame) ?_ (FramePool.inUse_release d.pool _)
  simp only [Belongings.frames, Belongings.space?, Belongings.framesOf, AddressSpace.frames, inHand,
    Option.map_some, Option.getD_some, listed, others, List.map_cons, List.append_assoc]
  exact List.perm_middle

/-- Frames come in use when they are handed out, and go out of use when they are given back. -/
theorem frames_flow (permitted : r.Permitted s) :
    Flow s.own.frames (r.serve s.own d).2.1.frames (d.pool.inUse ·)
      ((r.serve s.own d).2.2.pool.inUse ·) := by
  cases moves : r.movesFrame with
  | false => exact .keep (.of_eq (frames_serve permitted moves)) (sameUse_serve moves s.own d).inUse
  | true =>
    cases r with
    | allocate => exact flow_allocate permitted.2
    | freeFrame => exact flow_freeFrame s.own d
    | mapFrame page writable => exact flow_mapFrame page writable s.own d
    | freePage page =>
      obtain ⟨-, space, e, rest, inHand, listed⟩ := permitted
      exact flow_freePage inHand listed
    | _ => cases moves

/-! ## Handles -/

theorem perm_cons_filter {files : List Handle} {h : Handle} (distinct : files.Nodup)
    (mem : h ∈ files) : files.Perm (h :: files.filter (· ≠ h)) := by
  have same : files.filter (· ≠ h) = files.erase h := by
    rw [distinct.erase_eq_filter]
    exact List.filter_congr fun g _ => by simp [bne, beq_eq_decide]
  rw [same]
  exact List.perm_cons_erase mem

/-- A handle on an executable goes from the hands to the process. -/
theorem perm_installExecutable {p : Process} {h : Handle} {files : List Handle} (distinct : files.Nodup)
    (mem : h ∈ files) (vacant : p.executable = none) :
    (({ p with executable := some h } : Process).handles ++ files.filter (· ≠ h)).Perm (p.handles ++ files) := by
  simp only [Process.handles, vacant, Option.toList_some, Option.toList_none, List.append_assoc, List.nil_append,
    List.cons_append]
  exact (perm_cons_filter distinct mem).symm.append_left _

/-- A handle that is given a descriptor goes from the hands to the table. -/
theorem perm_keepFile {p : Process} {h : Handle} {files : List Handle} {place : Descriptor × DescriptorTable Handle}
    (distinct : files.Nodup) (mem : h ∈ files) (inserted : p.files.insert h = some place) :
    (({ p with files := place.2 } : Process).handles ++ files.filter (· ≠ h)).Perm (p.handles ++ files) :=
  have more : place.2.files.Perm (h :: p.files.files) := DescriptorTable.files_insert inserted
  ((more.append_right _).append_right _).trans
    (List.perm_middle.symm.trans ((perm_cons_filter distinct mem).symm.append_left _))

/-- A handle that is taken from its descriptor goes from the table to the hands. -/
theorem perm_takeFile {p : Process} {descriptor : Descriptor} {files : List Handle}
    {file : Handle × DescriptorTable Handle} (removed : p.files.remove descriptor = .ok file) :
    (({ p with files := file.2 } : Process).handles ++ file.1 :: files).Perm (p.handles ++ files) :=
  have fewer : p.files.files.Perm (file.1 :: file.2.files) := DescriptorTable.files_remove removed
  List.perm_middle.trans ((fewer.symm.append_right _).append_right _)

theorem handles_of_family? {family : Family} (works : r.family? = some family) (b : Belongings) (d : Devices) :
    (r.serve b d).2.1.handles = b.handles := by
  obtain ⟨f, own⟩ := own_of_family? works b d
  rw [own, Belongings.handles_modifyChildren]

/-- A handle that changes its place stays the thread's. -/
theorem handles_of_movesFiles (moves : r.movesFiles = true) (permitted : r.Permitted s)
    (distinct : s.own.hands.files.Nodup) : (r.serve s.own d).2.1.handles.Perm s.own.handles := by
  obtain ⟨⟨tid, interrupts, process, ⟨space, frame, files, bare⟩, kin, initial⟩, duties⟩ := s
  cases process with
  | none => cases r <;> first | exact .refl _ | cases moves
  | some p =>
    cases r with
    | takeFiles =>
      simp only [serve, Belongings.handles, Belongings.modifyProcess, Process.handles, Option.map_some,
        Option.getD_some, DescriptorTable.files_drainAll, List.nil_append, ← List.append_assoc]
      exact List.perm_append_comm.append_right _
    | keepFile h =>
      simp only [serve, serveKeepFile]
      split
      · next inserted => exact perm_keepFile distinct permitted inserted
      · exact .refl _
    | takeFile descriptor =>
      simp only [serve, serveTakeFile]
      split
      · next removed => exact perm_takeFile removed
      · exact .refl _
    | _ => cases moves

/-- Requests that open and close nothing leave the thread the handles that it has, though some may go to other
    places. -/
theorem handles_serve (permitted : r.Permitted s) (distinct : s.own.handles.Nodup) (still : r.movesHandle = false) :
    (r.serve s.own d).2.1.handles.Perm s.own.handles := by
  cases quiet : r.isQuiet with
  | true => rw [own_of_isQuiet quiet]
  | false =>
    have inHand : s.own.hands.files.Nodup := (List.nodup_append.1 distinct).2.1
    obtain ⟨⟨tid, interrupts, process, ⟨space, frame, files, bare⟩, kin, initial⟩, duties⟩ := s
    cases r with
    | takeFiles | keepFile | takeFile => exact handles_of_movesFiles rfl permitted inHand
    | newProcess =>
      obtain ⟨rfl : process = none, -⟩ := permitted
      exact .refl _
    | takeExecutable =>
      refine .of_eq ?_
      cases process with
      | none => rfl
      | some p => simp [serve, Belongings.handles, Belongings.modifyProcess, Process.handles]
    | installExecutable h =>
      cases process with
      | none => exact .refl _
      | some p => exact perm_installExecutable inHand permitted.1 (permitted.2 p rfl)
    | detachProcess =>
      refine .of_eq ?_
      cases process with
      | none => rfl
      | some p =>
        have bare := permitted.2 p rfl
        simp [serve, Belongings.handles, Process.handles, bare.files, bare.executable]
    | destroyProcess =>
      refine .of_eq ?_
      cases bare with
      | none => rfl
      | some p =>
        have bare := permitted p rfl
        simp [serve, serveDestroyProcess, Belongings.handles, bare.files, bare.executable]
    | register | takeChildren | takeChild => exact .of_eq (handles_of_family? rfl _ d)
    | detachSpace | allocate | freeFrame =>
      simp only [serve, serveAllocate, serveFreeFrame]
      split
      · cases process <;> exact .refl _
      · exact .refl _
    | mapFrame | freePage =>
      simp only [serve, serveMapFrame, serveFreePage]
      split
      · split <;> exact .refl _
      · exact .refl _
    | setState | setExitStatus | takeExitSignal | installSpace => cases process <;> exact .refl _
    | newSpace | dropSpace | disableInterrupts | setInterrupts => exact .refl _
    | openFile | close => cases still
    | _ => cases quiet

/-- Handles come in use when files are opened, and go out of use when they are closed. -/
theorem handles_flow (permitted : r.Permitted s) (distinct : s.own.handles.Nodup) :
    Flow s.own.handles (r.serve s.own d).2.1.handles (d.volume.isOpen ·)
      ((r.serve s.own d).2.2.volume.isOpen ·) := by
  cases moves : r.movesHandle with
  | false => exact .keep (handles_serve permitted distinct moves) (sameOpen_serve moves s.own d).isOpen
  | true =>
    cases r with
    | openFile path =>
      cases opened : d.volume.openFile? path with
      | none =>
        simp only [serve, opened]
        exact .keep (.refl _) fun _ => rfl
      | some pair =>
        obtain ⟨shut, isOpen, -⟩ := Volume.openFile?_eq_some opened
        simp only [serve, opened]
        exact .take pair.1 List.perm_middle shut isOpen
    | close h =>
      have inHand := (List.nodup_append.1 distinct).2.1
      refine .give h ?_ (Volume.isOpen_close d.volume h)
      exact ((perm_cons_filter inHand permitted.2).append_left _).trans List.perm_middle
    | _ => cases moves

end DeviceRequest

/-! ## Hands -/

namespace Belongings

variable {b b' : Belongings}

/-- Hands stay in order if they have no more than before, and the state of the process stays. -/
theorem Orderly.of_le (h : b.Orderly) (files : b'.hands.files.length ≤ b.hands.files.length)
    (space : b'.hands.space ≠ none → b.hands.space ≠ none)
    (frame : b'.hands.frame ≠ none → b.hands.frame ≠ none)
    (process : ∀ p, b'.hands.process = some p → b.hands.process = some p)
    (state : ∀ p, b.process = some p → ∃ p', b'.process = some p' ∧ p'.state = p.state) :
    b'.Orderly where
  files some := by
    obtain ⟨p, hosts, alone⟩ := h.files fun none => some (by simpa [none] using files)
    obtain ⟨p', hosts', same⟩ := state p hosts
    exact ⟨p', hosts', fun going => Nat.le_trans files (alone (same ▸ going))⟩
  space some := by
    obtain ⟨p, hosts, idle⟩ := h.space (space some)
    obtain ⟨p', hosts', same⟩ := state p hosts
    exact ⟨p', hosts', same ▸ idle⟩
  frame some := by
    obtain ⟨p, hosts, loading⟩ := h.frame (frame some)
    obtain ⟨p', hosts', same⟩ := state p hosts
    exact ⟨p', hosts', same ▸ loading⟩
  process p held := h.process p (process p held)

/-- Empty hands are in order. -/
theorem orderly_of_empty (empty : b.hands = .empty) : b.Orderly := by
  constructor <;> simp [empty, Hands.empty]

theorem process_modifyProcess {p : Process} {f : Process → Process} (hosts : b.process = some p) :
    (b.modifyProcess f).process = some (f p) := by
  simp [Belongings.modifyProcess, hosts]

namespace Orderly

variable {p : Process}

/-! ### One change at a time -/

theorem setProcess (h : b.Orderly) (hosts : b.process = some p) (p' : Process) (state : p'.state = p.state) :
    Orderly { b with process := some p' } :=
  h.of_le (Nat.le_refl _) id id (fun _ => id) fun q hosts' =>
    ⟨p', rfl, by rw [state, Option.some.inj (hosts.symm.trans hosts')]⟩

theorem modifyProcess (h : b.Orderly) {f : Process → Process} (state : ∀ p, (f p).state = p.state) :
    (b.modifyProcess f).Orderly :=
  h.of_le (Nat.le_refl _) id id (fun _ => id) fun p hosts =>
    ⟨f p, process_modifyProcess hosts, state p⟩

theorem modifyChildren (h : b.Orderly) (f : Children → Children) (family : Family) :
    (b.modifyChildren f family).Orderly := by
  cases family with
  | process => exact h.modifyProcess fun _ => rfl
  | kin | initial => exact h.of_le (Nat.le_refl _) id id (fun _ => id) fun p hosts => ⟨p, hosts, rfl⟩

theorem setFiles (h : b.Orderly) (hosts : b.process = some p) (files : List Handle)
    (few : p.state ≠ .exiting → files.length ≤ 1) :
    Orderly { b with hands := { b.hands with files := files } } :=
  ⟨fun _ => ⟨p, hosts, few⟩, h.space, h.frame, h.process⟩

theorem filterFiles (h : b.Orderly) (keep : Handle → Bool) :
    Orderly { b with hands := { b.hands with files := b.hands.files.filter keep } } :=
  h.of_le (List.length_filter_le ..) id id (fun _ => id) fun p hosts => ⟨p, hosts, rfl⟩

theorem setSpace (h : b.Orderly) (hosts : b.process = some p) (idle : p.state ≠ .running)
    (space : Option AddressSpace) : Orderly { b with hands := { b.hands with space := space } } :=
  ⟨h.files, fun _ => ⟨p, hosts, idle⟩, h.frame, h.process⟩

theorem replaceSpace {space : AddressSpace} (h : b.Orderly) (inHand : b.hands.space = some space)
    (space' : AddressSpace) : Orderly { b with hands := { b.hands with space := some space' } } :=
  ⟨h.files, fun _ => h.space (by simp [inHand]), h.frame, h.process⟩

theorem dropSpace (h : b.Orderly) : Orderly { b with hands := { b.hands with space := none } } :=
  ⟨h.files, absurd rfl, h.frame, h.process⟩

theorem setFrame (h : b.Orderly) (hosts : b.process = some p) (loading : p.state = .loading) (f : Frame) :
    Orderly { b with hands := { b.hands with frame := some f } } :=
  ⟨h.files, h.space, fun _ => ⟨p, hosts, loading⟩, h.process⟩

theorem dropFrame (h : b.Orderly) : Orderly { b with hands := { b.hands with frame := none } } :=
  ⟨h.files, h.space, absurd rfl, h.process⟩

theorem setInterrupts (h : b.Orderly) (level : InterruptLevel) : Orderly { b with interrupts := level } :=
  ⟨h.files, h.space, h.frame, h.process⟩

end Orderly

end Belongings

namespace DeviceRequest

variable {r : DeviceRequest} {s : Standing} {d : Devices}

theorem orderly_destroyProcess {b : Belongings} (h : b.Orderly) (d : Devices)
    (bare : ∀ p, b.hands.process = some p → p.Bare) : (serveDestroyProcess b d).2.1.Orderly := by
  rw [serveDestroyProcess]
  split
  · next p held =>
    -- A bare process adds neither files nor a space to what is in hand.
    have bare := bare p held
    have none : ∀ p', (none : Option Process) = some p' → b.hands.process = some p' := fun p' held => by cases held
    refine h.of_le ?_ ?_ id none (fun p hosts => ⟨p, hosts, rfl⟩) <;> simp [bare.files, bare.executable, bare.space]
  · exact h

theorem orderly_of_family? {b : Belongings} {family : Family} (works : r.family? = some family) (h : b.Orderly)
    (d : Devices) : (r.serve b d).2.1.Orderly := by
  obtain ⟨f, own⟩ := own_of_family? works b d
  rw [own]
  exact h.modifyChildren f family

/-- What comes in hand, or goes, is what the state of the process calls for. -/
theorem orderly_of_isManual (manual : r.isManual = true) (permitted : r.Permitted s) (h : s.own.Orderly) :
    (r.serve s.own d).2.1.Orderly := by
  obtain ⟨b, duties⟩ := s
  cases r with
  | newSpace =>
    obtain ⟨⟨p, hosts, loading⟩, -⟩ := permitted
    exact h.setSpace hosts (by simp [loading]) _
  | dropSpace => exact h.dropSpace
  | allocate =>
    obtain ⟨⟨p, hosts, loading⟩, -⟩ := permitted
    simp only [serve, serveAllocate]
    split
    · exact h.setFrame hosts loading _
    · exact h
  | freeFrame =>
    simp only [serve, serveFreeFrame]
    split
    · exact h.dropFrame
    · exact h
  | mapFrame =>
    simp only [serve, serveMapFrame]
    split
    · next inHand _ =>
      split
      · exact (h.replaceSpace inHand _).dropFrame
      · exact h.dropFrame
    · exact h
  | freePage =>
    simp only [serve, serveFreePage]
    split
    · next inHand =>
      split
      · exact h.replaceSpace inHand _
      · exact h
    · exact h
  | openFile =>
    obtain ⟨-, nothing, hosted⟩ := permitted
    have nothing : b.hands.files = [] := nothing
    obtain ⟨p, hosts⟩ := Option.isSome_iff_exists.1 hosted
    simp only [serve]
    split
    · exact h.setFiles hosts _ fun _ => by simp [nothing]
    · exact h
  | close => exact h.filterFiles _
  | _ => cases manual

/-- One file at a time comes in hand, or all at the end of a process. -/
theorem orderly_of_movesFiles (moves : r.movesFiles = true) (permitted : r.Permitted s) (h : s.own.Orderly) :
    (r.serve s.own d).2.1.Orderly := by
  obtain ⟨b, duties⟩ := s
  cases r with
  | takeFiles =>
    obtain ⟨p, hosts, exiting⟩ := permitted
    have h' := h.modifyProcess (f := fun p => { p with files := p.files.drainAll.2 }) fun _ => rfl
    exact h'.setFiles (Belongings.process_modifyProcess hosts) _ (absurd exiting)
  | keepFile =>
    simp only [serve, serveKeepFile]
    split
    · next p hosts =>
      split
      · next files _ => exact (h.setProcess hosts { p with files := files } rfl).filterFiles _
      · exact h
    · exact h
  | takeFile =>
    have nothing : b.hands.files = [] := permitted
    simp only [serve, serveTakeFile]
    split
    · next p hosts =>
      split
      · next files _ =>
        have h' := h.setProcess hosts { p with files := files } rfl
        exact h'.setFiles rfl _ fun _ => by simp [nothing]
      · exact h
    · exact h
  | _ => cases moves

/-- The hands of the thread stay in order. -/
theorem orderly_serve (permitted : r.Permitted s) (h : s.own.Orderly) :
    (r.serve s.own d).2.1.Orderly := by
  cases r with
  | newSpace | dropSpace | allocate | freeFrame | mapFrame | freePage | openFile | close =>
    exact orderly_of_isManual rfl permitted h
  | takeFiles | keepFile | takeFile => exact orderly_of_movesFiles rfl permitted h
  | newProcess =>
    exact h.of_le (Nat.le_refl _) id id (fun _ => id) fun p hosts => by
      cases permitted.1.symm.trans hosts
  | setState => exact Belongings.orderly_of_empty permitted
  | setExitStatus | takeExitSignal => exact h.modifyProcess fun _ => rfl
  | takeExecutable =>
    obtain ⟨p, hosts, exiting⟩ := permitted
    have h' := h.modifyProcess (f := fun p => { p with executable := none }) fun _ => rfl
    exact h'.setFiles (Belongings.process_modifyProcess hosts) _ (absurd exiting)
  | detachSpace =>
    obtain ⟨⟨p, hosts, exiting⟩, -⟩ := permitted
    have h' := h.modifyProcess (f := fun p => { p with space := none }) fun _ => rfl
    simp only [serve]
    split
    · exact h'.setSpace (Belongings.process_modifyProcess hosts) (by simp [exiting]) _
    · exact h
  | detachProcess =>
    obtain ⟨empty, bare⟩ := permitted
    refine ⟨?_, ?_, ?_, bare⟩ <;> simp_all [serve, Hands.empty]
  | destroyProcess => exact orderly_destroyProcess h d permitted
  | installSpace =>
    simp only [serve]
    split
    · next p hosts => exact (h.setProcess hosts { p with space := s.own.hands.space } rfl).dropSpace
    · exact h
  | installExecutable file =>
    simp only [serve]
    split
    · next p hosts => exact (h.setProcess hosts { p with executable := some file } rfl).filterFiles _
    · exact h
  | disableInterrupts | setInterrupts => exact h.setInterrupts _
  | register | takeChildren | takeChild => exact orderly_of_family? rfl h d
  | _ =>
    rw [own_of_isQuiet rfl]
    exact h

end DeviceRequest

end Userland

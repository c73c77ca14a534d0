import Userland.Executable.Loader
import Userland.Proofs.Pages
import Userland.Proofs.Volumes

/-!
# Filling an address space from a file

What a space shows is told page by page: `AddressSpace.contentsAt` gives the bytes of a page and
whether it may be written. A frame is cleared when it is handed out, is not mapped anywhere, and gets
its bytes from the file before it is mapped. So the pages that one loop of the loader maps hold what
the file has at the position where the loop starts, and the pages that were there stay as they are
(`contentsAt_loadPages`).
-/

namespace Userland

/-! ## Running routines -/

namespace Routine

variable {α β : Type}

@[simp] theorem run_pure (x : α) (b : Belongings) (d : Devices) :
    (pure x : Routine α).run b d = (x, b, d) := rfl

theorem run_bind (p : Routine α) (next : α → Routine β) (b : Belongings) (d : Devices) :
    (p >>= next).run b d = (next (p.run b d).1).run (p.run b d).2.1 (p.run b d).2.2 := by
  change Routine.run (Program.bind p next) b d = _
  induction p generalizing b d with
  | pure x => rfl
  | ask r rest ih => exact ih _ _ _

@[simp] theorem run_ask (r : DeviceRequest) (b : Belongings) (d : Devices) :
    (ask r).run b d = r.serve b d := rfl

end Routine

/-! ## What a space holds -/

namespace AddressSpace

variable {s s' : AddressSpace} {pool pool' : FramePool} {f : Frame} {page : VirtAddr}
  {writable : Bool} {n : Nat}

/-- The bytes of page number `n`, and whether it may be written. -/
def contentsAt (s : AddressSpace) (pool : FramePool) (n : Nat) : Option (Page × Bool) :=
  (s.presentAt n).bind fun e =>
    (pool.page? (Frame.ofAddress e.frame)).map fun p => (p, e.flags.writable)

/-- Every frame that is mapped is handed out. -/
def Backed (s : AddressSpace) (pool : FramePool) : Prop := ∀ f ∈ s.frames, pool.inUse f = true

theorem mem_frames_of_presentAt {e : PageEntry} (user : n < userPages)
    (found : s.presentAt n = some e) : Frame.ofAddress e.frame ∈ s.frames :=
  List.mem_map.2 ⟨(pageAddress n, e), mem_pages.2 ⟨n, user, found, rfl⟩, rfl⟩

/-- What a space holds depends on the frames that it maps only. -/
theorem contentsAt_congr (user : n < userPages)
    (same : ∀ f ∈ s.frames, pool'.page? f = pool.page? f) :
    s.contentsAt pool' n = s.contentsAt pool n := by
  unfold contentsAt
  cases found : s.presentAt n with
  | none => rfl
  | some e => simp [same _ (mem_frames_of_presentAt user found)]

theorem contentsAt_map (mapped : s.map page f writable = .ok s') :
    s'.contentsAt pool n =
      if n = page.toNat / pageSize then (pool.page? f).map (·, writable)
      else s.contentsAt pool n := by
  simp only [contentsAt, presentAt_map mapped]
  split
  · simp
  · rfl

/-- A page that is mapped to a frame just handed out holds what was made of that frame, which was zero.
    All other pages stay as they are. -/
theorem contentsAt_fresh (backed : s.Backed pool) (given : pool.allocate? = some (f, pool'))
    (mapped : s.map page f writable = .ok s') (change : Page → Page) (user : n < userPages) :
    s'.contentsAt (pool'.modify f change) n =
      if n = page.toNat / pageSize then some (change (Page.filled 0), writable)
      else s.contentsAt pool n := by
  have others : ∀ g ∈ s.frames, (pool'.modify f change).page? g = pool.page? g := by
    intro g mem
    obtain ⟨different, same⟩ := FramePool.page?_of_allocate? given (backed g mem)
    rw [FramePool.page?_modify, if_neg different, same]
  rw [contentsAt_map mapped, contentsAt_congr user others, FramePool.page?_modify, if_pos rfl,
    FramePool.page?_allocate? given, if_pos rfl]
  rfl

theorem Backed.fresh (backed : s.Backed pool) (given : pool.allocate? = some (f, pool'))
    (mapped : s.map page f writable = .ok s') (change : Page → Page) :
    s'.Backed (pool'.modify f change) := by
  intro g mem
  rw [FramePool.inUse_modify, FramePool.inUse_allocate? given]
  rcases List.mem_cons.1 ((frames_map mapped).mem_iff.1 mem) with rfl | old
  · simp
  · simp [backed g old]

/-- Every mapped page can be seen, with the permission that it was mapped with. -/
theorem writable_eq (backed : s.Backed pool) {a : VirtAddr} (user : a.isUser = true) :
    (s.translate a).map (·.flags.writable) =
      (s.contentsAt pool (a.toNat / pageSize)).map (·.2) := by
  rw [translate_eq, if_pos user, contentsAt]
  cases found : s.presentAt (a.toNat / pageSize) with
  | none => rfl
  | some e =>
    have used := backed _ (mem_frames_of_presentAt (div_lt_userPages user) found)
    obtain ⟨p, held⟩ := Option.isSome_iff_exists.1 (FramePool.isSome_page?_of_inUse used)
    simp [held, PageEntry.translation]

/-- A byte of user memory, as its page has it. -/
theorem byte?_eq {a : VirtAddr} (user : a.isUser = true) :
    s.byte? pool a = (s.contentsAt pool (a.toNat / pageSize)).bind (·.1[a.offset]?) := by
  rw [byte?, translate_eq, if_pos user, contentsAt]
  cases s.presentAt (a.toNat / pageSize) with
  | none => rfl
  | some e =>
    simp only [Option.map_some, Option.bind_some, PageEntry.translation, Option.bind_map]
    rfl

end AddressSpace

/-! ## Filling pages from a file -/

namespace Loader

open DeviceRequest Routine

variable {b b' : Belongings} {d d' : Devices} {s s' : AddressSpace} {file : Handle} {f : FileNode}
  {pos first readBytes count n : Nat} {writable : Bool}

/-- A space is being filled from an open file that stands at position `pos`. -/
structure Filling (b : Belongings) (d : Devices) (s : AddressSpace) (file : Handle) (f : FileNode)
    (pos : Nat) : Prop where
  /-- The space is in the hands of the thread. -/
  inHand : b.hands.space = some s
  /-- Its frames are handed out. -/
  backed : s.Backed d.pool
  /-- The file is open. -/
  reads : d.volume.Reads file f pos

/-- Page `k` of the pages that get their first `readBytes` bytes from position `pos` of a file on. -/
def filePage (f : FileNode) (pos readBytes k : Nat) : Page :=
  (Page.filled 0).write 0
    (f.contents.read (pos + k * pageSize) (min (readBytes - k * pageSize) pageSize))

theorem getElem_filePage (f : FileNode) (pos readBytes k i : Nat) (lt : i < pageSize) :
    (filePage f pos readBytes k)[i] =
      if k * pageSize + i < readBytes then f.contents.get (pos + (k * pageSize + i)) else 0 := by
  rw [filePage, Page.getElem_write, if_pos (Nat.zero_le i), Contents.getElem?_read, Nat.sub_zero]
  have zero : (Page.filled 0)[i] = 0 := by simp [Page.filled]
  by_cases inside : k * pageSize + i < readBytes
  · rw [if_pos (by omega), if_pos inside, Option.getD_some, Nat.add_assoc]
  · rw [if_neg (by omega), if_neg inside, Option.getD_none, zero]

/-- The first page, as it is filled: the bytes of the file, and zeros after them. -/
theorem filePage_zero (f : FileNode) (pos readBytes : Nat) :
    ((Page.filled 0).write 0 (f.contents.read pos (min readBytes pageSize))).clear
      (min readBytes pageSize) = filePage f pos readBytes 0 := by
  refine Vector.ext fun i lt => ?_
  rw [Page.getElem_clear, getElem_filePage _ _ _ _ _ lt, Page.getElem_write, if_pos (Nat.zero_le i),
    Contents.getElem?_read, Nat.sub_zero, Nat.zero_mul, Nat.zero_add]
  by_cases inside : i < readBytes
  · rw [if_pos (by omega), if_pos (by omega), if_pos inside, Option.getD_some]
  · rw [if_neg (by omega), if_neg inside]

/-- After the first page the others follow as if they started there. -/
theorem filePage_succ (f : FileNode) (pos readBytes k : Nat) :
    filePage f (pos + min readBytes pageSize) (readBytes - min readBytes pageSize) k =
      filePage f pos readBytes (k + 1) := by
  refine Vector.ext fun i lt => ?_
  rw [getElem_filePage _ _ _ _ _ lt, getElem_filePage _ _ _ _ _ lt, Nat.succ_mul]
  generalize k * pageSize = start
  by_cases inside : start + pageSize + i < readBytes
  · have whole : min readBytes pageSize = pageSize := by omega
    have place : pos + pageSize + (start + i) = pos + (start + pageSize + i) := by omega
    rw [whole, if_pos (by omega), if_pos inside, place]
  · rw [if_neg (by omega), if_neg inside]

/-! What each request does while a space is being filled. -/

theorem serve_allocate {fr : Frame} {pool : FramePool}
    (given : d.pool.allocate? = some (fr, pool)) :
    ∃ b₁ d₁, allocate.serve b d = (true, b₁, d₁) ∧ b₁.hands.space = b.hands.space ∧
      b₁.hands.frame = some fr ∧ d₁.pool = pool ∧ d₁.volume = d.volume := by
  have served : allocate.serve b d = serveAllocate b d := rfl
  simp only [served, serveAllocate, given]
  exact ⟨_, _, rfl, rfl, rfl, rfl, rfl⟩

theorem serve_allocate_none (given : d.pool.allocate? = none) :
    ∃ d₁, allocate.serve b d = (false, b, d₁) ∧ d₁.pool = d.pool := by
  have served : allocate.serve b d = serveAllocate b d := rfl
  simp only [served, serveAllocate, given]
  exact ⟨_, rfl, rfl⟩

theorem serve_freeFrame {fr : Frame} (held : b.hands.frame = some fr) :
    ∃ b₁ d₁, freeFrame.serve b d = ((), b₁, d₁) ∧ b₁.hands.space = b.hands.space ∧
      d₁.pool = d.pool.release fr := by
  have served : freeFrame.serve b d = serveFreeFrame b d := rfl
  simp only [served, serveFreeFrame, held]
  exact ⟨_, _, rfl, rfl, rfl⟩

theorem serve_openFile {path : String} {volume : Volume}
    (opened : d.volume.openFile? path = some (file, volume)) :
    ∃ b₁ d₁, (openFile path).serve b d = (some file, b₁, d₁) ∧ d₁.volume = volume := by
  simp only [serve, opened]
  exact ⟨_, _, rfl, rfl⟩

theorem serve_openFile_none {path : String} (refused : d.volume.openFile? path = none) :
    ∃ d₁, (openFile path).serve b d = (none, b, d₁) := by
  simp only [serve, refused]
  exact ⟨_, rfl⟩

theorem serve_deny (reads : d.volume.Reads file f pos) :
    ∃ d₁, (deny file).serve b d = ((), b, d₁) ∧ d₁.volume.Reads file f pos :=
  ⟨_, rfl, reads.deny⟩

theorem serve_length (file : Handle) (b : Belongings) (d : Devices) :
    (DeviceRequest.length file).serve b d = (d.volume.length file, b, d) := rfl

/-- Reading changes the length of no file. -/
theorem length_serve_read (file : Handle) (n : Nat) (b : Belongings) (d : Devices) (g : Handle) :
    ((DeviceRequest.read file n).serve b d).2.2.volume.length g = d.volume.length g :=
  d.volume.length_read file n g

theorem serve_seek (reads : d.volume.Reads file f pos) (position : UInt32) :
    ∃ d₁, (DeviceRequest.seek file position).serve b d = ((), b, d₁) ∧ d₁.pool = d.pool ∧
      d₁.volume.Reads file f position.toNat :=
  ⟨_, rfl, rfl, reads.seek position⟩

theorem serve_read (finite : f.endless = false) (short : f.size < positionLimit)
    (reads : d.volume.Reads file f pos) (n : Nat) :
    ∃ d₁, (DeviceRequest.read file n).serve b d =
        (f.contents.read pos (min n (f.size - pos)), b, d₁) ∧
      d₁.pool = d.pool ∧ d₁.volume.Reads file f (pos + min n (f.size - pos)) := by
  obtain ⟨data, after⟩ := reads.read finite short n
  simp only [serve, ← data]
  exact ⟨_, rfl, rfl, after⟩

theorem serve_fill {fr : Frame} (held : b.hands.frame = some fr) (data : Bytes) :
    ∃ d₁, (fill 0 data).serve b d = ((), b, d₁) ∧ d₁.pool = d.pool.write fr 0 data ∧
      d₁.volume = d.volume := by
  simp only [serve, held]
  exact ⟨_, rfl, rfl, rfl⟩

theorem serve_clear {fr : Frame} (held : b.hands.frame = some fr) (offset : Nat) :
    ∃ d₁, (clear offset).serve b d = ((), b, d₁) ∧ d₁.pool = d.pool.clear fr offset ∧
      d₁.volume = d.volume := by
  simp only [serve, held]
  exact ⟨_, rfl, rfl, rfl⟩

theorem serve_mapFrame {fr : Frame} {page : VirtAddr} (space : b.hands.space = some s)
    (held : b.hands.frame = some fr) (mapped : s.map page fr writable = .ok s') :
    ∃ b₁, (mapFrame page writable).serve b d = (.ok (), b₁, d) ∧ b₁.hands.space = some s' := by
  have served : (mapFrame page writable).serve b d = serveMapFrame page writable b d := rfl
  simp only [served, serveMapFrame, space, held, mapped]
  exact ⟨_, rfl, rfl⟩

theorem serve_mapFrame_error {fr : Frame} {page : VirtAddr} {e : MappingError}
    (space : b.hands.space = some s) (held : b.hands.frame = some fr)
    (refused : s.map page fr writable = .error e) :
    ∃ b₁ d₁, (mapFrame page writable).serve b d = (.error e, b₁, d₁) ∧ b₁.hands.space = some s ∧
      d₁.pool = d.pool.release fr := by
  have served : (mapFrame page writable).serve b d = serveMapFrame page writable b d := rfl
  simp only [served, serveMapFrame, space, held, refused]
  exact ⟨_, _, rfl, rfl, rfl⟩

/-- What the loop does with one page: it stops for lack of a frame, of bytes in the file or of a free
    place, or it goes on with a page more. -/
theorem loadPages_succ (finite : f.endless = false) (short : f.size < positionLimit)
    (filling : Filling b d s file f pos) (page readBytes count : Nat) :
    (d.pool.allocate? = none ∧
      ((loadPages file writable page readBytes (count + 1)).run b d).1 =
        .error (.mapping .outOfMemory)) ∨
    (f.size - pos < min readBytes pageSize ∧
      ((loadPages file writable page readBytes (count + 1)).run b d).1 = .error .shortRead) ∨
    (∃ e, s.checkMappable (.ofNat page) = .error e ∧
      ((loadPages file writable page readBytes (count + 1)).run b d).1 = .error (.mapping e)) ∨
    ∃ b₁ d₁ s₁ fr pool, d.pool.allocate? = some (fr, pool) ∧
      min readBytes pageSize ≤ f.size - pos ∧ s.map (.ofNat page) fr writable = .ok s₁ ∧
      d₁.pool = (pool.modify fr fun p =>
        (p.write 0 (f.contents.read pos (min readBytes pageSize))).clear (min readBytes pageSize)) ∧
      Filling b₁ d₁ s₁ file f (pos + min readBytes pageSize) ∧
      (loadPages file writable page readBytes (count + 1)).run b d =
        (loadPages file writable (page + pageSize) (readBytes - min readBytes pageSize)
          count).run b₁ d₁ := by
  rw [loadPages, run_bind, run_ask]
  cases given : d.pool.allocate? with
  | none =>
    obtain ⟨d₁, refused, -⟩ := serve_allocate_none (b := b) given
    rw [refused]
    exact .inl ⟨rfl, rfl⟩
  | some handed =>
    obtain ⟨fr, pool⟩ := handed
    obtain ⟨b₁, d₁, allocated, space₁, held, rfl, volume₁⟩ := serve_allocate (b := b) given
    obtain ⟨d₂, got, pool₂, reads₂⟩ :=
      serve_read (b := b₁) finite short (volume₁ ▸ filling.reads) (min readBytes pageSize)
    rw [allocated, if_pos rfl, run_bind, run_ask, got]
    simp only [Contents.length_read]
    by_cases whole : min readBytes pageSize ≤ f.size - pos
    · rw [Nat.min_eq_left whole] at reads₂ ⊢
      obtain ⟨d₃, stored, pool₃, volume₃⟩ :=
        serve_fill (d := d₂) held (f.contents.read pos (min readBytes pageSize))
      obtain ⟨d₄, cleared, pool₄, volume₄⟩ := serve_clear (d := d₃) held (min readBytes pageSize)
      rw [pool₃, pool₂, FramePool.clear, FramePool.write, FramePool.modify_modify] at pool₄
      rw [if_pos rfl, run_bind, run_ask, stored, run_bind, run_ask, cleared, run_bind, run_ask]
      have inHand := space₁.trans filling.inHand
      cases mapped : s.map (.ofNat page) fr writable with
      | error e =>
        obtain ⟨b₅, d₅, refused, -⟩ := serve_mapFrame_error (d := d₄) inHand held mapped
        rw [refused]
        exact .inr (.inr (.inl ⟨e, AddressSpace.map_eq_error mapped, rfl⟩))
      | ok s₁ =>
        obtain ⟨b₅, done, space₅⟩ := serve_mapFrame (d := d₄) inHand held mapped
        rw [done]
        exact .inr (.inr (.inr ⟨b₅, d₄, s₁, fr, d₁.pool, rfl, whole, mapped, pool₄,
          ⟨space₅, pool₄ ▸ filling.backed.fresh given mapped _, volume₄ ▸ volume₃ ▸ reads₂⟩,
          rfl⟩))
    · rw [if_neg (by omega)]
      exact .inr (.inl ⟨Nat.lt_of_not_le whole, rfl⟩)

/-- The pages that a loop maps were free, and hold what the file has from the loop's start on. -/
theorem contentsAt_loadPages (finite : f.endless = false) (short : f.size < positionLimit)
    (filling : Filling b d s file f pos) (user : first + count ≤ AddressSpace.userPages)
    (loaded : (loadPages file writable (first * pageSize) readBytes count).run b d =
      (.ok (), b', d')) :
    ∃ s', Filling b' d' s' file f (pos + min readBytes (count * pageSize)) ∧
      (0 < min readBytes (count * pageSize) → pos + min readBytes (count * pageSize) ≤ f.size) ∧
      ∀ n < AddressSpace.userPages,
        if first ≤ n ∧ n < first + count then
          s.presentAt n = none ∧
            s'.contentsAt d'.pool n = some (filePage f pos readBytes (n - first), writable)
        else s'.contentsAt d'.pool n = s.contentsAt d.pool n := by
  induction count generalizing b d s pos first readBytes with
  | zero =>
    cases loaded
    refine ⟨s, by simpa using filling, by simp, fun n _ => ?_⟩
    rw [if_neg (by omega)]
  | succ count ih =>
    rcases loadPages_succ finite short filling (first * pageSize) readBytes count with
      ⟨-, failed⟩ | ⟨-, failed⟩ | ⟨e, -, failed⟩ |
      ⟨b₁, d₁, s₁, fr, pool, given, whole, mapped, pool₁, filling₁, goes⟩
    -- A loop that stops early does not succeed.
    iterate 3
      rw [loaded] at failed
      cases failed
    rw [goes, ← Nat.succ_mul] at loaded
    obtain ⟨s', filling', inFile, pages⟩ := ih filling₁ (by omega) loaded
    have total : min readBytes pageSize +
        min (readBytes - min readBytes pageSize) (count * pageSize) =
          min readBytes ((count + 1) * pageSize) := by
      rw [Nat.succ_mul]
      omega
    rw [Nat.add_assoc, total] at filling' inFile
    refine ⟨s', filling', fun some => ?_, fun n lt => ?_⟩
    · by_cases more : 0 < min (readBytes - min readBytes pageSize) (count * pageSize)
      · exact inFile more
      · omega
    have number := AddressSpace.number_of_lt (n := first) (by omega)
    have free : s.presentAt first = none := by
      have := AddressSpace.checkMappable_eq_ok.1 (AddressSpace.map_eq_ok mapped).1
      rw [number] at this
      exact this.2.2.2
    have fresh := AddressSpace.contentsAt_fresh filling.backed given mapped
      (fun p => (p.write 0 (f.contents.read pos (min readBytes pageSize))).clear
        (min readBytes pageSize)) lt
    rw [number, ← pool₁, filePage_zero] at fresh
    have present := AddressSpace.presentAt_map mapped n
    rw [number] at present
    have page := pages n lt
    by_cases here : n = first
    · subst here
      rw [if_neg (by omega)] at page
      rw [if_pos (by omega), page, fresh, if_pos rfl, Nat.sub_self]
      exact ⟨free, rfl⟩
    · rw [if_neg here] at present fresh
      by_cases later : first < n ∧ n < first + (count + 1)
      · have next : n - first = n - (first + 1) + 1 := by omega
        rw [if_pos (by omega), filePage_succ, ← next, present] at page
        rwa [if_pos (by omega)]
      · rw [if_neg (by omega)] at page
        rw [if_neg (by omega), page, fresh]

end Loader

end Userland

import Userland.Proofs.Filling

/-!
# Reading and writing user memory

The kernel reads and writes user memory piece by piece, each piece within a page. Seen byte by byte this
is simple. Reading gives the bytes one after the other (`readFrom_eq_ok`). Writing stores a byte if all
pages from the first one up to that of the byte are mapped, and changes no other byte of the space
(`byte?_writeFrom`) and no frame that the space does not map (`page?_writeFrom`), provided that no two
pages of the space share a frame.
-/

namespace Userland

namespace AddressSpace

variable {s : AddressSpace} {pool pool' : FramePool} {a x start : VirtAddr} {t : Translation}
  {f g : Frame} {data bs : Bytes} {done todo n k : Nat}

/-! ## Mapped pages -/

theorem toNat_injective {a x : VirtAddr} (same : a.toNat = x.toNat) : a = x := by
  cases a
  cases x
  cases same
  rfl

theorem isUser_iff : a.isUser = true ↔ a.toNat / pageSize < userPages := by
  simp only [VirtAddr.isUser, decide_eq_true_eq, userTop, userPages, pageSize]
  omega

/-- Page number `n` is a user page that is mapped. -/
def Maps (s : AddressSpace) (n : Nat) : Prop := n < userPages ∧ (s.presentAt n).isSome = true

theorem isSome_translate : (s.translate a).isSome = true ↔ s.Maps (a.toNat / pageSize) := by
  rw [translate_eq, Maps, ← isUser_iff]
  by_cases user : a.isUser = true
  · simp [user]
  · simp [user]

theorem translate_eq_some : s.translate a = some t ↔ a.toNat / pageSize < userPages ∧
    ∃ e, s.presentAt (a.toNat / pageSize) = some e ∧ e.translation = t := by
  rw [translate_eq, ← isUser_iff]
  by_cases user : a.isUser = true
  · simp [user]
  · simp [user]

theorem mem_frames_of_translate (found : s.translate a = some t) : t.frame ∈ s.frames := by
  obtain ⟨user, e, present, rfl⟩ := translate_eq_some.1 found
  exact mem_frames_of_presentAt user present

/-- A space sees only the frames that it maps. -/
theorem byte?_congr (same : ∀ f ∈ s.frames, pool'.page? f = pool.page? f) (a : VirtAddr) :
    s.byte? pool' a = s.byte? pool a := by
  rw [byte?, byte?]
  cases found : s.translate a with
  | none => rfl
  | some t => rw [Option.bind_some, Option.bind_some, same _ (mem_frames_of_translate found)]

/-- In a space that maps each frame once, a frame tells its page. -/
theorem number_of_frame (once : s.frames.Nodup) {e e' : PageEntry} (user : n < userPages)
    (user' : k < userPages) (found : s.presentAt n = some e) (found' : s.presentAt k = some e')
    (same : Frame.ofAddress e.frame = Frame.ofAddress e'.frame) : n = k := by
  have listed := mem_pages.2 ⟨n, user, found, rfl⟩
  have listed' := mem_pages.2 ⟨k, user', found', rfl⟩
  have pair := List.inj_on_of_nodup_map once listed listed' same
  exact pageAddress_inj user user' (congrArg Prod.fst pair)

/-! ## Writing -/

/-- A byte stored within a page is seen at its address, and no other byte changes. -/
theorem byte?_write (bs : Bytes) (once : s.frames.Nodup) (backed : s.Backed pool)
    (found : s.translate a = some t) (fits : a.offset + bs.length ≤ pageSize) (x : VirtAddr) :
    s.byte? (pool.write t.frame a.offset bs) x =
      if a.toNat ≤ x.toNat ∧ x.toNat < a.toNat + bs.length then bs[x.toNat - a.toNat]?
      else s.byte? pool x := by
  obtain ⟨user, e, present, rfl⟩ := translate_eq_some.1 found
  by_cases here : x.toNat / pageSize = a.toNat / pageSize
  · -- Both addresses lie in one page, so they are compared by their offsets.
    have same : s.translate x = some e.translation := by
      rw [translate_eq_some, here]
      exact ⟨user, e, present, rfl⟩
    have used := backed _ (mem_frames_of_presentAt user present)
    obtain ⟨p, held⟩ := Option.isSome_iff_exists.1 (FramePool.isSome_page?_of_inUse used)
    have held' : pool.page? e.translation.frame = some p := held
    have lt := x.offset_lt
    rw [byte?, byte?, same, Option.bind_some, Option.bind_some, FramePool.page?_write, if_pos rfl,
      held', Option.map_some, Option.bind_some, Option.bind_some, Vector.getElem?_eq_getElem lt,
      Vector.getElem?_eq_getElem lt, Page.getElem_write]
    have place : a.offset = a.toNat % pageSize := rfl
    have place' : x.offset = x.toNat % pageSize := rfl
    simp only [pageSize] at here fits lt place place'
    by_cases inside : a.toNat ≤ x.toNat ∧ x.toNat < a.toNat + bs.length
    · have distance : x.offset - a.offset = x.toNat - a.toNat := by omega
      rw [if_pos inside, if_pos (by omega), distance,
        List.getElem?_eq_getElem (show x.toNat - a.toNat < bs.length by omega), Option.getD_some]
    · rw [if_neg inside]
      split
      · rw [List.getElem?_eq_none (by omega), Option.getD_none]
      · rfl
  · have outside : ¬ (a.toNat ≤ x.toNat ∧ x.toNat < a.toNat + bs.length) := by
      simp only [VirtAddr.offset, pageSize] at *
      omega
    rw [if_neg outside, byte?, byte?]
    cases other : s.translate x with
    | none => rfl
    | some u =>
      obtain ⟨user', e', present', rfl⟩ := translate_eq_some.1 other
      have apart : e'.translation.frame ≠ e.translation.frame := fun same =>
        here (number_of_frame once user' user present' present same)
      rw [Option.bind_some, Option.bind_some, FramePool.page?_write, if_neg apart]

/-- A write of `count` bytes from `first` on gets to address `x`: all pages up to there are mapped. -/
structure Gets (s : AddressSpace) (first count x : Nat) : Prop where
  /-- It does not start after `x`. -/
  start : first ≤ x
  /-- Nor does it end before. -/
  stop : x < first + count
  /-- No page on the way is missing. -/
  mapped : ∀ n, first / pageSize ≤ n → n ≤ x / pageSize → s.Maps n

/-- A write of which a piece lies within a page gets to the addresses of the piece, and where the rest of it
    gets to. -/
theorem gets_iff_piece {first count piece x : Nat}
    (cut : piece = min (pageSize - first % pageSize) count) (below : s.Maps (first / pageSize)) :
    s.Gets first count x ↔
      (first ≤ x ∧ x < first + piece) ∨ s.Gets (first + piece) (count - piece) x := by
  constructor
  · intro gets
    have := gets.start
    have := gets.stop
    rcases Nat.lt_or_ge x (first + piece) with near | far
    · exact .inl ⟨gets.start, near⟩
    · exact .inr ⟨far, by omega, fun n lower upper =>
        gets.mapped n (Nat.le_trans (Nat.div_le_div_right (by omega)) lower) upper⟩
  · rintro (⟨start, near⟩ | ⟨start, stop, mapped⟩)
    · refine ⟨start, by omega, fun n lower upper => ?_⟩
      have : n = first / pageSize := by
        simp only [pageSize] at *
        omega
      exact this ▸ below
    · refine ⟨by omega, by omega, fun n lower upper => ?_⟩
      rcases Nat.eq_or_lt_of_le lower with rfl | after
      · exact below
      · refine mapped n ?_ upper
        -- A piece that is not the last one ends with its page.
        simp only [pageSize] at *
        omega

theorem Backed.write (backed : s.Backed pool) (f : Frame) (offset : Nat) (bs : Bytes) :
    s.Backed (pool.write f offset bs) :=
  fun g mem => (FramePool.inUse_write ..).trans (backed g mem)

/-- What a write leaves at each address. -/
theorem byte?_writeFrom (once : s.frames.Nodup) (backed : s.Backed pool) (start : VirtAddr)
    (done : Nat) (data : Bytes) (x : VirtAddr) :
    (s.Gets (start.toNat + done) data.length x.toNat →
      s.byte? (s.writeFrom pool start done data).2 x = data[x.toNat - (start.toNat + done)]?) ∧
    (¬ s.Gets (start.toNat + done) data.length x.toNat →
      s.byte? (s.writeFrom pool start done data).2 x = s.byte? pool x) := by
  fun_induction writeFrom s pool start done data with
  | case1 pool done data empty =>
    have : data.length = 0 := by simpa using empty
    refine ⟨fun gets => ?_, fun _ => rfl⟩
    have := gets.start
    have := gets.stop
    omega
  | case2 pool done data some far =>
    have : ¬ start.toNat + done < addressLimit := by simpa [VirtAddr.add?] using far
    have := x.isLt
    refine ⟨fun gets => ?_, fun _ => rfl⟩
    have := gets.start
    omega
  | case3 pool done data some a reached unmapped =>
    refine ⟨fun gets => ?_, fun _ => rfl⟩
    have number := VirtAddr.add?_eq_some.1 reached
    have first := gets.mapped (a.toNat / pageSize) (Nat.le_of_eq (number ▸ rfl))
      (Nat.div_le_div_right (number ▸ gets.start))
    rw [← isSome_translate, unmapped] at first
    cases first
  | case4 pool done data some a reached t found piece ih =>
    have number := VirtAddr.add?_eq_some.1 reached
    have place : a.offset = a.toNat % 4096 := rfl
    have bound : a.offset < 4096 := a.offset_lt
    have cut : piece = min (4096 - a.offset) data.length := rfl
    clear_value piece
    have length : (data.take piece).length = piece := by
      rw [List.length_take]
      omega
    have below : s.Maps (a.toNat / pageSize) := isSome_translate.1 (by rw [found]; rfl)
    have here := byte?_write (data.take piece) once backed found
      (by simp only [pageSize]; omega) x
    obtain ⟨later, other⟩ := ih (backed.write _ _ _)
    have gets_iff := gets_iff_piece (x := x.toNat) cut below
    rw [length] at here
    rw [List.length_drop, ← Nat.add_assoc, ← number] at later other
    rw [← number, gets_iff]
    constructor
    · rintro (near | next)
      · -- The byte is in the first piece, which the later pieces do not touch.
        have stays : ¬ s.Gets (a.toNat + piece) (data.length - piece) x.toNat :=
          fun late => Nat.not_le.2 near.2 late.start
        rw [other stays, here, if_pos near, List.getElem?_take, if_pos (by omega)]
      · have := next.start
        rw [later next, List.getElem?_drop]
        congr 1
        omega
    · intro away
      rw [other fun late => away (.inr late), here, if_neg fun near => away (.inl near)]

/-- A write changes no frame that the space does not map. -/
theorem page?_writeFrom (pool : FramePool) (notMem : f ∉ s.frames) (start : VirtAddr) (done : Nat)
    (data : Bytes) :
    (s.writeFrom pool start done data).2.page? f = pool.page? f := by
  fun_induction writeFrom s pool start done data with
  | case1 => rfl
  | case2 => rfl
  | case3 => rfl
  | case4 pool done data some a reached t found piece ih =>
    have other : f ≠ t.frame := fun same => notMem (same ▸ mem_frames_of_translate found)
    rw [ih, FramePool.page?_write, if_neg other]

/-- The page of a mapped address has all of its addresses, and they are mapped. -/
theorem exists_in_page (found : s.translate a = some t) (fits : a.offset + k < pageSize) :
    ∃ x : VirtAddr, x.toNat = a.toNat + k ∧ (s.translate x).isSome = true := by
  have below : s.Maps (a.toNat / pageSize) := isSome_translate.1 (by rw [found]; rfl)
  have place : a.offset = a.toNat % 4096 := rfl
  have reach : a.toNat + k < addressLimit := by
    have := below.1
    simp only [userPages, userTop, pageSize, addressLimit] at *
    omega
  refine ⟨⟨a.toNat + k, reach⟩, rfl, isSome_translate.2 ?_⟩
  have : (a.toNat + k) / pageSize = a.toNat / pageSize := by
    simp only [pageSize] at *
    omega
  rwa [this]

/-- A write succeeds exactly if all of its bytes are stored. -/
theorem writeFrom_eq_ok (start : VirtAddr) (done : Nat) (data : Bytes) :
    (s.writeFrom pool start done data).1 = .ok () ↔
      ∀ k < data.length, ∃ a : VirtAddr, a.toNat = start.toNat + done + k ∧
        (s.translate a).isSome = true := by
  fun_induction writeFrom s pool start done data with
  | case1 pool done data empty =>
    have : data.length = 0 := by simpa using empty
    simp [this]
  | case2 pool done data some far =>
    have past : ¬ start.toNat + done < addressLimit := by simpa [VirtAddr.add?] using far
    have : data.length ≠ 0 := by simpa using some
    refine ⟨by simp, fun all => ?_⟩
    obtain ⟨a, number, -⟩ := all 0 (by omega)
    exact absurd (number ▸ a.isLt) past
  | case3 pool done data some a reached unmapped =>
    have : data.length ≠ 0 := by simpa using some
    refine ⟨by simp, fun all => ?_⟩
    obtain ⟨a', number, mapped⟩ := all 0 (by omega)
    have same : a' = a := toNat_injective (number.trans (VirtAddr.add?_eq_some.1 reached).symm)
    rw [same, unmapped] at mapped
    cases mapped
  | case4 pool done data some a reached t found piece ih =>
    have number := VirtAddr.add?_eq_some.1 reached
    have place : a.offset = a.toNat % 4096 := rfl
    have bound : a.offset < 4096 := a.offset_lt
    have cut : piece = min (4096 - a.offset) data.length := rfl
    clear_value piece
    rw [ih, List.length_drop]
    constructor
    · intro all k lt
      by_cases near : k < piece
      · -- The first piece lies in the page of its first byte.
        obtain ⟨x, there, mapped⟩ := exists_in_page (k := k) found (by simp only [pageSize]; omega)
        exact ⟨x, by omega, mapped⟩
      · obtain ⟨a', number', mapped⟩ := all (k - piece) (by omega)
        exact ⟨a', by omega, mapped⟩
    · intro all k lt
      obtain ⟨a', number', mapped⟩ := all (piece + k) (by omega)
      exact ⟨a', by omega, mapped⟩

/-! ## Reading -/

/-- A piece within a page is read byte by byte. -/
theorem getElem?_pool_read (backed : s.Backed pool) (found : s.translate a = some t)
    (fits : a.offset + n ≤ pageSize) (lt : k < n) (same : x.toNat = a.toNat + k) :
    (pool.read t.frame a.offset n)[k]? = s.byte? pool x := by
  obtain ⟨user, e, present, rfl⟩ := translate_eq_some.1 found
  have place : a.offset = a.toNat % 4096 := rfl
  have place' : x.offset = x.toNat % 4096 := rfl
  have number : x.toNat / pageSize = a.toNat / pageSize := by
    simp only [pageSize] at *
    omega
  have offset : a.offset + k = x.offset := by
    simp only [pageSize] at *
    omega
  have here : s.translate x = some e.translation := by
    rw [translate_eq_some, number]
    exact ⟨user, e, present, rfl⟩
  have used := backed _ (mem_frames_of_presentAt user present)
  obtain ⟨p, held⟩ := Option.isSome_iff_exists.1 (FramePool.isSome_page?_of_inUse used)
  have held' : pool.page? e.translation.frame = some p := held
  rw [byte?, here, Option.bind_some, held', Option.bind_some, FramePool.read, held']
  simp only [Page.read_eq, List.getElem?_take, List.getElem?_drop, lt, if_true]
  rw [offset, Vector.getElem?_toList]

theorem length_pool_read (backed : s.Backed pool) (found : s.translate a = some t)
    (fits : a.offset + n ≤ pageSize) : (pool.read t.frame a.offset n).length = n := by
  obtain ⟨p, held⟩ := Option.isSome_iff_exists.1
    (FramePool.isSome_page?_of_inUse (backed _ (mem_frames_of_translate found)))
  simp only [FramePool.read, held, Page.read_eq, List.length_take, List.length_drop,
    Vector.length_toList]
  omega

/-- A read succeeds exactly if all of its bytes are mapped, and gives them one after the other. -/
theorem readFrom_eq_ok (backed : s.Backed pool) (start : VirtAddr) (done todo : Nat) (bs : Bytes) :
    s.readFrom pool start done todo = .ok bs ↔ bs.length = todo ∧
      ∀ k < todo, ∃ a : VirtAddr, a.toNat = start.toNat + done + k ∧ s.byte? pool a = bs[k]? := by
  fun_induction readFrom s pool start done todo generalizing bs with
  | case1 done =>
    simp [eq_comm]
  | case2 done todo some far =>
    have past : ¬ start.toNat + done < addressLimit := by simpa [VirtAddr.add?] using far
    refine ⟨by simp, fun read => ?_⟩
    obtain ⟨a, number, -⟩ := read.2 0 (by omega)
    exact absurd (number ▸ a.isLt) past
  | case3 done todo some a reached unmapped =>
    refine ⟨by simp, fun read => ?_⟩
    have length := read.1
    obtain ⟨a', number, shown⟩ := read.2 0 (by omega)
    have same : a' = a := toNat_injective (number.trans (VirtAddr.add?_eq_some.1 reached).symm)
    rw [same, byte?, unmapped, Option.bind_none, eq_comm, List.getElem?_eq_none_iff] at shown
    omega
  | case4 done todo some a reached t found piece ih =>
    have number := VirtAddr.add?_eq_some.1 reached
    have place : a.offset = a.toNat % 4096 := rfl
    have bound : a.offset < 4096 := a.offset_lt
    have cut : piece = min (4096 - a.offset) todo := rfl
    clear_value piece
    have fits : a.offset + piece ≤ pageSize := by
      simp only [pageSize]
      omega
    have near {k : Nat} {x : VirtAddr} (lt : k < piece) (same : x.toNat = a.toNat + k) :=
      getElem?_pool_read backed found fits lt same
    have length := length_pool_read backed found fits
    constructor
    · intro got
      obtain ⟨rest, later, rfl⟩ : ∃ rest, s.readFrom pool start (done + piece) (todo - piece) =
          .ok rest ∧ bs = pool.read t.frame a.offset piece ++ rest := by
        cases later : s.readFrom pool start (done + piece) (todo - piece) with
        | error e =>
          rw [later] at got
          cases got
        | ok rest =>
          rw [later] at got
          exact ⟨rest, rfl, (Except.ok.inj got).symm⟩
      obtain ⟨length', all⟩ := (ih rest).1 later
      refine ⟨by rw [List.length_append, length, length']; omega, fun k lt => ?_⟩
      rcases Nat.lt_or_ge k piece with first | after
      · obtain ⟨x, there, -⟩ := exists_in_page (k := k) found (by omega)
        refine ⟨x, by omega, ?_⟩
        rw [List.getElem?_append_left (length.symm ▸ first)]
        exact (near first there).symm
      · obtain ⟨a', number', shown⟩ := all (k - piece) (by omega)
        refine ⟨a', by omega, ?_⟩
        rw [List.getElem?_append_right (length.symm ▸ after), length]
        exact shown
    · rintro ⟨length', all⟩
      have first : bs.take piece = pool.read t.frame a.offset piece := by
        refine List.ext_getElem? fun k => ?_
        rcases Nat.lt_or_ge k piece with inside | outside
        · obtain ⟨a', number', shown⟩ := all k (by omega)
          rw [List.getElem?_take, if_pos inside, ← shown]
          exact (near inside (by omega)).symm
        · rw [List.getElem?_eq_none (by rw [List.length_take]; omega),
            List.getElem?_eq_none (by omega)]
      have later : s.readFrom pool start (done + piece) (todo - piece) = .ok (bs.drop piece) := by
        refine (ih _).2 ⟨by rw [List.length_drop, length'], fun k lt => ?_⟩
        obtain ⟨a', number', shown⟩ := all (piece + k) (by omega)
        exact ⟨a', by omega, by rw [List.getElem?_drop, shown]⟩
      rw [later, ← first]
      exact congrArg Except.ok (List.take_append_drop piece bs)

end AddressSpace

end Userland

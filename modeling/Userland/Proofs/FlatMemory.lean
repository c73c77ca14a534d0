import Userland.Proofs.Isolation
import Userland.Proofs.Shielding
import Userland.Proofs.Views

/-!
# User memory as a flat row of bytes

The kernel reads and stores bytes of user memory in pieces that end with a page, each in the frame that the
page is mapped to (`AddressSpace.walk`). Seen by addresses there are no pieces (`AddressSpace.IsFlat`): a read
gives the bytes one after the other, a write puts its bytes over those that are there and changes no other,
and both succeed if every address of the range is mapped. A write that fails has stored the bytes before the
lowest address that is not mapped (`AddressSpace.FirstGap`), and nothing else.

All that rests on one thing, that each page of the space has a frame to itself (`AddressSpace.Owns`). Whatever
is done with spaces that share a pool, each of them keeps to that, and so does the memory of each process
(`AddressSpace.flat_memory`).
-/

namespace Userland

namespace AddressSpace

/-- No two pages of a space share a frame, and the frames of all of them are handed out. -/
structure Owns (s : AddressSpace) (pool : FramePool) : Prop where
  once : s.frames.Nodup
  backed : s.Backed pool

end AddressSpace

/-- A space that shares its pool with others owns its frames. -/
theorem Tenants.owns_run {d : Devices} (unused : d.pool.usedFrames = 0) {ops : List TenantOp} {i : Nat}
    {s : AddressSpace} (found : (run d ops).1.space? i = some s) : s.Owns (run d ops).1.pool :=
  ⟨(sound_run unused ops).nodup_frames found, (sound_run unused ops).backed found⟩

/-- The memory of a process owns its frames. -/
theorem Scenario.owns_space {x : Scenario} {turns : ℕ → Turn} {i : ℕ} {t : Tid} {s : AddressSpace}
    (has : ((x.machineAt turns i).thread t).own.space? = some s) : s.Owns (x.machineAt turns i).devices.pool :=
  ⟨(nodup_frames_append has).of_append_left, backed_of_space has⟩

namespace AddressSpace

variable {s : AddressSpace} {pool : FramePool} {start a b : VirtAddr} {n done rounds x : Nat} {data : Bytes}

/-! ## Ranges of addresses -/

/-- From `start` on there are the bytes `bs`. -/
def HasRow (s : AddressSpace) (pool : FramePool) (start : VirtAddr) (bs : Bytes) : Prop :=
  ∀ k < bs.length, ∃ a, start.add? k = some a ∧ s.byte? pool a = bs[k]?

/-- Each of the `n` addresses from `start` on exists and is mapped. -/
def MapsRange (s : AddressSpace) (start : VirtAddr) (n : Nat) : Prop :=
  ∀ k < n, ∃ a, start.add? k = some a ∧ (s.translate a).isSome = true

/-- Of the `n` addresses from `start` on, `a` is the lowest that is not mapped. -/
structure FirstGap (s : AddressSpace) (start : VirtAddr) (n : Nat) (a : VirtAddr) : Prop where
  lower : start.toNat ≤ a.toNat
  upper : a.toNat < start.toNat + n
  missing : s.translate a = none
  before : ∀ b : VirtAddr, start.toNat ≤ b.toNat → b.toNat < a.toNat → (s.translate b).isSome = true

theorem exists_of_mapsRange (maps : s.MapsRange start n) (lower : start.toNat ≤ b.toNat)
    (upper : b.toNat < start.toNat + n) : (s.translate b).isSome = true := by
  obtain ⟨k, here⟩ := Nat.exists_eq_add_of_le lower
  obtain ⟨a, there, mapped⟩ := maps k (by omega)
  obtain rfl : b = a := toNat_injective (here.trans (VirtAddr.add?_eq_some.1 there).symm)
  exact mapped

/-- A range with an address that is not mapped has a lowest such address. The range may leave the addresses
    only after one, as the last of all addresses belongs to the kernel. -/
theorem exists_firstGap (unmapped : ¬s.MapsRange start n) : ∃ a, s.FirstGap start n a := by
  induction n with
  | zero => exact absurd (fun k lt => absurd lt (Nat.not_lt_zero k)) unmapped
  | succ n ih =>
    by_cases maps : s.MapsRange start n
    swap
    · obtain ⟨a, gap⟩ := ih maps
      exact ⟨a, gap.lower, Nat.lt_succ_of_lt gap.upper, gap.missing, gap.before⟩
    -- The next address exists, since the one before it is mapped and so belongs to the user.
    have limit : start.toNat + n < addressLimit := by
      rcases n.eq_zero_or_pos with rfl | pos
      · exact start.isLt
      · obtain ⟨last, there, mapped⟩ := maps (n - 1) (Nat.sub_lt pos Nat.one_pos)
        have place := VirtAddr.add?_eq_some.1 there
        have user := (isSome_translate.1 mapped).1
        simp only [userPages, userTop, pageSize, addressLimit] at *
        omega
    refine ⟨⟨start.toNat + n, limit⟩, Nat.le_add_right .., Nat.lt_succ_self _, ?_, fun b lower upper =>
      exists_of_mapsRange maps lower upper⟩
    by_contra mapped
    refine unmapped fun k lt => ?_
    rcases Nat.lt_or_eq_of_le (Nat.le_of_lt_succ lt) with before | rfl
    · exact maps k before
    · exact ⟨_, VirtAddr.add?_eq_some.2 rfl, Option.isSome_iff_ne_none.2 mapped⟩

/-- A write gets to an address of its range if each address up to there is mapped: the pages on the way all
    have an address of the range. -/
theorem gets_iff {first count : Nat} {x : VirtAddr} : s.Gets first count x.toNat ↔ first ≤ x.toNat ∧
    x.toNat < first + count ∧
      ∀ b : VirtAddr, first ≤ b.toNat → b.toNat ≤ x.toNat → (s.translate b).isSome = true := by
  constructor
  · exact fun ⟨lower, upper, mapped⟩ => ⟨lower, upper, fun b above below =>
      isSome_translate.2 (mapped _ (Nat.div_le_div_right above) (Nat.div_le_div_right below))⟩
  · refine fun ⟨lower, upper, mapped⟩ => ⟨lower, upper, fun page above below => ?_⟩
    have limit := x.isLt
    have small : max first (page * pageSize) < addressLimit := by
      simp only [pageSize, addressLimit] at *
      omega
    have number : max first (page * pageSize) / pageSize = page := by
      simp only [pageSize] at *
      omega
    rw [← number]
    refine isSome_translate.1 (mapped ⟨_, small⟩ (Nat.le_max_left ..) ?_)
    simp only [pageSize] at *
    omega

/-! ## The pieces of a range -/

/-- Bytes of a range that lie in one frame. -/
structure Piece where
  /-- The frame. -/
  frame : Frame
  /-- Where the bytes start in it. -/
  offset : Nat
  /-- How many there are. -/
  length : Nat

/-- A piece is not empty, and lies within a frame of the space. -/
structure Piece.Inside (p : Piece) (s : AddressSpace) : Prop where
  mem : p.frame ∈ s.frames
  pos : 0 < p.length
  fits : p.offset + p.length ≤ pageSize

/-- The pieces that are come to, one in each round, in a range of `n` bytes of which `done` are done, and whether
    they are all of the range or there is an address that is not mapped. There is no result if the range
    is not done within so many rounds, if a round gets no further, or if a piece leaves its frame. -/
def walk (s : AddressSpace) (start : VirtAddr) (n : Nat) : Nat → Nat → Option (List Piece × Bool)
  | 0, _ => none
  | rounds + 1, done =>
    if done < n then
      match start.add? done with
      | none => some ([], false)
      | some a =>
        match s.translate a with
        | none => some ([], false)
        | some t =>
          let length := min (pageSize - a.offset) (n - done)
          if 0 < length ∧ a.offset + length ≤ pageSize then
            (s.walk start n rounds (done + length)).map fun (rest, whole) =>
              (⟨t.frame, a.offset, length⟩ :: rest, whole)
          else none
    else some ([], true)

/-- The bytes of pieces. -/
def readPieces (pool : FramePool) (pieces : List Piece) : Bytes :=
  pieces.flatMap fun p => pool.read p.frame p.offset p.length

/-- Bytes are stored in pieces, one after the other. -/
def writePieces (pool : FramePool) : List Piece → Bytes → FramePool
  | [], _ => pool
  | p :: rest, data =>
    writePieces (pool.write p.frame p.offset (data.take p.length)) rest (data.drop p.length)

/-- What a walk over a range of which `done` bytes are done tells of reads and writes. -/
structure Walks (s : AddressSpace) (start : VirtAddr) (n done : Nat) (pieces : List Piece) (whole : Bool) :
    Prop where
  inside : ∀ p ∈ pieces, p.Inside s
  read : ∀ pool, s.readFrom pool start done (n - done) =
    if whole then .ok (readPieces pool pieces) else .error .notMapped
  write : ∀ pool data, data.length = n - done → s.writeFrom pool start done data =
    (if whole then .ok () else .error .notMapped, writePieces pool pieces data)

theorem walks_done (finished : ¬done < n) : s.Walks start n done [] true := by
  have none : n - done = 0 := Nat.sub_eq_zero_of_le (Nat.le_of_not_lt finished)
  refine ⟨nofun, fun pool => ?_, fun pool data length => ?_⟩
  · rw [readFrom, if_pos none]
    rfl
  · rw [writeFrom, if_pos (List.isEmpty_iff_length_eq_zero.2 (length.trans none))]
    rfl

/-- Where an address is missing, both loops stop. -/
theorem walks_missing (more : done < n)
    (missing : ∀ a, start.add? done = some a → s.translate a = none) : s.Walks start n done [] false := by
  have some : n - done ≠ 0 := Nat.sub_ne_zero_of_lt more
  have nonempty {data : Bytes} (length : data.length = n - done) : ¬data.isEmpty = true := fun empty =>
    some (length.symm.trans (List.isEmpty_iff_length_eq_zero.1 empty))
  refine ⟨nofun, fun pool => ?_, fun pool data length => ?_⟩
  · rw [readFrom, if_neg some]
    split
    · rfl
    · next a reached =>
      rw [missing a reached]
      rfl
  · rw [writeFrom, if_neg (nonempty length)]
    split
    · rfl
    · next a reached =>
      rw [missing a reached]
      rfl

/-- A piece more, in front of those that a walk comes to. -/
theorem Walks.cons {t : Translation} {pieces : List Piece} {whole : Bool} {length : Nat} (more : done < n)
    (reached : start.add? done = some a) (found : s.translate a = some t)
    (cut : length = min (pageSize - a.offset) (n - done)) (walks : s.Walks start n (done + length) pieces whole) :
    s.Walks start n done (⟨t.frame, a.offset, length⟩ :: pieces) whole := by
  have some : n - done ≠ 0 := Nat.sub_ne_zero_of_lt more
  have bound := a.offset_lt
  have rest : n - done - length = n - (done + length) := Nat.sub_sub ..
  refine ⟨List.forall_mem_cons.2 ⟨⟨mem_frames_of_translate found, ?_, ?_⟩, walks.inside⟩, fun pool => ?_,
    fun pool data count => ?_⟩
  · change 0 < length
    omega
  · change a.offset + length ≤ pageSize
    omega
  · rw [readFrom, if_neg some, reached]
    simp only [found]
    rw [← cut, rest, walks.read]
    cases whole <;> rfl
  · have nonempty : ¬data.isEmpty = true := fun empty =>
      some (count.symm.trans (List.isEmpty_iff_length_eq_zero.1 empty))
    rw [writeFrom, if_neg nonempty, reached]
    simp only [found]
    rw [count, ← cut, walks.write _ _ (by rw [List.length_drop, count, rest])]
    rfl

/-- A range is done after as many rounds as it has pages: after the first one each starts with a page. -/
theorem exists_walk (enough : done < n → (start.toNat + done) % pageSize + (n - done) ≤ rounds * pageSize) :
    ∃ pieces whole, s.walk start n (rounds + 1) done = some (pieces, whole) ∧
      s.Walks start n done pieces whole := by
  induction rounds generalizing done with
  | zero =>
    have finished : ¬done < n := fun more => by
      have := enough more
      omega
    exact ⟨[], true, by rw [walk, if_neg finished], walks_done finished⟩
  | succ rounds ih =>
    by_cases more : done < n
    swap
    · exact ⟨[], true, by rw [walk, if_neg more], walks_done more⟩
    have enough := enough more
    rw [walk, if_pos more]
    cases reached : start.add? done with
    | none => exact ⟨[], false, rfl, walks_missing more fun a there => by rw [reached] at there; cases there⟩
    | some a =>
      cases found : s.translate a with
      | none =>
        refine ⟨[], false, by simp only [found], walks_missing more fun b there => ?_⟩
        rw [reached] at there
        cases there
        exact found
      | some t =>
        -- A piece that is not the last one ends with its page, so the next round starts with a page.
        have place : a.offset = (start.toNat + done) % pageSize := by
          rw [VirtAddr.offset, VirtAddr.add?_eq_some.1 reached]
        have bound := a.offset_lt
        obtain ⟨length, cut⟩ : ∃ length, length = min (pageSize - a.offset) (n - done) := ⟨_, rfl⟩
        have rest : done + length < n →
            (start.toNat + (done + length)) % pageSize + (n - (done + length)) ≤ rounds * pageSize := fun further => by
          simp only [pageSize] at *
          omega
        obtain ⟨pieces, whole, goes, walks⟩ := ih rest
        refine ⟨_, whole, ?_, walks.cons more reached found cut⟩
        simp only [found, ← cut]
        rw [if_pos ⟨by omega, by omega⟩, goes]
        rfl

/-! ## Reads and writes by addresses -/

/-- User memory is a flat row of bytes, some of which may be missing. -/
structure IsFlat (s : AddressSpace) (pool : FramePool) : Prop where
  /-- A read succeeds exactly if each address of its range exists and is mapped. -/
  reads : ∀ start n, (∃ bs, s.readBytes pool start n = .ok bs) ↔ s.MapsRange start n
  /-- It gives the bytes at these addresses. -/
  read : ∀ start n bs, s.readBytes pool start n = .ok bs ↔ bs.length = n ∧ s.HasRow pool start bs
  /-- A write succeeds under the same condition. -/
  writes : ∀ start data, (s.writeBytes pool start data).1 = .ok () ↔ s.MapsRange start data.length
  /-- It puts its bytes at these addresses, and there are the same bytes as before at all others. -/
  write : ∀ start data, s.MapsRange start data.length → ∀ a,
    s.byte? (s.writeBytes pool start data).2 a = overlay (s.byte? pool) start data a
  /-- Otherwise there is a lowest address that is not mapped. A write has put its bytes at the addresses before that,
      and nowhere else. -/
  fails : ∀ start n, ¬s.MapsRange start n → ∃ a, s.FirstGap start n a ∧
    s.readBytes pool start n = .error .notMapped ∧
    ∀ data : Bytes, data.length = n → (s.writeBytes pool start data).1 = .error .notMapped ∧ ∀ x,
      s.byte? (s.writeBytes pool start data).2 x = overlay (s.byte? pool) start (data.take (a.toNat - start.toNat)) x
  /-- Frames of others hold what they held, and the same frames are handed out. -/
  frames : ∀ start data, s.Owns (s.writeBytes pool start data).2 ∧
    (∀ f, f ∉ s.frames → (s.writeBytes pool start data).2.page? f = pool.page? f) ∧
    ∀ f, (s.writeBytes pool start data).2.inUse f = pool.inUse f
  /-- Who has the memory written to has the same pages afterwards, with the same flags, in the same frames. -/
  pages : ∀ start data (b : Belongings) (d : Devices), b.space? = some s → d.pool = pool →
    (DeviceRequest.writeBytes start data).serve b d =
      ((s.writeBytes pool start data).1, b, { d with pool := (s.writeBytes pool start data).2 })
  /-- Both go over the range piece by piece. There are no more pieces than pages of the range, none is empty, and
      each lies within a frame of the space. -/
  pieces : ∀ start n, ∃ pieces whole, s.walk start n (n / pageSize + 3) 0 = some (pieces, whole) ∧
    (∀ p ∈ pieces, p.Inside s) ∧
    s.readBytes pool start n = (if whole then .ok (readPieces pool pieces) else .error .notMapped) ∧
    ∀ data : Bytes, data.length = n → s.writeBytes pool start data =
      (if whole then .ok () else .error .notMapped, writePieces pool pieces data)

theorem mapsRange_iff : s.MapsRange start n ↔
    ∀ k < n, ∃ a : VirtAddr, a.toNat = start.toNat + 0 + k ∧ (s.translate a).isSome = true := by
  simp only [MapsRange, VirtAddr.add?_eq_some, Nat.add_zero]

theorem writeBytes_eq_ok : (s.writeBytes pool start data).1 = .ok () ↔ s.MapsRange start data.length :=
  (writeFrom_eq_ok start 0 data).trans mapsRange_iff.symm

theorem readBytes_eq_ok {bs : Bytes} (backed : s.Backed pool) :
    s.readBytes pool start n = .ok bs ↔ bs.length = n ∧ s.HasRow pool start bs := by
  refine (readFrom_eq_ok backed start 0 n bs).trans (and_congr_right fun length => ?_)
  simp only [HasRow, length, VirtAddr.add?_eq_some, Nat.add_zero]

theorem exists_pieces (s : AddressSpace) (start : VirtAddr) (n : Nat) : ∃ pieces whole,
    s.walk start n (n / pageSize + 3) 0 = some (pieces, whole) ∧ s.Walks start n 0 pieces whole := by
  refine exists_walk fun _ => ?_
  simp only [pageSize]
  omega

/-- Reads and writes of as many bytes fail together, and for the same reason. -/
theorem readBytes_eq_ok_or (s : AddressSpace) (start : VirtAddr) (n : Nat) :
    (s.MapsRange start n ∧ ∀ pool, ∃ bs, s.readBytes pool start n = .ok bs) ∨
    (¬s.MapsRange start n ∧ ∀ pool, s.readBytes pool start n = .error .notMapped ∧
      ∀ data : Bytes, data.length = n → (s.writeBytes pool start data).1 = .error .notMapped) := by
  obtain ⟨pieces, whole, -, walks⟩ := s.exists_pieces start n
  have zeros : (Bytes.zeros n).length = n := List.length_replicate
  -- Whether a write succeeds does not depend on what is in the pool, so any pool will do.
  have writes : (s.writeBytes ⟨#[], 0⟩ start (Bytes.zeros n)).1 = .ok () ↔ s.MapsRange start (Bytes.zeros n).length :=
    writeBytes_eq_ok
  rw [writeBytes, walks.write _ _ zeros, zeros] at writes
  cases whole with
  | true => exact .inl ⟨writes.1 rfl, fun pool => ⟨_, walks.read pool⟩⟩
  | false =>
    refine .inr ⟨fun maps => ?_, fun pool => ⟨walks.read pool, fun data length => ?_⟩⟩
    · cases writes.2 maps
    · rw [writeBytes, walks.write _ _ length]
      rfl

/-- A write that gets to the first `k` addresses of its range leaves the first `k` bytes there. -/
theorem byte?_writeBytes (owns : s.Owns pool) {k : Nat} (le : k ≤ data.length)
    (reaches : ∀ x : VirtAddr, s.Gets start.toNat data.length x.toNat ↔
      start.toNat ≤ x.toNat ∧ x.toNat < start.toNat + k) (x : VirtAddr) :
    s.byte? (s.writeBytes pool start data).2 x = overlay (s.byte? pool) start (data.take k) x := by
  obtain ⟨stored, kept⟩ := byte?_writeFrom owns.once owns.backed start 0 data x
  rw [Nat.add_zero, reaches] at stored kept
  rw [overlay, List.length_take_of_le le]
  split
  · next inside => rw [writeBytes, stored inside, List.getElem?_take, if_pos (by omega)]
  · next outside => exact kept outside

theorem gets_iff_of_mapsRange (maps : s.MapsRange start n) (x : VirtAddr) :
    s.Gets start.toNat n x.toNat ↔ start.toNat ≤ x.toNat ∧ x.toNat < start.toNat + n :=
  ⟨fun gets => ⟨gets.start, gets.stop⟩, fun ⟨lower, upper⟩ => gets_iff.2 ⟨lower, upper, fun _ above below =>
    exists_of_mapsRange maps above (Nat.lt_of_le_of_lt below upper)⟩⟩

theorem FirstGap.gets_iff (gap : s.FirstGap start n a) (x : VirtAddr) : s.Gets start.toNat n x.toNat ↔
    start.toNat ≤ x.toNat ∧ x.toNat < start.toNat + (a.toNat - start.toNat) := by
  have lower := gap.lower
  have upper := gap.upper
  rw [AddressSpace.gets_iff]
  constructor
  · refine fun ⟨first, last, mapped⟩ => ⟨first, ?_⟩
    by_contra past
    have reached := mapped a lower (by omega)
    rw [gap.missing] at reached
    cases reached
  · exact fun ⟨first, last⟩ => ⟨first, by omega, fun b above below => gap.before b above (by omega)⟩

theorem isFlat (owns : s.Owns pool) : s.IsFlat pool where
  reads start n := by
    rcases s.readBytes_eq_ok_or start n with ⟨maps, reads⟩ | ⟨unmapped, refused⟩
    · exact ⟨fun _ => maps, fun _ => reads pool⟩
    · refine ⟨fun ⟨bs, read⟩ => ?_, fun maps => absurd maps unmapped⟩
      rw [(refused pool).1] at read
      cases read
  read start n bs := readBytes_eq_ok owns.backed
  writes start data := writeBytes_eq_ok
  write start data maps a := by
    have written := byte?_writeBytes owns (Nat.le_refl _) (gets_iff_of_mapsRange maps) a
    rwa [List.take_length] at written
  fails start n unmapped := by
    obtain ⟨a, gap⟩ := exists_firstGap unmapped
    rcases s.readBytes_eq_ok_or start n with ⟨maps, -⟩ | ⟨-, refused⟩
    · exact absurd maps unmapped
    refine ⟨a, gap, (refused pool).1, fun data length => ⟨(refused pool).2 data length, ?_⟩⟩
    have upper := gap.upper
    exact byte?_writeBytes owns (by omega) (length ▸ gap.gets_iff)
  frames start data :=
    have use := (sameUse_writeFrom s pool start 0 data).inUse
    ⟨⟨owns.once, fun f mem => (use f).trans (owns.backed f mem)⟩,
      fun _ notMem => page?_writeFrom pool notMem start 0 data, use⟩
  pages start data b d space same := by
    subst same
    simp only [DeviceRequest.serve, space]
  pieces start n := by
    obtain ⟨pieces, whole, goes, walks⟩ := s.exists_pieces start n
    exact ⟨pieces, whole, goes, walks.inside, walks.read pool, walks.write pool⟩

/-- A space that owns its frames is a flat memory, and all spaces do: those that share a pool with others, and
    those of processes. -/
theorem flat_memory : (∀ s pool, AddressSpace.Owns s pool → s.IsFlat pool) ∧
    (∀ d ops i s, d.pool.usedFrames = 0 → (Tenants.run d ops).1.space? i = some s →
      s.Owns (Tenants.run d ops).1.pool) ∧
    ∀ (x : Scenario) turns i t s, ((x.machineAt turns i).thread t).own.space? = some s →
      s.Owns (x.machineAt turns i).devices.pool :=
  ⟨fun _ _ => isFlat, fun _ _ _ _ unused => Tenants.owns_run unused, fun _ _ _ _ _ => Scenario.owns_space⟩

/-- Of two pages of a program the upper one has the frame that was handed out first. -/
def upsideDown : List TenantOp :=
  [.create, .allocate, .allocate, .map 0 (.ofNat 0x3000) (.ofAddress (.ofNat 0x1000)) true,
    .map 0 (.ofNat 0x2000) (.ofAddress (.ofNat 0x2000)) false]

/-- Of four bytes stored across the pages the last is found on the upper one. Of four bytes stored across the end
    of that the second is its last, and the third is nowhere. -/
theorem flat_memory_upsideDown : Tenants.twoFrames.pool.usedFrames = 0 ∧
    ∃ s, (Tenants.run Tenants.twoFrames upsideDown).1.space? 0 = some s ∧
      let pool := (Tenants.run Tenants.twoFrames upsideDown).1.pool
      s.Owns pool ∧ s.MapsRange (.ofNat 0x2ffe) 4 ∧ ¬s.MapsRange (.ofNat 0x3ffe) 4 ∧
        s.byte? (s.writeBytes pool (.ofNat 0x2ffe) [1, 2, 3, 4]).2 (.ofNat 0x3001) = some 4 ∧
        (s.writeBytes pool (.ofNat 0x3ffe) [1, 2, 3, 4]).1 = .error .notMapped ∧
        s.byte? (s.writeBytes pool (.ofNat 0x3ffe) [1, 2, 3, 4]).2 (.ofNat 0x3fff) = some 2 := by
  have unused : Tenants.twoFrames.pool.usedFrames = 0 := by decide
  have mapped : (((Tenants.run Tenants.twoFrames upsideDown).1.space? 0).any fun s =>
      (s.translate (.ofNat 0x2000)).isSome && (s.translate (.ofNat 0x3000)).isSome &&
        (s.translate (.ofNat 0x4000)).isNone) = true := by decide +kernel
  obtain ⟨s, found, pages⟩ := (Option.any_eq_true _ _).1 mapped
  simp only [Bool.and_eq_true, isSome_translate] at pages
  obtain ⟨⟨lower, upper⟩, missing⟩ := pages
  obtain ⟨flat, owns, -⟩ := flat_memory
  have own := owns _ _ _ _ unused found
  have flat := flat s _ own
  have lower : s.Maps 2 := lower
  have upper : s.Maps 3 := upper
  have maps : s.MapsRange (.ofNat 0x2ffe) 4
    | 0, _ => ⟨.ofNat 0x2ffe, by decide, isSome_translate.2 lower⟩
    | 1, _ => ⟨.ofNat 0x2fff, by decide, isSome_translate.2 lower⟩
    | 2, _ => ⟨.ofNat 0x3000, by decide, isSome_translate.2 upper⟩
    | 3, _ => ⟨.ofNat 0x3001, by decide, isSome_translate.2 upper⟩
  have torn : ¬s.MapsRange (.ofNat 0x3ffe) 4 := fun maps => by
    have there := exists_of_mapsRange (b := .ofNat 0x4000) maps (by decide) (by decide)
    rw [Option.isNone_iff_eq_none.1 missing] at there
    cases there
  refine ⟨unused, s, found, own, maps, torn, ?_, ?_⟩
  · rw [flat.write _ _ maps]
    rfl
  obtain ⟨a, gap, -, stops⟩ := flat.fails _ 4 torn
  obtain ⟨refused, bytes⟩ := stops [1, 2, 3, 4] rfl
  refine ⟨refused, ?_⟩
  have first : 0x3ffe ≤ a.toNat := gap.lower
  have above : 0x4000 ≤ a.toNat := by
    by_contra below
    have page : a.toNat / pageSize = 3 := by
      simp only [pageSize]
      omega
    have there := isSome_translate.2 (page.symm ▸ upper)
    rw [gap.missing] at there
    cases there
  have start : (VirtAddr.ofNat 0x3ffe).toNat = 0x3ffe := rfl
  have place : (VirtAddr.ofNat 0x3fff).toNat = 0x3fff := rfl
  rw [bytes, overlay, start, place, if_pos (by simp only [List.length_take, List.length_cons]; omega),
    List.getElem?_take, if_pos (by omega)]
  rfl

end AddressSpace

end Userland

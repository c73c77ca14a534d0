import Userland.Proofs.Copies

/-!
# Strings in user memory

A string in user memory ends with a zero byte. The kernel looks at one byte after the other, checks each before
it reads it, and stops for one of three reasons (`AddressSpace.StringEnds`): at the zero, at a byte that it may
not read, or at its limit, which counts the zero. Which of them comes first decides, and no byte after that is
looked at (`AddressSpace.copies_strings`).
-/

namespace Userland

namespace AddressSpace

/-! ## What is looked at -/

/-- There is a byte `b` at `k` bytes after `start`, and it may be read. -/
def ReadsAt (s : AddressSpace) (pool : FramePool) (start : VirtAddr) (k : Nat) (b : UInt8) : Prop :=
  ∃ a, start.add? k = some a ∧ s.checkPointer a .read = .ok () ∧ s.byte? pool a = some b

/-- The bytes from `start` on are `bs`. All of them may be read, and none is zero. -/
def Spells (s : AddressSpace) (pool : FramePool) (start : VirtAddr) (bs : Bytes) : Prop :=
  ∀ k b, bs[k]? = some b → s.ReadsAt pool start k b ∧ b ≠ 0

/-- What the string at `start` comes to if at most `limit` bytes are looked at. -/
inductive StringEnds (s : AddressSpace) (pool : FramePool) (start : VirtAddr) (limit : Nat) :
    Except UserFault Bytes → Prop
  /-- A zero byte comes next. -/
  | ended {bs : Bytes} : bs.length < limit → s.Spells pool start bs → s.ReadsAt pool start bs.length 0 →
    StringEnds s pool start limit (.ok bs)
  /-- A byte comes next that may not be read. -/
  | refused {bs : Bytes} {a : VirtAddr} {fault : UserFault} : bs.length < limit → s.Spells pool start bs →
    start.add? bs.length = some a → s.checkPointer a .read = .error fault →
    StringEnds s pool start limit (.error fault)
  /-- No more bytes are looked at. -/
  | tooLong {bs : Bytes} : bs.length = limit → s.Spells pool start bs →
    StringEnds s pool start limit (.error .stringTooLong)

variable {s : AddressSpace} {pool : FramePool} {start a : VirtAddr} {fault : UserFault} {limit k : Nat} {b : UInt8}
  {bs done : Bytes} {result : Except UserFault Bytes}

theorem spells_nil (s : AddressSpace) (pool : FramePool) (start : VirtAddr) : s.Spells pool start [] :=
  fun k b listed => by cases listed

/-- One byte more is spelled. -/
theorem spells_concat : s.Spells pool start (bs ++ [b]) ↔
    s.Spells pool start bs ∧ s.ReadsAt pool start bs.length b ∧ b ≠ 0 := by
  constructor
  · refine fun spells => ⟨fun k c listed => spells k c ?_, spells bs.length b (List.getElem?_concat_length ..)⟩
    rwa [List.getElem?_append_left (List.getElem?_eq_some_iff.1 listed).1]
  · rintro ⟨spells, last⟩ k c listed
    rcases Nat.lt_or_ge k bs.length with inside | after
    · exact spells k c (by rwa [List.getElem?_append_left inside] at listed)
    · rw [List.getElem?_append_right after, List.getElem?_singleton] at listed
      split at listed
      · obtain rfl := Option.some.inj listed
        obtain rfl : k = bs.length := by omega
        exact last
      · cases listed

/-- After bytes that may be read there is an address, as the last of all addresses may not be read. -/
theorem Spells.exists_add? (spells : s.Spells pool start bs) : ∃ a, start.add? bs.length = some a := by
  rcases bs.eq_nil_or_concat' with rfl | ⟨bs, b, rfl⟩
  · exact ⟨start, VirtAddr.add?_eq_some.2 rfl⟩
  · obtain ⟨-, ⟨last, there, checked, -⟩, -⟩ := spells_concat.1 spells
    obtain ⟨-, t, found, -⟩ := checkPointer_eq_ok.1 checked
    have user : last.toNat < userTop := of_decide_eq_true (isUser_iff.2 (translate_eq_some.1 found).1)
    have place := VirtAddr.add?_eq_some.1 there
    have limit : start.toNat + (bs ++ [b]).length < addressLimit := by
      simp only [List.length_append, List.length_singleton, userTop, addressLimit] at *
      omega
    exact ⟨⟨_, limit⟩, VirtAddr.add?_eq_some.2 rfl⟩

/-! ## The loop -/

theorem ReadsAt.copyStringFrom (reads : s.ReadsAt pool start k b) (backed : s.Backed pool) (done : Bytes)
    (limit : Nat) : s.copyStringFrom pool start done k (limit + 1) =
      if b = 0 then .ok done.reverse else s.copyStringFrom pool start (b :: done) (k + 1) limit := by
  obtain ⟨a, there, checked, byte⟩ := reads
  have read : s.readBytes pool a 1 = .ok [b] := (readBytes_eq_ok backed).2 ⟨rfl, fun
    | 0, _ => ⟨a, VirtAddr.add?_eq_some.2 rfl, byte⟩⟩
  exact copyStringFrom_of_read there checked read done limit

/-- What is spelled is taken, and then the rest is looked at. -/
theorem Spells.copyString (spells : s.Spells pool start bs) (backed : s.Backed pool) (limit : Nat) :
    s.copyString pool start (bs.length + limit) = s.copyStringFrom pool start bs.reverse bs.length limit := by
  induction bs using List.reverseRecOn generalizing limit with
  | nil => rw [List.length_nil, Nat.zero_add, AddressSpace.copyString, List.reverse_nil]
  | append_singleton bs b ih =>
    obtain ⟨spells, reads, nonzero⟩ := spells_concat.1 spells
    rw [List.length_append, List.length_singleton, Nat.add_assoc, Nat.add_comm 1, ih spells,
      reads.copyStringFrom backed, if_neg nonzero, List.reverse_append, List.reverse_singleton, List.singleton_append]

theorem StringEnds.copyString_eq (ends : s.StringEnds pool start limit result) (backed : s.Backed pool) :
    s.copyString pool start limit = result := by
  cases ends with
  | ended short spells zero =>
    obtain ⟨rest, rfl⟩ := Nat.exists_eq_add_of_lt short
    rw [Nat.add_assoc, spells.copyString backed, zero.copyStringFrom backed, if_pos rfl, List.reverse_reverse]
  | refused short spells there refused =>
    obtain ⟨rest, rfl⟩ := Nat.exists_eq_add_of_lt short
    rw [Nat.add_assoc, spells.copyString backed, copyStringFrom, there]
    simp only [refused]
    rfl
  | tooLong long spells =>
    have none := spells.copyString backed 0
    rwa [Nat.add_zero, long, copyStringFrom] at none

/-- A string comes to something, whatever the limit. By induction on the limit: what it has come to with a lower
    limit stays, unless it was too long. -/
theorem exists_stringEnds (backed : s.Backed pool) (start : VirtAddr) (limit : Nat) :
    ∃ result, s.StringEnds pool start limit result := by
  induction limit with
  | zero => exact ⟨_, .tooLong rfl (spells_nil s pool start)⟩
  | succ limit ih =>
    obtain ⟨result, ends⟩ := ih
    cases ends with
    | ended short spells zero => exact ⟨_, .ended (Nat.lt_succ_of_lt short) spells zero⟩
    | refused short spells there refused => exact ⟨_, .refused (Nat.lt_succ_of_lt short) spells there refused⟩
    | @tooLong bs long spells =>
      have short : bs.length < limit + 1 := Nat.lt_succ_of_le (Nat.le_of_eq long)
      obtain ⟨a, there⟩ := spells.exists_add?
      cases checked : s.checkPointer a .read with
      | error fault => exact ⟨_, .refused short spells there checked⟩
      | ok =>
        obtain ⟨-, t, found, -⟩ := checkPointer_eq_ok.1 checked
        obtain ⟨b, byte⟩ := backed.exists_byte? (Option.isSome_iff_exists.2 ⟨t, found⟩)
        have reads : s.ReadsAt pool start bs.length b := ⟨a, there, checked, byte⟩
        by_cases zero : b = 0
        · exact ⟨_, .ended short spells (zero ▸ reads)⟩
        · refine ⟨_, .tooLong ?_ (spells_concat.2 ⟨spells, reads, zero⟩)⟩
          rw [List.length_append, long, List.length_singleton]

/-- A string is read as what it comes to. -/
theorem copyString_eq_iff (backed : s.Backed pool) :
    s.copyString pool start limit = result ↔ s.StringEnds pool start limit result := by
  refine ⟨?_, fun ends => ends.copyString_eq backed⟩
  rintro rfl
  obtain ⟨result, ends⟩ := exists_stringEnds backed start limit
  rwa [ends.copyString_eq backed]

/-! ## What a copy of a string comes to -/

/-- What copies of strings out of user memory do. -/
structure CopiesStrings (s : AddressSpace) (pool : FramePool) (start : VirtAddr) (limit : Nat) : Prop where
  /-- A string is copied exactly if there is a zero byte among those that are looked at, and each byte up to there may
      be read. It is what comes before the first zero. -/
  ended : ∀ bs, s.copyString pool start limit = .ok bs ↔
    bs.length < limit ∧ s.Spells pool start bs ∧ s.ReadsAt pool start bs.length 0
  /-- It is too long exactly if all bytes that are looked at may be read and none is zero. -/
  tooLong : s.copyString pool start limit = .error .stringTooLong ↔
    ∃ bs, bs.length = limit ∧ s.Spells pool start bs
  /-- Any other fault is the one of the lowest address that may not be read, with no zero byte before it. -/
  refused : ∀ fault, fault ≠ .stringTooLong → (s.copyString pool start limit = .error fault ↔
    ∃ bs a, bs.length < limit ∧ s.Spells pool start bs ∧ start.add? bs.length = some a ∧
      s.checkPointer a .read = .error fault)
  /-- As many bytes, and one more, can be copied too, and are the string with the zero. -/
  withZero : ∀ bs, s.copyString pool start limit = .ok bs →
    s.copyIn pool start (bs.length + 1) = .ok (bs ++ [0])
  /-- What comes after the zero has no part in it: another memory that has the same bytes up to there gives the same
      string, with any limit that leaves room for the zero. -/
  unseen : ∀ bs, s.copyString pool start limit = .ok bs →
    ∀ (s' : AddressSpace) (pool' : FramePool), s'.Backed pool' →
      (∀ k a, k ≤ bs.length → start.add? k = some a →
        s'.checkPointer a .read = s.checkPointer a .read ∧ s'.byte? pool' a = s.byte? pool a) →
      ∀ limit' > bs.length, s'.copyString pool' start limit' = .ok bs

theorem checkPointer_ne_stringTooLong (s : AddressSpace) (a : VirtAddr) (access : Access) :
    s.checkPointer a access ≠ .error .stringTooLong := by
  rw [checkPointer]
  repeat' split
  all_goals nofun

/-- A string and the zero at its end are a range of bytes that may be read. -/
theorem Spells.copyIn (spells : s.Spells pool start bs) (zero : s.ReadsAt pool start bs.length 0)
    (backed : s.Backed pool) : s.copyIn pool start (bs.length + 1) = .ok (bs ++ [0]) := by
  have length : (bs ++ [0]).length = bs.length + 1 := List.length_append
  have reads : ∀ k < bs.length + 1, ∃ a, start.add? k = some a ∧ s.checkPointer a .read = .ok () ∧
      s.byte? pool a = (bs ++ [0])[k]? := by
    intro k lt
    rcases Nat.lt_or_eq_of_le (Nat.le_of_lt_succ lt) with inside | rfl
    · have listed := List.getElem?_eq_getElem inside
      rw [List.getElem?_append_left inside, listed]
      exact (spells k _ listed).1
    · rw [List.getElem?_concat_length]
      exact zero
  refine (copyIn_eq_ok backed).2 ⟨checkRange_eq_ok.2 fun k lt => ?_, length, fun k lt => ?_⟩
  · obtain ⟨a, there, checked, -⟩ := reads k lt
    exact ⟨a, there, checked⟩
  · obtain ⟨a, there, -, byte⟩ := reads k (length ▸ lt)
    exact ⟨a, there, byte⟩

/-- A string is copied up to the first zero, or refused for the byte that stops the search for it. -/
theorem copies_strings (backed : s.Backed pool) (start : VirtAddr) (limit : Nat) :
    s.CopiesStrings pool start limit := by
  have ended : ∀ bs, s.copyString pool start limit = .ok bs ↔
      bs.length < limit ∧ s.Spells pool start bs ∧ s.ReadsAt pool start bs.length 0 := fun bs =>
    (copyString_eq_iff backed).trans
      ⟨fun | .ended short spells zero => ⟨short, spells, zero⟩, fun ⟨short, spells, zero⟩ => .ended short spells zero⟩
  refine ⟨ended, ?_, fun fault other => ?_, fun bs copied => ?_, fun bs copied s' pool' backed' same limit' lt => ?_⟩
  · rw [copyString_eq_iff backed]
    constructor
    · rintro (_ | ⟨-, -, -, checked⟩ | ⟨long, spells⟩)
      · exact (checkPointer_ne_stringTooLong s _ .read checked).elim
      · exact ⟨_, long, spells⟩
    · exact fun ⟨bs, long, spells⟩ => .tooLong long spells
  · rw [copyString_eq_iff backed]
    constructor
    · rintro (_ | ⟨short, spells, there, checked⟩ | _)
      · exact ⟨_, _, short, spells, there, checked⟩
      · exact absurd rfl other
    · exact fun ⟨bs, a, short, spells, there, checked⟩ => .refused short spells there checked
  · obtain ⟨-, spells, zero⟩ := (ended bs).1 copied
    exact spells.copyIn zero backed
  · obtain ⟨-, spells, zero⟩ := (ended bs).1 copied
    have carried : ∀ {k b}, k ≤ bs.length → s.ReadsAt pool start k b → s'.ReadsAt pool' start k b := by
      rintro k b le ⟨a, there, checked, byte⟩
      obtain ⟨sameCheck, sameByte⟩ := same k a le there
      exact ⟨a, there, sameCheck.trans checked, sameByte.trans byte⟩
    refine (StringEnds.ended lt (fun k b listed => ?_) (carried (Nat.le_refl _) zero)).copyString_eq backed'
    obtain ⟨reads, nonzero⟩ := spells k b listed
    exact ⟨carried (Nat.le_of_lt (List.getElem?_eq_some_iff.1 listed).1) reads, nonzero⟩

/-- Two bytes and a zero that lie across two pages are a string if three bytes may be looked at, and too long if two
    may. -/
theorem copies_strings_upsideDown :
    ∃ s : AddressSpace, (Tenants.run Tenants.twoFrames upsideDown).1.space? 0 = some s ∧
      let pool := (s.writeBytes (Tenants.run Tenants.twoFrames upsideDown).1.pool (.ofNat 0x2fff) [0x68, 0x69, 0]).2
      s.Backed pool ∧ s.copyString pool (.ofNat 0x2fff) 3 = .ok [0x68, 0x69] ∧
        s.copyString pool (.ofNat 0x2fff) 2 = .error .stringTooLong ∧
        s.copyIn pool (.ofNat 0x2fff) 3 = .ok [0x68, 0x69, 0] := by
  have copies : (((Tenants.run Tenants.twoFrames upsideDown).1.space? 0).any fun s =>
      decide (s.copyString
        (s.writeBytes (Tenants.run Tenants.twoFrames upsideDown).1.pool (.ofNat 0x2fff) [0x68, 0x69, 0]).2
        (.ofNat 0x2fff) 3 = .ok [0x68, 0x69])) = true := by decide +kernel
  obtain ⟨s, found, copied⟩ := (Option.any_eq_true _ _).1 copies
  have copied := of_decide_eq_true copied
  have owns := Tenants.owns_run (show Tenants.twoFrames.pool.usedFrames = 0 by decide) found
  have backed := ((isFlat owns).frames (.ofNat 0x2fff) [0x68, 0x69, 0]).1.backed
  have three := copies_strings backed (.ofNat 0x2fff) 3
  obtain ⟨-, spells, -⟩ := (three.ended _).1 copied
  exact ⟨s, found, backed, copied, (copies_strings backed _ 2).tooLong.2 ⟨_, rfl, spells⟩, three.withZero _ copied⟩

end AddressSpace

end Userland

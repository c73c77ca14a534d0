import Userland.Proofs.FlatMemory

/-!
# Copies to and from user memory

A copy checks its range page by page, and then goes over it again piece by piece, without a look at what the
pages may be used for. The check says enough for that (`AddressSpace.mapsRange_of_checkRange`): after it a copy
is done as a whole, and without it nothing is done. So a copy fails for the reason that the check gives, and for
no other (`AddressSpace.copies_safely`). For that the space has to own its frames, as all spaces do
(`Tenants.owns_run`, `Scenario.owns_space`).
-/

namespace Userland

namespace AddressSpace

variable {s : AddressSpace} {pool : FramePool} {start a : VirtAddr} {access : Access} {fault : UserFault}
  {n : Nat} {data bs : Bytes}

/-- What copies between user memory and the kernel do. -/
structure CopiesSafely (s : AddressSpace) (pool : FramePool) : Prop where
  /-- After a check neither a read nor a write of the range finds a page missing. -/
  sufficient : ∀ start n access, s.checkRange start n access = .ok () →
    (∃ bs, s.readBytes pool start n = .ok bs) ∧
    ∀ data : Bytes, data.length = n → (s.writeBytes pool start data).1 = .ok ()
  /-- Bytes are copied out unless the check of the range finds a fault, which is passed on. -/
  refused : ∀ start n fault, s.copyIn pool start n = .error fault ↔ s.checkRange start n .read = .error fault
  /-- They are the bytes of the range. -/
  copied : ∀ start n bs, s.copyIn pool start n = .ok bs ↔
    s.checkRange start n .read = .ok () ∧ bs.length = n ∧ s.HasRow pool start bs
  /-- A word is read unless the check of its four bytes finds a fault, which is passed on. -/
  refusedWord : ∀ start fault, s.readWord pool start = .error fault ↔ s.checkRange start 4 .read = .error fault
  /-- It has these bytes, the least significant one first. -/
  word : ∀ start w, s.readWord pool start = .ok w ↔ s.checkRange start 4 .read = .ok () ∧
    ∃ b₀ b₁ b₂ b₃ : UInt8, s.HasRow pool start [b₀, b₁, b₂, b₃] ∧
      w.toNat = b₀.toNat + 0x100 * b₁.toNat + 0x10000 * b₂.toNat + 0x1000000 * b₃.toNat
  /-- If the check for a copy into user memory finds a fault, that is passed on and nothing is stored. -/
  untouched : ∀ start data fault, s.checkRange start data.length .write = .error fault →
    s.copyOut pool start data = (.error fault, pool)
  /-- Otherwise the bytes are there afterwards, for a copy out of the same range too. -/
  stored : ∀ start data, s.checkRange start data.length .write = .ok () →
    (s.copyOut pool start data).1 = .ok () ∧
    s.copyIn (s.copyOut pool start data).2 start data.length = .ok data
  /-- A byte outside the range is the same as before, and so is each byte of a page that may not be written. -/
  others : ∀ start data (a : VirtAddr),
    (a.toNat < start.toNat ∨ start.toNat + data.length ≤ a.toNat ∨ ¬s.Writable a) →
    s.byte? (s.copyOut pool start data).2 a = s.byte? pool a
  /-- What a frame of others holds is the same as before. -/
  frames : ∀ start data f, f ∉ s.frames → (s.copyOut pool start data).2.page? f = pool.page? f
  /-- So are the pages of the space, their flags and their frames. -/
  pages : ∀ start data (b : Belongings) (d : Devices), b.space? = some s → d.pool = pool →
    (DeviceRequest.copyOut start data).serve b d =
      ((s.copyOut pool start data).1, b, { d with pool := (s.copyOut pool start data).2 })

/-- All bytes of a range that was checked are mapped. -/
theorem mapsRange_of_checkRange (checked : s.checkRange start n access = .ok ()) : s.MapsRange start n := by
  intro k lt
  obtain ⟨a, place, mapped⟩ := isSome_translate_of_checkRange checked lt
  exact ⟨a, VirtAddr.add?_eq_some.2 place, mapped⟩

/-- What may be written may be read. -/
theorem checkRange_read (checked : s.checkRange start n .write = .ok ()) : s.checkRange start n .read = .ok () := by
  refine checkRange_eq_ok.2 fun k lt => ?_
  obtain ⟨a, there, accepted⟩ := checkRange_eq_ok.1 checked k lt
  obtain ⟨nonzero, t, found, -⟩ := checkPointer_eq_ok.1 accepted
  exact ⟨a, there, checkPointer_eq_ok.2 ⟨nonzero, t, found, nofun⟩⟩

theorem exists_readBytes (pool : FramePool) (maps : s.MapsRange start n) : ∃ bs, s.readBytes pool start n = .ok bs := by
  rcases s.readBytes_eq_ok_or start n with ⟨-, reads⟩ | ⟨unmapped, -⟩
  · exact reads pool
  · exact absurd maps unmapped

theorem copyIn_eq_ok (backed : s.Backed pool) : s.copyIn pool start n = .ok bs ↔
    s.checkRange start n .read = .ok () ∧ bs.length = n ∧ s.HasRow pool start bs := by
  rw [copyIn]
  cases checked : s.checkRange start n .read with
  | error fault => simp only [bind, Except.bind, reduceCtorEq, false_and]
  | ok =>
    obtain ⟨bs', read⟩ := exists_readBytes pool (mapsRange_of_checkRange checked)
    simp only [bind, Except.bind, read, faultAt, true_and]
    rw [← readBytes_eq_ok backed, read, Except.ok.injEq, Except.ok.injEq]

theorem copyIn_eq_error (pool : FramePool) :
    s.copyIn pool start n = .error fault ↔ s.checkRange start n .read = .error fault := by
  rw [copyIn]
  cases checked : s.checkRange start n .read with
  | error fault' => simp only [bind, Except.bind, Except.error.injEq]
  | ok =>
    obtain ⟨bs, read⟩ := exists_readBytes pool (mapsRange_of_checkRange checked)
    simp only [bind, Except.bind, read, faultAt, reduceCtorEq]

theorem readWord_eq_error (pool : FramePool) :
    s.readWord pool start = .error fault ↔ s.checkRange start 4 .read = .error fault := by
  rw [← copyIn_eq_error pool, readWord]
  cases s.copyIn pool start 4 with
  | error fault' => simp only [Except.map, Except.error.injEq]
  | ok bs => exact ⟨nofun, nofun⟩

end AddressSpace

/-- The word of four bytes. -/
theorem Bytes.toNat_word (b₀ b₁ b₂ b₃ : UInt8) : (word [b₀, b₁, b₂, b₃]).toNat =
    b₀.toNat + 0x100 * b₁.toNat + 0x10000 * b₂.toNat + 0x1000000 * b₃.toNat := by
  have h₀ := b₀.toNat_lt
  have h₁ := b₁.toNat_lt
  have h₂ := b₂.toNat_lt
  have h₃ := b₃.toNat_lt
  simp only [word, List.take_succ_cons, List.take_zero, value, UInt32.toNat_ofNat']
  omega

namespace AddressSpace

variable {s : AddressSpace} {pool : FramePool} {start a : VirtAddr} {data : Bytes}

theorem readWord_eq_ok_iff_exists (backed : s.Backed pool) {w : UInt32} : s.readWord pool start = .ok w ↔
    s.checkRange start 4 .read = .ok () ∧ ∃ b₀ b₁ b₂ b₃ : UInt8, s.HasRow pool start [b₀, b₁, b₂, b₃] ∧
      w.toNat = b₀.toNat + 0x100 * b₁.toNat + 0x10000 * b₂.toNat + 0x1000000 * b₃.toNat := by
  have word : s.readWord pool start = .ok w ↔ ∃ bs, s.copyIn pool start 4 = .ok bs ∧ Bytes.word bs = w := by
    rw [readWord]
    cases s.copyIn pool start 4 with
    | error fault => exact ⟨nofun, nofun⟩
    | ok bs => simp [Except.map]
  rw [word]
  constructor
  · rintro ⟨bs, copied, rfl⟩
    obtain ⟨checked, four, row⟩ := (copyIn_eq_ok backed).1 copied
    match bs, four with
    | [b₀, b₁, b₂, b₃], _ => exact ⟨checked, b₀, b₁, b₂, b₃, row, Bytes.toNat_word ..⟩
  · rintro ⟨checked, b₀, b₁, b₂, b₃, row, number⟩
    refine ⟨_, (copyIn_eq_ok backed).2 ⟨checked, rfl, row⟩, UInt32.toNat_inj.1 ?_⟩
    rw [number, Bytes.toNat_word]

/-- What was put somewhere is there. -/
theorem hasRow_copyOut (owns : s.Owns pool) (checked : s.checkRange start data.length .write = .ok ()) :
    s.HasRow (s.copyOut pool start data).2 start data := by
  intro k lt
  obtain ⟨a, there, -⟩ := mapsRange_of_checkRange checked k lt
  have place := VirtAddr.add?_eq_some.1 there
  refine ⟨a, there, (congrFun (byte?_copyOut owns.once owns.backed checked) a).trans ?_⟩
  rw [overlay, if_pos (by omega), place, Nat.add_sub_cancel_left]

theorem Owns.copyOut (owns : s.Owns pool) (start : VirtAddr) (data : Bytes) :
    s.Owns (s.copyOut pool start data).2 :=
  ⟨owns.once, fun f mem => ((sameUse_copyOut s pool start data).inUse f).trans (owns.backed f mem)⟩

/-- Copies are done as a whole or not at all, and only the check decides. -/
theorem copies_safely (owns : s.Owns pool) : s.CopiesSafely pool where
  sufficient start n access checked := by
    have maps := mapsRange_of_checkRange checked
    exact ⟨exists_readBytes pool maps, fun data length => writeBytes_eq_ok.2 (length.symm ▸ maps)⟩
  refused _ _ _ := copyIn_eq_error pool
  copied _ _ _ := copyIn_eq_ok owns.backed
  refusedWord _ _ := readWord_eq_error pool
  word _ _ := readWord_eq_ok_iff_exists owns.backed
  untouched start data fault refused := by rw [copyOut, refused]
  stored start data checked :=
    ⟨copyOut_of_checkRange pool checked (Nat.le_refl _), (copyIn_eq_ok (owns.copyOut start data).backed).2
      ⟨checkRange_read checked, rfl, hasRow_copyOut owns checked⟩⟩
  others start data a outside := by
    by_contra changed
    obtain ⟨-, writable, lower, upper, -⟩ := inside_of_copyOut owns.once owns.backed changed
    rcases outside with below | above | readOnly
    · exact absurd lower (Nat.not_le_of_lt below)
    · exact absurd upper (Nat.not_lt_of_le above)
    · exact readOnly writable
  frames start data f notMem := by
    rw [copyOut]
    split
    · rfl
    · exact page?_writeFrom pool notMem start 0 data
  pages start data b d space same := by
    subst same
    simp only [DeviceRequest.serve, space]

/-- A copy that starts in a page that may not be written leaves nothing in the next one, which may. Four bytes that
    are copied there make a word. -/
theorem copies_safely_upsideDown :
    let pool := (Tenants.run Tenants.twoFrames upsideDown).1.pool
    ∃ s : AddressSpace, (Tenants.run Tenants.twoFrames upsideDown).1.space? 0 = some s ∧ s.Owns pool ∧
      s.copyOut pool (.ofNat 0x2ffe) [1, 2, 3, 4] = (.error (.readOnly (.ofNat 0x2ffe)), pool) ∧
      s.readWord (s.copyOut pool (.ofNat 0x3000) [0x78, 0x56, 0x34, 0x12]).2 (.ofNat 0x3000) = .ok 0x12345678 := by
  have checks : (((Tenants.run Tenants.twoFrames upsideDown).1.space? 0).any fun s =>
      decide (s.checkRange (.ofNat 0x2ffe) 4 .write = .error (.readOnly (.ofNat 0x2ffe)) ∧
        s.checkRange (.ofNat 0x3000) 4 .write = .ok ())) = true := by decide +kernel
  obtain ⟨s, found, checked⟩ := (Option.any_eq_true _ _).1 checks
  obtain ⟨refused, accepted⟩ := of_decide_eq_true checked
  have owns := Tenants.owns_run (show Tenants.twoFrames.pool.usedFrames = 0 by decide) found
  have safe := copies_safely owns
  refine ⟨s, found, owns, safe.untouched _ [1, 2, 3, 4] _ refused, ?_⟩
  have copied := (safe.stored _ [0x78, 0x56, 0x34, 0x12] accepted).2
  rw [readWord]
  exact congrArg (Except.map Bytes.word) copied

end AddressSpace

end Userland

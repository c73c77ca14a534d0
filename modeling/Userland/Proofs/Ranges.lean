import Userland.Proofs.UserMemory

/-!
# Checked ranges

A range of user memory is checked page by page. What the check says is that each byte of the range may
be accessed (`checkRange_eq_ok`): a page stands for all of its bytes, save for the null address. So a
part of a range that was accepted from its start on is accepted too, and bytes that are copied into it
find their place (`copyOut_of_checkRange`).
-/

namespace Userland

namespace AddressSpace

variable {s : AddressSpace} {pool : FramePool} {a b start : VirtAddr} {access : Access} {n last page : Nat}

theorem checkPointer_eq_ok : s.checkPointer a access = .ok () ↔ a.toNat ≠ 0 ∧
    ∃ t, s.translate a = some t ∧ (access = .write → t.flags.writable = true) := by
  rw [checkPointer]
  by_cases null : a.toNat = 0
  · simp [null]
  rw [if_neg null]
  by_cases user : a.isUser = true
  swap
  · -- Nothing is mapped where the kernel is.
    have unmapped : s.translate a = none := by rw [translate_eq, if_neg user]
    simp [user, unmapped]
  cases found : s.translate a with
  | none => simp [user]
  | some t => cases access <;> simp [user, null]

/-- What may be done at one address of a page may be done at any other, if that is not null. -/
theorem checkPointer_of_page (same : b.toNat / pageSize = a.toNat / pageSize) (nonzero : b.toNat ≠ 0)
    (checked : s.checkPointer a access = .ok ()) : s.checkPointer b access = .ok () := by
  have user : b.isUser = a.isUser := by rw [Bool.eq_iff_iff, isUser_iff, isUser_iff, same]
  obtain ⟨-, t, found, writable⟩ := checkPointer_eq_ok.1 checked
  rw [translate_eq, ← user, ← same, ← translate_eq] at found
  exact checkPointer_eq_ok.2 ⟨nonzero, t, found, writable⟩

theorem checkPages_eq_ok : s.checkPages access last page = .ok () ↔ ∀ k, page + k * pageSize ≤ last →
    s.checkPointer (VirtAddr.ofNat (page + k * pageSize)) access = .ok () := by
  fun_induction checkPages s access last page with
  | case1 page inside ih =>
    simp only [bind, Except.bind]
    cases checked : s.checkPointer (VirtAddr.ofNat page) access with
    | error fault =>
      simp only []
      refine ⟨nofun, fun all => ?_⟩
      have first := all 0
      rw [Nat.zero_mul, Nat.add_zero, checked] at first
      cases first inside
    | ok =>
      simp only []
      refine ih.trans ⟨fun later k le => ?_, fun all k le => ?_⟩
      · cases k with
        | zero =>
          rw [Nat.zero_mul, Nat.add_zero]
          exact checked
        | succ k =>
          rw [Nat.succ_mul, Nat.add_comm (k * pageSize), ← Nat.add_assoc] at le ⊢
          exact later k le
      · have here := all (k + 1)
        rw [Nat.succ_mul, Nat.add_comm (k * pageSize), ← Nat.add_assoc] at here
        exact here le
  | case2 page past =>
    exact ⟨fun _ k le => absurd (Nat.le_of_add_right_le le) past, fun _ => rfl⟩

theorem toNat_ofNat (small : n ≤ last) (user : last < 0xC0000000) : (VirtAddr.ofNat n).toNat = n :=
  Nat.mod_eq_of_lt (by simp only [addressLimit]; omega)

theorem ofNat_toNat (a : VirtAddr) : VirtAddr.ofNat a.toNat = a :=
  toNat_injective (Nat.mod_eq_of_lt a.isLt)

/-- An address in user memory, or a number of bytes there, fits a word. -/
theorem toNat_ofNat_of_user (small : n ≤ userTop) : (UInt32.ofNat n).toNat = n := by
  rw [UInt32.toNat_ofNat']
  exact Nat.mod_eq_of_lt (Nat.lt_of_le_of_lt small (by decide))

/-- What is allowed at the start and at the start of each further page is allowed at each byte. -/
theorem checkPointer_of_pages {stop : VirtAddr} (user : stop.isUser = true)
    (length : stop.toNat + 1 = start.toNat + n) (checked : s.checkPointer start access = .ok ())
    (pages : ∀ k, start.page.toNat + pageSize + k * pageSize ≤ stop.toNat →
      s.checkPointer (VirtAddr.ofNat (start.page.toNat + pageSize + k * pageSize)) access = .ok ())
    {k : Nat} (lt : k < n) :
    ∃ a, start.add? k = some a ∧ s.checkPointer a access = .ok () := by
  have top : stop.toNat < 0xC0000000 := of_decide_eq_true user
  have nonzero : start.toNat ≠ 0 := (checkPointer_eq_ok.1 checked).1
  have place : start.page.toNat = start.toNat / 4096 * 4096 := rfl
  simp only [place, pageSize] at pages
  have bound : start.toNat + k < addressLimit := by
    simp only [addressLimit]
    omega
  refine ⟨⟨start.toNat + k, bound⟩, VirtAddr.add?_eq_some.2 rfl, ?_⟩
  by_cases near : (start.toNat + k) / 4096 = start.toNat / 4096
  · exact checkPointer_of_page near (by simp only []; omega) checked
  · -- The byte is in a page of which the start was checked.
    obtain ⟨j, here⟩ : ∃ j, (start.toNat + k) / 4096 = start.toNat / 4096 + 1 + j :=
      Nat.exists_eq_add_of_le (by omega)
    have below : start.toNat / 4096 * 4096 + 4096 + j * 4096 ≤ stop.toNat := by omega
    refine checkPointer_of_page ?_ (by simp only []; omega) (pages j below)
    rw [toNat_ofNat below top]
    simp only [pageSize]
    omega

/-- A range is accepted exactly if each of its bytes may be accessed. -/
theorem checkRange_eq_ok : s.checkRange start n access = .ok () ↔
    ∀ k < n, ∃ a, start.add? k = some a ∧ s.checkPointer a access = .ok () := by
  by_cases none : n = 0
  · simp [checkRange, none]
  have lt : n - 1 < n := Nat.sub_one_lt none
  rw [checkRange, if_neg none]
  cases reached : start.add? (n - 1) with
  | none =>
    refine ⟨nofun, fun all => ?_⟩
    obtain ⟨a, there, -⟩ := all (n - 1) lt
    rw [reached] at there
    cases there
  | some stop =>
    have length : stop.toNat + 1 = start.toNat + n := by
      rw [VirtAddr.add?_eq_some.1 reached, Nat.add_assoc, Nat.sub_one_add_one none]
    by_cases user : stop.isUser = true
    swap
    · simp only [user, Bool.not_false, if_true]
      refine ⟨nofun, fun all => ?_⟩
      obtain ⟨a, there, checked⟩ := all (n - 1) lt
      rw [reached] at there
      cases there
      obtain ⟨-, t, found, -⟩ := checkPointer_eq_ok.1 checked
      rw [translate_eq, if_neg user] at found
      cases found
    simp only [user, Bool.not_true, Bool.false_eq_true, if_false, bind, Except.bind]
    cases checked : s.checkPointer start access with
    | error fault =>
      refine ⟨nofun, fun all => ?_⟩
      obtain ⟨a, there, first⟩ := all 0 (Nat.pos_of_ne_zero none)
      obtain rfl : a = start := toNat_injective (VirtAddr.add?_eq_some.1 there)
      rw [checked] at first
      cases first
    | ok =>
      refine checkPages_eq_ok.trans
        ⟨fun pages k lt => checkPointer_of_pages user length checked pages lt, fun all k le => ?_⟩
      -- A page after the first one starts with a byte of the range.
      have place : start.page.toNat = start.toNat / 4096 * 4096 := rfl
      simp only [place, pageSize] at le ⊢
      obtain ⟨a, there, checked⟩ :=
        all (start.toNat / 4096 * 4096 + 4096 + k * 4096 - start.toNat) (by omega)
      have same : VirtAddr.ofNat (start.toNat / 4096 * 4096 + 4096 + k * 4096) = a := by
        refine toNat_injective ?_
        rw [toNat_ofNat le (of_decide_eq_true user), VirtAddr.add?_eq_some.1 there]
        omega
      rwa [same]

/-- A range that is accepted has no more bytes than there are user addresses. -/
theorem le_of_checkRange (checked : s.checkRange start n access = .ok ()) :
    n ≤ userTop := by
  cases n with
  | zero => exact Nat.zero_le _
  | succ n =>
    obtain ⟨last, there, pointer⟩ := checkRange_eq_ok.1 checked n (Nat.lt_succ_self n)
    obtain ⟨-, t, found, -⟩ := checkPointer_eq_ok.1 pointer
    have user : last.isUser = true := isUser_iff.2 (translate_eq_some.1 found).1
    have bound : last.toNat < userTop := of_decide_eq_true user
    rw [VirtAddr.add?_eq_some.1 there] at bound
    exact Nat.lt_of_le_of_lt (Nat.le_add_left n _) bound

/-- A byte that may be read ends a string or becomes a part of it. -/
theorem copyStringFrom_of_read {k : Nat} {byte : UInt8} (there : start.add? k = some a)
    (checked : s.checkPointer a .read = .ok ()) (read : s.readBytes pool a 1 = .ok [byte]) (done : Bytes)
    (limit : Nat) : s.copyStringFrom pool start done k (limit + 1) =
      if byte = 0 then .ok done.reverse else s.copyStringFrom pool start (byte :: done) (k + 1) limit := by
  rw [copyStringFrom, there]
  simp only [checked, read, faultAt]
  rfl

/-- Bytes that are no more than were checked for are copied. -/
theorem copyOut_of_checkRange (pool : FramePool) {data : Bytes}
    (checked : s.checkRange start n .write = .ok ()) (short : data.length ≤ n) :
    (s.copyOut pool start data).1 = .ok () := by
  have all := checkRange_eq_ok.1 checked
  have again : s.checkRange start data.length .write = .ok () :=
    checkRange_eq_ok.2 fun k lt => all k (by omega)
  have written : (s.writeBytes pool start data).1 = .ok () := by
    refine (writeFrom_eq_ok start 0 data).2 fun k lt => ?_
    obtain ⟨a, there, checked⟩ := all k (by omega)
    obtain ⟨-, t, found, -⟩ := checkPointer_eq_ok.1 checked
    exact ⟨a, VirtAddr.add?_eq_some.1 there, by rw [found]; rfl⟩
  simp only [copyOut, again, written, faultAt]

end AddressSpace

end Userland

import Userland.Proofs.Ranges

/-!
# Why a range is refused

A check of a range looks at its first byte and at the first byte of each further page. Still it is a check
of every byte (`AddressSpace.ChecksBytes`): what it reports is what the check of a byte reports at the
lowest byte that may not be accessed, unless the end of the range already gives it away. The loop over the
pages keeps the address of a page in a machine word. It ends, after at most as many rounds as user memory
has pages, and no address that it gets to is too large for the word (`AddressSpace.checks_bytes`).
-/

namespace Userland

namespace AddressSpace

variable {s : AddressSpace} {start a b : VirtAddr} {access : Access} {fault fault' : UserFault}
  {n last page : Nat}

/-! ## The lowest byte that is refused -/

/-- Of `n` bytes from `start` on, `a` is the lowest that may not be accessed, for the reason `fault`. -/
structure FirstFault (s : AddressSpace) (start : VirtAddr) (n : Nat) (access : Access) (a : VirtAddr)
    (fault : UserFault) : Prop where
  lower : start.toNat ≤ a.toNat
  upper : a.toNat < start.toNat + n
  refused : s.checkPointer a access = .error fault
  before : ∀ b : VirtAddr, start.toNat ≤ b.toNat → b.toNat < a.toNat → s.checkPointer b access = .ok ()

namespace FirstFault

theorem toNat_le (one : s.FirstFault start n access a fault) (other : s.FirstFault start n access b fault') :
    a.toNat ≤ b.toNat := by
  by_contra above
  have accepted := one.before b other.lower (Nat.lt_of_not_le above)
  rw [other.refused] at accepted
  cases accepted

/-- There is no more than one lowest byte. -/
theorem fault_eq (one : s.FirstFault start n access a fault) (other : s.FirstFault start n access b fault') :
    fault = fault' := by
  obtain rfl : a = b := toNat_injective (Nat.le_antisymm (one.toNat_le other) (other.toNat_le one))
  exact Except.error.inj (one.refused.symm.trans other.refused)

end FirstFault

/-- A check of pages fails at one of them, and the pages before that are fine. -/
theorem fault_of_checkPages (failed : s.checkPages access last page = .error fault) :
    ∃ k, page + k * pageSize ≤ last ∧
      s.checkPointer (VirtAddr.ofNat (page + k * pageSize)) access = .error fault ∧
      ∀ j < k, s.checkPointer (VirtAddr.ofNat (page + j * pageSize)) access = .ok () := by
  fun_induction checkPages s access last page with
  | case1 page inside ih =>
    simp only [bind, Except.bind] at failed
    cases checked : s.checkPointer (VirtAddr.ofNat page) access with
    | error first =>
      rw [checked] at failed
      cases failed
      exact ⟨0, by omega, by rwa [Nat.zero_mul], fun j lt => absurd lt (Nat.not_lt_zero j)⟩
    | ok =>
      rw [checked] at failed
      obtain ⟨k, le, here, before⟩ := ih failed
      have next : ∀ j, page + pageSize + j * pageSize = page + (j + 1) * pageSize := fun j => by
        rw [Nat.succ_mul, Nat.add_comm (j * pageSize), Nat.add_assoc]
      simp only [next] at le here before
      refine ⟨k + 1, le, here, fun j lt => ?_⟩
      cases j with
      | zero => rwa [Nat.zero_mul, Nat.add_zero]
      | succ j => exact before j (Nat.lt_of_succ_lt_succ lt)
  | case2 page past => cases failed

/-- What comes before a page is accepted if the start and the pages in between are. -/
theorem checkPointer_before_page (user : start.toNat + n ≤ userTop)
    (checked : s.checkPointer start access = .ok ()) (start_le : start.toNat < page) {k : Nat}
    (place : page = start.page.toNat + pageSize + k * pageSize) (le : page < start.toNat + n)
    (pages : ∀ j < k, s.checkPointer (VirtAddr.ofNat (start.page.toNat + pageSize + j * pageSize)) access = .ok ())
    (lower : start.toNat ≤ b.toNat) (upper : b.toNat < page) : s.checkPointer b access = .ok () := by
  have limit : page - 1 < addressLimit := by simp only [addressLimit, userTop] at *; omega
  obtain ⟨i, here⟩ := Nat.exists_eq_add_of_le lower
  have last : VirtAddr.isUser ⟨page - 1, limit⟩ = true := decide_eq_true (by simp only [userTop] at *; omega)
  obtain ⟨a, there, accepted⟩ : ∃ a, start.add? i = some a ∧ s.checkPointer a access = .ok () :=
    checkPointer_of_pages (n := page - start.toNat) last (by simp only []; omega) checked
      (fun j before => pages j (by simp only [pageSize] at *; omega)) (by omega)
  obtain rfl : b = a := toNat_injective (here.trans (VirtAddr.add?_eq_some.1 there).symm)
  exact accepted

/-- A range in user memory that is refused has a lowest byte that is. -/
theorem firstFault_of_checkRange (user : start.toNat + n ≤ userTop)
    (failed : s.checkRange start n access = .error fault) : ∃ a, s.FirstFault start n access a fault := by
  by_cases none : n = 0
  · simp [checkRange, none] at failed
  have limit : start.toNat + (n - 1) < addressLimit := by simp only [addressLimit, userTop] at *; omega
  have below : start.toNat + (n - 1) < userTop := by omega
  rw [checkRange, if_neg none, VirtAddr.add?_eq_some.2 (rfl : (⟨_, limit⟩ : VirtAddr).toNat = _)] at failed
  simp only [VirtAddr.isUser, below, decide_true, Bool.not_true, Bool.false_eq_true, if_false, bind,
    Except.bind] at failed
  cases checked : s.checkPointer start access with
  | error first =>
    rw [checked] at failed
    cases failed
    exact ⟨start, Nat.le_refl _, by omega, checked, fun b lower upper => absurd lower (Nat.not_le_of_lt upper)⟩
  | ok =>
    rw [checked] at failed
    -- The first byte of the page that is refused is the one: the pages before it speak for their bytes.
    obtain ⟨k, le, here, before⟩ := fault_of_checkPages failed
    have at_page := toNat_ofNat le below
    have lower : start.toNat < start.page.toNat + pageSize + k * pageSize := by
      simp only [VirtAddr.toNat_page, pageSize]
      omega
    refine ⟨_, by rw [at_page]; omega, by rw [at_page]; omega, here, fun b at_start at_b => ?_⟩
    rw [at_page] at at_b
    exact checkPointer_before_page user checked lower rfl (by omega) before at_start at_b

/-! ## The loop in machine words -/

/-- The check of pages with the address of the page in a machine word. There is no result if that word
    overflows, and none if the loop does not come to its end within so many rounds. -/
def stepPages (s : AddressSpace) (access : Access) (last : VirtAddr) :
    Nat → VirtAddr → Option (Except UserFault Unit)
  | 0, _ => none
  | rounds + 1, page =>
    if page.toNat ≤ last.toNat then
      match s.checkPointer page access with
      | .error fault => some (.error fault)
      | .ok () => do s.stepPages access last rounds (← page.add? pageSize)
    else some (.ok ())

/-- The check of a range, with the loop over its pages in machine words. -/
def stepRange (s : AddressSpace) (rounds : Nat) (start : VirtAddr) (n : Nat) (access : Access) :
    Option (Except UserFault Unit) :=
  if n = 0 then some (.ok ())
  else
    match start.add? (n - 1) with
    | none => some (.error (.kernelAddress start))
    | some last =>
      if !last.isUser then some (.error (.kernelAddress last))
      else
        match s.checkPointer start access with
        | .error fault => some (.error fault)
        | .ok () => do s.stepPages access last rounds (← start.page.add? pageSize)

/-- With a last byte in user memory the word does not overflow, and each round takes the loop a page
    further. -/
theorem stepPages_eq {last : VirtAddr} (user : last.isUser = true) (rounds : Nat) {page : VirtAddr}
    (enough : last.toNat < page.toNat + rounds * pageSize) :
    s.stepPages access last (rounds + 1) page = some (s.checkPages access last.toNat page.toNat) := by
  have top : last.toNat < userTop := of_decide_eq_true user
  induction rounds generalizing page with
  | zero =>
    have past : ¬ page.toNat ≤ last.toNat := by omega
    rw [stepPages, checkPages, if_neg past, if_neg past]
  | succ rounds ih =>
    rw [stepPages, checkPages, ofNat_toNat]
    split
    swap
    · rfl
    simp only [bind, Except.bind]
    cases s.checkPointer page access with
    | error fault => rfl
    | ok =>
      have limit : page.toNat + pageSize < addressLimit := by
        simp only [addressLimit, userTop, pageSize] at *
        omega
      have further : last.toNat < page.toNat + pageSize + rounds * pageSize := by
        rw [Nat.succ_mul] at enough
        omega
      simp only [VirtAddr.add?_eq_some.2 (rfl : (⟨_, limit⟩ : VirtAddr).toNat = _), Option.bind_some]
      exact ih further

/-- The loop in machine words does as the loop over numbers does. -/
theorem stepRange_eq (s : AddressSpace) (start : VirtAddr) (n : Nat) (access : Access) :
    s.stepRange (userTop / pageSize) start n access = some (s.checkRange start n access) := by
  rw [stepRange, checkRange]
  by_cases none : n = 0
  · rw [if_pos none, if_pos none]
  rw [if_neg none, if_neg none]
  cases reached : start.add? (n - 1) with
  | none => rfl
  | some last =>
    by_cases user : last.isUser = true
    swap
    · simp [user]
    have start_le : start.toNat ≤ last.toNat := by
      rw [VirtAddr.add?_eq_some.1 reached]
      exact Nat.le_add_right ..
    have top : last.toNat < userTop := of_decide_eq_true user
    have limit : start.page.toNat + pageSize < addressLimit := by
      simp only [VirtAddr.toNat_page, addressLimit, userTop, pageSize] at *
      omega
    simp only [user, Bool.not_true, Bool.false_eq_true, if_false, bind, Except.bind]
    cases s.checkPointer start access with
    | error fault => rfl
    | ok =>
      have rounds : userTop / pageSize = 0xBFFFF + 1 := rfl
      have enough : last.toNat < start.page.toNat + pageSize + 0xBFFFF * pageSize := by
        simp only [userTop, pageSize] at *
        omega
      simp only [VirtAddr.add?_eq_some.2 (rfl : (⟨_, limit⟩ : VirtAddr).toNat = _), Option.bind_some, rounds]
      exact stepPages_eq user _ enough

/-! ## The check of a range as a check of its bytes -/

/-- What the check of `n` bytes from `start` on comes to. -/
structure ChecksBytes (s : AddressSpace) (start : VirtAddr) (n : Nat) (access : Access) : Prop where
  /-- A range is accepted exactly if it has no byte, or does not wrap and each of its bytes is
      accepted. -/
  accepted : s.checkRange start n access = .ok () ↔ n = 0 ∨ start.toNat + (n - 1) < addressLimit ∧
    ∀ a : VirtAddr, start.toNat ≤ a.toNat → a.toNat < start.toNat + n → s.checkPointer a access = .ok ()
  /-- A range that wraps is refused for its start. -/
  wraps : n ≠ 0 → addressLimit ≤ start.toNat + (n - 1) →
    s.checkRange start n access = .error (.kernelAddress start)
  /-- One that reaches the kernel is refused for its last byte. -/
  kernel : ∀ last : VirtAddr, n ≠ 0 → last.toNat = start.toNat + (n - 1) → userTop ≤ last.toNat →
    s.checkRange start n access = .error (.kernelAddress last)
  /-- Any other is refused for the lowest byte that may not be accessed, and for the reason that the
      check of this byte gives. -/
  refused : start.toNat + n ≤ userTop → ∀ fault, s.checkRange start n access = .error fault ↔
    ∃ a, s.FirstFault start n access a fault
  /-- In machine words the loop over the pages ends, without an overflow and with the same result. -/
  loop : s.stepRange (userTop / pageSize) start n access = some (s.checkRange start n access)

theorem checkRange_of_wraps (nonzero : n ≠ 0) (wraps : addressLimit ≤ start.toNat + (n - 1)) :
    s.checkRange start n access = .error (.kernelAddress start) := by
  have out : start.add? (n - 1) = none := dif_neg (Nat.not_lt_of_le wraps)
  rw [checkRange, if_neg nonzero, out]

theorem checkRange_of_kernel {last : VirtAddr} (nonzero : n ≠ 0) (reached : last.toNat = start.toNat + (n - 1))
    (above : userTop ≤ last.toNat) : s.checkRange start n access = .error (.kernelAddress last) := by
  have kernel : last.isUser = false := decide_eq_false (Nat.not_lt_of_le above)
  rw [checkRange, if_neg nonzero, VirtAddr.add?_eq_some.2 reached]
  simp [kernel]

theorem checkRange_eq_error (user : start.toNat + n ≤ userTop) :
    s.checkRange start n access = .error fault ↔ ∃ a, s.FirstFault start n access a fault := by
  refine ⟨firstFault_of_checkRange user, fun ⟨a, first⟩ => ?_⟩
  cases result : s.checkRange start n access with
  | ok =>
    obtain ⟨k, here⟩ := Nat.exists_eq_add_of_le first.lower
    obtain ⟨b, there, accepted⟩ := checkRange_eq_ok.1 result k (by have := first.upper; omega)
    obtain rfl : a = b := toNat_injective (here.trans (VirtAddr.add?_eq_some.1 there).symm)
    cases first.refused.symm.trans accepted
  | error fault' =>
    obtain ⟨b, other⟩ := firstFault_of_checkRange user result
    rw [first.fault_eq other]

theorem checkRange_eq_ok_of_bytes : s.checkRange start n access = .ok () ↔ n = 0 ∨
    start.toNat + (n - 1) < addressLimit ∧
      ∀ a : VirtAddr, start.toNat ≤ a.toNat → a.toNat < start.toNat + n → s.checkPointer a access = .ok () := by
  rw [checkRange_eq_ok]
  refine ⟨fun all => or_iff_not_imp_left.2 fun nonzero => ⟨?_, fun a lower upper => ?_⟩, ?_⟩
  · obtain ⟨last, there, -⟩ := all (n - 1) (Nat.sub_one_lt nonzero)
    rw [← VirtAddr.add?_eq_some.1 there]
    exact last.isLt
  · obtain ⟨k, here⟩ := Nat.exists_eq_add_of_le lower
    obtain ⟨b, there, accepted⟩ := all k (by omega)
    obtain rfl : a = b := toNat_injective (here.trans (VirtAddr.add?_eq_some.1 there).symm)
    exact accepted
  · rintro (rfl | ⟨limit, all⟩) k lt
    · cases lt
    · have place : start.toNat + k < addressLimit := by omega
      exact ⟨⟨_, place⟩, VirtAddr.add?_eq_some.2 rfl, all _ (Nat.le_add_right ..) (Nat.add_lt_add_left lt _)⟩

/-- A check of a range is a check of each of its bytes. -/
theorem checks_bytes (s : AddressSpace) (start : VirtAddr) (n : Nat) (access : Access) :
    s.ChecksBytes start n access where
  accepted := checkRange_eq_ok_of_bytes
  wraps := checkRange_of_wraps
  kernel _ := checkRange_of_kernel
  refused user _ := checkRange_eq_error user
  loop := stepRange_eq s start n access

end AddressSpace

end Userland

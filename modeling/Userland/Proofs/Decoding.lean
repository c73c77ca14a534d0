import Mathlib.Data.List.Find
import Userland.Proofs.StackPage
import Userland.Syscall.Call

/-!
# Decoding system calls

A call is read off the stack word by word. What is wrong with a word that may not be read can be told from
its four addresses (`AddressSpace.faultOfStackWord`); a word with which nothing is wrong is the one whose
bytes are in memory (`Syscall.readStackWord_eq_ok`). So `Syscall.decode` first reads a number, then as many
words as calls of that number have (`Syscall.argumentCount`), and puts the call together (`Syscall.ofWords`),
which undoes `Syscall.words` (`Syscall.ofWords_eq_some`). From this form, `Syscall.decode_eq`, follows all
there is to say about what decoding gives and where it looks (`Syscall.decodes`).
-/

namespace Userland

namespace Bytes

@[simp] theorem length_ofWord (w : UInt32) : (ofWord w).length = 4 := length_ofNat 4 _

theorem ofNat_value (bs : Bytes) : ofNat bs.length (value bs) = bs := by
  induction bs with
  | nil => rfl
  | cons b bs ih =>
    have low : UInt8.ofNat (b.toNat + 256 * value bs) = b := by
      refine UInt8.toNat_inj.1 ?_
      rw [UInt8.toNat_ofNat', Nat.add_mul_mod_self_left]
      exact Nat.mod_eq_of_lt b.toNat_lt
    have high : (b.toNat + 256 * value bs) / 256 = value bs := by
      have := b.toNat_lt
      omega
    rw [value, List.length_cons, ofNat, low, high, ih]

theorem value_lt_count (bs : Bytes) : value bs < count bs.length := by
  induction bs with
  | nil => exact Nat.one_pos
  | cons b bs ih =>
    have := b.toNat_lt
    rw [value, List.length_cons, count]
    omega

/-- Four bytes are those of the word that they make. -/
theorem ofWord_word {bs : Bytes} (four : bs.length = 4) : ofWord (word bs) = bs := by
  have small : value bs < count 4 := by
    rw [← four]
    exact value_lt_count bs
  have whole : (UInt32.ofNat (value bs)).toNat = value bs := by
    rw [UInt32.toNat_ofNat']
    exact Nat.mod_eq_of_lt small
  rw [word, List.take_of_length_le (Nat.le_of_eq four), ofWord, whole, ← four]
  exact ofNat_value bs

end Bytes

namespace AddressSpace

variable {s s' : AddressSpace} {pool pool' : FramePool} {a esp : VirtAddr} {i k : Nat} {w : UInt32}

theorem HasBytes.append {a : Nat} {bs cs : Bytes} (has : s.HasBytes pool a bs)
    (has' : s.HasBytes pool (a + bs.length) cs) : s.HasBytes pool a (bs ++ cs) where
  above := has.above
  below := by
    have := has'.below
    rw [List.length_append]
    omega
  byte k lt := by
    by_cases inside : k < bs.length
    · rw [has.byte k inside, List.getElem_append_left inside]
    · obtain ⟨j, rfl⟩ := Nat.exists_eq_add_of_le (Nat.le_of_not_lt inside)
      rw [List.length_append] at lt
      rw [← Nat.add_assoc, has'.byte j (by omega), List.getElem_append_right (Nat.le_add_right ..)]
      simp

/-! ## Words that may not be read -/

/-- What is wrong with the word at an address: it is not below the kernel, it starts at the null address, or one
    of its bytes is in no page, of which the first one counts. -/
def faultOfWord (s : AddressSpace) (a : VirtAddr) : Option UserFault :=
  match a.add? 3 with
  | none => some (.kernelAddress a)
  | some last =>
    if !last.isUser then some (.kernelAddress last)
    else if a.toNat = 0 then some .nullPointer
    else ((List.range 4).find? fun k => (s.translate (.ofNat (a.toNat + k))).isNone).map fun k =>
      .unmapped (.ofNat (a.toNat + k))

/-- What is wrong with word number `i` up from a stack pointer. -/
def faultOfStackWord (s : AddressSpace) (esp : VirtAddr) (i : Nat) : Option UserFault :=
  match esp.add? (i * 4) with
  | none => some (.kernelAddress esp)
  | some a => s.faultOfWord a

/-- The first of four bytes that is in no page, below the kernel: the first one, or else the first of the next
    page. -/
theorem find?_unmapped {last : VirtAddr} (reached : a.add? 3 = some last) (user : last.isUser = true) :
    ((List.range 4).find? fun k => (s.translate (.ofNat (a.toNat + k))).isNone) =
      if (s.translate a).isNone then some 0
      else if a.toNat / 4096 * 4096 + 4096 ≤ last.toNat ∧
          (s.translate (.ofNat (a.toNat / 4096 * 4096 + 4096))).isNone then
        some (a.toNat / 4096 * 4096 + 4096 - a.toNat)
      else none := by
  have far := VirtAddr.add?_eq_some.1 reached
  have top : last.toNat < 0xC0000000 := of_decide_eq_true user
  have place {n : Nat} (le : n ≤ last.toNat) : (VirtAddr.ofNat n).toNat = n := toNat_ofNat le top
  have of_page {n m : Nat} (le : n ≤ last.toNat) (le' : m ≤ last.toNat) (same : n / 4096 = m / 4096) :
      s.translate (.ofNat n) = s.translate (.ofNat m) := by
    have isUser {n : Nat} (le : n ≤ last.toNat) : (VirtAddr.ofNat n).isUser = true :=
      decide_eq_true (by rw [place le]; exact Nat.lt_of_le_of_lt le top)
    rw [translate_eq, translate_eq, place le, place le', isUser le, isUser le']
    simp only [pageSize, same]
  have here : VirtAddr.ofNat a.toNat = a := toNat_injective (place (by omega))
  split
  case isTrue missing =>
    rw [List.find?_range_eq_some]
    exact ⟨by rw [Nat.add_zero, here]; exact missing, by simp, nofun⟩
  case isFalse found =>
    -- The bytes of the first page are there with the first byte.
    have near {j : Nat} (lt : j < 4) (same : (a.toNat + j) / 4096 = a.toNat / 4096) :
        (s.translate (.ofNat (a.toNat + j))).isNone = false := by
      rw [of_page (by omega) (by omega) same, here]
      exact Bool.of_not_eq_true found
    split
    case isTrue next =>
      rw [List.find?_range_eq_some]
      have inside : a.toNat + (a.toNat / 4096 * 4096 + 4096 - a.toNat) = a.toNat / 4096 * 4096 + 4096 := by omega
      refine ⟨by rw [inside]; exact next.2, List.mem_range.2 (by omega), fun j lt => ?_⟩
      rw [near (by omega) (by omega)]
      rfl
    case isFalse next =>
      rw [List.find?_range_eq_none]
      intro j lt
      by_cases same : (a.toNat + j) / 4096 = a.toNat / 4096
      · rw [near lt same]
        rfl
      · have crossed : a.toNat / 4096 * 4096 + 4096 ≤ last.toNat := by omega
        have mapped := Bool.of_not_eq_true fun missing => next ⟨crossed, missing⟩
        rw [of_page (by omega) crossed (by omega), mapped]
        rfl

/-- The check of a word finds what is wrong with it. -/
theorem checkRange_word : s.checkRange a 4 .read = (s.faultOfWord a).elim (.ok ()) .error := by
  rw [checkRange, if_neg (by decide), faultOfWord]
  cases reached : a.add? 3 with
  | none => rfl
  | some last =>
    by_cases user : last.isUser = true
    swap
    · simp [user]
    have far := VirtAddr.add?_eq_some.1 reached
    have top : last.toNat < 0xC0000000 := of_decide_eq_true user
    have low : a.isUser = true := decide_eq_true (by simp only [userTop]; omega)
    have here : VirtAddr.ofNat a.toNat = a := toNat_injective (toNat_ofNat (by omega) top)
    have start : a.page.toNat + pageSize = a.toNat / 4096 * 4096 + 4096 := rfl
    simp only [user, Bool.not_true, Bool.false_eq_true, if_false, find?_unmapped reached user, start]
    rw [checkPointer]
    by_cases null : a.toNat = 0
    · simp [null, bind, Except.bind]
    cases found : s.translate a with
    | none => simp [null, low, here, bind, Except.bind]
    | some t =>
      have first : s.checkPages .read last.toNat (a.toNat / 4096 * 4096 + 4096) =
          if a.toNat / 4096 * 4096 + 4096 ≤ last.toNat then
            s.checkPointer (.ofNat (a.toNat / 4096 * 4096 + 4096)) .read
          else .ok () := by
        have beyond : ¬ a.toNat / 4096 * 4096 + 4096 + 4096 ≤ last.toNat := by omega
        rw [checkPages, checkPages, if_neg beyond]
        cases s.checkPointer (.ofNat (a.toNat / 4096 * 4096 + 4096)) .read <;> rfl
      by_cases crossed : a.toNat / 4096 * 4096 + 4096 ≤ last.toNat
      · -- Of the next page the first byte is checked.
        have place : (VirtAddr.ofNat (a.toNat / 4096 * 4096 + 4096)).toNat = a.toNat / 4096 * 4096 + 4096 :=
          toNat_ofNat crossed top
        have inside : a.toNat + (a.toNat / 4096 * 4096 + 4096 - a.toNat) = a.toNat / 4096 * 4096 + 4096 := by omega
        have low' : (VirtAddr.ofNat (a.toNat / 4096 * 4096 + 4096)).isUser = true :=
          decide_eq_true (by rw [place]; exact Nat.lt_of_le_of_lt crossed top)
        have nonzero : ¬ (VirtAddr.ofNat (a.toNat / 4096 * 4096 + 4096)).toNat = 0 := by omega
        cases next : s.translate (.ofNat (a.toNat / 4096 * 4096 + 4096)) with
        | none => simp [null, low, first, crossed, checkPointer, nonzero, low', next, inside, bind, Except.bind]
        | some u => simp [null, low, first, crossed, checkPointer, nonzero, low', next, bind, Except.bind]
      · simp [null, low, first, crossed, bind, Except.bind]

theorem isNone_byte? (backed : s.Backed pool) : (s.byte? pool a).isNone = (s.translate a).isNone := by
  cases found : s.translate a with
  | none => simp [byte?, found]
  | some t =>
    have used := backed _ (mem_frames_of_translate found)
    obtain ⟨p, held⟩ := Option.isSome_iff_exists.1 (FramePool.isSome_page?_of_inUse used)
    simp [byte?, found, held, Vector.getElem?_eq_getElem a.offset_lt]

/-- The bytes of a word that may be read are there. -/
theorem exists_hasBytes (backed : s.Backed pool) (checked : s.checkRange a 4 .read = .ok ()) :
    ∃ w, s.HasBytes pool a.toNat (Bytes.ofWord w) := by
  have all := checkRange_eq_ok.1 checked
  obtain ⟨first, there, first_checked⟩ := all 0 (by decide)
  obtain ⟨last, reached, last_checked⟩ := all 3 (by decide)
  obtain ⟨-, t, found, -⟩ := checkPointer_eq_ok.1 last_checked
  have user : last.isUser = true := isUser_iff.2 (translate_eq_some.1 found).1
  have top : last.toNat < userTop := of_decide_eq_true user
  have far := VirtAddr.add?_eq_some.1 reached
  have start : first = a := toNat_injective (VirtAddr.add?_eq_some.1 there)
  have nonzero := start ▸ (checkPointer_eq_ok.1 first_checked).1
  let bs : Bytes := (List.range 4).map fun k => (s.byte? pool (.ofNat (a.toNat + k))).getD 0
  have four : bs.length = 4 := rfl
  refine ⟨Bytes.word bs, ?_⟩
  rw [Bytes.ofWord_word four]
  refine ⟨Nat.pos_of_ne_zero nonzero, by omega, fun k lt => ?_⟩
  obtain ⟨b, there, checked⟩ := all k lt
  obtain ⟨-, t, found, -⟩ := checkPointer_eq_ok.1 checked
  have inside : a.toNat + k ≤ last.toNat := by omega
  have place : VirtAddr.ofNat (a.toNat + k) = b :=
    toNat_injective ((toNat_ofNat inside top).trans (VirtAddr.add?_eq_some.1 there).symm)
  have some : (s.byte? pool b).isSome = true := by
    rw [← Option.not_isNone, isNone_byte? backed, found]
    rfl
  obtain ⟨v, held⟩ := Option.isSome_iff_exists.1 some
  simp [bs, place, held]

/-- A word is read exactly if its bytes are there. -/
theorem readWord_eq_ok (backed : s.Backed pool) :
    s.readWord pool a = .ok w ↔ s.HasBytes pool a.toNat (Bytes.ofWord w) := by
  have here : VirtAddr.ofNat a.toNat = a := toNat_injective (Nat.mod_eq_of_lt a.isLt)
  refine ⟨fun read => ?_, fun has => here ▸ has.readWord backed⟩
  cases checked : s.checkRange a 4 .read with
  | error fault =>
    rw [readWord, copyIn, checked] at read
    cases read
  | ok =>
    obtain ⟨v, has⟩ := exists_hasBytes backed checked
    have again := here ▸ has.readWord backed
    rw [read] at again
    cases again
    exact has

/-- What is wrong with a word depends on which of its bytes are there. -/
theorem faultOfStackWord_congr (backed : s.Backed pool) (backed' : s'.Backed pool')
    (same : ∀ k < 4, ∀ a, esp.add? (i * 4 + k) = some a → s'.byte? pool' a = s.byte? pool a) :
    s'.faultOfStackWord esp i = s.faultOfStackWord esp i := by
  rw [faultOfStackWord, faultOfStackWord]
  cases reached : esp.add? (i * 4) with
  | none => rfl
  | some a =>
    have base := VirtAddr.add?_eq_some.1 reached
    simp only [faultOfWord]
    cases ended : a.add? 3 with
    | none => rfl
    | some last =>
      have far := VirtAddr.add?_eq_some.1 ended
      have mapped (k : Nat) (lt : k < 4) : (s'.translate (.ofNat (a.toNat + k))).isNone =
          (s.translate (.ofNat (a.toNat + k))).isNone := by
        have bound : a.toNat + k < addressLimit := Nat.lt_of_le_of_lt (by omega) last.isLt
        have place : (VirtAddr.ofNat (a.toNat + k)).toNat = a.toNat + k := Nat.mod_eq_of_lt bound
        have byte := same k lt (.ofNat (a.toNat + k)) (VirtAddr.add?_eq_some.2 (by omega))
        rw [← isNone_byte? backed', ← isNone_byte? backed, byte]
      have bytes : (List.range 4).find? (fun k => (s'.translate (.ofNat (a.toNat + k))).isNone) =
          (List.range 4).find? fun k => (s.translate (.ofNat (a.toNat + k))).isNone := by
        exact List.find?_congr fun k mem => mapped k (List.mem_range.1 mem)
      rw [bytes]

end AddressSpace

namespace Syscall

variable {s s' : AddressSpace} {pool pool' : FramePool} {esp : VirtAddr} {fault : UserFault} {call : Syscall}
  {w : UInt32} {ws : List UInt32} {i n : Nat}

/-! ## Reading words -/

theorem readStackWord_of_fault (found : s.faultOfStackWord esp i = some fault) :
    readStackWord s pool esp i = .error fault := by
  rw [AddressSpace.faultOfStackWord] at found
  rw [readStackWord]
  cases reached : esp.add? (i * 4) with
  | none =>
    rw [reached] at found
    exact congrArg Except.error (Option.some.inj found)
  | some a =>
    rw [reached] at found
    have checked := AddressSpace.checkRange_word (s := s) (a := a)
    rw [show s.faultOfWord a = some fault from found] at checked
    simp only [AddressSpace.readWord, AddressSpace.copyIn, checked]
    rfl

/-- Nothing is wrong with a word that is read. -/
theorem fine_of_readStackWord (read : readStackWord s pool esp i = .ok w) : s.faultOfStackWord esp i = none := by
  cases found : s.faultOfStackWord esp i with
  | none => rfl
  | some fault =>
    rw [readStackWord_of_fault found] at read
    cases read

/-- A word is read if its bytes are there. -/
theorem readStackWord_eq_ok (backed : s.Backed pool) :
    readStackWord s pool esp i = .ok w ↔ s.HasBytes pool (esp.toNat + i * 4) (Bytes.ofWord w) := by
  rw [readStackWord]
  cases reached : esp.add? (i * 4) with
  | none =>
    refine ⟨nofun, fun has => ?_⟩
    have below := has.below
    have past : esp.add? (i * 4) = some (.ofNat (esp.toNat + i * 4)) :=
      VirtAddr.add?_eq_some.2 (has.toNat_ofNat (Nat.zero_le _))
    rw [reached] at past
    cases past
  | some a =>
    have base := VirtAddr.add?_eq_some.1 reached
    rw [← base]
    exact AddressSpace.readWord_eq_ok backed

/-- A word with which nothing is wrong is read. -/
theorem exists_readStackWord (backed : s.Backed pool) (fine : s.faultOfStackWord esp i = none) :
    ∃ w, readStackWord s pool esp i = .ok w := by
  rw [AddressSpace.faultOfStackWord] at fine
  cases reached : esp.add? (i * 4) with
  | none => rw [reached] at fine; cases fine
  | some a =>
    rw [reached] at fine
    have checked : s.checkRange a 4 .read = .ok () := by
      rw [AddressSpace.checkRange_word, show s.faultOfWord a = none from fine]
      rfl
    obtain ⟨w, has⟩ := AddressSpace.exists_hasBytes backed checked
    refine ⟨w, (readStackWord_eq_ok backed).2 ?_⟩
    rwa [← VirtAddr.add?_eq_some.1 reached]

/-- What is read depends on the bytes of the word. -/
theorem readStackWord_congr (backed : s.Backed pool) (backed' : s'.Backed pool')
    (same : ∀ k < 4, ∀ a, esp.add? (i * 4 + k) = some a → s'.byte? pool' a = s.byte? pool a) :
    readStackWord s' pool' esp i = readStackWord s pool esp i := by
  have faults := AddressSpace.faultOfStackWord_congr backed backed' same
  cases found : s.faultOfStackWord esp i with
  | some fault =>
    rw [readStackWord_of_fault found, readStackWord_of_fault (faults.trans found)]
  | none =>
    obtain ⟨w, read⟩ := exists_readStackWord backed found
    have has := (readStackWord_eq_ok backed).1 read
    rw [read, readStackWord_eq_ok backed']
    refine ⟨has.above, has.below, fun k lt => ?_⟩
    have place := has.toNat_ofNat (Nat.le_of_lt lt)
    rw [same k (by simpa using lt) _ (VirtAddr.add?_eq_some.2 (by rw [place, Nat.add_assoc])), has.byte k lt]

/-- The words from number `i` on, as many as are asked for. -/
def readStackWords (s : AddressSpace) (pool : FramePool) (esp : VirtAddr) (i : Nat) :
    Nat → Except UserFault (List UInt32)
  | 0 => .ok []
  | n + 1 => do
    let w ← readStackWord s pool esp i
    let ws ← readStackWords s pool esp (i + 1) n
    return w :: ws

theorem readStackWords_succ : readStackWords s pool esp i (n + 1) = .ok ws ↔ ∃ v vs, ws = v :: vs ∧
    readStackWord s pool esp i = .ok v ∧ readStackWords s pool esp (i + 1) n = .ok vs := by
  rw [readStackWords]
  cases readStackWord s pool esp i with
  | error fault => exact ⟨nofun, fun ⟨_, _, _, first, _⟩ => nomatch first⟩
  | ok v =>
    cases readStackWords s pool esp (i + 1) n with
    | error fault => exact ⟨nofun, fun ⟨_, _, _, _, rest⟩ => nomatch rest⟩
    | ok vs =>
      refine ⟨fun all => ⟨v, vs, (Except.ok.inj all).symm, rfl, rfl⟩, ?_⟩
      rintro ⟨_, _, rfl, first, rest⟩
      cases first
      cases rest
      rfl

/-- Words are read exactly if their bytes are there, one after the other. -/
theorem readStackWords_eq_ok (backed : s.Backed pool) : readStackWords s pool esp i (n + 1) = .ok ws ↔
    ws.length = n + 1 ∧ s.HasBytes pool (esp.toNat + i * 4) (ws.flatMap Bytes.ofWord) := by
  induction n generalizing i ws with
  | zero =>
    rw [readStackWords_succ]
    constructor
    · rintro ⟨v, vs, rfl, read, reads⟩
      cases reads
      exact ⟨rfl, (readStackWord_eq_ok backed).1 read⟩
    · rintro ⟨one, has⟩
      obtain ⟨v, rfl⟩ := List.length_eq_one_iff.1 one
      exact ⟨v, [], rfl, (readStackWord_eq_ok backed).2 has, rfl⟩
  | succ n ih =>
    have next : esp.toNat + (i + 1) * 4 = esp.toNat + i * 4 + 4 := by omega
    rw [readStackWords_succ]
    constructor
    · rintro ⟨v, vs, rfl, read, reads⟩
      obtain ⟨length, rest⟩ := ih.1 reads
      rw [next] at rest
      exact ⟨congrArg Nat.succ length, ((readStackWord_eq_ok backed).1 read).append rest⟩
    · rintro ⟨length, has⟩
      obtain ⟨v, vs, rfl⟩ := List.exists_cons_of_length_eq_add_one length
      have both : s.HasBytes pool (esp.toNat + i * 4) (Bytes.ofWord v ++ vs.flatMap Bytes.ofWord) := has
      refine ⟨v, vs, rfl, (readStackWord_eq_ok backed).2 both.left, ih.2 ⟨Nat.succ.inj length, ?_⟩⟩
      have rest := both.right
      rwa [Bytes.length_ofWord, ← next] at rest

/-- The words are read up to the first one with a fault, and that is reported. -/
theorem readStackWords_of_fault (backed : s.Backed pool) {j : Nat} (lt : j < n)
    (fine : ∀ k < j, s.faultOfStackWord esp (i + k) = none) (found : s.faultOfStackWord esp (i + j) = some fault) :
    readStackWords s pool esp i n = .error fault := by
  induction j generalizing i n with
  | zero =>
    obtain ⟨n, rfl⟩ := Nat.exists_eq_add_one_of_ne_zero (Nat.ne_of_gt lt)
    have first : readStackWord s pool esp i = .error fault := readStackWord_of_fault found
    rw [readStackWords, first]
    rfl
  | succ j ih =>
    obtain ⟨n, rfl⟩ := Nat.exists_eq_add_one_of_ne_zero (Nat.ne_of_gt (Nat.zero_lt_of_lt lt))
    obtain ⟨v, first⟩ : ∃ v, readStackWord s pool esp i = .ok v :=
      exists_readStackWord backed (fine 0 (Nat.succ_pos j))
    have later : readStackWords s pool esp (i + 1) n = .error fault := by
      refine ih (Nat.lt_of_succ_lt_succ lt) (fun k lt => ?_) ?_
      · rw [Nat.add_right_comm, Nat.add_assoc]
        exact fine (k + 1) (Nat.succ_lt_succ lt)
      · rw [Nat.add_right_comm, Nat.add_assoc]
        exact found
    rw [readStackWords, first, later]
    rfl

theorem fine_of_readStackWords (read : readStackWords s pool esp i n = .ok ws) {k : Nat} (lt : k < n) :
    s.faultOfStackWord esp (i + k) = none := by
  induction n generalizing i k ws with
  | zero => cases lt
  | succ n ih =>
    obtain ⟨v, vs, -, first, rest⟩ := readStackWords_succ.1 read
    cases k with
    | zero => exact fine_of_readStackWord first
    | succ k =>
      have later := ih rest (Nat.lt_of_succ_lt_succ lt)
      rwa [Nat.add_right_comm, Nat.add_assoc] at later

/-- Words that may all be read are read. -/
theorem exists_readStackWords (backed : s.Backed pool)
    (fine : ∀ k < n, s.faultOfStackWord esp (i + k) = none) :
    ∃ ws, readStackWords s pool esp i n = .ok ws ∧ ws.length = n := by
  induction n generalizing i with
  | zero => exact ⟨[], rfl, rfl⟩
  | succ n ih =>
    obtain ⟨v, read⟩ := exists_readStackWord backed (fine 0 (Nat.succ_pos n))
    obtain ⟨vs, reads, length⟩ := ih (i := i + 1) fun k lt => by
      rw [Nat.add_right_comm, Nat.add_assoc]
      exact fine (k + 1) (Nat.succ_lt_succ lt)
    exact ⟨v :: vs, readStackWords_succ.2 ⟨v, vs, rfl, read, reads⟩, congrArg Nat.succ length⟩

theorem readStackWords_congr
    (same : ∀ k < n, readStackWord s' pool' esp (i + k) = readStackWord s pool esp (i + k)) :
    readStackWords s' pool' esp i n = readStackWords s pool esp i n := by
  induction n generalizing i with
  | zero => rfl
  | succ n ih =>
    have first : readStackWord s' pool' esp i = readStackWord s pool esp i := same 0 (Nat.succ_pos n)
    have rest := ih (i := i + 1) fun k lt => by
      rw [Nat.add_right_comm, Nat.add_assoc]
      exact same (k + 1) (Nat.succ_lt_succ lt)
    rw [readStackWords, readStackWords, first, rest]

/-! ## Calls and their words -/

/-- How many arguments the calls of a number have. -/
def argumentCount : Nat → Nat
  | 1 | 2 | 3 | 5 | 6 | 7 | 11 | 12 | 13 => 1
  | 4 | 10 => 2
  | 8 | 9 => 3
  | _ => 0

/-- Whether pointers have 32 bits. -/
def Fits (call : Syscall) : Prop := ∀ a, .pointer a ∈ call.arguments → a.toNat < wordLimit

/-- A call with no argument. -/
def ofNone (call : Syscall) : List UInt32 → Option Syscall
  | [] => some call
  | _ => none

/-- A call with one argument. -/
def ofOne (call : UInt32 → Syscall) : List UInt32 → Option Syscall
  | [a] => some (call a)
  | _ => none

/-- A call with two arguments. -/
def ofTwo (call : UInt32 → UInt32 → Syscall) : List UInt32 → Option Syscall
  | [a, b] => some (call a b)
  | _ => none

/-- A call with three arguments. -/
def ofThree (call : UInt32 → UInt32 → UInt32 → Syscall) : List UInt32 → Option Syscall
  | [a, b, c] => some (call a b c)
  | _ => none

/-- The call of a number with arguments, if calls of that number have as many. -/
def ofNumber : Nat → List UInt32 → Option Syscall
  | 0 => ofNone halt
  | 1 => ofOne fun a => exit a.toInt32
  | 2 => ofOne fun a => exec (.ofWord a)
  | 3 => ofOne fun a => wait a.toInt32
  | 4 => ofTwo fun a b => create (.ofWord a) b
  | 5 => ofOne fun a => remove (.ofWord a)
  | 6 => ofOne fun a => openFile (.ofWord a)
  | 7 => ofOne fun a => filesize a.toInt32
  | 8 => ofThree fun a b c => read a.toInt32 (.ofWord b) c
  | 9 => ofThree fun a b c => write a.toInt32 (.ofWord b) c
  | 10 => ofTwo fun a b => seek a.toInt32 b
  | 11 => ofOne fun a => tell a.toInt32
  | 12 => ofOne fun a => close a.toInt32
  | 13 => ofOne fun a => practice a.toInt32
  | _ => fun _ => none

/-- The call that words make, the number first. -/
def ofWords : List UInt32 → Option Syscall
  | [] => none
  | n :: ws => ofNumber n.toNat ws

theorem ofNone_eq_some {made : Syscall} : ofNone made ws = some call ↔ ws = [] ∧ made = call := by
  cases ws <;> simp [ofNone]

theorem ofOne_eq_some {made : UInt32 → Syscall} : ofOne made ws = some call ↔ ∃ a, ws = [a] ∧ made a = call := by
  unfold ofOne
  split <;> simp_all

theorem ofTwo_eq_some {made : UInt32 → UInt32 → Syscall} :
    ofTwo made ws = some call ↔ ∃ a b, ws = [a, b] ∧ made a b = call := by
  unfold ofTwo
  split <;> simp_all

theorem ofThree_eq_some {made : UInt32 → UInt32 → UInt32 → Syscall} :
    ofThree made ws = some call ↔ ∃ a b c, ws = [a, b, c] ∧ made a b c = call := by
  unfold ofThree
  split <;> simp_all

theorem number_le (call : Syscall) : call.number.toNat ≤ 13 := by
  cases call <;> exact Nat.le_of_ble_eq_true rfl

theorem length_arguments (call : Syscall) : call.arguments.length = argumentCount call.number.toNat := by
  cases call <;> rfl

theorem toWord_ofWord (w : UInt32) : (VirtAddr.ofWord w).toWord = w := UInt32.ofNat_toNat

theorem ofWord_toWord {a : VirtAddr} (small : a.toNat < wordLimit) : VirtAddr.ofWord a.toWord = a := by
  refine AddressSpace.toNat_injective ?_
  change (UInt32.ofNat a.toNat).toNat = a.toNat
  rw [UInt32.toNat_ofNat']
  exact Nat.mod_eq_of_lt small

/-- What is made of a number and arguments has these for its words. -/
theorem words_of_ofNumber {number : Nat} (made : ofNumber number ws = some call) :
    call.Fits ∧ call.number.toNat = number ∧ call.arguments.map Argument.toWord = ws := by
  have small (w : UInt32) : (VirtAddr.ofWord w).toNat < wordLimit := w.toNat_lt
  unfold ofNumber at made
  split at made
  case h_1 =>
    obtain ⟨rfl, rfl⟩ := ofNone_eq_some.1 made
    exact ⟨nofun, rfl, rfl⟩
  case h_5 | h_11 =>
    obtain ⟨a, b, rfl, rfl⟩ := ofTwo_eq_some.1 made
    exact ⟨by simp [Fits, arguments, small], rfl, by simp [arguments, Argument.toWord, toWord_ofWord]⟩
  case h_9 | h_10 =>
    obtain ⟨a, b, c, rfl, rfl⟩ := ofThree_eq_some.1 made
    exact ⟨by simp [Fits, arguments, small], rfl, by simp [arguments, Argument.toWord, toWord_ofWord]⟩
  case h_15 => cases made
  all_goals
    obtain ⟨a, rfl, rfl⟩ := ofOne_eq_some.1 made
    exact ⟨by simp [Fits, arguments, small], rfl, by simp [arguments, Argument.toWord, toWord_ofWord]⟩

/-- Words make a call exactly if they are its words. -/
theorem ofWords_eq_some : ofWords ws = some call ↔ call.Fits ∧ call.words = ws := by
  constructor
  · intro made
    cases ws with
    | nil => cases made
    | cons n ws =>
      obtain ⟨fits, same, rest⟩ := words_of_ofNumber made
      exact ⟨fits, congrArg₂ List.cons (UInt32.toNat_inj.1 same) rest⟩
  · rintro ⟨fits, rfl⟩
    cases call with
    | exec | remove | openFile | create | read | write =>
      simp only [Fits, arguments, List.mem_cons, Argument.pointer.injEq, reduceCtorEq, false_or, or_false,
        List.not_mem_nil, forall_eq] at fits
      simp [words, arguments, number, ofWords, ofNumber, ofOne, ofTwo, ofThree, Argument.toWord, ofWord_toWord fits]
    | _ => simp [words, arguments, number, ofWords, ofNumber, ofNone, ofOne, ofTwo, Argument.toWord]

/-- A number is read, then the arguments that calls of that number have. -/
theorem decode_eq : decode s pool esp = (do
    let n ← readStackWord s pool esp 0
    let ws ← readStackWords s pool esp 1 (argumentCount n.toNat)
    (ofWords (n :: ws)).elim (.error (.unknownSyscall n)) .ok) := by
  rw [decode]
  cases readStackWord s pool esp 0 with
  | error fault => rfl
  | ok n =>
    simp only [bind, Except.bind, ofWords]
    generalize n.toNat = number
    match number with
    | 0 => rfl
    | 1 | 2 | 3 | 5 | 6 | 7 | 11 | 12 | 13 =>
      simp only [argumentCount, readStackWords]
      cases readStackWord s pool esp 1 <;> rfl
    | 4 | 10 =>
      simp only [argumentCount, readStackWords]
      cases readStackWord s pool esp 1 <;> cases readStackWord s pool esp 2 <;> rfl
    | 8 | 9 =>
      simp only [argumentCount, readStackWords]
      cases readStackWord s pool esp 1 <;> cases readStackWord s pool esp 2 <;>
        cases readStackWord s pool esp 3 <;> rfl
    | number + 14 => rfl

theorem decode_eq_ok : decode s pool esp = .ok call ↔ ∃ n ws, readStackWord s pool esp 0 = .ok n ∧
    readStackWords s pool esp 1 (argumentCount n.toNat) = .ok ws ∧ ofWords (n :: ws) = some call := by
  rw [decode_eq]
  cases readStackWord s pool esp 0 with
  | error fault => exact ⟨nofun, fun ⟨_, _, first, _⟩ => nomatch first⟩
  | ok n =>
    cases rest : readStackWords s pool esp 1 (argumentCount n.toNat) with
    | error fault =>
      simp only [rest, bind, Except.bind]
      refine ⟨nofun, ?_⟩
      rintro ⟨_, _, first, reads, -⟩
      cases first
      rw [rest] at reads
      cases reads
    | ok ws =>
      simp only [rest, bind, Except.bind]
      constructor
      · intro decoded
        cases made : ofWords (n :: ws) with
        | none => rw [made] at decoded; cases decoded
        | some made' =>
          rw [made] at decoded
          cases decoded
          exact ⟨n, ws, rfl, rest, made⟩
      · rintro ⟨_, _, first, reads, made⟩
        cases first
        rw [rest] at reads
        cases reads
        rw [made]
        rfl

/-! ## What decoding gives -/

/-- A call is read from the word at the stack pointer and, once a number is there, from the words of the
    arguments that calls of that number have. -/
def Looks (s : AddressSpace) (pool : FramePool) (esp : VirtAddr) (i : Nat) : Prop :=
  i = 0 ∨ ∃ n, s.HasBytes pool esp.toNat (Bytes.ofWord n) ∧ i ≤ argumentCount n.toNat

/-- The call at a stack pointer is the one whose words are there, and no other words matter. -/
structure Decodes (s : AddressSpace) (pool : FramePool) (esp : VirtAddr) : Prop where
  /-- A call is found exactly if its words are in memory, its number first and each with its lowest byte first. -/
  inverse : ∀ call, decode s pool esp = .ok call ↔
    call.Fits ∧ s.HasBytes pool esp.toNat (call.words.flatMap Bytes.ofWord)
  /-- The number of a call is the first word. -/
  number : ∀ call, decode s pool esp = .ok call → readStackWord s pool esp 0 = .ok call.number
  /-- There is a call if the first word may be read and is the number of calls whose words may all be read. -/
  succeeds : (∃ call, decode s pool esp = .ok call) ↔ ∃ n, s.HasBytes pool esp.toNat (Bytes.ofWord n) ∧
    n.toNat ≤ 13 ∧ ∀ i ≤ argumentCount n.toNat, s.faultOfStackWord esp i = none
  /-- The first of these words with which something is wrong is reported. -/
  faults : ∀ i fault, Looks s pool esp i → (∀ j < i, s.faultOfStackWord esp j = none) →
    s.faultOfStackWord esp i = some fault → decode s pool esp = .error fault
  /-- A number that no calls have is reported, whatever follows it. -/
  unknown : ∀ n, s.HasBytes pool esp.toNat (Bytes.ofWord n) → 13 < n.toNat →
    decode s pool esp = .error (.unknownSyscall n)
  /-- Another space with the same bytes in these words holds the same call, or has the same fault. -/
  alike : ∀ s' pool', s'.Backed pool' →
    (∀ i, Looks s pool esp i → ∀ k < 4, ∀ a, esp.add? (i * 4 + k) = some a →
      s'.byte? pool' a = s.byte? pool a) →
    decode s' pool' esp = decode s pool esp

/-- The first word is the one at the stack pointer. -/
theorem first_eq_ok (backed : s.Backed pool) :
    readStackWord s pool esp 0 = .ok w ↔ s.HasBytes pool esp.toNat (Bytes.ofWord w) :=
  readStackWord_eq_ok backed

theorem inverse_decode (backed : s.Backed pool) : decode s pool esp = .ok call ↔
    call.Fits ∧ s.HasBytes pool esp.toNat (call.words.flatMap Bytes.ofWord) := by
  have count : call.words.length = argumentCount call.number.toNat + 1 := by
    rw [← length_arguments, words, List.length_cons, List.length_map]
  have reads : readStackWords s pool esp 0 (argumentCount call.number.toNat + 1) = .ok call.words ↔
      call.words.length = argumentCount call.number.toNat + 1 ∧
        s.HasBytes pool (esp.toNat + 0 * 4) (call.words.flatMap Bytes.ofWord) := readStackWords_eq_ok backed
  rw [Nat.zero_mul, Nat.add_zero] at reads
  rw [decode_eq_ok]
  constructor
  · rintro ⟨n, ws, first, rest, made⟩
    obtain ⟨fits, same⟩ := ofWords_eq_some.1 made
    obtain ⟨rfl, -⟩ := List.cons.inj same
    refine ⟨fits, (reads.1 ?_).2⟩
    rw [same]
    exact readStackWords_succ.2 ⟨_, ws, rfl, first, rest⟩
  · rintro ⟨fits, has⟩
    obtain ⟨n, ws, same, first, rest⟩ := readStackWords_succ.1 (reads.2 ⟨count, has⟩)
    obtain ⟨rfl, -⟩ := List.cons.inj same
    exact ⟨_, ws, first, rest, ofWords_eq_some.2 ⟨fits, same⟩⟩

/-- As many words as calls of a number have make a call of that number. -/
theorem exists_ofNumber {number : Nat} (known : number ≤ 13) (count : ws.length = argumentCount number) :
    ∃ call, ofNumber number ws = some call := by
  match number, known with
  | 0, _ =>
    obtain rfl := List.length_eq_zero_iff.1 count
    exact ⟨_, rfl⟩
  | 1, _ | 2, _ | 3, _ | 5, _ | 6, _ | 7, _ | 11, _ | 12, _ | 13, _ =>
    obtain ⟨a, rfl⟩ := List.length_eq_one_iff.1 count
    exact ⟨_, rfl⟩
  | 4, _ | 10, _ =>
    obtain ⟨a, b, rfl⟩ := List.length_eq_two.1 count
    exact ⟨_, rfl⟩
  | 8, _ | 9, _ =>
    obtain ⟨a, b, c, rfl⟩ := List.length_eq_three.1 count
    exact ⟨_, rfl⟩

theorem ofWords_eq_none {n : UInt32} (unknown : 13 < n.toNat) : ofWords (n :: ws) = none := by
  cases made : ofWords (n :: ws) with
  | none => rfl
  | some call =>
    obtain ⟨rfl, -⟩ := List.cons.inj (ofWords_eq_some.1 made).2
    exact absurd call.number_le (Nat.not_le_of_lt unknown)

/-- Decoding undoes the layout of calls on the stack, and looks at the words of the call only. -/
theorem decodes (backed : s.Backed pool) (esp : VirtAddr) : Decodes s pool esp where
  inverse _ := inverse_decode backed
  number call decoded := by
    obtain ⟨n, ws, first, -, made⟩ := decode_eq_ok.1 decoded
    obtain ⟨rfl, -⟩ := List.cons.inj (ofWords_eq_some.1 made).2
    exact first
  succeeds := by
    constructor
    · rintro ⟨call, decoded⟩
      obtain ⟨n, ws, first, rest, made⟩ := decode_eq_ok.1 decoded
      obtain ⟨rfl, -⟩ := List.cons.inj (ofWords_eq_some.1 made).2
      refine ⟨_, (first_eq_ok backed).1 first, call.number_le, fun i le => ?_⟩
      cases i with
      | zero => exact fine_of_readStackWord first
      | succ i =>
        rw [Nat.add_comm]
        exact fine_of_readStackWords rest le
    · rintro ⟨n, has, known, fine⟩
      have first := (first_eq_ok backed).2 has
      obtain ⟨ws, rest, count⟩ := exists_readStackWords (i := 1) (n := argumentCount n.toNat) backed
        fun k lt => fine (1 + k) (by omega)
      obtain ⟨call, made⟩ := exists_ofNumber known count
      exact ⟨call, decode_eq_ok.2 ⟨n, ws, first, rest, made⟩⟩
  faults i fault looks fine found := by
    rw [decode_eq]
    rcases Nat.eq_zero_or_pos i with rfl | pos
    · rw [readStackWord_of_fault found]
      rfl
    obtain ⟨n, has, le⟩ := looks.resolve_left (Nat.ne_of_gt pos)
    rw [(first_eq_ok backed).2 has]
    obtain ⟨j, rfl⟩ := Nat.exists_eq_add_of_le pos
    have stopped := readStackWords_of_fault (i := 1) backed (show j < argumentCount n.toNat by omega)
      (fun k lt => fine (1 + k) (by omega)) found
    simp only [bind, Except.bind, stopped]
  unknown n has unknown := by
    have none : argumentCount n.toNat = 0 := by
      obtain ⟨k, high⟩ := Nat.exists_eq_add_of_le' unknown
      rw [high]
      rfl
    rw [decode_eq, (first_eq_ok backed).2 has]
    simp only [bind, Except.bind, none, readStackWords, ofWords_eq_none unknown]
    rfl
  alike s' pool' backed' same := by
    have word (i : Nat) (looks : Looks s pool esp i) :
        readStackWord s' pool' esp i = readStackWord s pool esp i :=
      readStackWord_congr backed backed' (same i looks)
    rw [decode_eq, decode_eq, word 0 (.inl rfl)]
    cases first : readStackWord s pool esp 0 with
    | error fault => rfl
    | ok n =>
      have rest := readStackWords_congr (i := 1) (n := argumentCount n.toNat) fun k lt =>
        word (1 + k) (.inr ⟨n, (first_eq_ok backed).1 first, by omega⟩)
      simp only [bind, Except.bind, rest]

/-- Two pages of a program. The words of a call that writes three bytes lie across their boundary, and not at
    multiples of four. -/
def crossing : AddressSpace × FramePool :=
  let bytes := [9, 1, 0x2100, 3].flatMap Bytes.ofWord
  -- The two frames of the pool lie at the physical addresses 0x1000 and 0x2000.
  (((AddressSpace.empty 0).setEntry (.ofNat 0x1000)
      (PageEntry.page (.ofNat 0x1000) (PageFlags.ofUser true))).setEntry (.ofNat 0x2000)
      (PageEntry.page (.ofNat 0x2000) (PageFlags.ofUser false)),
    ⟨#[⟨(Page.filled 0).write 4094 (bytes.take 2), true⟩, ⟨(Page.filled 0).write 0 (bytes.drop 2), true⟩], 0⟩)

theorem decodes_crossing : crossing.1.Backed crossing.2 ∧
    decode crossing.1 crossing.2 (.ofNat 0x1FFE) = .ok (.write 1 (.ofNat 0x2100) 3) := by
  have backed : crossing.1.Backed crossing.2 := by
    unfold AddressSpace.Backed
    decide +kernel
  have fits : (Syscall.write 1 (.ofNat 0x2100) 3).Fits := by
    intro a mem
    obtain rfl : a = .ofNat 0x2100 := by simpa [arguments] using mem
    decide
  refine ⟨backed, ((decodes backed _).inverse _).2 ⟨fits, ?_⟩⟩
  exact ⟨by decide, by decide, by decide +kernel⟩

end Syscall

end Userland

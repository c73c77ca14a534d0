import Mathlib.Tactic.Common
import Userland.Executable.InitialStack
import Userland.Proofs.CommandLines
import Userland.Proofs.Ranges

/-!
# The stack page

The bytes of the page that `InitialStack.build` writes are told in one piece by the arguments
(`InitialStack.layout`), from the first zero to the last string (`InitialStack.toList_of_build`). A program
that has the page where its stack is finds its arguments there with the kernel's own reads of user memory
(`AddressSpace.hasArguments`): their number, and the list of their addresses, at each of which is a string.
-/

namespace Userland

theorem Page.toList_write (p : Page) (offset : Nat) (bs : Bytes) (fits : offset + bs.length ≤ pageSize) :
    (p.write offset bs).toList = p.toList.take offset ++ bs ++ p.toList.drop (offset + bs.length) := by
  induction bs generalizing p offset with
  | nil => simp [write]
  | cons b bs ih =>
    rw [List.length_cons] at fits
    have inside : offset < p.toList.length := by
      rw [Vector.length_toList]
      omega
    have stored : (p.setIfInBounds offset b).toList =
        p.toList.take offset ++ b :: p.toList.drop (offset + 1) := by
      simp [List.set_eq_take_append_cons_drop, Nat.lt_of_lt_of_eq inside p.length_toList]
    have before : (p.toList.take offset).length = offset := List.length_take_of_le (Nat.le_of_lt inside)
    have cut (n : Nat) : (p.setIfInBounds offset b).toList.take (offset + n) =
        p.toList.take offset ++ (b :: p.toList.drop (offset + 1)).take n := by
      rw [stored, List.take_append, before, List.take_of_length_le (by omega), Nat.add_sub_cancel_left]
    have rest (n : Nat) : (p.setIfInBounds offset b).toList.drop (offset + n) =
        (b :: p.toList.drop (offset + 1)).drop n := by
      rw [stored, List.drop_append, before, List.drop_of_length_le (by omega), Nat.add_sub_cancel_left]
      rfl
    rw [write, ih _ _ (by omega), cut, Nat.add_assoc, Nat.add_comm 1, rest]
    simp [Nat.add_assoc, Nat.add_comm 1]

namespace InitialStack

variable {w w' : InitialStack} {bs data : Bytes} {arguments : List String} {page : Page} {stack : VirtAddr}

/-! ## What is written -/

/-- The strings, each ended by a zero byte, the first argument lowest. -/
def strings (arguments : List String) : Bytes := arguments.flatMap fun arg => Bytes.ofString arg ++ [0]

/-- Where the words end: the last word boundary that is not above the strings. -/
def wordsEnd (arguments : List String) : Nat :=
  (pageSize - (strings arguments).length) / wordSize * wordSize

/-- Where the words start: there is one for each argument, and there are four more. -/
def wordsStart (arguments : List String) : Nat :=
  wordsEnd arguments - wordSize * (arguments.length + 4)

/-- The addresses of the strings. -/
def stringAddresses : List String → List Nat
  | [] => []
  | arg :: rest => (userTop - (strings (arg :: rest)).length) :: stringAddresses rest

/-- The words: a null in place of a return address, the number of arguments, the address of the list, and the
    list, ended by a null. -/
def wordList (arguments : List String) : List Nat :=
  [0, arguments.length, stackBase + wordsStart arguments + 3 * wordSize] ++ stringAddresses arguments ++ [0]

/-- Words, least significant bytes first. -/
def wordBytes (words : List Nat) : Bytes := words.flatMap fun n => Bytes.ofWord (UInt32.ofNat n)

/-- All bytes of the page. -/
def layout (arguments : List String) : Bytes :=
  Bytes.zeros (wordsStart arguments) ++ (wordBytes (wordList arguments) ++
    (Bytes.zeros (pageSize - (strings arguments).length - wordsEnd arguments) ++ strings arguments))

/-- What is written so far is `bs`, below which there are zeros. -/
def Written (w : InitialStack) (bs : Bytes) : Prop := w.page.toList = Bytes.zeros w.top ++ bs

theorem Written.length (written : w.Written bs) : w.top + bs.length = pageSize := by
  have whole := congrArg List.length written
  rw [Vector.length_toList, List.length_append, Bytes.zeros, List.length_replicate] at whole
  exact whole.symm

theorem written_empty : empty.Written [] := by
  simp [Written, empty, Page.filled, Bytes.zeros]

theorem Written.push (written : w.Written bs) (pushed : w.push data = some w') :
    data.length ≤ w.top ∧ w'.Written (data ++ bs) := by
  simp only [InitialStack.push, Option.ite_none_right_eq_some, Option.some.injEq] at pushed
  obtain ⟨fits, rfl⟩ := pushed
  have whole := written.length
  have room : w.top - data.length + data.length = w.top := Nat.sub_add_cancel fits
  have above (n : Nat) : (Bytes.zeros n).length = n := List.length_replicate
  refine ⟨fits, ?_⟩
  change (w.page.write _ data).toList = Bytes.zeros (w.top - data.length) ++ _
  rw [Page.toList_write _ _ _ (by omega), written, room, List.drop_left' (above _), List.take_append_of_le_length
    (by rw [above]; exact Nat.sub_le ..), Bytes.zeros, List.take_replicate, Nat.min_eq_left (Nat.sub_le ..),
    List.append_assoc]
  rfl

theorem Written.align (written : w.Written bs) :
    w.align.Written (Bytes.zeros (w.top - w.align.top) ++ bs) := by
  have le : w.align.top ≤ w.top := Nat.div_mul_le_self ..
  change w.page.toList = _
  rw [written, ← List.append_assoc, Bytes.zeros, Bytes.zeros, Bytes.zeros, List.replicate_append_replicate,
    Nat.add_sub_cancel' le]

theorem written_pushStrings {addresses : List Nat} (pushed : empty.pushStrings arguments = some (addresses, w)) :
    w.Written (strings arguments) ∧ addresses = stringAddresses arguments := by
  induction arguments generalizing addresses w with
  | nil =>
    cases pushed
    exact ⟨written_empty, rfl⟩
  | cons arg rest ih =>
    rw [pushStrings, Option.bind_eq_bind, Option.bind_eq_some_iff] at pushed
    obtain ⟨⟨below, w₁⟩, before, pushed⟩ := pushed
    rw [Option.bind_eq_bind, Option.bind_eq_some_iff] at pushed
    obtain ⟨w₂, last, pushed⟩ := pushed
    cases pushed
    obtain ⟨written, rfl⟩ := ih before
    have written := (written.push last).2
    refine ⟨by rwa [strings, List.flatMap_cons], ?_⟩
    have whole := written.length
    have top : stackBase + pageSize = userTop := rfl
    rw [stringAddresses, strings, List.flatMap_cons, address]
    refine congrArg (· :: _) ?_
    change stackBase + w.top = userTop - (_ ++ strings rest).length
    omega

theorem length_stringAddresses (arguments : List String) :
    (stringAddresses arguments).length = arguments.length := by
  induction arguments with
  | nil => rfl
  | cons arg rest ih => rw [stringAddresses, List.length_cons, List.length_cons, ih]

theorem length_wordList (arguments : List String) : (wordList arguments).length = arguments.length + 4 := by
  simp [wordList, length_stringAddresses]

/-- The list comes after the first three words. -/
theorem getElem?_wordList (arguments : List String) (i : Nat) :
    (wordList arguments)[3 + i]? = (stringAddresses arguments ++ [0])[i]? := by
  rw [wordList, List.append_assoc, List.getElem?_append_right (Nat.le_add_right 3 i)]
  exact congrArg _ (Nat.add_sub_cancel_left 3 i)

theorem length_wordBytes (words : List Nat) : (wordBytes words).length = wordSize * words.length := by
  rw [wordBytes, List.length_flatMap]
  simp [Bytes.ofWord, wordSize, Nat.mul_comm]

/-- The page holds all that, and nothing else. -/
theorem toList_of_build (built : build arguments = some (page, stack)) :
    page.toList = layout arguments ∧ stack.toNat = stackBase + wordsStart arguments ∧
      wordSize * (arguments.length + 4) ≤ wordsEnd arguments ∧ (strings arguments).length ≤ pageSize := by
  rw [build, Option.bind_eq_bind, Option.bind_eq_some_iff] at built
  obtain ⟨⟨addresses, w⟩, strung, built⟩ := built
  rw [Option.bind_eq_bind, Option.bind_eq_some_iff] at built
  obtain ⟨w', worded, built⟩ := built
  cases built
  obtain ⟨written, rfl⟩ := written_pushStrings strung
  have whole := written.length
  have aligned : w.align.top = wordsEnd arguments := by
    rw [wordsEnd, ← whole, Nat.add_sub_cancel]
    rfl
  obtain ⟨room, last⟩ := written.align.push worded
  have words (list : Nat) : (wordBytes ([0, arguments.length, list] ++ stringAddresses arguments ++ [0])).length =
      wordSize * (arguments.length + 4) := by
    rw [length_wordBytes]
    simp [length_stringAddresses]
  have room : wordSize * (arguments.length + 4) ≤ wordsEnd arguments := by
    rw [← words (w.align.address - wordSize * (arguments.length + 1)), ← aligned]
    exact room
  have total := last.length
  rw [List.length_append, List.length_append] at total
  change w'.top + ((wordBytes _).length + ((List.replicate _ _).length + _)) = _ at total
  rw [words, List.length_replicate, aligned] at total
  have below : wordsEnd arguments ≤ w.top := aligned ▸ Nat.div_mul_le_self ..
  have top : w'.top = wordsStart arguments := by
    rw [wordsStart]
    omega
  have list : w.align.address - wordSize * (arguments.length + 1) =
      stackBase + wordsStart arguments + 3 * wordSize := by
    rw [address, aligned, wordsStart]
    simp only [wordSize] at *
    omega
  refine ⟨?_, ?_, room, whole ▸ Nat.le_add_left ..⟩
  · rw [last, top, aligned, list, layout, ← whole, Nat.add_sub_cancel]
    rfl
  · rw [address, top, VirtAddr.ofNat]
    refine Nat.mod_eq_of_lt ?_
    have base : stackBase + pageSize < addressLimit := by decide
    omega

/-- The address at which the stack starts is that of a word. -/
theorem ofWord_toWord_of_build (built : build arguments = some (page, stack)) : .ofWord stack.toWord = stack := by
  obtain ⟨-, place, -⟩ := toList_of_build built
  refine AddressSpace.toNat_injective ?_
  change (UInt32.ofNat stack.toNat).toNat = stack.toNat
  rw [UInt32.toNat_ofNat']
  refine Nat.mod_eq_of_lt (place ▸ ?_)
  have inside : wordsStart arguments ≤ pageSize := Nat.le_trans (Nat.sub_le ..)
    (Nat.le_trans (Nat.div_mul_le_self ..) (Nat.sub_le ..))
  have top : stackBase + pageSize < 2 ^ 32 := by decide
  omega

end InitialStack

/-! ## What a program reads -/

namespace AddressSpace

variable {s : AddressSpace} {pool : FramePool} {a k limit : Nat} {bs cs : Bytes} {w : UInt32} {t : Translation}
  {page : Page} {arguments : List String} {stack : VirtAddr}

/-- User memory has bytes from an address on. -/
structure HasBytes (s : AddressSpace) (pool : FramePool) (a : Nat) (bs : Bytes) : Prop where
  /-- They do not start at the null address. -/
  above : 0 < a
  /-- They end below the kernel. -/
  below : a + bs.length ≤ userTop
  /-- Each is there. -/
  byte : ∀ (k : Nat) (lt : k < bs.length), s.byte? pool (.ofNat (a + k)) = some bs[k]

namespace HasBytes

theorem left (has : s.HasBytes pool a (bs ++ cs)) : s.HasBytes pool a bs where
  above := has.above
  below := by
    have := has.below
    rw [List.length_append] at this
    omega
  byte k lt := by
    rw [has.byte k (by rw [List.length_append]; omega), List.getElem_append_left lt]

theorem right (has : s.HasBytes pool a (bs ++ cs)) : s.HasBytes pool (a + bs.length) cs where
  above := Nat.add_pos_left has.above _
  below := by
    have := has.below
    rw [List.length_append] at this
    omega
  byte k lt := by
    rw [Nat.add_assoc, has.byte (bs.length + k) (by rw [List.length_append]; omega),
      List.getElem_append_right (Nat.le_add_right ..)]
    simp

theorem toNat_ofNat (has : s.HasBytes pool a bs) (le : k ≤ bs.length) :
    (VirtAddr.ofNat (a + k)).toNat = a + k := by
  have below := has.below
  refine Nat.mod_eq_of_lt ?_
  simp only [userTop, addressLimit] at *
  omega

/-- The kernel may read each of them. -/
theorem checkPointer (has : s.HasBytes pool a bs) (lt : k < bs.length) :
    s.checkPointer (.ofNat (a + k)) .read = .ok () := by
  have byte := has.byte k lt
  obtain ⟨t, found, -⟩ := Option.bind_eq_some_iff.1 byte
  refine checkPointer_eq_ok.2 ⟨?_, t, found, nofun⟩
  rw [has.toNat_ofNat (Nat.le_of_lt lt)]
  exact Nat.ne_of_gt (Nat.add_pos_left has.above k)

theorem readBytes (has : s.HasBytes pool a bs) (backed : s.Backed pool) :
    s.readBytes pool (.ofNat a) bs.length = .ok bs := by
  refine (readFrom_eq_ok backed _ 0 _ bs).2 ⟨rfl, fun k lt => ⟨.ofNat (a + k), ?_, ?_⟩⟩
  · have base : (VirtAddr.ofNat a).toNat = a := has.toNat_ofNat (Nat.zero_le _)
    rw [has.toNat_ofNat (Nat.le_of_lt lt), Nat.add_zero, base]
  · rw [has.byte k lt, List.getElem?_eq_getElem lt]

theorem copyIn (has : s.HasBytes pool a bs) (backed : s.Backed pool) :
    s.copyIn pool (.ofNat a) bs.length = .ok bs := by
  have checked : s.checkRange (.ofNat a) bs.length .read = .ok () := by
    refine checkRange_eq_ok.2 fun k lt => ⟨.ofNat (a + k), VirtAddr.add?_eq_some.2 ?_, has.checkPointer lt⟩
    have base : (VirtAddr.ofNat a).toNat = a := has.toNat_ofNat (Nat.zero_le _)
    rw [has.toNat_ofNat (Nat.le_of_lt lt), base]
  rw [AddressSpace.copyIn, checked, has.readBytes backed]
  rfl

theorem readWord (has : s.HasBytes pool a (Bytes.ofWord w)) (backed : s.Backed pool) :
    s.readWord pool (.ofNat a) = .ok w := by
  have four : (Bytes.ofWord w).length = 4 := Bytes.length_ofNat 4 _
  have copied := has.copyIn backed
  rw [four] at copied
  rw [AddressSpace.readWord, copied]
  exact congrArg Except.ok (Bytes.word_ofWord w)

/-- One byte of a string is read. -/
theorem copyStringFrom_succ {start : VirtAddr} {done : Bytes} {count : Nat} {b : UInt8}
    (has : s.HasBytes pool (start.toNat + count) (b :: bs)) (backed : s.Backed pool) (limit : Nat) :
    s.copyStringFrom pool start done count (limit + 1) =
      if b = 0 then .ok done.reverse else s.copyStringFrom pool start (b :: done) (count + 1) limit := by
  have reached : start.add? count = some (.ofNat (start.toNat + count)) :=
    VirtAddr.add?_eq_some.2 (has.toNat_ofNat (Nat.zero_le _))
  have first : s.HasBytes pool (start.toNat + count) ([b] ++ bs) := has
  exact copyStringFrom_of_read reached (has.checkPointer (Nat.succ_pos _)) (first.left.readBytes backed) done limit

/-- A string is read up to the zero at its end. -/
theorem copyStringFrom {start : VirtAddr} {done : Bytes} {count : Nat}
    (has : s.HasBytes pool (start.toNat + count) (bs ++ [0])) (backed : s.Backed pool) (unended : 0 ∉ bs)
    (short : bs.length < limit) : s.copyStringFrom pool start done count limit = .ok (done.reverse ++ bs) := by
  induction bs generalizing done count limit with
  | nil =>
    obtain ⟨limit, rfl⟩ := Nat.exists_eq_succ_of_ne_zero (Nat.ne_of_gt short)
    rw [has.copyStringFrom_succ backed, if_pos rfl, List.append_nil]
  | cons b bs ih =>
    obtain ⟨limit, rfl⟩ := Nat.exists_eq_succ_of_ne_zero (Nat.ne_of_gt (Nat.zero_lt_of_lt short))
    rw [List.mem_cons, not_or] at unended
    have split : s.HasBytes pool (start.toNat + count) ([b] ++ (bs ++ [0])) := has
    have rest : s.HasBytes pool (start.toNat + (count + 1)) (bs ++ [0]) := split.right
    rw [has.copyStringFrom_succ backed, if_neg (Ne.symm unended.1),
      ih rest unended.2 (Nat.lt_of_succ_lt_succ short), List.reverse_cons, List.append_assoc]
    rfl

theorem copyString (has : s.HasBytes pool a (bs ++ [0])) (backed : s.Backed pool) (unended : 0 ∉ bs)
    (short : bs.length < limit) : s.copyString pool (.ofNat a) limit = .ok bs := by
  have base : (VirtAddr.ofNat a).toNat = a := has.toNat_ofNat (Nat.zero_le _)
  have there : s.HasBytes pool ((VirtAddr.ofNat a).toNat + 0) (bs ++ [0]) := base.symm ▸ has
  exact there.copyStringFrom backed unended short

/-- Each word of a list is at its place. -/
theorem word {words : List Nat} (has : s.HasBytes pool a (InitialStack.wordBytes words)) {i n : Nat}
    (listed : words[i]? = some n) :
    s.HasBytes pool (a + wordSize * i) (Bytes.ofWord (UInt32.ofNat n)) := by
  induction words generalizing a i with
  | nil => cases listed
  | cons first words ih =>
    have four : (Bytes.ofWord (UInt32.ofNat first)).length = wordSize := Bytes.length_ofNat 4 _
    have split : s.HasBytes pool a (Bytes.ofWord (UInt32.ofNat first) ++ InitialStack.wordBytes words) := has
    cases i with
    | zero =>
      obtain rfl := Option.some.inj listed
      exact split.left
    | succ i =>
      have later := ih (four ▸ split.right) listed
      rwa [Nat.add_assoc, Nat.add_comm wordSize, ← Nat.mul_succ] at later

/-- Each string is at its address. -/
theorem string (has : s.HasBytes pool (userTop - (InitialStack.strings arguments).length)
      (InitialStack.strings arguments)) {i n : Nat} {arg : String} (listed : arguments[i]? = some arg)
    (there : (InitialStack.stringAddresses arguments)[i]? = some n) :
    s.HasBytes pool n (Bytes.ofString arg ++ [0]) := by
  induction arguments generalizing i with
  | nil => cases listed
  | cons first rest ih =>
    have split : s.HasBytes pool (userTop - (InitialStack.strings (first :: rest)).length)
        ((Bytes.ofString first ++ [0]) ++ InitialStack.strings rest) := has
    cases i with
    | zero =>
      obtain rfl := Option.some.inj listed
      obtain rfl := Option.some.inj there
      exact split.left
    | succ i =>
      refine ih ?_ listed there
      have later := split.right
      have below := split.below
      have total : (InitialStack.strings (first :: rest)).length =
        (Bytes.ofString first ++ [0]).length + (InitialStack.strings rest).length := List.length_append
      have place : userTop - (InitialStack.strings (first :: rest)).length +
          (Bytes.ofString first ++ [0]).length = userTop - (InitialStack.strings rest).length := by
        have := has.above
        omega
      rwa [place] at later

/-- The bytes of a page are at the addresses of the page. -/
theorem of_page (found : s.translate stackPage = some t) (held : pool.page? t.frame = some page) :
    s.HasBytes pool stackBase page.toList where
  above := by decide
  below := by
    rw [Vector.length_toList]
    decide
  byte k lt := by
    rw [Vector.length_toList] at lt
    have small : stackBase + k < addressLimit := by
      simp only [stackBase, userTop, pageSize, addressLimit] at *
      omega
    have here : (VirtAddr.ofNat (stackBase + k)).toNat = stackBase + k := Nat.mod_eq_of_lt small
    have number : (stackBase + k) / pageSize = stackBase / pageSize := by
      simp only [stackBase, userTop, pageSize] at *
      omega
    have offset : (VirtAddr.ofNat (stackBase + k)).offset = k := by
      rw [VirtAddr.offset, here]
      simp only [stackBase, userTop, pageSize] at *
      omega
    have same : s.translate (.ofNat (stackBase + k)) = some t := by
      rw [translate_eq_some] at found ⊢
      rw [here, number]
      exact found
    rw [byte?, same, Option.bind_some, held, Option.bind_some, offset, Vector.getElem?_eq_getElem lt,
      Vector.getElem_toList]

end HasBytes

/-- The words are where the stack starts. -/
theorem HasBytes.words (has : s.HasBytes pool stackBase (InitialStack.layout arguments)) :
    s.HasBytes pool (stackBase + InitialStack.wordsStart arguments)
      (InitialStack.wordBytes (InitialStack.wordList arguments)) := by
  have words := has.right.left
  rwa [Bytes.zeros, List.length_replicate] at words

/-- The strings are at the top of the page. -/
theorem HasBytes.strings (has : s.HasBytes pool stackBase (InitialStack.layout arguments))
    (room : wordSize * (arguments.length + 4) ≤ InitialStack.wordsEnd arguments)
    (fits : (InitialStack.strings arguments).length ≤ pageSize) :
    s.HasBytes pool (userTop - (InitialStack.strings arguments).length) (InitialStack.strings arguments) := by
  have strings := has.right.right.right
  rw [InitialStack.length_wordBytes, InitialStack.length_wordList, Bytes.zeros, Bytes.zeros, List.length_replicate,
    List.length_replicate] at strings
  have start : InitialStack.wordsStart arguments + wordSize * (arguments.length + 4) =
      InitialStack.wordsEnd arguments := Nat.sub_add_cancel room
  have below : InitialStack.wordsEnd arguments ≤ pageSize - (InitialStack.strings arguments).length :=
    Nat.div_mul_le_self ..
  have top : stackBase + pageSize = userTop := rfl
  have place : stackBase + InitialStack.wordsStart arguments + wordSize * (arguments.length + 4) +
      (pageSize - (InitialStack.strings arguments).length - InitialStack.wordsEnd arguments) =
        userTop - (InitialStack.strings arguments).length := by omega
  exact place ▸ strings

/-- At the address that is listed for an argument is its string. -/
theorem HasBytes.argument (has : s.HasBytes pool (userTop - (InitialStack.strings arguments).length)
      (InitialStack.strings arguments)) (backed : s.Backed pool) {i n : Nat} {arg : String}
    (listed : arguments[i]? = some arg) (there : (InitialStack.stringAddresses arguments)[i]? = some n)
    (nulFree : '\x00' ∉ arg.toList) (short : (Bytes.ofString arg).length < limit) :
    s.copyString pool (.ofWord (UInt32.ofNat n)) limit = .ok (Bytes.ofString arg) := by
  have string := has.string listed there
  have user : n ≤ userTop := Nat.le_of_add_right_le string.below
  have same : VirtAddr.ofWord (UInt32.ofNat n) = .ofNat n :=
    toNat_injective ((toNat_ofNat_of_user user).trans (string.toNat_ofNat (Nat.zero_le _)).symm)
  rw [same]
  exact string.copyString backed (Bytes.zero_notMem_ofString nulFree) short

/-- A program finds its arguments on its stack: their number, and the list of their addresses. -/
structure HasArguments (s : AddressSpace) (pool : FramePool) (esp : VirtAddr) (arguments : List String) : Prop where
  /-- Above the word at the stack pointer is the number of arguments. -/
  count : ∃ argc, s.readWord pool (.ofNat (esp.toNat + wordSize)) = .ok argc ∧ argc.toNat = arguments.length
  /-- Then comes the address of the list, in which there is an address for each argument. At that the argument is
      read byte for byte, with any limit that leaves room for the zero at its end; and the list ends with a null. -/
  list : ∃ argv, s.readWord pool (.ofNat (esp.toNat + 2 * wordSize)) = .ok argv ∧
    (∀ (i : Nat) (lt : i < arguments.length), ∃ a, s.readWord pool (.ofNat (argv.toNat + wordSize * i)) = .ok a ∧
      ∀ limit > (Bytes.ofString arguments[i]).length,
        s.copyString pool (.ofWord a) limit = .ok (Bytes.ofString arguments[i])) ∧
    s.readWord pool (.ofNat (argv.toNat + wordSize * arguments.length)) = .ok 0
  /-- The whole page is told by these arguments. -/
  page : s.HasBytes pool stackBase (InitialStack.layout arguments) ∧
    (InitialStack.layout arguments).length = pageSize

theorem hasArguments (found : s.translate stackPage = some t) (held : pool.page? t.frame = some page)
    (backed : s.Backed pool) (built : InitialStack.build arguments = some (page, stack))
    (nulFree : ∀ arg ∈ arguments, '\x00' ∉ arg.toList) : s.HasArguments pool stack arguments := by
  obtain ⟨whole, place, room, fits⟩ := InitialStack.toList_of_build built
  have has : s.HasBytes pool stackBase (InitialStack.layout arguments) := whole ▸ .of_page found held
  have words : s.HasBytes pool stack.toNat (InitialStack.wordBytes (InitialStack.wordList arguments)) :=
    place ▸ has.words
  have below := words.below
  rw [InitialStack.length_wordBytes, InitialStack.length_wordList] at below
  have list : (UInt32.ofNat (stack.toNat + 3 * wordSize)).toNat = stack.toNat + 3 * wordSize := by
    refine toNat_ofNat_of_user ?_
    simp only [wordSize] at *
    omega
  -- The list comes after the first three words, one address after the other.
  have entry {i n : Nat} (listed : (InitialStack.stringAddresses arguments ++ [0])[i]? = some n) :
      s.readWord pool (.ofNat ((UInt32.ofNat (stack.toNat + 3 * wordSize)).toNat + wordSize * i)) =
        .ok (UInt32.ofNat n) := by
    have there := words.word ((InitialStack.getElem?_wordList arguments i).trans listed)
    rw [Nat.mul_add, Nat.mul_comm wordSize 3, ← Nat.add_assoc, ← list] at there
    exact there.readWord backed
  refine ⟨⟨_, (words.word (i := 1) rfl).readWord backed, toNat_ofNat_of_user ?_⟩,
    ⟨UInt32.ofNat (stack.toNat + 3 * wordSize), ?_, fun i lt => ?_, ?_⟩, has, whole ▸ page.length_toList⟩
  · simp only [wordSize] at *
    omega
  · have there := words.word (i := 2) (show _ = some (stack.toNat + 3 * wordSize) from place ▸ rfl)
    exact there.readWord backed
  · have lt' : i < (InitialStack.stringAddresses arguments).length := by
      rwa [InitialStack.length_stringAddresses]
    have listed : (InitialStack.stringAddresses arguments)[i]? =
      some (InitialStack.stringAddresses arguments)[i] := List.getElem?_eq_getElem lt'
    refine ⟨_, entry ((List.getElem?_append_left lt').trans listed), fun limit short => ?_⟩
    exact (has.strings room fits).argument backed (List.getElem?_eq_getElem lt) listed
      (nulFree _ (List.getElem_mem lt)) short
  · refine entry ?_
    rw [List.getElem?_append_right (Nat.le_of_eq (InitialStack.length_stringAddresses arguments)),
      InitialStack.length_stringAddresses, Nat.sub_self]
    rfl

end AddressSpace

end Userland

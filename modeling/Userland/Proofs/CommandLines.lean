import Mathlib.Tactic.Common
import Userland.Text.Utf8
import Userland.Text.Words

/-!
# Cuts and words

A text is cut to a number of bytes at the last place between characters that is not too far
(`Utf8.IsCut`), and a line is a list of words with spaces between them (`Words.IsWords`). Each says of one
text only what it is, whatever the text: how long it is, how its characters are encoded, and where its
spaces lie.
-/

namespace Userland

/-! ## Bytes of texts -/

namespace Bytes

theorem ofString_ofList (cs : List Char) : ofString (String.ofList cs) = cs.flatMap String.utf8EncodeChar := by
  simp [ofString, List.utf8Encode]

theorem ofString_eq (s : String) : ofString s = s.toList.flatMap String.utf8EncodeChar := by
  rw [← ofString_ofList, String.ofList_toList]

/-- The null character is the only one with a zero byte. -/
theorem zero_notMem_utf8EncodeChar {c : Char} (other : c ≠ '\x00') : 0 ∉ String.utf8EncodeChar c := by
  have some : c.val.toNat ≠ 0 := fun zero => other (Char.ext (UInt32.toNat_inj.1 zero))
  have nonzero {n : Nat} (low : 0 < n) (high : n < 256) : 0 ≠ UInt8.ofNat n := fun zero => by
    have same := congrArg UInt8.toNat zero
    rw [UInt8.toNat_ofNat', Nat.mod_eq_of_lt high] at same
    exact Nat.ne_of_lt low same
  -- The lead byte of a longer sequence, and each byte after it, has its highest bit set.
  unfold String.utf8EncodeChar
  dsimp only
  split
  · simpa using nonzero (Nat.pos_of_ne_zero some) (by omega)
  split
  · simp only [List.mem_cons, List.not_mem_nil, or_false, not_or]
    exact ⟨nonzero (by omega) (by omega), nonzero (by omega) (by omega)⟩
  split
  · simp only [List.mem_cons, List.not_mem_nil, or_false, not_or]
    exact ⟨nonzero (by omega) (by omega), nonzero (by omega) (by omega), nonzero (by omega) (by omega)⟩
  · simp only [List.mem_cons, List.not_mem_nil, or_false, not_or]
    exact ⟨nonzero (by omega) (by omega), nonzero (by omega) (by omega), nonzero (by omega) (by omega),
      nonzero (by omega) (by omega)⟩

theorem zero_notMem_ofString {s : String} (nulFree : '\x00' ∉ s.toList) : 0 ∉ ofString s := by
  rw [ofString_eq, List.mem_flatMap]
  rintro ⟨c, mem, zero⟩
  exact zero_notMem_utf8EncodeChar (fun same => nulFree (same ▸ mem)) zero

end Bytes

/-! ## Cuts -/

namespace Utf8

variable {s c c' : String} {limit room : Nat}

/-- A text is the longest start of another that has at most `limit` bytes and ends between characters. -/
structure IsCut (s : String) (limit : Nat) (c : String) : Prop where
  /-- It is a start of the other. -/
  starts : c.toList <+: s.toList
  /-- It is not too long. -/
  fits : (Bytes.ofString c).length ≤ limit
  /-- No start that is not too long goes further. -/
  longest : ∀ c' : String, c'.toList <+: s.toList → (Bytes.ofString c').length ≤ limit → c'.toList <+: c.toList

/-- There is one such text. -/
theorem IsCut.unique (cut : IsCut s limit c) (cut' : IsCut s limit c') : c = c' :=
  String.toList_inj.1 <| (cut'.longest c cut.starts cut.fits).eq_of_length_le
    (cut.longest c' cut'.starts cut'.fits).length_le

theorem takeFitting_prefix (room : Nat) (cs : List Char) : takeFitting room cs <+: cs := by
  induction cs generalizing room with
  | nil => exact List.prefix_rfl
  | cons c cs ih =>
    rw [takeFitting]
    split
    · exact List.cons_prefix_cons.2 ⟨rfl, ih _⟩
    · exact List.nil_prefix

theorem size_takeFitting (room : Nat) (cs : List Char) :
    ((takeFitting room cs).flatMap String.utf8EncodeChar).length ≤ room := by
  induction cs generalizing room with
  | nil => exact Nat.zero_le room
  | cons c cs ih =>
    rw [takeFitting]
    split
    · next fits =>
      rw [List.flatMap_cons, List.length_append, String.length_utf8EncodeChar]
      have := ih (room - c.utf8Size)
      omega
    · exact Nat.zero_le room

/-- Any start that fits is a start of what is taken. -/
theorem prefix_takeFitting {cs ds : List Char} (starts : ds <+: cs)
    (fits : (ds.flatMap String.utf8EncodeChar).length ≤ room) : ds <+: takeFitting room cs := by
  induction ds generalizing room cs with
  | nil => exact List.nil_prefix
  | cons d ds ih =>
    obtain ⟨rest, rfl⟩ := starts
    rw [List.flatMap_cons, List.length_append, String.length_utf8EncodeChar] at fits
    rw [List.cons_append, takeFitting, if_pos (Nat.le_of_add_right_le fits)]
    exact List.cons_prefix_cons.2 ⟨rfl, ih (List.prefix_append ds rest) (Nat.le_sub_of_add_le' fits)⟩

theorem isCut_truncate (s : String) (limit : Nat) : IsCut s limit (truncate s limit) where
  starts := by
    rw [truncate, String.toList_ofList]
    exact takeFitting_prefix limit s.toList
  fits := by
    rw [Bytes.ofString_eq, truncate, String.toList_ofList]
    exact size_takeFitting limit s.toList
  longest c' starts fits := by
    rw [truncate, String.toList_ofList]
    exact prefix_takeFitting starts (Bytes.ofString_eq c' ▸ fits)

end Utf8

/-! ## Words -/

namespace Words

/-- The words of a line, in order, are its longest runs of characters other than the space: before each there
    are spaces or none, and after it comes a space, or nothing. -/
inductive IsWords : List Char → List (List Char) → Prop where
  /-- There is nothing but spaces. -/
  | spaces (n : Nat) : IsWords (List.replicate n ' ') []
  /-- There is a word, and maybe more. -/
  | word (n : Nat) {w rest : List Char} {ws : List (List Char)} : w ≠ [] → ' ' ∉ w →
    (rest = [] ∨ rest.head? = some ' ') → IsWords rest ws →
    IsWords (List.replicate n ' ' ++ w ++ rest) (w :: ws)

variable {cs w rest word : List Char} {ws ws' : List (List Char)}

/-- A space more at the start makes no difference. -/
theorem IsWords.space (words : IsWords cs ws) : IsWords (' ' :: cs) ws := by
  cases words with
  | spaces n => exact .spaces (n + 1)
  | word n some unbroken stops words => exact .word (n + 1) some unbroken stops words

/-- Splitting gives the words, the first of which may have begun. -/
theorem isWords_split (unbroken : ' ' ∉ word) : IsWords (word.reverse ++ cs) (split word cs) := by
  have started {word : List Char} (ongoing : ¬word.isEmpty = true) : word.reverse ≠ [] := by
    simpa using ongoing
  induction cs generalizing word with
  | nil =>
    rw [split]
    split
    · next nothing =>
      rw [List.isEmpty_iff.1 nothing]
      exact .spaces 0
    · next ongoing =>
      exact .word 0 (started ongoing) (by simpa using unbroken) (.inl rfl) (.spaces 0)
  | cons c cs ih =>
    rw [split]
    split
    · next space =>
      subst space
      have later : IsWords (' ' :: cs) (split [] cs) := (ih List.not_mem_nil).space
      split
      · next nothing =>
        rw [List.isEmpty_iff.1 nothing]
        exact later
      · next ongoing =>
        exact .word 0 (started ongoing) (by simpa using unbroken) (.inr rfl) later
    · next other =>
      have longer : ' ' ∉ c :: word := List.not_mem_cons_of_ne_of_not_mem (Ne.symm other) unbroken
      have whole := ih longer
      rwa [List.reverse_cons, List.append_assoc] at whole

/-- So the words of a line are those that it is split into. -/
theorem isWords_ofString (line : String) : IsWords line.toList ((ofString line).map String.toList) := by
  have words : IsWords line.toList (split [] line.toList) := isWords_split List.not_mem_nil
  simpa [ofString] using words

theorem split_replicate (n : Nat) (cs : List Char) : split [] (List.replicate n ' ' ++ cs) = split [] cs := by
  induction n with
  | zero => rfl
  | succ n ih =>
    rw [List.replicate_succ, List.cons_append, split, if_pos rfl]
    exact ih

/-- A word goes on until a space. -/
theorem split_append (unbroken : ' ' ∉ w) : split word (w ++ rest) = split (w.reverse ++ word) rest := by
  induction w generalizing word with
  | nil => rfl
  | cons c w ih =>
    rw [List.mem_cons, not_or] at unbroken
    rw [List.cons_append, split, if_neg (Ne.symm unbroken.1), ih unbroken.2, List.reverse_cons,
      List.append_assoc, List.singleton_append]

/-- A line has its words in one way. -/
theorem IsWords.eq_split (words : IsWords cs ws) : ws = split [] cs := by
  induction words with
  | spaces n =>
    have none := split_replicate n []
    rw [List.append_nil] at none
    exact none.symm
  | @word n w rest ws some unbroken stops words ih =>
    rw [List.append_assoc, split_replicate, split_append unbroken, List.append_nil]
    have started : ¬w.reverse.isEmpty = true := by simpa using some
    rcases stops with rfl | space
    · rw [split, if_neg started, List.reverse_reverse, ih]
      rfl
    · obtain ⟨rest, rfl⟩ : ∃ rest', rest = ' ' :: rest' := by
        cases rest with
        | nil => cases space
        | cons c rest => exact ⟨rest, congrArg (· :: rest) (Option.some.inj space)⟩
      rw [split, if_pos rfl] at ih
      rw [split, if_pos rfl, if_neg started, List.reverse_reverse, ih]
      rfl

theorem IsWords.unique (words : IsWords cs ws) (words' : IsWords cs ws') : ws = ws' :=
  words.eq_split.trans words'.eq_split.symm

example : (ofString "  cp  a b ").map String.toList = [['c', 'p'], ['a'], ['b']] := by decide

/-- No word has a character that the line has not. -/
theorem IsWords.mem (words : IsWords cs ws) (listed : w ∈ ws) {c : Char} (mem : c ∈ w) : c ∈ cs := by
  induction words with
  | spaces n => cases listed
  | @word n w' rest ws some unbroken stops words ih =>
    rcases List.mem_cons.1 listed with rfl | later
    · exact List.mem_append_left _ (List.mem_append_right _ mem)
    · exact List.mem_append_right _ (ih later)

end Words

end Userland

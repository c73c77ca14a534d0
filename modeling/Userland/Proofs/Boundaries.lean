import Userland.Proofs.CommandLines

/-!
# Boundaries between characters

Where a character starts can be told from the bytes of a text: the bytes that go on with a character are
those from `0x80` to `0xBF` (`Utf8.continues`), so a place is a boundary if it is the start, the end or has
another byte (`Utf8.isBoundary`). These are just the places at which some start of the text ends
(`isBoundary_iff`). A text is cut by walking back from the limit to a boundary (`Utf8.walkBack`). The walk
ends, for the start of the text is a boundary, and what lies before the place where it ends is the text that
`Utf8.truncate` gives (`walkBack_truncate`): at most three bytes of the limit are not used, and a text that was
cut is not cut further (`cuts_text`).
-/

namespace Userland.Utf8

variable {s c p : String} {bs : Bytes} {limit i n : Nat}

/-! ## Boundaries -/

/-- Whether a byte goes on with a character that an earlier byte has started. -/
def continues (b : UInt8) : Bool := 0x80 ≤ b.toNat && b.toNat < 0xC0

/-- Whether a place among bytes is a boundary: the start, the end, or where a byte does not go on with a
    character. There are none past the end. -/
def isBoundary (bs : Bytes) (i : Nat) : Bool :=
  i = 0 || match bs[i]? with
    | some b => !continues b
    | none => i = bs.length

theorem continues_ofNat {n : Nat} (byte : n < 256) :
    continues (.ofNat n) = (decide (0x80 ≤ n) && decide (n < 0xC0)) := by
  rw [continues, UInt8.toNat_ofNat', Nat.mod_eq_of_lt byte]

/-- The first byte of a character does not go on with another, and its other bytes do. -/
theorem utf8EncodeChar_eq_cons (c : Char) : ∃ b rest, String.utf8EncodeChar c = b :: rest ∧
    continues b = false ∧ ∀ x ∈ rest, continues x = true := by
  have lead {n : Nat} (high : n < 256) (outside : n < 0x80 ∨ 0xC0 ≤ n) : continues (.ofNat n) = false := by
    rw [continues_ofNat high, Bool.and_eq_false_iff, decide_eq_false_iff_not, decide_eq_false_iff_not]
    omega
  have tail (n : Nat) : continues (.ofNat (n % 0x40 + 0x80)) = true := by
    rw [continues_ofNat (by omega), Bool.and_eq_true, decide_eq_true_iff, decide_eq_true_iff]
    omega
  unfold String.utf8EncodeChar
  dsimp only
  -- There is a case for each number of bytes.
  split
  · exact ⟨_, _, rfl, lead (by omega) (by omega), nofun⟩
  split
  · exact ⟨_, _, rfl, lead (by omega) (by omega), List.forall_mem_singleton.2 (tail _)⟩
  split
  · exact ⟨_, _, rfl, lead (by omega) (by omega),
      List.forall_mem_cons.2 ⟨tail _, List.forall_mem_singleton.2 (tail _)⟩⟩
  · exact ⟨_, _, rfl, lead (by omega) (by omega), List.forall_mem_cons.2 ⟨tail _,
      List.forall_mem_cons.2 ⟨tail _, List.forall_mem_singleton.2 (tail _)⟩⟩⟩

/-- No boundary lies within a character. -/
theorem isBoundary_append_of_lt {c : Char} (inside : 0 < i) (lt : i < c.utf8Size) :
    isBoundary (String.utf8EncodeChar c ++ bs) i = false := by
  obtain ⟨b, rest, bytes, -, tail⟩ := utf8EncodeChar_eq_cons c
  have size := String.length_utf8EncodeChar c
  rw [bytes, List.length_cons] at size
  obtain ⟨k, rfl⟩ := Nat.exists_eq_succ_of_ne_zero (Nat.ne_of_gt inside)
  have within : k < rest.length := by omega
  have found : (String.utf8EncodeChar c ++ bs)[k + 1]? = some rest[k] := by
    rw [bytes, List.cons_append, List.getElem?_cons_succ, List.getElem?_append_left within,
      List.getElem?_eq_getElem within]
  simp [isBoundary, found, tail _ (List.getElem_mem _)]

/-- After a character boundaries are where they are without it. -/
theorem isBoundary_append (c : Char) (cs : List Char) (i : Nat) :
    isBoundary (String.utf8EncodeChar c ++ cs.flatMap String.utf8EncodeChar) (c.utf8Size + i) =
      isBoundary (cs.flatMap String.utf8EncodeChar) i := by
  have size := String.length_utf8EncodeChar c
  have some := c.utf8Size_pos
  have found : (String.utf8EncodeChar c ++ cs.flatMap String.utf8EncodeChar)[c.utf8Size + i]? =
      (cs.flatMap String.utf8EncodeChar)[i]? := by
    rw [List.getElem?_append_right (by omega), size, Nat.add_sub_cancel_left]
  simp only [isBoundary, found, List.length_append, size]
  cases i with
  | zero =>
    -- The next character, if there is one, starts here.
    cases cs with
    | nil => simp
    | cons d cs =>
      obtain ⟨b, rest, bytes, lead, -⟩ := utf8EncodeChar_eq_cons d
      simp [bytes, lead]
  | succ i => simp

/-- The boundaries are the places where starts of the text end. -/
theorem isBoundary_iff : isBoundary (Bytes.ofString s) n = true ↔
    ∃ p : String, p.toList <+: s.toList ∧ (Bytes.ofString p).length = n := by
  suffices starts : ∀ cs : List Char, isBoundary (cs.flatMap String.utf8EncodeChar) n = true ↔
      ∃ ds, ds <+: cs ∧ (ds.flatMap String.utf8EncodeChar).length = n by
    rw [Bytes.ofString_eq, starts]
    constructor
    · rintro ⟨ds, pre, length⟩
      exact ⟨.ofList ds, by rwa [String.toList_ofList], by rwa [Bytes.ofString_ofList]⟩
    · rintro ⟨p, pre, length⟩
      exact ⟨p.toList, pre, by rwa [← Bytes.ofString_eq]⟩
  intro cs
  induction cs generalizing n with
  | nil =>
    simp [isBoundary]
    exact eq_comm
  | cons c cs ih =>
    rw [List.flatMap_cons]
    constructor
    · intro boundary
      rcases Nat.eq_zero_or_pos n with rfl | some
      · exact ⟨[], List.nil_prefix, rfl⟩
      have le : c.utf8Size ≤ n := by
        by_contra lt
        rw [isBoundary_append_of_lt some (Nat.lt_of_not_le lt)] at boundary
        cases boundary
      obtain ⟨i, rfl⟩ := Nat.exists_eq_add_of_le le
      rw [isBoundary_append] at boundary
      obtain ⟨ds, pre, length⟩ := ih.1 boundary
      exact ⟨c :: ds, List.cons_prefix_cons.2 ⟨rfl, pre⟩, by
        rw [List.flatMap_cons, List.length_append, String.length_utf8EncodeChar, length]⟩
    · rintro ⟨ds, pre, rfl⟩
      cases ds with
      | nil => simp [isBoundary]
      | cons d ds =>
        obtain ⟨rfl, tail⟩ := List.cons_prefix_cons.1 pre
        rw [List.flatMap_cons, List.length_append, String.length_utf8EncodeChar, isBoundary_append]
        exact ih.2 ⟨ds, tail, rfl⟩

/-! ## Walking back -/

/-- The nearest boundary at a place or before it, found by going back byte by byte; nothing if that would go
    below zero. -/
def walkBack (bs : Bytes) : Nat → Option Nat
  | 0 => if isBoundary bs 0 then some 0 else none
  | i + 1 => if isBoundary bs (i + 1) then some (i + 1) else walkBack bs i

/-- A text cut by walking back from the limit. Nothing if the walk does not end, or ends within a
    character. -/
def cutBack (s : String) (limit : Nat) : Option String :=
  if (Bytes.ofString s).length ≤ limit then some s
  else (walkBack (Bytes.ofString s) limit).bind fun n => decode? ((Bytes.ofString s).take n)

/-- The walk ends at the last boundary. -/
theorem walkBack_eq (boundary : isBoundary bs n = true) (le : n ≤ i)
    (last : ∀ k, k ≤ i → isBoundary bs k = true → k ≤ n) : walkBack bs i = some n := by
  induction i with
  | zero =>
    obtain rfl := Nat.le_zero.1 le
    rw [walkBack, if_pos boundary]
  | succ i ih =>
    rw [walkBack]
    split
    · next here => rw [Nat.le_antisymm le (last (i + 1) (Nat.le_refl _) here)]
    · next other =>
      have before : n ≤ i := by
        refine Nat.le_of_lt_succ (Nat.lt_of_le_of_ne le ?_)
        rintro rfl
        exact other boundary
      exact ih before fun k le => last k (Nat.le_succ_of_le le)

@[simp] theorem decode?_ofString (s : String) : decode? (Bytes.ofString s) = some s := by
  have valid : ByteArray.IsValidUTF8 ⟨(Bytes.ofString s).toArray⟩ := s.isValidUTF8
  rw [decode?, String.fromUTF8?, dif_pos valid]
  rfl

/-! ## Cuts -/

theorem IsCut.prefix_ofString (cut : IsCut s limit c) : Bytes.ofString c <+: Bytes.ofString s := by
  obtain ⟨rest, whole⟩ := cut.starts
  rw [Bytes.ofString_eq, Bytes.ofString_eq s, ← whole, List.flatMap_append]
  exact List.prefix_append _ _

/-- A cut ends at the last boundary within the limit. -/
theorem IsCut.le_of_isBoundary (cut : IsCut s limit c) (le : n ≤ limit)
    (boundary : isBoundary (Bytes.ofString s) n = true) : n ≤ (Bytes.ofString c).length := by
  obtain ⟨p, pre, rfl⟩ := isBoundary_iff.1 boundary
  obtain ⟨rest, whole⟩ := cut.longest p pre le
  rw [Bytes.ofString_eq, Bytes.ofString_eq c, ← whole, List.flatMap_append, List.length_append]
  exact Nat.le_add_right _ _

/-- A character that a cut leaves out would not have fitted, so few bytes of the limit are not used. -/
theorem IsCut.limit_le (cut : IsCut s limit c) (long : limit < (Bytes.ofString s).length) :
    limit ≤ (Bytes.ofString c).length + 3 := by
  obtain ⟨rest, whole⟩ := cut.starts
  cases rest with
  | nil =>
    rw [List.append_nil] at whole
    obtain rfl := String.toList_inj.1 whole
    exact absurd cut.fits (Nat.not_le_of_lt long)
  | cons d rest =>
    by_contra less
    have size := d.utf8Size_le_four
    have length : ((c.toList ++ [d]).flatMap String.utf8EncodeChar).length =
        (Bytes.ofString c).length + d.utf8Size := by
      simp [Bytes.ofString_eq c]
    have boundary : isBoundary (Bytes.ofString s) ((Bytes.ofString c).length + d.utf8Size) = true :=
      isBoundary_iff.2 ⟨.ofList (c.toList ++ [d]), ⟨rest, by simp [← whole]⟩, by
        rw [Bytes.ofString_ofList, length]⟩
    have := cut.le_of_isBoundary (by omega) boundary
    have := d.utf8Size_pos
    omega

/-- A text that fits is not cut. -/
theorem truncate_of_le (fits : (Bytes.ofString s).length ≤ limit) : truncate s limit = s :=
  (isCut_truncate s limit).unique ⟨List.prefix_rfl, fits, fun _ starts _ => starts⟩

theorem walkBack_truncate (s : String) (limit : Nat) :
    walkBack (Bytes.ofString s) limit = some (Bytes.ofString (truncate s limit)).length := by
  have cut := isCut_truncate s limit
  exact walkBack_eq (isBoundary_iff.2 ⟨_, cut.starts, rfl⟩) cut.fits fun k le => cut.le_of_isBoundary le

/-- What walking back from a limit does to a text. -/
structure Cuts (s : String) (limit : Nat) (c : String) : Prop where
  /-- The walk ends, at a boundary, and what lies before that is the text left. -/
  walks : cutBack s limit = some c
  /-- Its bytes are the first of the text. -/
  starts : Bytes.ofString c <+: Bytes.ofString s
  /-- They are well formed. -/
  decodes : decode? (Bytes.ofString c) = some c
  /-- They are not too many. -/
  fits : (Bytes.ofString c).length ≤ limit
  /-- No boundary within the limit lies further. -/
  longest : ∀ n ≤ limit, isBoundary (Bytes.ofString s) n = true → n ≤ (Bytes.ofString c).length
  /-- If the text was too long, at most three bytes of the limit are not used. -/
  tight : limit < (Bytes.ofString s).length → limit ≤ (Bytes.ofString c).length + 3
  /-- Cut again at this limit or a greater one, what is left stays as it is. -/
  again : ∀ limit', limit ≤ limit' → truncate c limit' = c

/-- Any text is cut to any number of bytes by walking back to the last boundary within them. -/
theorem cuts_text (s : String) (limit : Nat) : Cuts s limit (truncate s limit) where
  walks := by
    rw [cutBack]
    split
    · next fits => rw [truncate_of_le fits]
    · rw [walkBack_truncate, Option.bind_some,
        ← List.prefix_iff_eq_take.1 (isCut_truncate s limit).prefix_ofString, decode?_ofString]
  starts := (isCut_truncate s limit).prefix_ofString
  decodes := decode?_ofString _
  fits := (isCut_truncate s limit).fits
  longest _ le := (isCut_truncate s limit).le_of_isBoundary le
  tight := (isCut_truncate s limit).limit_le
  again _ le := truncate_of_le (Nat.le_trans (isCut_truncate s limit).fits le)

example : (truncate "héllo" 2).toList = ['h'] := by decide

end Userland.Utf8

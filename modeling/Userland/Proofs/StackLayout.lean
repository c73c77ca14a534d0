import Userland.Proofs.Acceptance
import Userland.Proofs.Custody
import Userland.Proofs.StackPage
import Userland.Proofs.Tenants

/-!
# The layout of the initial stack

From the kernel down, the stack of a program has the strings of its arguments, each at a place that follows from
the arguments after it (`InitialStack.stringStart`), and below them the words, at a place that follows from how
many there are (`InitialStack.stackStart`). All other bytes of the page are zero (`AddressSpace.HasStackFor`).

The loader lays that out if there is a frame, if the arguments fit and if the page is not mapped, which it looks
at in this order, and adds the page to the space (`Loader.lays_out_stack`). Where it fails the space is what it
was, and all frames are (`FramePool.Restored`).
-/

namespace Userland

/-! ## Frames that are given back at once -/

namespace FramePool

variable {pool pool₁ pool₂ : FramePool} {f : Frame}

/-- The same frames are in use as before, and hold what they held. -/
structure Restored (pool pool' : FramePool) : Prop where
  inUse : ∀ f, pool'.inUse f = pool.inUse f
  count : pool'.usedFrames = pool.usedFrames
  page : ∀ f, pool.inUse f = true → pool'.page? f = pool.page? f

theorem Restored.refl (pool : FramePool) : pool.Restored pool := ⟨fun _ => rfl, rfl, fun _ _ => rfl⟩

/-- A frame was handed out, perhaps something was stored in it, and it was given back. -/
theorem restored_release (given : pool.allocate? = some (f, pool₁)) (use : ∀ g, pool₂.inUse g = pool₁.inUse g)
    (count : pool₂.usedFrames = pool₁.usedFrames) (page : ∀ g, g ≠ f → pool₂.page? g = pool₁.page? g) :
    pool.Restored (pool₂.release f) := by
  obtain ⟨-, free, -⟩ := allocate?_eq_some given
  have live : pool₂.inUse f = true := by rw [use, inUse_allocate? given, decide_eq_true rfl, Bool.true_or]
  refine ⟨fun g => ?_, ?_, fun g used => ?_⟩
  · rw [inUse_release, use, inUse_allocate? given]
    by_cases same : g = f
    · rw [same, free, decide_eq_true rfl]
      rfl
    · rw [decide_eq_false same]
      rfl
  · have taken := usedFrames_allocate? given
    have left := usedFrames_release live
    omega
  · obtain ⟨other, same⟩ := page?_of_allocate? given used
    rw [page?_release, page g other, same]

end FramePool

/-! ## Places on the stack page -/

namespace InitialStack

variable {arguments : List String} {i : Nat}

instance (arguments : List String) : Decidable (Fits arguments) := inferInstanceAs (Decidable (_ ∧ _))

/-- The address of string `i`. After the last string the kernel begins. -/
def stringStart (arguments : List String) (i : Nat) : Nat := userTop - stringBytes (arguments.drop i)

/-- The address of the lowest word. The words end at the last word boundary that is not above the strings, and
    there are four of them besides an address for each string. -/
def stackStart (arguments : List String) : Nat :=
  stackBase + (pageSize - stringBytes arguments) / wordSize * wordSize - wordSize * arguments.length - 16

theorem length_strings (arguments : List String) : (strings arguments).length = stringBytes arguments := by
  simp [strings, stringBytes, List.length_flatMap]

theorem stringBytes_drop (lt : i < arguments.length) : stringBytes (arguments.drop i) =
    (Bytes.ofString arguments[i] ++ [0]).length + stringBytes (arguments.drop (i + 1)) := by
  rw [List.drop_eq_getElem_cons lt, stringBytes_cons]

theorem stringBytes_drop_le (arguments : List String) (i : Nat) :
    stringBytes (arguments.drop i) ≤ stringBytes arguments := by
  have parts : stringBytes arguments = stringBytes (arguments.take i) + stringBytes (arguments.drop i) := by
    rw [stringBytes, stringBytes, stringBytes, ← List.sum_append, ← List.map_append, List.take_append_drop]
  exact parts ▸ Nat.le_add_left ..

theorem getElem?_stringAddresses (lt : i < arguments.length) :
    (stringAddresses arguments)[i]? = some (stringStart arguments i) := by
  induction arguments generalizing i with
  | nil => cases lt
  | cons arg rest ih =>
    cases i with
    | zero => rw [stringAddresses, List.getElem?_cons_zero, length_strings, stringStart, List.drop_zero]
    | succ i =>
      rw [stringAddresses, List.getElem?_cons_succ, ih (Nat.lt_of_succ_lt_succ lt), stringStart, stringStart,
        List.drop_succ_cons]

/-- The words are below the strings, on the same page. -/
theorem stackStart_eq (room : wordSize * (arguments.length + 4) ≤ wordsEnd arguments) :
    stackStart arguments = stackBase + wordsStart arguments := by
  rw [wordsStart, stackStart, ← length_strings, ← wordsEnd]
  simp only [wordSize] at *
  omega

end InitialStack

namespace AddressSpace

open InitialStack

variable {s : AddressSpace} {pool : FramePool} {a i n : Nat} {arguments : List String}

/-! ## What is on the page -/

/-- At an address there is a word. -/
def HoldsWord (s : AddressSpace) (pool : FramePool) (a n : Nat) : Prop :=
  ∃ w, s.readWord pool (.ofNat a) = .ok w ∧ w.toNat = n

/-- On the page below the kernel is a stack for a program with these arguments. -/
structure HasStackFor (s : AddressSpace) (pool : FramePool) (arguments : List String) : Prop where
  /-- It starts at a word boundary. -/
  aligned : wordSize ∣ stackStart arguments
  /-- There is a null in place of a return address, -/
  returns : s.HoldsWord pool (stackStart arguments) 0
  /-- the number of arguments, -/
  count : s.HoldsWord pool (stackStart arguments + 4) arguments.length
  /-- the address of the list, -/
  list : s.HoldsWord pool (stackStart arguments + 8) (stackStart arguments + 12)
  /-- the list with the address of each string, -/
  addresses : ∀ i < arguments.length,
    s.HoldsWord pool (stackStart arguments + 12 + 4 * i) (stringStart arguments i)
  /-- and a null. -/
  null : s.HoldsWord pool (stackStart arguments + 12 + 4 * arguments.length) 0
  /-- Each string is at its address, with a zero at its end. -/
  strings : ∀ i (lt : i < arguments.length),
    s.HasBytes pool (stringStart arguments i) (Bytes.ofString arguments[i] ++ [0])
  /-- The next string comes right after it. -/
  contiguous : ∀ i (lt : i < arguments.length),
    stringStart arguments i + (Bytes.ofString arguments[i] ++ [0]).length = stringStart arguments (i + 1)
  /-- After the last one the kernel begins. -/
  last : stringStart arguments arguments.length = userTop
  /-- All other bytes of the page are zero. -/
  zeros : ∀ a : VirtAddr, stackBase ≤ a.toNat → a.toNat < stackStart arguments ∨
    (stackStart arguments + 16 + 4 * arguments.length ≤ a.toNat ∧ a.toNat < stringStart arguments 0) →
    s.byte? pool a = some 0

theorem HasBytes.holdsWord {words : List Nat} (has : s.HasBytes pool a (wordBytes words)) (backed : s.Backed pool)
    (listed : words[i]? = some n) (user : n ≤ userTop) : s.HoldsWord pool (a + wordSize * i) n :=
  ⟨_, (has.word listed).readWord backed, toNat_ofNat_of_user user⟩

theorem HasBytes.byte?_zeros (has : s.HasBytes pool a (Bytes.zeros n)) {x : VirtAddr} (lower : a ≤ x.toNat)
    (upper : x.toNat < a + n) : s.byte? pool x = some 0 := by
  obtain ⟨k, place⟩ := Nat.exists_eq_add_of_le lower
  have lt : k < (Bytes.zeros n).length := by
    rw [Bytes.zeros, List.length_replicate]
    omega
  have here : VirtAddr.ofNat (a + k) = x := toNat_injective ((has.toNat_ofNat (Nat.le_of_lt lt)).trans place.symm)
  have byte := has.byte k lt
  rw [here] at byte
  simpa only [Bytes.zeros, List.getElem_replicate] using byte

/-- The layout has all this. -/
theorem hasStackFor (has : s.HasBytes pool stackBase (layout arguments)) (backed : s.Backed pool)
    (room : wordSize * (arguments.length + 4) ≤ wordsEnd arguments)
    (fits : (InitialStack.strings arguments).length ≤ pageSize) : s.HasStackFor pool arguments := by
  have start := stackStart_eq room
  have words : s.HasBytes pool (stackStart arguments) (wordBytes (wordList arguments)) := start ▸ has.words
  have strings := has.strings room fits
  have below : stackStart arguments + 4 * (arguments.length + 4) ≤ userTop := by
    have below := words.below
    rwa [length_wordBytes, length_wordList] at below
  have word {i n a : Nat} (listed : (wordList arguments)[i]? = some n) (user : n ≤ userTop)
      (place : a = stackStart arguments + 4 * i) : s.HoldsWord pool a n := by
    rw [place]
    exact words.holdsWord backed listed user
  have list {i n : Nat} (listed : (stringAddresses arguments ++ [0])[i]? = some n) (user : n ≤ userTop) :
      s.HoldsWord pool (stackStart arguments + 12 + 4 * i) n :=
    word ((getElem?_wordList arguments i).trans listed) user (by omega)
  -- The third word is the address of the list, which starts right after it.
  have third : (wordList arguments)[2]? = some (stackStart arguments + 12) := by
    rw [start]
    rfl
  constructor
  case aligned =>
    rw [start, wordsStart, wordsEnd]
    simp only [wordSize, stackBase, userTop, pageSize]
    omega
  case returns => exact word (i := 0) rfl (Nat.zero_le _) (by omega)
  case count => exact word (i := 1) rfl (by omega) (by omega)
  case list => exact word third (by omega) (by omega)
  case addresses =>
    intro i lt
    have there := getElem?_stringAddresses lt
    rw [← length_stringAddresses] at lt
    exact list ((List.getElem?_append_left lt).trans there) (Nat.sub_le ..)
  case null =>
    refine list ?_ (Nat.zero_le _)
    rw [← length_stringAddresses, List.getElem?_concat_length]
  case strings => exact fun i lt => strings.string (List.getElem?_eq_getElem lt) (getElem?_stringAddresses lt)
  case contiguous =>
    intro i lt
    have below : stringBytes arguments ≤ userTop := by
      rw [← length_strings]
      exact Nat.le_trans fits (by decide)
    have part := stringBytes_drop_le arguments i
    rw [stringStart, stringStart, stringBytes_drop lt] at *
    omega
  case last =>
    rw [stringStart, List.drop_length]
    rfl
  case zeros =>
    intro a lower outside
    have middle := has.right.right
    rw [length_wordBytes, length_wordList, Bytes.zeros, List.length_replicate, ← start] at middle
    rcases outside with before | ⟨above, upper⟩
    · exact has.left.byte?_zeros lower (start ▸ before)
    · have top : stackBase + pageSize = userTop := rfl
      have ends : wordsStart arguments + wordSize * (arguments.length + 4) = wordsEnd arguments :=
        Nat.sub_add_cancel room
      rw [stringStart, List.drop_zero, ← length_strings] at upper
      refine middle.left.byte?_zeros (Nat.le_trans (by simp only [wordSize]; omega) above) ?_
      rw [start, Nat.add_assoc stackBase, ends]
      omega

end AddressSpace

namespace Loader

open InitialStack

variable {s s' : AddressSpace} {pool pool' : FramePool} {arguments : List String} {b : Belongings} {d : Devices}
  {result : Except LoadError VirtAddr}

/-! ## What the loader does -/

/-- Where the stack starts, if there is a frame for it, if the arguments fit and if the page is not mapped. What is
    missing first is reported. -/
def stackResult (s : AddressSpace) (pool : FramePool) (arguments : List String) : Except LoadError VirtAddr :=
  if pool.freeFrames = 0 then .error (.mapping .outOfMemory)
  else if ¬Fits arguments then .error .stackOverflow
  else if (s.translate stackPage).isSome then .error (.mapping .alreadyMapped)
  else .ok (.ofNat (stackStart arguments))

/-- What laying out a stack comes to: the result, the space that is in hand afterwards, and the pool. -/
structure LaysStack (s : AddressSpace) (pool : FramePool) (arguments : List String)
    (result : Except LoadError VirtAddr) (s' : AddressSpace) (pool' : FramePool) : Prop where
  /-- It succeeds if nothing is missing. -/
  outcome : result = stackResult s pool arguments
  /-- If it fails the space is the same as before, and so are the frames. -/
  failed : ∀ e, result = .error e → s' = s ∧ pool.Restored pool' ∧ ∀ a, s.byte? pool' a = s.byte? pool a
  /-- Otherwise the stack is there. -/
  laid : ∀ stack, result = .ok stack → stack.toNat = stackStart arguments ∧ s'.HasStackFor pool' arguments
  /-- Its page was added to the space, may be written, and has a frame that was not in use. -/
  added : ∀ stack, result = .ok stack → ∃ f, pool.inUse f = false ∧
    (∀ g, pool'.inUse g = (decide (g = f) || pool.inUse g)) ∧
    pool'.usedFrames = pool.usedFrames + 1 ∧ s'.mapped = s.mapped + 1 ∧
    ∀ a, s'.translate a =
      if a.toNat / pageSize = stackBase / pageSize then some ⟨f, .ofUser true⟩ else s.translate a
  /-- All else in user memory is the same as before. -/
  others : ∀ a : VirtAddr, a.toNat / pageSize ≠ stackBase / pageSize → s'.byte? pool' a = s.byte? pool a
  /-- So is what other frames in use hold. -/
  frames : ∀ f, pool.inUse f = true → pool'.page? f = pool.page? f

/-- The stack page may be mapped if it is not mapped yet. -/
theorem checkMappable_stackPage (s : AddressSpace) : s.checkMappable stackPage =
    if (s.translate stackPage).isSome then .error .alreadyMapped else .ok () := by
  rw [AddressSpace.checkMappable, if_neg (by decide), if_neg (by decide)]

/-- If it fails, all is as before. -/
theorem laysStack_error {e : LoadError} (backed : s.Backed pool) (restored : pool.Restored pool')
    (outcome : stackResult s pool arguments = .error e) : LaysStack s pool arguments (.error e) s pool' := by
  have same (a : VirtAddr) : s.byte? pool' a = s.byte? pool a :=
    AddressSpace.byte?_congr (fun f mem => restored.page f (backed f mem)) a
  exact ⟨outcome.symm, fun _ _ => ⟨rfl, restored, same⟩, nofun, nofun, fun a _ => same a, restored.page⟩

theorem laysStack_mapped {fr : Frame} {pool₁ : FramePool} {page : Page} {stack : VirtAddr} (backed : s.Backed pool)
    (given : pool.allocate? = some (fr, pool₁)) (built : InitialStack.build arguments = some (page, stack))
    (mapped : s.map stackPage fr true = .ok s') :
    LaysStack s pool arguments (.ok stack) s' (pool₁.write fr 0 page.toList) := by
  obtain ⟨whole, place, room, fits⟩ := toList_of_build built
  rw [← stackStart_eq room] at place
  obtain ⟨-, unused, -⟩ := FramePool.allocate?_eq_some given
  have translate := AddressSpace.translate_map mapped
  have found : s'.translate stackPage = some ⟨fr, .ofUser true⟩ := (translate stackPage).trans (if_pos rfl)
  have held : (pool₁.write fr 0 page.toList).page? fr = some page := by
    rw [FramePool.page?_write, if_pos rfl, FramePool.page?_allocate? given, if_pos rfl, Option.map_some,
      Page.write_toList]
  -- The frame of the stack was not in use, so frames that were are as before.
  have frames (f : Frame) (live : pool.inUse f = true) : (pool₁.write fr 0 page.toList).page? f = pool.page? f := by
    obtain ⟨other, same⟩ := FramePool.page?_of_allocate? given live
    rw [FramePool.page?_write, if_neg other, same]
  refine ⟨?_, nofun, ?_, ?_, fun a elsewhere => ?_, frames⟩
  · have some := FramePool.freeFrames_allocate? given
    have fit : Fits arguments := isSome_build.1 (by rw [built]; rfl)
    have free := (AddressSpace.map_eq_ok mapped).1
    rw [checkMappable_stackPage] at free
    split at free
    · cases free
    next missing =>
    have start : VirtAddr.ofNat (stackStart arguments) = stack := by
      rw [← place]
      exact AddressSpace.toNat_injective (Nat.mod_eq_of_lt stack.isLt)
    rw [stackResult, if_neg (by omega), if_neg (not_not.2 fit), if_neg missing, start]
  · rintro _ ⟨⟩
    exact ⟨place, AddressSpace.hasStackFor (whole ▸ .of_page found held) (backed.fresh given mapped _) room fits⟩
  · rintro _ ⟨⟩
    refine ⟨fr, unused, fun g => ?_, ?_, ?_, translate⟩
    · rw [FramePool.inUse_write, FramePool.inUse_allocate? given]
    · rw [FramePool.usedFrames_write, FramePool.usedFrames_allocate? given]
    · rw [(AddressSpace.map_eq_ok mapped).2]
  · have same : s'.translate a = s.translate a := (translate a).trans (if_neg elsewhere)
    rw [← AddressSpace.byte?_congr (fun f mem => frames f (backed f mem)) a, AddressSpace.byte?, same]
    rfl

theorem StackEnds.laysStack (ends : StackEnds s pool arguments result s' pool') (backed : s.Backed pool) :
    LaysStack s pool arguments result s' pool' := by
  cases ends with
  | noFrame none =>
    refine laysStack_error backed (.refl pool) ?_
    rw [stackResult, if_pos (FramePool.allocate?_eq_none.1 none)]
  | overflow given full =>
    have some := FramePool.freeFrames_allocate? given
    have large : ¬Fits arguments := fun fits => by
      have builds := isSome_build.2 fits
      rw [full] at builds
      cases builds
    refine laysStack_error backed (FramePool.restored_release given (fun _ => rfl) rfl fun _ _ => rfl) ?_
    rw [stackResult, if_neg (by omega), if_pos large]
  | refused given built refused =>
    have some := FramePool.freeFrames_allocate? given
    have fits : Fits arguments := isSome_build.1 (by rw [built]; rfl)
    refine laysStack_error backed (FramePool.restored_release given (fun g => FramePool.inUse_write ..)
      (FramePool.usedFrames_write ..) fun g other => by rw [FramePool.page?_write, if_neg other]) ?_
    rw [checkMappable_stackPage] at refused
    rw [stackResult, if_neg (by omega), if_neg (not_not.2 fits)]
    split at refused
    · next there =>
      cases refused
      rw [if_pos there]
    · cases refused
  | mapped given built mapped => exact laysStack_mapped backed given built mapped

/-- A stack is laid out as a whole or not at all. -/
theorem lays_out_stack (inHand : b.hands.space = some s) (backed : s.Backed d.pool) (arguments : List String) :
    ∃ s', ((loadStack arguments).run b d).2.1.hands.space = some s' ∧
      LaysStack s d.pool arguments ((loadStack arguments).run b d).1 s'
        ((loadStack arguments).run b d).2.2.pool := by
  obtain ⟨s', pool', space, same, ends⟩ := stackEnds_loadStack inHand rfl
  exact ⟨s', space, same ▸ ends.laysStack backed⟩

/-- Two arguments are put on the stack, if the only frame is left for it. -/
theorem lays_out_stack_echo :
    let out := (loadStack ["echo", "hi"]).run (Tenants.holding (some (.empty 0)) none)
      (.fresh (.empty .bounded) (.ofFrames 1) [])
    (AddressSpace.empty 0).Backed (.ofFrames 1) ∧ out.1 = .ok (.ofNat 0xbfffffe0) ∧
      ∃ s, out.2.1.hands.space = some s ∧ s.HoldsWord out.2.2.pool 0xbfffffe4 2 ∧
        s.HasBytes out.2.2.pool 0xbffffff8 (Bytes.ofString "echo" ++ [0]) ∧
        s.HasBytes out.2.2.pool 0xbffffffd (Bytes.ofString "hi" ++ [0]) := by
  have backed : (AddressSpace.empty 0).Backed (.ofFrames 1) := by simp [AddressSpace.Backed]
  have result : stackResult (.empty 0) (.ofFrames 1) ["echo", "hi"] = .ok (.ofNat 0xbfffffe0) := by
    decide +kernel
  have start : stackStart ["echo", "hi"] = 0xbfffffe0 := by decide +kernel
  have first : stringStart ["echo", "hi"] 0 = 0xbffffff8 := by decide +kernel
  have second : stringStart ["echo", "hi"] 1 = 0xbffffffd := by decide +kernel
  obtain ⟨s, space, lays⟩ := lays_out_stack (b := Tenants.holding (some (.empty 0)) none)
    (d := .fresh (.empty .bounded) (.ofFrames 1) []) rfl backed ["echo", "hi"]
  have outcome := lays.outcome.trans result
  obtain ⟨-, stack⟩ := lays.laid _ outcome
  refine ⟨backed, outcome, s, space, ?_, first ▸ stack.strings 0 (by decide), second ▸ stack.strings 1 (by decide)⟩
  have count := stack.count
  rwa [start] at count

end Loader

end Userland

import Userland.Proofs.Lives
import Userland.Proofs.Parents
import Userland.Proofs.Ranges

/-!
# The memory of a process is its own

From its installation until the process exits and detaches it, the memory of a process has the same pages,
in the same frames and with the same flags. A byte of it changes only when the program of the process
stores there, or at the last step of a read that the program has called, which changes no more than the
bytes that it tells (`Scenario.Touches`). No byte of a read-only page changes. So it is whatever other
threads do, and whatever the process does besides (`Scenario.shields_memory`).
-/

namespace Userland

open ThreadProgram

-- Which words a line has does not matter for what is done with them.
attribute [local irreducible] Words.ofString

/-! ## Pages and bytes -/

namespace DeviceRequest

variable {r : DeviceRequest} {s : Standing} {space : AddressSpace}

theorem space?_modifyProcess (b : Belongings) {f : Process → Process} (keeps : ∀ p, (f p).space = p.space) :
    (b.modifyProcess f).space? = b.space? := by
  simp only [Belongings.space?, Belongings.modifyProcess]
  cases b.process with
  | none => rfl
  | some p => exact keeps p

theorem space?_modifyChildren (b : Belongings) (f : Children → Children) (family : Family) :
    (b.modifyChildren f family).space? = b.space? := by
  cases family with
  | process => exact space?_modifyProcess b fun _ => rfl
  | kin | initial => rfl

/-- The requests that give the thread's process its memory or take it away. -/
def movesSpace : DeviceRequest → Bool
  | newProcess .. | detachSpace | detachProcess | installSpace => true
  | _ => false

theorem space?_serve (still : r.movesSpace = false) (b : Belongings) (d : Devices) :
    (r.serve b d).2.1.space? = b.space? := by
  have effect := effect_serve r b d
  generalize (r.serve b d).2.1 = b' at effect ⊢
  cases effect with
  | quiet | hands | level | destroyProcess => rfl
  | files => exact space?_modifyProcess b fun _ => rfl
  | edited _ edits => exact space?_modifyProcess b fun p => (sameContents_of_edit? edits p).space
  | records => exact space?_modifyChildren b ..
  | newProcess | detachSpace | installSpace | detachProcess => cases still

/-- A process keeps its memory until it detaches it. -/
theorem keeps_space? (permitted : r.Permitted s) (stays : r ≠ .detachSpace) (d : Devices)
    (has : s.own.space? = some space) : (r.serve s.own d).2.1.space? = some space := by
  cases moves : r.movesSpace with
  | false => rwa [space?_serve moves]
  | true =>
    obtain ⟨p, hosted, mapped⟩ : ∃ p, s.own.process = some p ∧ p.space = some space :=
      Option.bind_eq_some_iff.1 has
    cases r with
    | detachSpace => exact absurd rfl stays
    | newProcess => cases hosted.symm.trans permitted.1
    | detachProcess => cases mapped.symm.trans (permitted.2 p hosted).space
    | installSpace => cases mapped.symm.trans (permitted p hosted)
    | _ => cases moves

/-- A process gets its memory when that is installed. -/
theorem installs_of_space? (d : Devices) (without : s.own.space? = none)
    (gets : (r.serve s.own d).2.1.space? = some space) : r = .installSpace ∧ s.own.hands.space = some space := by
  cases moves : r.movesSpace with
  | false =>
    rw [space?_serve moves, without] at gets
    cases gets
  | true =>
    cases r with
    | detachSpace =>
      simp only [serve, without] at gets
      cases gets
    | newProcess | detachProcess => cases gets
    | installSpace =>
      simp only [serve] at gets
      split at gets
      · exact ⟨rfl, gets⟩
      · cases gets.symm.trans without
    | _ => cases moves

end DeviceRequest

namespace AddressSpace

variable {s : AddressSpace} {pool pool' : FramePool} {a start : VirtAddr} {data : Bytes}

/-- User code may write the page of an address. -/
def Writable (s : AddressSpace) (a : VirtAddr) : Prop := ∃ t, s.translate a = some t ∧ t.flags.writable = true

/-- User code changes bytes where it stores them, in pages that it may write. -/
theorem writable_of_store (once : s.frames.Nodup) (backed : s.Backed pool) {first : Nat}
    (changed : s.byte? (s.store pool first data).2 a ≠ s.byte? pool a) :
    s.Writable a ∧ ∃ n < data.length, a = VirtAddr.ofNat (first + n) := by
  induction data generalizing pool first with
  | nil => exact absurd rfl changed
  | cons byte data ih =>
    simp only [store] at changed
    split at changed
    · exact absurd rfl changed
    next t found =>
    split at changed
    swap
    · exact absurd rfl changed
    next writable =>
    by_cases later : s.byte? (pool.write t.frame (VirtAddr.ofNat first).offset [byte]) a = s.byte? pool a
    · obtain ⟨may, n, lt, same⟩ := ih (backed.write _ _ _) (later ▸ changed)
      exact ⟨may, n + 1, Nat.succ_lt_succ lt, by rw [same, Nat.add_assoc, Nat.add_comm 1 n]⟩
    -- The byte is changed by the first store, so it is the one that was stored.
    have fits : (VirtAddr.ofNat first).offset + [byte].length ≤ pageSize := (VirtAddr.ofNat first).offset_lt
    rw [byte?_write _ once backed found fits] at later
    split at later
    · next here =>
      obtain rfl : a = VirtAddr.ofNat first := by
        refine toNat_injective ?_
        simp only [List.length_singleton] at here
        omega
      exact ⟨⟨t, found, writable⟩, 0, Nat.succ_pos _, rfl⟩
    · exact absurd rfl later

/-- The kernel changes bytes of the range that it was given, if all of that may be written, and then it
    succeeds. -/
theorem inside_of_copyOut (once : s.frames.Nodup) (backed : s.Backed pool)
    (changed : s.byte? (s.copyOut pool start data).2 a ≠ s.byte? pool a) :
    (s.copyOut pool start data).1 = .ok () ∧ s.Writable a ∧
      start.toNat ≤ a.toNat ∧ a.toNat < start.toNat + data.length ∧ data.length ≤ userTop := by
  cases checked : s.checkRange start data.length .write with
  | error fault =>
    simp only [copyOut, checked] at changed
    exact absurd rfl changed
  | ok =>
    refine ⟨copyOut_of_checkRange pool checked (Nat.le_refl _), ?_⟩
    simp only [copyOut, checked, writeBytes] at changed
    have missed := (byte?_writeFrom once backed start 0 data a).2
    obtain ⟨first, last, -⟩ := Classical.not_not.1 (mt missed changed)
    rw [Nat.add_zero] at first last
    obtain ⟨b, there, pointer⟩ := checkRange_eq_ok.1 checked (a.toNat - start.toNat) (by omega)
    obtain rfl : b = a := toNat_injective (by rw [VirtAddr.add?_eq_some.1 there]; omega)
    obtain ⟨-, t, found, writable⟩ := checkPointer_eq_ok.1 pointer
    exact ⟨⟨t, found, writable rfl⟩, first, last, le_of_checkRange checked⟩

end AddressSpace

/-- As many bytes as there are user addresses are counted in a word. -/
theorem toNat_count {n : Nat} (small : n ≤ userTop) : (Int32.ofNat n).toUInt32.toNat = n :=
  AddressSpace.toNat_ofNat_of_user small

namespace Scenario

variable {x : Scenario} {turns : ℕ → Turn} {i j : ℕ} {t : Tid} {s : AddressSpace} {a : VirtAddr}

/-- A byte of the memory of a process may change at a time, for its program stores a byte there, or a read
    that it has called gives it one. The read is over then, and tells how many bytes it has given. -/
def Touches (x : Scenario) (turns : ℕ → Turn) (i : ℕ) (t : Tid) (a : VirtAddr) : Prop :=
  x.Goes turns i t ∧
    ((∃ start data code, x.programAt turns i t = (UserCode.store start data code).program x.kernel ∧
      ∃ n < data.length, a = VirtAddr.ofNat (start.toNat + n)) ∨
    ∃ fd buffer size code data value, x.Serves turns i t (.read fd buffer size) code ∧
      x.Does turns i t (.device (.copyOut buffer data)) (.ok ()) ∧
      x.programAt turns (i + 1) t = (code value).program x.kernel ∧
      buffer.toNat ≤ a.toNat ∧ a.toNat < buffer.toNat + value.toNat)

/-- The thread does not detach the memory of its process for some time. -/
def Holds (x : Scenario) (turns : ℕ → Turn) (i j : ℕ) (t : Tid) : Prop :=
  ∀ n, i ≤ n → n < j → ∀ answer, ¬x.Does turns n t (.device .detachSpace) answer

/-- How the memory of processes is shielded in a run. -/
structure ShieldsMemory (x : Scenario) (turns : ℕ → Turn) : Prop where
  /-- A process gets its memory when that is installed. -/
  installs : ∀ i t s, ((x.machineAt turns i).thread t).own.space? = none →
    ((x.machineAt turns (i + 1)).thread t).own.space? = some s →
    x.Does turns i t (.device .installSpace) () ∧ ((x.machineAt turns i).thread t).own.hands.space = some s
  /-- Until it detaches it the same pages are mapped, in the same frames and with the same flags. -/
  mapped : ∀ i j t s, i ≤ j → ((x.machineAt turns i).thread t).own.space? = some s → x.Holds turns i j t →
    ((x.machineAt turns j).thread t).own.space? = some s
  /-- It detaches it in its exit. -/
  detaches : ∀ i t answer, x.Does turns i t (.device .detachSpace) answer →
    ∃ b status, x.Within turns (.exit status) b i t
  /-- A byte changes only if its page may be written, and the process stores or reads it. -/
  changes : ∀ i t s a, ((x.machineAt turns i).thread t).own.space? = some s →
    s.byte? (x.machineAt turns (i + 1)).devices.pool a ≠ s.byte? (x.machineAt turns i).devices.pool a →
    s.Writable a ∧ x.Touches turns i t a
  /-- So a byte keeps its value while the process neither stores nor reads it, whatever others do. -/
  keeps : ∀ i j t s a, i ≤ j → ((x.machineAt turns i).thread t).own.space? = some s → x.Holds turns i j t →
    (∀ n, i ≤ n → n < j → ¬x.Touches turns n t a) →
    s.byte? (x.machineAt turns j).devices.pool a = s.byte? (x.machineAt turns i).devices.pool a
  /-- And a byte of a page that may not be written keeps its value, whatever anyone does. -/
  readOnly : ∀ i j t s a, i ≤ j → ((x.machineAt turns i).thread t).own.space? = some s →
    x.Holds turns i j t → ¬s.Writable a →
    s.byte? (x.machineAt turns j).devices.pool a = s.byte? (x.machineAt turns i).devices.pool a

theorem inside_of_space? (has : ((x.machineAt turns i).thread t).own.space? = some s) :
    t < (x.machineAt turns i).threads.size := by
  by_contra outside
  rw [Machine.thread_of_size_le (Nat.not_lt.1 outside)] at has
  cases has

/-- A process keeps its memory for as long as it does not detach it. -/
theorem space?_succ (has : ((x.machineAt turns i).thread t).own.space? = some s)
    (holds : ∀ answer, ¬x.Does turns i t (.device .detachSpace) answer) :
    ((x.machineAt turns (i + 1)).thread t).own.space? = some s := by
  rcases x.own_succ (inside_of_space? has) with same | ⟨r, answer, does, permitted, same⟩
  · exact (congrArg Belongings.space? same).trans has
  · refine (congrArg Belongings.space? same).trans (DeviceRequest.keeps_space? permitted ?_ _ has)
    rintro rfl
    exact holds _ does

theorem space?_of_holds (le : i ≤ j) (has : ((x.machineAt turns i).thread t).own.space? = some s)
    (holds : x.Holds turns i j t) : ((x.machineAt turns j).thread t).own.space? = some s := by
  induction le with
  | refl => exact has
  | step later ih =>
    refine space?_succ (ih fun n after early => holds n after (Nat.lt_succ_of_lt early)) fun answer => ?_
    exact holds _ later (Nat.lt_succ_self _) answer

/-- Who stores bytes as user code does runs user code. -/
theorem code_of_store {start : VirtAddr} {data : Bytes} {answer : Except AddressSpace.Touch Unit}
    (does : x.Does turns i t (.device (.store start data)) answer) :
    ∃ code, x.programAt turns i t = (UserCode.store start data code).program x.kernel := by
  obtain ⟨k, -, t', start', -, deed⟩ := does.deed rfl
  obtain ⟨current, next, conduct, here, -⟩ := deed.acts rfl rfl rfl nofun nofun nofun
  cases conduct with
  | ordinary plain => cases plain
  | @store _ _ _ code _ same => exact ⟨code, here.trans same⟩

/-- Who copies bytes into user memory carries out a read, and goes on with the number of the bytes. -/
theorem read_of_copyOut {buffer : VirtAddr} {data : Bytes}
    (does : x.Does turns i t (.device (.copyOut buffer data)) (.ok ())) :
    ∃ fd size code, x.Serves turns i t (.read fd buffer size) code ∧
      x.programAt turns (i + 1) t = (code (Int32.ofNat data.length).toUInt32).program x.kernel := by
  obtain ⟨k, -, t', start', -, deed⟩ := does.deed rfl
  obtain ⟨current, next, conduct, here, serves⟩ := deed.acts rfl rfl rfl nofun nofun nofun
  cases conduct with
  | ordinary plain => cases plain
  | @copyOut fd _ size code _ _ same =>
    exact ⟨fd, size, code, serves _ _ rfl, (does.next here).trans same⟩

/-- Who detaches the memory of a process exits. -/
theorem within_of_detachSpace {answer : Bool} (does : x.Does turns i t (.device .detachSpace) answer) :
    ∃ b status, x.Within turns (.exit status) b i t := by
  obtain ⟨k, -, t', start', -, deed⟩ := does.deed rfl
  cases deed with
  | starting d first now left =>
    obtain loads | announces | ⟨text, ⟨⟩⟩ := starts_of_left left
    · cases loads
    · cases announces
  | acting program j current next started le conduct =>
    cases conduct with
    | ordinary plain => cases plain
  | exiting result j b d status first started le now begins => exact ⟨b, status, begins, d, now, nofun⟩

/-- Nobody stores bytes in pages that may not be written. -/
theorem not_writesBytes {start : VirtAddr} {data : Bytes} {answer : Except MappingError Unit} :
    ¬x.Does turns i t (.device (.writeBytes start data)) answer := by
  intro does
  obtain ⟨k, -, t', start', -, deed⟩ := does.deed rfl
  obtain ⟨current, next, conduct, -⟩ := deed.acts rfl rfl rfl nofun nofun nofun
  cases conduct with
  | ordinary plain => cases plain

/-- The frames of the memory of a process are its own. -/
theorem mem_frames_of_space (has : ((x.machineAt turns i).thread t).own.space? = some s) {f : Frame}
    (mem : f ∈ s.frames) : f ∈ (x.standingAt turns i t).own.frames := by
  simp [Belongings.frames, Belongings.framesOf, standingAt, Machine.standing, has, mem]

/-- Each page of it has a frame to itself, and so has what is in hand. -/
theorem nodup_frames_append (has : ((x.machineAt turns i).thread t).own.space? = some s) :
    (s.frames ++ (Belongings.framesOf (x.standingAt turns i t).own.hands.space ++
      (x.standingAt turns i t).own.hands.frame.toList)).Nodup := by
  have distinct : (x.standingAt turns i t).own.frames.Nodup := (x.sound turns i).frames.once t
  simpa [Belongings.frames, Belongings.framesOf, standingAt, Machine.standing, has] using distinct

/-- These frames are handed out. -/
theorem backed_of_space (has : ((x.machineAt turns i).thread t).own.space? = some s) :
    s.Backed (x.machineAt turns i).devices.pool :=
  fun f mem => ((x.sound turns i).frames.live f).2 ⟨t, mem_frames_of_space has mem⟩

/-- A byte changes when the process stores or reads it, and then its page may be written. -/
theorem touches_of_ne (has : ((x.machineAt turns i).thread t).own.space? = some s)
    (changed : s.byte? (x.machineAt turns (i + 1)).devices.pool a ≠
      s.byte? (x.machineAt turns i).devices.pool a) : s.Writable a ∧ x.Touches turns i t a := by
  have distinct := nodup_frames_append has
  have once := distinct.of_append_left
  have backed := backed_of_space has
  obtain ⟨r, next, attempts, stores⟩ : ∃ r next,
      (x.machineAt turns i).Attempts (turns i) t (.device r) next ∧ r.stores = true := by
    by_contra nothing
    refine changed (AddressSpace.byte?_congr (fun f mem => ?_) a)
    refine page?_succ (mem_frames_of_space has mem) fun r next attempts => ?_
    exact Bool.eq_false_iff.2 fun stores => nothing ⟨r, next, attempts, stores⟩
  have does := does_of_attempts attempts
  rw [does.served.2.1] at changed
  change s.byte? (r.serve ((x.machineAt turns i).thread t).own _).2.2.pool a ≠ _ at changed
  cases r with
  | fill | clear =>
    -- A frame in hand is none of the memory.
    simp only [DeviceRequest.serve] at changed
    split at changed
    · next g inHand =>
      refine absurd (AddressSpace.byte?_congr (fun f mem => ?_) a) changed
      refine (FramePool.page?_modify ..).trans (if_neg ?_)
      rintro rfl
      refine List.disjoint_of_nodup_append distinct mem (List.mem_append_right _ ?_)
      have inHand : (x.standingAt turns i t).own.hands.frame = some f := inHand
      rw [inHand]
      exact List.mem_singleton_self f
    · exact absurd rfl changed
  | writeBytes start data =>
    exact absurd does not_writesBytes
  | store start data =>
    simp only [DeviceRequest.serve, has] at changed
    obtain ⟨code, here⟩ := code_of_store does
    obtain ⟨writable, place⟩ := AddressSpace.writable_of_store once backed changed
    exact ⟨writable, does.goes, .inl ⟨start, data, code, here, place⟩⟩
  | copyOut buffer data =>
    simp only [DeviceRequest.serve, has] at changed
    obtain ⟨done, writable, first, last, small⟩ := AddressSpace.inside_of_copyOut once backed changed
    have copies : x.Does turns i t (.device (.copyOut buffer data)) (.ok ()) := by
      refine ⟨does.1, does.2.trans (congrArg some ?_)⟩
      simp only [DeviceRequest.serve, has]
      exact done
    obtain ⟨fd, size, code, serves, onward⟩ := read_of_copyOut copies
    refine ⟨writable, does.goes, .inr ⟨fd, buffer, size, code, data, _, serves, copies, onward, first, ?_⟩⟩
    rwa [toNat_count small]
  | _ => cases stores

theorem byte?_of_not_touches (le : i ≤ j) (has : ((x.machineAt turns i).thread t).own.space? = some s)
    (holds : x.Holds turns i j t) (apart : ∀ n, i ≤ n → n < j → ¬(s.Writable a ∧ x.Touches turns n t a)) :
    s.byte? (x.machineAt turns j).devices.pool a = s.byte? (x.machineAt turns i).devices.pool a := by
  induction le with
  | refl => rfl
  | @step j later ih =>
    have holds' : x.Holds turns i j t := fun n after early => holds n after (Nat.lt_succ_of_lt early)
    rw [← ih holds' fun n after early => apart n after (Nat.lt_succ_of_lt early)]
    by_contra changed
    exact apart j later (Nat.lt_succ_self j) (touches_of_ne (space?_of_holds later has holds') changed)

/-- The memory of a process is its own, and changes when the process itself stores or reads. -/
theorem shields_memory (x : Scenario) (turns : ℕ → Turn) : x.ShieldsMemory turns where
  installs i t s without gets := by
    by_cases inside : t < (x.machineAt turns i).threads.size
    · rcases x.own_succ inside with same | ⟨r, answer, does, permitted, same⟩
      · cases without.symm.trans ((congrArg Belongings.space? same).symm.trans gets)
      · obtain ⟨rfl, inHand⟩ := DeviceRequest.installs_of_space? _ without
          ((congrArg Belongings.space? same).symm.trans gets)
        exact ⟨does, inHand⟩
    · -- A thread that is just being made has nothing.
      by_cases made : t < (x.machineAt turns (i + 1)).threads.size
      · obtain ⟨start, thread, -⟩ := Machine.births (γ := x.dutiesAt turns i) rfl (Nat.not_lt.1 inside) made
        cases (congrArg (·.own.space?) thread).symm.trans gets
      · exact absurd (inside_of_space? gets) made
  mapped i j t s le has holds := space?_of_holds le has holds
  detaches i t answer does := within_of_detachSpace does
  changes i t s a has changed := touches_of_ne has changed
  keeps i j t s a le has holds apart :=
    byte?_of_not_touches le has holds fun n after early both => apart n after early both.2
  readOnly i j t s a le has holds fixed :=
    byte?_of_not_touches le has holds fun _ _ _ both => fixed both.1

end Scenario

end Userland

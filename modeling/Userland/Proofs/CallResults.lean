import Userland.Proofs.DataCalls

/-!
# What results tell

Calls on files answer with a number: the length of a file, its position, or how many bytes were moved. Where
there is no such number, since the descriptor cannot be used for the call, they answer -1. The number is put
into a signed word as it is (`Tells`). So numbers from 2^31 on are told as negative ones, and the greatest
length and the last position are told as if there were none (`Kernel.tell_last_position`). A read or write of
user memory never moves so much, so its failure cannot be mistaken (`Kernel.tells_numbers`).
-/

namespace Userland

open ThreadProgram DeviceRequest

/-! ## Numbers -/

/-- The handle under a descriptor. -/
def Belongings.handle? (b : Belongings) (fd : Int32) : Option Handle := do
  let p ← b.process
  let d ← Descriptor.ofInt? fd
  (p.files.get d).toOption

/-- How many of `n` bytes a write takes. -/
def Volume.taken (v : Volume) (h : Handle) (n : Nat) : Nat :=
  match v.opened? h, v.node? h with
  | some o, some f => if f.denials > 0 then 0 else v.growth.taken o.position n
  | _, _ => 0

namespace Syscall

/-- The number that a call on a file has to tell; none if its descriptor cannot be used for it. -/
def reported? (b : Belongings) (v : Volume) : Syscall → Option Nat
  | filesize fd => (b.handle? fd).map fun h => (v.length h).toNat
  | tell fd => (b.handle? fd).map fun h => (v.tell h).toNat
  | read fd _ size =>
    if fd = 0 then some size.toNat else (b.handle? fd).map fun h => (v.read h size.toNat).1.length
  | write fd _ size =>
    if fd = 1 then some size.toNat else (b.handle? fd).map fun h => v.taken h size.toNat
  | _ => none

/-- The call asks for something that an open file tells of itself. -/
def AsksFile : Syscall → Prop
  | filesize _ | tell _ => True
  | _ => False

/-- The call moves data between user memory and a descriptor. -/
def MovesBytes : Syscall → Prop
  | read .. | write .. => True
  | _ => False

/-- Others leave thread `t` what it has, and the call what it has to tell. -/
def Spared (call : Syscall) (others : Machine → Machine → Prop) (t : Tid) : Prop :=
  let F (b : Belongings) (d : Devices) := (b, call.reported? b d.volume)
  ∀ m m', others m m' → m'.Sees F t = m.Sees F t

end Syscall

/-- A result tells a number, as far as a signed word can. -/
structure Tells (value : Int32) (number : Option Nat) : Prop where
  /-- It is -1 if there is none, and for the greatest word. -/
  failed_iff : value = -1 ↔ number = none ∨ number = some (wordLimit - 1)
  /-- A number that a signed word holds is told as it is. -/
  exact : ∀ n, number = some n → n < signedLimit → value.toInt = n
  /-- The others are told as negative numbers. -/
  wrapped : ∀ n, number = some n → signedLimit ≤ n → value.toInt = (n : Int) - wordLimit

/-- A number that is put into a word is told there. -/
theorem tells_ofNat {number : Option Nat} (lt : ∀ n, number = some n → n < wordLimit) :
    Tells ((number.map Int32.ofNat).getD (-1)) number := by
  cases number with
  | none => exact ⟨by simp, (fun _ none => nomatch none), fun _ none => nomatch none⟩
  | some n =>
    -- The word is compared as an integer: it is `n` but for a multiple of the limit of words.
    have small : n < wordLimit := lt n rfl
    have word : (Int32.ofNat n).toInt = (n : Int).bmod 0x100000000 := Int32.toInt_ofNat' ..
    rw [Int.bmod_def] at word
    simp only [wordLimit] at small
    refine ⟨?_, ?_, ?_⟩
    · have negative : (-1 : Int32).toInt = -1 := rfl
      rw [Option.map_some, Option.getD_some, ← Int32.toInt_inj, word, negative]
      simp only [reduceCtorEq, Option.some.injEq, false_or, wordLimit]
      omega
    · rintro _ ⟨rfl⟩ below
      simp only [signedLimit] at below
      rw [Option.map_some, Option.getD_some, word]
      omega
    · rintro _ ⟨rfl⟩ above
      simp only [signedLimit, wordLimit] at above ⊢
      rw [Option.map_some, Option.getD_some, word]
      omega

section

variable {k : Kernel} {env : Environment} {others : Machine → Machine → Prop} {t : Tid} {m m' : Machine}
  {fd : Int32} {h : Handle} {buffer : VirtAddr} {size : UInt32} {n : Nat} {b : Belongings} {v : Volume}
  {call : Syscall} {outcome : Except UserFault Outcome}

theorem Belongings.handle?_eq_some : b.handle? fd = some h ↔ b.Opens fd h := by
  simp only [handle?, bind, Option.bind_eq_some_iff, Opens, exists_and_left]
  refine exists_congr fun p => and_congr_right fun _ => exists_congr fun d => and_congr_right fun _ => ?_
  cases p.files.get d <;> simp [Except.toOption]

theorem Belongings.handle?_eq_none : b.handle? fd = none ↔ ¬ b.HasOpen fd := by
  rw [hasOpen_iff, Option.eq_none_iff_forall_ne_some, not_exists]
  exact forall_congr' fun h => not_congr handle?_eq_some

theorem Volume.write_fst (v : Volume) (h : Handle) (data : Bytes) : (v.write h data).1 = v.taken h data.length := by
  cases opened : v.opened? h with
  | none => simp only [write, taken, opened]
  | some o =>
    cases found : v.node? h with
    | none => simp only [write, taken, opened, found]
    | some f =>
      simp only [write, taken, opened, found]
      split <;> rfl

theorem GrowthRule.taken_le (growth : GrowthRule) (position : UInt32) (n : Nat) : growth.taken position n ≤ n := by
  cases growth with
  | bounded => exact Nat.min_le_left ..
  | unbounded => exact Nat.le_refl _

theorem Volume.taken_le (v : Volume) (h : Handle) (n : Nat) : v.taken h n ≤ n := by
  rw [taken]
  split
  · split
    · exact Nat.zero_le _
    · exact GrowthRule.taken_le ..
  · exact Nat.zero_le _

namespace Syscall

/-- A call that moves bytes moves no more than it was told to. -/
theorem reported_le
    (told : (read fd buffer size).reported? b v = some n ∨ (write fd buffer size).reported? b v = some n) :
    n ≤ size.toNat := by
  simp only [reported?] at told
  rcases told with told | told <;> split at told
  · exact Nat.le_of_eq (Option.some.inj told).symm
  · obtain ⟨h, -, rfl⟩ := Option.map_eq_some_iff.1 told
    exact v.length_read_le h _
  · exact Nat.le_of_eq (Option.some.inj told).symm
  · obtain ⟨h, -, rfl⟩ := Option.map_eq_some_iff.1 told
    exact v.taken_le h _

theorem reported_lt (told : call.reported? b v = some n) : n < wordLimit := by
  cases call with
  | filesize fd | tell fd =>
    obtain ⟨h, -, rfl⟩ := Option.map_eq_some_iff.1 told
    exact UInt32.toNat_lt _
  | read fd buffer size => exact Nat.lt_of_le_of_lt (reported_le (.inl told)) size.toNat_lt
  | write fd buffer size => exact Nat.lt_of_le_of_lt (reported_le (.inr told)) size.toNat_lt
  | _ => cases told

/-- The word in which a number is put tells it. -/
theorem tells_reported (call : Syscall) (b : Belongings) (v : Volume) :
    Tells (((call.reported? b v).map Int32.ofNat).getD (-1)) (call.reported? b v) :=
  tells_ofNat fun _ told => reported_lt told

end Syscall

/-! ## Calls -/

theorem Syscall.Spared.reported_eq (spared : call.Spared others t) (between : others m m') :
    call.reported? (m'.thread t).own m'.devices.volume = call.reported? (m.thread t).own m.devices.volume :=
  congrArg Prod.snd (spared _ _ between)

/-- What is asked of a file is asked of one for which the call has the same to tell as before. -/
theorem performs_spared {r : DeviceRequest} {x : r.Answer} {m₁ : Machine} (spared : call.Spared others t)
    (between : others m m₁) (inside : Performs env others t (Kernel.withVolume (Routine.ask r)) m₁ x m') :
    ∃ m₂ : Machine, x = (m₂.serve t r).1 ∧ call.reported? (m.thread t).own m.devices.volume =
      call.reported? (m.thread t).own m₂.devices.volume := by
  obtain ⟨m₂, before, rfl, -⟩ := performs_withVolume spared inside
  obtain ⟨own, number⟩ := Prod.ext_iff.1 (before.trans (spared _ _ between))
  dsimp only [Machine.Sees] at own number
  exact ⟨m₂, rfl, by rw [← number, own]⟩

/-- The length and the position of a file are told. -/
theorem performs_asksFile (asks : call.AsksFile) (spared : call.Spared others t)
    (performs : Performs env others t (k.dispatch call) m outcome m') : outcome = .ok (.result
      (((call.reported? (m.thread t).own m.devices.volume).map Int32.ofNat).getD (-1))) := by
  have word (x : UInt32) : x.toInt32 = Int32.ofNat x.toNat := congrArg UInt32.toInt32 UInt32.ofNat_toNat.symm
  cases call with
  | filesize fd | tell fd =>
    obtain ⟨x, m₁, asked, rest⟩ := performs_bind.1 performs
    obtain ⟨rfl, rfl⟩ := performs_pure.1 rest
    cases held : (m.thread t).own.handle? fd with
    | none =>
      obtain ⟨rfl, -⟩ := refused_withFile (Belongings.handle?_eq_none.1 held) asked
      simp only [Syscall.reported?, held, Option.map_none]
    | some h =>
      obtain ⟨y, m₂, rfl, between, inside⟩ := performs_withFile (Belongings.handle?_eq_some.1 held) asked
      obtain ⟨m₃, rfl, number⟩ := performs_spared spared between inside
      rw [number]
      simp only [Syscall.reported?, held, Option.map_some, Option.getD_some, word]
      rfl
  | _ => exact asks.elim

/-- A read from a descriptor gives as many bytes as are to be told. -/
theorem reported_readDescriptor (spared : (Syscall.read fd buffer size).Spared others t) {x : Option Bytes}
    (performs : Performs env others t (Kernel.readDescriptor fd size.toNat) m x m') : x.map List.length =
      (Syscall.read fd buffer size).reported? (m.thread t).own m.devices.volume := by
  by_cases keyboard : fd = 0
  · subst keyboard
    rw [readDescriptor_keyboard] at performs
    obtain ⟨data, m₁, keys, rest⟩ := performs_bind.1 performs
    obtain ⟨rfl, -⟩ := performs_pure.1 rest
    simp [Syscall.reported?, performs_readKeyboard keys]
  cases held : (m.thread t).own.handle? fd with
  | none =>
    obtain ⟨rfl, -⟩ := refused_readDescriptor keyboard (Belongings.handle?_eq_none.1 held) performs
    simp only [Syscall.reported?, if_neg keyboard, held, Option.map_none]
  | some h =>
    have opens := Belongings.handle?_eq_some.1 held
    rw [opens.readDescriptor] at performs
    obtain ⟨y, m₁, rfl, between, inside⟩ := performs_withFile opens performs
    obtain ⟨m₂, rfl, number⟩ := performs_spared spared between inside
    rw [number]
    simp only [Syscall.reported?, if_neg keyboard, held, Option.map_some]
    rfl

/-- A write to a descriptor tells how many bytes it has taken. -/
theorem reported_writeDescriptor (spared : (Syscall.write fd buffer size).Spared others t) {data : Bytes} {x : Int32}
    (length : data.length = size.toNat) (performs : Performs env others t (Kernel.writeDescriptor fd data) m x m') :
    x = (((Syscall.write fd buffer size).reported? (m.thread t).own m.devices.volume).map Int32.ofNat).getD (-1) := by
  by_cases display : fd = 1
  · subst display
    rw [writeDescriptor_display] at performs
    obtain ⟨m₁, -, rest⟩ := performs_ask.1 performs
    obtain ⟨rfl, -⟩ := performs_pure.1 rest
    simp only [Syscall.reported?, if_true, length, Option.map_some, Option.getD_some]
  cases held : (m.thread t).own.handle? fd with
  | none =>
    obtain ⟨rfl, -⟩ := refused_writeDescriptor display (Belongings.handle?_eq_none.1 held) performs
    simp only [Syscall.reported?, if_neg display, held, Option.map_none, Option.getD_none]
  | some h =>
    have opens := Belongings.handle?_eq_some.1 held
    rw [opens.writeDescriptor] at performs
    obtain ⟨y, m₁, asked, rest⟩ := performs_bind.1 performs
    obtain ⟨count, m₂, rfl, between, inside⟩ := performs_withFile opens asked
    obtain ⟨m₃, rfl, number⟩ := performs_spared spared between inside
    obtain ⟨rfl, -⟩ := performs_pure.1 rest
    rw [number]
    simp only [Syscall.reported?, if_neg display, held, Option.map_some, Option.getD_some, ← length,
      ← Volume.write_fst]
    rfl

/-- Bytes of user memory that are copied in are as many as were asked for, and no more than there are user
    addresses. -/
theorem length_copyIn {data : Bytes} (backed : ∀ s, (m.thread t).own.space? = some s → s.Backed m.devices.pool)
    (copied : (m.serve t (copyIn buffer n)).1 = .ok data) : data.length = n ∧ n ≤ userTop := by
  change (onMemory buffer (m.thread t).own m.devices fun s pool => s.copyIn pool buffer n).1 = .ok data at copied
  cases space : (m.thread t).own.space? with
  | none =>
    simp only [onMemory, space] at copied
    cases copied
  | some s =>
    simp only [onMemory, space] at copied
    cases checked : s.checkRange buffer n .read with
    | error fault =>
      rw [AddressSpace.copyIn, checked] at copied
      cases copied
    | ok =>
      rw [AddressSpace.copyIn_eq (backed s space) checked] at copied
      cases copied
      exact ⟨by simp, AddressSpace.le_of_checkRange checked⟩

/-- A read or write of user memory that kills nobody tells how many bytes it has moved, which are no more than
    there are user addresses. -/
theorem performs_movesBytes (moves : call.MovesBytes) (spared : call.Spared others t)
    (backed : ∀ s, (m.thread t).own.space? = some s → s.Backed m.devices.pool)
    (performs : Performs env others t (k.dispatch call) m outcome m') :
    (∃ fault, outcome = .error fault) ∨
      outcome = .ok (.result
        (((call.reported? (m.thread t).own m.devices.volume).map Int32.ofNat).getD (-1))) ∧
      ∀ n, call.reported? (m.thread t).own m.devices.volume = some n → n ≤ userTop := by
  cases call with
  | read fd buffer size =>
    obtain ⟨m₁, between, rest⟩ := performs_ask.1 performs
    rw [serve_checkRange] at between
    cases checked : (m.serve t (checkRange buffer size.toNat .write)).1 with
    | error fault =>
      rw [checked] at rest
      exact .inl ⟨fault, (performs_pure.1 rest).1⟩
    | ok =>
      rw [checked] at rest
      obtain ⟨x, m₂, reads, rest⟩ := performs_bind.1 rest
      have told := (reported_readDescriptor spared reads).trans (spared.reported_eq between)
      -- The whole buffer was checked, so no more was asked for than there are user addresses.
      obtain ⟨s, -, fits⟩ := mayFill_iff.2 checked
      have most (n : Nat)
          (known : (Syscall.read fd buffer size).reported? (m.thread t).own m.devices.volume = some n) :
          n ≤ userTop := Nat.le_trans (Syscall.reported_le (.inl known)) (AddressSpace.le_of_checkRange fits)
      cases x with
      | none =>
        rw [← told]
        exact .inr ⟨(performs_pure.1 rest).1, fun _ none => nomatch none⟩
      | some data =>
        obtain ⟨m₃, -, rest⟩ := performs_ask.1 rest
        split at rest
        · exact .inl ⟨_, (performs_pure.1 rest).1⟩
        · refine .inr ⟨?_, most⟩
          rw [← told]
          exact (performs_pure.1 rest).1
  | write fd buffer size =>
    obtain ⟨m₁, between, rest⟩ := performs_ask.1 performs
    rw [serve_copyIn] at between
    cases copied : (m.serve t (copyIn buffer size.toNat)).1 with
    | error fault =>
      rw [copied] at rest
      exact .inl ⟨fault, (performs_pure.1 rest).1⟩
    | ok data =>
      rw [copied] at rest
      obtain ⟨length, most⟩ := length_copyIn backed copied
      obtain ⟨x, m₂, writes, rest⟩ := performs_bind.1 rest
      obtain ⟨rfl, rfl⟩ := performs_pure.1 rest
      refine .inr ⟨?_, fun n told => Nat.le_trans (Syscall.reported_le (.inr told)) most⟩
      rw [reported_writeDescriptor spared length writes, spared.reported_eq between]
  | _ => exact moves.elim

/-- Calls that ask a file are answered. -/
theorem answers_asksFile (asks : call.AsksFile) : Answers env t (k.dispatch call) := by
  cases call with
  | filesize fd | tell fd => exact (answers_withFile fd _).bind fun _ => answers_pure _
  | _ => exact asks.elim

theorem answers_movesBytes (moves : call.MovesBytes) : Answers env t (k.dispatch call) := by
  cases call with
  | read => exact answers_read
  | write => exact answers_write
  | _ => exact moves.elim

end

/-- What the results of calls on files tell thread `t`. -/
structure Kernel.TellsNumbers (k : Kernel) (env : Environment) (others : Machine → Machine → Prop) (t : Tid) :
    Prop where
  /-- The length and the position of a file are told, as far as a word can. -/
  asked : ∀ {call : Syscall} {m outcome m'}, call.AsksFile → call.Spared others t →
    Performs env others t (k.dispatch call) m outcome m' →
    ∃ value, outcome = .ok (.result value) ∧ Tells value (call.reported? (m.thread t).own m.devices.volume)
  /-- A read or write, unless the process is to be killed, tells how many bytes it has moved, as far as a word
      can. It tells -1 only if its descriptor cannot be used for it. -/
  moved : ∀ {call : Syscall} {m outcome m'}, call.MovesBytes → call.Spared others t →
    (∀ s, (m.thread t).own.space? = some s → s.Backed m.devices.pool) →
    Performs env others t (k.dispatch call) m outcome m' →
    (∃ fault, outcome = .error fault) ∨ ∃ value, outcome = .ok (.result value) ∧
      Tells value (call.reported? (m.thread t).own m.devices.volume) ∧
      (value = -1 ↔ call.reported? (m.thread t).own m.devices.volume = none)
  /-- There is no number just for descriptors that cannot be used. -/
  usable : ∀ {b v}, (∀ fd, ((Syscall.filesize fd).reported? b v = none ↔ ¬ b.HasOpen fd) ∧
      ((Syscall.tell fd).reported? b v = none ↔ ¬ b.HasOpen fd)) ∧
    ∀ fd buffer size, ((Syscall.read fd buffer size).reported? b v = none ↔ fd ≠ 0 ∧ ¬ b.HasOpen fd) ∧
      ((Syscall.write fd buffer size).reported? b v = none ↔ fd ≠ 1 ∧ ¬ b.HasOpen fd)
  /-- With the lock on the volume free, and nobody else doing anything, there is a result. -/
  answers : ∀ {call : Syscall}, call.AsksFile ∨ call.MovesBytes → Answers env t (k.dispatch call)

/-- The results of calls on files tell numbers as far as signed words can, whatever other threads do that
    does not change what there is to tell. -/
theorem Kernel.tells_numbers (k : Kernel) (env : Environment) (others : Machine → Machine → Prop) (t : Tid) :
    k.TellsNumbers env others t where
  asked asks spared performs := ⟨_, performs_asksFile asks spared performs, Syscall.tells_reported ..⟩
  moved {call m outcome m'} moves spared backed performs := by
    refine (performs_movesBytes moves spared backed performs).imp_right ?_
    rintro ⟨rfl, most⟩
    have tells := call.tells_reported (m.thread t).own m.devices.volume
    refine ⟨_, rfl, tells, tells.failed_iff.trans (or_iff_left fun greatest => ?_)⟩
    -- The one number that is told as -1 is more than user memory has bytes.
    exact absurd (most _ greatest) (by decide)
  usable {b v} := by
    refine ⟨fun fd => ?_, fun fd buffer size => ?_⟩
    · simp only [Syscall.reported?, Option.map_eq_none_iff, Belongings.handle?_eq_none, and_self]
    · simp only [Syscall.reported?]
      constructor <;> split <;> simp_all [Belongings.handle?_eq_none]
  answers asks := asks.elim answers_asksFile answers_movesBytes

/-- A thread that has a file open, with the position moved to the last there is, is told that it has none. -/
theorem Kernel.tell_last_position :
    let k : Kernel := ⟨{}, .stopsMachine⟩
    let env : Environment := ⟨fun _ => pure (), fun _ => true, [], fun _ => pure ()⟩
    let m := (Machine.reader.serve 0 (seek ⟨0⟩ 0xffffffff)).2
    (m.thread 0).own.HasOpen 2 ∧ m.devices.volume.tell ⟨0⟩ = 0xffffffff ∧
      ∃ m', Performs env (· = ·) 0 (k.dispatch (.tell 2)) m (.ok (.result (-1))) m' := by
  intro k env m
  have opens : (m.thread 0).own.Opens 2 ⟨0⟩ := ⟨_, ⟨2⟩, rfl, rfl, rfl⟩
  have asks : (Syscall.tell 2).AsksFile := trivial
  have answers : Answers env 0 (k.dispatch (.tell 2)) := answers_asksFile asks
  obtain ⟨outcome, m', performs, -⟩ := answers m rfl
  have told := performs_asksFile asks (fun m m' same => by rw [same]) performs
  exact ⟨Belongings.hasOpen_iff.2 ⟨_, opens⟩, rfl, m', told ▸ performs⟩

end Userland

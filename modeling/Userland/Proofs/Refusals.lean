import Userland.Kernel.Dispatch
import Userland.Proofs.Performing
import Userland.Proofs.Ranges

/-!
# Refused calls

A system call that costs the program its life has done nothing, and neither has one that fails because
of a descriptor or a path (`Kernel.refused_untouched`). All that such a call does is ask: it looks at user
memory, at the table of open files, and at the process for the remark that it leaves in the log.

Reading is the call where this takes an argument. It checks the buffer, takes bytes from the keyboard or
from a file, and only then copies them. By then it is certain that the bytes find their place, since they
are no more than was checked for.
-/

namespace Userland

open ThreadProgram DeviceRequest

/-! ## What is refused -/

/-- The bytes of some text. -/
def Bytes.IsText (bs : Bytes) : Prop := ∃ s : String, Bytes.ofString s = bs

/-- The process has an open file under a descriptor: a number that is not negative, does not belong to
    the console, is in range, and is in use. -/
def Process.HasOpen (p : Process) (fd : Int32) : Prop :=
  2 ≤ fd.toInt ∧ fd.toInt < p.files.capacity ∧ (p.files.find? fd.toInt.toNat).isSome = true

namespace Belongings

/-- The thread's process has an open file under a descriptor. -/
def HasOpen (b : Belongings) (fd : Int32) : Prop := ∃ p, b.process = some p ∧ p.HasOpen fd

/-- At an address of user memory there is a string, but its bytes are no text. -/
def HoldsNoText (b : Belongings) (pool : FramePool) (start : VirtAddr) (limit : Nat) : Prop :=
  ∃ s bytes, b.space? = some s ∧ s.copyString pool start limit = .ok bytes ∧ ¬ bytes.IsText

/-- A buffer of user memory may be written. -/
def MayFill (b : Belongings) (start : VirtAddr) (n : Nat) : Prop :=
  ∃ s, b.space? = some s ∧ s.checkRange start n .write = .ok ()

end Belongings

namespace Syscall

/-- The call names a file that is not open, uses the console in the wrong direction, or passes a string
    that is no text. -/
def Refused (limit : Nat) (b : Belongings) (pool : FramePool) : Syscall → Prop
  | filesize fd | seek fd _ | tell fd | close fd => ¬ b.HasOpen fd
  | read fd _ _ => fd ≠ 0 ∧ ¬ b.HasOpen fd
  | write fd _ _ => fd ≠ 1 ∧ ¬ b.HasOpen fd
  | exec start | create start _ | remove start | openFile start => b.HoldsNoText pool start limit
  | halt | exit _ | wait _ | practice _ => False

/-- What a call that fails answers. -/
def failure : Syscall → Outcome
  | create .. | remove _ => .ofBool false
  | seek .. | close _ => .void
  | _ => .result (-1)

end Syscall

theorem Utf8.decode?_eq_none {bs : Bytes} : Utf8.decode? bs = none ↔ ¬ bs.IsText := by
  rw [Utf8.decode?, String.fromUTF8?]
  have valid : ByteArray.IsValidUTF8 ⟨bs.toArray⟩ ↔ bs.IsText := by
    constructor
    · intro valid
      exact ⟨String.fromUTF8 _ valid, rfl⟩
    · rintro ⟨s, rfl⟩
      exact s.isValidUTF8
  split
  · rename_i text
    simp [valid.1 text]
  · rename_i broken
    simpa using fun text => broken (valid.2 text)

/-! ## Descriptors -/

theorem Descriptor.ofInt?_eq_some {fd : Int32} {d : Descriptor} :
    Descriptor.ofInt? fd = some d ↔ fd.toInt = d.number := by
  obtain ⟨n⟩ := d
  change _ ↔ fd.toInt = (n : Int)
  rw [Descriptor.ofInt?]
  split <;> rename_i less <;> rw [Int32.lt_iff_toInt_lt, Int32.toInt_zero] at less
  · simp only [reduceCtorEq, false_iff]
    omega
  · have number : fd.toNatClampNeg = fd.toInt.toNat := rfl
    rw [Option.some.injEq, Descriptor.mk.injEq, number]
    omega

theorem Descriptor.ne_input {fd : Int32} {d : Descriptor} (named : Descriptor.ofInt? fd = some d)
    (other : fd ≠ 0) : d ≠ .input := by
  rintro rfl
  exact other (Int32.toInt_inj.1 (ofInt?_eq_some.1 named))

theorem Descriptor.ne_output {fd : Int32} {d : Descriptor} (named : Descriptor.ofInt? fd = some d)
    (other : fd ≠ 1) : d ≠ .output := by
  rintro rfl
  exact other (Int32.toInt_inj.1 (ofInt?_eq_some.1 named))

/-- A descriptor that names no open file names none in the table. -/
theorem Process.get_eq_error {p : Process} {fd : Int32} {d : Descriptor}
    (named : Descriptor.ofInt? fd = some d) (closed : ¬ p.HasOpen fd) : ∃ e, p.files.get d = .error e := by
  rw [Descriptor.ofInt?_eq_some] at named
  rw [DescriptorTable.get]
  split
  · exact ⟨_, rfl⟩
  · rename_i file
    rw [Descriptor.firstFile] at file
    cases found : p.files.find? d.number with
    | none => exact ⟨_, rfl⟩
    | some h =>
      refine absurd ⟨by omega, by omega, ?_⟩ closed
      rw [named, Int.toNat_natCast, found]
      rfl

/-! ## Questions -/

section

variable {env : Environment} {others : Machine → Machine → Prop} {t : Tid} {m m' m₁ : Machine}
  {k : Kernel} {fd : Int32} {start buffer : VirtAddr} {size : UInt32} {n : Nat} {fault : UserFault}
  {outcome : Except UserFault Outcome} {α : Type}

namespace Machine

theorem serve_eq {r : DeviceRequest} {answer : r.Answer}
    (served : r.serve (m.thread t).own m.devices = (answer, (m.thread t).own, m.devices)) :
    m.serve t r = (answer, m) := by
  rw [serve, served]
  simp only [m.setThread_thread t]

theorem serve_findFile {d : Descriptor} (named : Descriptor.ofInt? fd = some d)
    (closed : ¬ (m.thread t).own.HasOpen fd) : ∃ e, m.serve t (findFile d) = (.error e, m) := by
  cases hosts : (m.thread t).own.process with
  | none => exact ⟨.notOpen, serve_eq (by simp only [DeviceRequest.serve, hosts])⟩
  | some p =>
    obtain ⟨e, refused⟩ := Process.get_eq_error named fun opened => closed ⟨p, hosts, opened⟩
    exact ⟨e, serve_eq (by simp only [DeviceRequest.serve, hosts, refused])⟩

theorem serve_takeFile {d : Descriptor} (named : Descriptor.ofInt? fd = some d)
    (closed : ¬ (m.thread t).own.HasOpen fd) : ∃ e, m.serve t (takeFile d) = (.error e, m) := by
  cases hosts : (m.thread t).own.process with
  | none => exact ⟨.notOpen, serve_eq (by simp only [DeviceRequest.serve, serveTakeFile, hosts])⟩
  | some p =>
    obtain ⟨e, refused⟩ := Process.get_eq_error named fun opened => closed ⟨p, hosts, opened⟩
    refine ⟨e, serve_eq ?_⟩
    simp only [DeviceRequest.serve, serveTakeFile, hosts, DescriptorTable.remove, refused, Except.map]

/-- What is asked of user memory leaves the machine. -/
theorem serve_onMemory {r : DeviceRequest} {α : Type} {f : AddressSpace → FramePool → Except UserFault α}
    (asks : (r.serve (m.thread t).own m.devices).2 = (onMemory start (m.thread t).own m.devices f).2) :
    (m.serve t r).2 = m := by
  refine serve_eq_self (asks.trans ?_)
  rw [onMemory]
  split <;> rfl

theorem serve_log (level : LogLevel) (text : String) : SameButLog m (m.serve t (log level text)).2 := by
  refine ⟨(level, text) :: m.devices.log, ?_⟩
  change ({ m.setThread t (m.thread t) with devices := m.devices.remark level text } : Machine) = _
  rw [m.setThread_thread t]
  rfl

end Machine

theorem refused_withFile {body : Handle → Routine α} {x : Option α}
    (closed : ¬ (m.thread t).own.HasOpen fd)
    (performs : Performs env others t (Kernel.withFile fd body) m x m') :
    x = none ∧ Machine.Untouched others m m' := by
  rw [Kernel.withFile] at performs
  cases named : Descriptor.ofInt? fd with
  | none =>
    rw [named] at performs
    obtain ⟨rfl, rfl⟩ := performs_pure.1 performs
    exact ⟨rfl, .refl⟩
  | some d =>
    rw [named] at performs
    obtain ⟨m₁, between, rest⟩ := performs_ask.1 performs
    obtain ⟨e, refused⟩ := Machine.serve_findFile named closed
    rw [refused] at between rest
    obtain ⟨rfl, rfl⟩ := performs_pure.1 rest
    exact ⟨rfl, .single (.inl between)⟩

theorem refused_closeDescriptor {x : Unit} (closed : ¬ (m.thread t).own.HasOpen fd)
    (performs : Performs env others t (Kernel.closeDescriptor fd) m x m') :
    Machine.Untouched others m m' := by
  rw [Kernel.closeDescriptor] at performs
  cases named : Descriptor.ofInt? fd with
  | none =>
    rw [named] at performs
    obtain ⟨-, rfl⟩ := performs_pure.1 performs
    exact .refl
  | some d =>
    rw [named] at performs
    obtain ⟨m₁, between, rest⟩ := performs_ask.1 performs
    obtain ⟨e, refused⟩ := Machine.serve_takeFile named closed
    rw [refused] at between rest
    obtain ⟨-, rfl⟩ := performs_pure.1 rest
    exact .single (.inl between)

/-! ## Strings -/

theorem performs_userString {x : Except UserFault (Option String)} :
    Performs env others t (k.userString start) m x m' ↔ others m m' ∧
      x = (m.serve t (copyString start k.settings.maxUserString)).1.map Utf8.decode? := by
  have same : (m.serve t (copyString start k.settings.maxUserString)).2 = m := Machine.serve_onMemory rfl
  rw [Kernel.userString]
  refine performs_ask.trans ?_
  rw [same]
  generalize (m.serve t (copyString start k.settings.maxUserString)).1 = copied
  cases copied with
  | error fault =>
    constructor
    · rintro ⟨m₁, between, rest⟩
      obtain ⟨rfl, rfl⟩ := performs_pure.1 rest
      exact ⟨between, rfl⟩
    · rintro ⟨between, rfl⟩
      exact ⟨m', between, performs_pure.2 ⟨rfl, rfl⟩⟩
  | ok bytes =>
    constructor
    · rintro ⟨m₁, between, rest⟩
      obtain ⟨rfl, rfl⟩ := performs_pure.1 rest
      exact ⟨between, rfl⟩
    · rintro ⟨between, rfl⟩
      exact ⟨m', between, performs_pure.2 ⟨rfl, rfl⟩⟩

/-- A string that is no text gives nothing. -/
theorem map_decode? {limit : Nat} (holds : (m.thread t).own.HoldsNoText m.devices.pool start limit) :
    (m.serve t (copyString start limit)).1.map Utf8.decode? = .ok none := by
  obtain ⟨s, bytes, space, copied, noText⟩ := holds
  have served : m.serve t (copyString start limit) = (.ok bytes, m) := by
    refine Machine.serve_eq ?_
    simp only [DeviceRequest.serve, onMemory, space, copied]
  rw [served]
  exact congrArg Except.ok (Utf8.decode?_eq_none.2 noText)

theorem fault_withPath {failure : Outcome} {body : String → ThreadProgram Outcome}
    (performs : Performs env others t (k.withPath start failure body) m (.error fault) m') :
    Machine.Untouched others m m' := by
  obtain ⟨x, m₁, first, rest⟩ := performs_bind.1 performs
  obtain ⟨between, -⟩ := performs_userString.1 first
  rcases x with _ | _ | path
  · obtain ⟨-, rfl⟩ := performs_pure.1 rest
    exact .single (.inl between)
  · -- The other ways end with an outcome.
    obtain ⟨m₂, -, rest⟩ := performs_ask.1 rest
    obtain ⟨m₃, -, rest⟩ := performs_ask.1 rest
    exact nomatch (performs_pure.1 rest).1
  · obtain ⟨o, m₂, -, rest⟩ := performs_bind.1 rest
    exact nomatch (performs_pure.1 rest).1

theorem refused_withPath {failure : Outcome} {body : String → ThreadProgram Outcome}
    (holds : (m.thread t).own.HoldsNoText m.devices.pool start k.settings.maxUserString)
    (performs : Performs env others t (k.withPath start failure body) m outcome m') :
    outcome = .ok failure ∧ Machine.Untouched others m m' := by
  obtain ⟨x, m₁, first, rest⟩ := performs_bind.1 performs
  obtain ⟨between, rfl⟩ := performs_userString.1 first
  rw [map_decode? holds] at rest
  obtain ⟨m₂, between₂, rest⟩ := performs_ask.1 rest
  rw [Machine.serve_eq_self (r := process) rfl] at between₂
  obtain ⟨m₃, between₃, rest⟩ := performs_ask.1 rest
  obtain ⟨rfl, rfl⟩ := performs_pure.1 rest
  have asked : Machine.Untouched others m m₂ := .tail (.single (.inl between)) (.inl between₂)
  exact ⟨rfl, .tail (.tail asked (.inr (Machine.serve_log ..))) (.inl between₃)⟩

theorem fault_exec (performs : Performs env others t (k.exec start) m (.error fault) m') :
    Machine.Untouched others m m' := by
  obtain ⟨x, m₁, first, rest⟩ := performs_bind.1 performs
  obtain ⟨between, -⟩ := performs_userString.1 first
  rcases x with _ | _ | line
  · obtain ⟨-, rfl⟩ := performs_pure.1 rest
    exact .single (.inl between)
  · exact nomatch (performs_pure.1 rest).1
  · obtain ⟨e | child, m₂, -, rest⟩ := performs_bind.1 rest
    · obtain ⟨m₃, -, rest⟩ := performs_ask.1 rest
      exact nomatch (performs_pure.1 rest).1
    · exact nomatch (performs_pure.1 rest).1

theorem refused_exec
    (holds : (m.thread t).own.HoldsNoText m.devices.pool start k.settings.maxUserString)
    (performs : Performs env others t (k.exec start) m outcome m') :
    outcome = .ok (.result (-1)) ∧ Machine.Untouched others m m' := by
  obtain ⟨x, m₁, first, rest⟩ := performs_bind.1 performs
  obtain ⟨between, rfl⟩ := performs_userString.1 first
  rw [map_decode? holds] at rest
  obtain ⟨rfl, rfl⟩ := performs_pure.1 rest
  exact ⟨rfl, .single (.inl between)⟩

/-! ## Buffers -/

theorem serve_checkRange (m : Machine) (t : Tid) (start : VirtAddr) (n : Nat) (access : Access) :
    (m.serve t (checkRange start n access)).2 = m :=
  Machine.serve_onMemory rfl

/-- The buffer may be filled if the check says so. -/
theorem mayFill_iff : (m.thread t).own.MayFill buffer n ↔
    (m.serve t (checkRange buffer n .write)).1 = .ok () := by
  change _ ↔ (onMemory buffer (m.thread t).own m.devices fun s _ => s.checkRange buffer n .write).1 = _
  rw [onMemory, Belongings.MayFill]
  cases (m.thread t).own.space? with
  | none => simp
  | some s => simp

/-- What fits a buffer that may be filled is copied. -/
theorem serve_copyOut {data : Bytes} (fills : (m.thread t).own.MayFill buffer n)
    (short : data.length ≤ n) : (m.serve t (copyOut buffer data)).1 = .ok () := by
  obtain ⟨s, space, checked⟩ := fills
  have copied := AddressSpace.copyOut_of_checkRange m.devices.pool checked short
  change (DeviceRequest.serve (copyOut buffer data) (m.thread t).own m.devices).1 = _
  simp only [DeviceRequest.serve, space, copied]

theorem performs_readKeyboard {done data : Bytes}
    (performs : Performs env others t (Kernel.readKeyboard done n) m data m') :
    data.length = done.length + n := by
  induction n generalizing done m with
  | zero =>
    obtain ⟨rfl, -⟩ := performs_pure.1 performs
    simp
  | succ n ih =>
    obtain ⟨m₁, -, rest⟩ := performs_ask.1 performs
    rw [ih rest, List.length_cons]
    omega

theorem FileNode.available_le (f : FileNode) (position : UInt32) (n : Nat) :
    f.available position n ≤ n := by
  rw [available]
  split
  · exact Nat.le_refl n
  · exact Nat.min_le_left ..

/-- A file gives no more bytes than are asked for. -/
theorem Volume.length_read_le (v : Volume) (h : Handle) (n : Nat) : (v.read h n).1.length ≤ n := by
  rw [Volume.read]
  split
  · rw [Contents.length_read]
    exact FileNode.available_le ..
  · exact Nat.zero_le n

theorem length_serve_read (m : Machine) (t : Tid) (h : Handle) (n : Nat) :
    (m.serve t (read h n)).1.length ≤ n := m.devices.volume.length_read_le h n

theorem length_withFile {data : Bytes}
    (performs : Performs env others t (Kernel.withFile fd fun h => Routine.ask (read h n)) m
      (some data) m') : data.length ≤ n := by
  rw [Kernel.withFile] at performs
  cases named : Descriptor.ofInt? fd with
  | none =>
    rw [named] at performs
    exact nomatch (performs_pure.1 performs).1
  | some d =>
    rw [named] at performs
    obtain ⟨m₁, -, rest⟩ := performs_ask.1 performs
    split at rest
    · exact nomatch (performs_pure.1 rest).1
    · rename_i h _
      obtain ⟨x, m₂, inside, rest⟩ := performs_bind.1 rest
      obtain ⟨same, rfl⟩ := performs_pure.1 rest
      obtain rfl := Option.some.inj same
      -- Under the lock, the request to the file is all there is.
      obtain ⟨-, m₃, -, rest⟩ := performs_bind.1 inside
      obtain ⟨got, m₄, reads, rest⟩ := performs_bind.1 rest
      obtain ⟨-, m₅, -, rest⟩ := performs_bind.1 rest
      obtain ⟨rfl, rfl⟩ := performs_pure.1 rest
      obtain ⟨m₆, -, rest⟩ := performs_ask.1 reads
      obtain ⟨rfl, rfl⟩ := performs_pure.1 rest
      exact length_serve_read ..

theorem length_readDescriptor {data : Bytes}
    (performs : Performs env others t (Kernel.readDescriptor fd n) m (some data) m') :
    data.length ≤ n := by
  rw [Kernel.readDescriptor] at performs
  split at performs
  · exact nomatch (performs_pure.1 performs).1
  split at performs
  · obtain ⟨x, m₁, reads, rest⟩ := performs_bind.1 performs
    obtain ⟨same, rfl⟩ := performs_pure.1 rest
    obtain rfl := Option.some.inj same
    have length := performs_readKeyboard reads
    simp at length
    omega
  split at performs
  · exact nomatch (performs_pure.1 performs).1
  · exact length_withFile performs

/-- Reading from a descriptor leaves the thread what it has. -/
theorem only_readDescriptor : (Kernel.readDescriptor fd n).Only (Action.Spares env t) fun _ => True := by
  have asks {r : DeviceRequest} (quiet : r.isQuiet = true) :
      (ThreadProgram.ask r).Only (Action.Spares env t) fun _ => True :=
    only_ask (Action.spares_quiet quiet) fun _ => trivial
  have keys (done : Bytes) (n : Nat) :
      (Kernel.readKeyboard done n).Only (Action.Spares env t) fun _ => True := by
    induction n generalizing done with
    | zero => trivial
    | succ n ih => exact (asks rfl).bind fun _ _ => ih _
  rw [Kernel.readDescriptor]
  split
  · trivial
  split
  · exact (keys [] n).bind fun _ _ => trivial
  split
  · trivial
  rw [Kernel.withFile]
  split
  · trivial
  refine (asks rfl).bind fun found _ => ?_
  cases found with
  | error e => trivial
  | ok h =>
    refine Program.Only.bind (R := fun _ => True) (only_withLock (Action.spares_lock _)
      (Action.spares_release _) Action.spares_unblock ?_) fun _ _ => trivial
    exact ⟨Action.spares_quiet rfl, fun _ => trivial⟩

theorem refused_readDescriptor {x : Option Bytes} (other : fd ≠ 0)
    (closed : ¬ (m.thread t).own.HasOpen fd)
    (performs : Performs env others t (Kernel.readDescriptor fd n) m x m') :
    x = none ∧ Machine.Untouched others m m' := by
  rw [Kernel.readDescriptor] at performs
  cases named : Descriptor.ofInt? fd with
  | none =>
    rw [named] at performs
    obtain ⟨rfl, rfl⟩ := performs_pure.1 performs
    exact ⟨rfl, .refl⟩
  | some d =>
    rw [named] at performs
    simp only [if_neg (Descriptor.ne_input named other)] at performs
    split at performs
    · obtain ⟨rfl, rfl⟩ := performs_pure.1 performs
      exact ⟨rfl, .refl⟩
    · exact refused_withFile closed performs

/-- A process that passes a buffer that may not be filled is to be killed, and nothing was done. -/
theorem fault_readInto (bad : ¬ (m.thread t).own.MayFill buffer size.toNat)
    (performs : Performs env others t (Kernel.readInto fd buffer size) m outcome m') :
    (∃ fault, outcome = .error fault) ∧ Machine.Untouched others m m' := by
  obtain ⟨m₁, between, rest⟩ := performs_ask.1 performs
  rw [serve_checkRange] at between
  rw [mayFill_iff] at bad
  cases checked : (m.serve t (checkRange buffer size.toNat .write)).1 with
  | ok => exact absurd checked bad
  | error fault =>
    rw [checked] at rest
    obtain ⟨rfl, rfl⟩ := performs_pure.1 rest
    exact ⟨⟨fault, rfl⟩, .single (.inl between)⟩

/-- Once the buffer is checked, reading does not fail any more for the sake of the buffer. -/
theorem answer_readInto (keeps : ∀ m m', others m m' → (m'.thread t).own = (m.thread t).own)
    (fills : (m.thread t).own.MayFill buffer size.toNat)
    (performs : Performs env others t (Kernel.readInto fd buffer size) m outcome m') :
    ∃ value, outcome = .ok (.result value) := by
  obtain ⟨m₁, between, rest⟩ := performs_ask.1 performs
  rw [serve_checkRange] at between
  rw [mayFill_iff.1 fills] at rest
  obtain ⟨x, m₂, reads, rest⟩ := performs_bind.1 rest
  cases x with
  | none => exact ⟨-1, (performs_pure.1 rest).1⟩
  | some data =>
    have own : (m₂.thread t).own = (m.thread t).own :=
      (reads.own_eq keeps only_readDescriptor).trans (keeps _ _ between)
    obtain ⟨m₃, -, rest⟩ := performs_ask.1 rest
    rw [serve_copyOut (own ▸ fills) (length_readDescriptor reads)] at rest
    exact ⟨_, (performs_pure.1 rest).1⟩

theorem refused_readInto (keeps : ∀ m m', others m m' → (m'.thread t).own = (m.thread t).own)
    (other : fd ≠ 0) (closed : ¬ (m.thread t).own.HasOpen fd)
    (performs : Performs env others t (Kernel.readInto fd buffer size) m outcome m') :
    (outcome = .ok (.result (-1)) ∨ ∃ fault, outcome = .error fault) ∧
      Machine.Untouched others m m' := by
  by_cases fills : (m.thread t).own.MayFill buffer size.toNat
  swap
  · obtain ⟨fault, untouched⟩ := fault_readInto fills performs
    exact ⟨.inr fault, untouched⟩
  obtain ⟨m₁, between, rest⟩ := performs_ask.1 performs
  rw [serve_checkRange] at between
  rw [mayFill_iff.1 fills] at rest
  obtain ⟨x, m₂, reads, rest⟩ := performs_bind.1 rest
  obtain ⟨rfl, untouched⟩ := refused_readDescriptor other (keeps _ _ between ▸ closed) reads
  obtain ⟨rfl, rfl⟩ := performs_pure.1 rest
  exact ⟨.inl rfl, .head (.inl between) untouched⟩

theorem serve_copyIn (m : Machine) (t : Tid) (start : VirtAddr) (n : Nat) :
    (m.serve t (copyIn start n)).2 = m :=
  Machine.serve_onMemory rfl

theorem fault_writeFrom
    (performs : Performs env others t (Kernel.writeFrom fd buffer size) m (.error fault) m') :
    Machine.Untouched others m m' := by
  obtain ⟨m₁, between, rest⟩ := performs_ask.1 performs
  rw [serve_copyIn] at between
  split at rest
  · obtain ⟨-, rfl⟩ := performs_pure.1 rest
    exact .single (.inl between)
  · obtain ⟨_, _, -, rest⟩ := performs_bind.1 rest
    exact nomatch (performs_pure.1 rest).1

theorem refused_writeDescriptor {x : Int32} {data : Bytes} (other : fd ≠ 1)
    (closed : ¬ (m.thread t).own.HasOpen fd)
    (performs : Performs env others t (Kernel.writeDescriptor fd data) m x m') :
    x = -1 ∧ Machine.Untouched others m m' := by
  rw [Kernel.writeDescriptor] at performs
  cases named : Descriptor.ofInt? fd with
  | none =>
    rw [named] at performs
    obtain ⟨rfl, rfl⟩ := performs_pure.1 performs
    exact ⟨rfl, .refl⟩
  | some d =>
    rw [named] at performs
    simp only [if_neg (Descriptor.ne_output named other)] at performs
    split at performs
    · obtain ⟨rfl, rfl⟩ := performs_pure.1 performs
      exact ⟨rfl, .refl⟩
    · obtain ⟨y, m₁, first, rest⟩ := performs_bind.1 performs
      obtain ⟨rfl, untouched⟩ := refused_withFile closed first
      obtain ⟨rfl, rfl⟩ := performs_pure.1 rest
      exact ⟨rfl, untouched⟩

theorem refused_writeFrom (keeps : ∀ m m', others m m' → (m'.thread t).own = (m.thread t).own)
    (other : fd ≠ 1) (closed : ¬ (m.thread t).own.HasOpen fd)
    (performs : Performs env others t (Kernel.writeFrom fd buffer size) m outcome m') :
    (outcome = .ok (.result (-1)) ∨ ∃ fault, outcome = .error fault) ∧
      Machine.Untouched others m m' := by
  obtain ⟨m₁, between, rest⟩ := performs_ask.1 performs
  rw [serve_copyIn] at between
  split at rest
  · obtain ⟨rfl, rfl⟩ := performs_pure.1 rest
    exact ⟨.inr ⟨_, rfl⟩, .single (.inl between)⟩
  · obtain ⟨x, m₂, writes, rest⟩ := performs_bind.1 rest
    obtain ⟨rfl, untouched⟩ := refused_writeDescriptor other (keeps _ _ between ▸ closed) writes
    obtain ⟨rfl, rfl⟩ := performs_pure.1 rest
    exact ⟨.inl rfl, .head (.inl between) untouched⟩

/-! ## Calls -/

/-- A call that is answered with a fault has done nothing. -/
theorem untouched_of_fault {call : Syscall}
    (keeps : ∀ m m', others m m' → (m'.thread t).own = (m.thread t).own)
    (performs : Performs env others t (k.dispatch call) m (.error fault) m') :
    Machine.Untouched others m m' := by
  cases call with
  | halt | exit _ | practice _ => exact nomatch (performs_pure.1 performs).1
  | exec commandLine => exact fault_exec performs
  | create path _ => exact fault_withPath performs
  | remove path => exact fault_withPath performs
  | openFile path => exact fault_withPath performs
  | read fd buffer size =>
    by_cases fills : (m.thread t).own.MayFill buffer size.toNat
    · obtain ⟨value, same⟩ := answer_readInto keeps fills performs
      cases same
    · exact (fault_readInto fills performs).2
  | write fd buffer size => exact fault_writeFrom performs
  | wait _ | filesize _ | seek _ _ | tell _ | close _ =>
    -- These calls have no pointers that could be bad.
    obtain ⟨_, _, -, rest⟩ := performs_bind.1 performs
    exact nomatch (performs_pure.1 rest).1

/-- A call that is refused has done nothing, whatever it is answered with. -/
theorem untouched_of_refused {call : Syscall}
    (keeps : ∀ m m', others m m' → (m'.thread t).own = (m.thread t).own)
    (refused : call.Refused k.settings.maxUserString (m.thread t).own m.devices.pool)
    (performs : Performs env others t (k.dispatch call) m outcome m') :
    (outcome = .ok call.failure ∨ ∃ fault, outcome = .error fault) ∧
      Machine.Untouched others m m' := by
  cases call with
  | halt | exit _ | wait _ | practice _ => exact refused.elim
  | exec commandLine => exact (refused_exec refused performs).imp_left .inl
  | create path _ => exact (refused_withPath refused performs).imp_left .inl
  | remove path => exact (refused_withPath refused performs).imp_left .inl
  | openFile path => exact (refused_withPath refused performs).imp_left .inl
  | read fd buffer size => exact refused_readInto keeps refused.1 refused.2 performs
  | write fd buffer size => exact refused_writeFrom keeps refused.1 refused.2 performs
  | filesize fd | tell fd =>
    obtain ⟨x, m₁, first, rest⟩ := performs_bind.1 performs
    obtain ⟨rfl, untouched⟩ := refused_withFile refused first
    obtain ⟨rfl, rfl⟩ := performs_pure.1 rest
    exact ⟨.inl rfl, untouched⟩
  | seek fd position =>
    obtain ⟨_, m₁, moved, rest⟩ := performs_bind.1 performs
    obtain ⟨x, m₂, first, dropped⟩ := performs_bind.1 moved
    obtain ⟨-, untouched⟩ := refused_withFile refused first
    obtain ⟨-, rfl⟩ := performs_pure.1 dropped
    obtain ⟨rfl, rfl⟩ := performs_pure.1 rest
    exact ⟨.inl rfl, untouched⟩
  | close fd =>
    obtain ⟨_, m₁, first, rest⟩ := performs_bind.1 performs
    have untouched := refused_closeDescriptor refused first
    obtain ⟨rfl, rfl⟩ := performs_pure.1 rest
    exact ⟨.inl rfl, untouched⟩

/-! ## Answers -/

theorem answer_withFile {body : Handle → Routine α} (closed : ¬ (m.thread t).own.HasOpen fd) :
    Performs env (· = ·) t (Kernel.withFile fd body) m none m := by
  rw [Kernel.withFile]
  cases named : Descriptor.ofInt? fd with
  | none => exact performs_pure.2 ⟨rfl, rfl⟩
  | some d =>
    obtain ⟨e, refused⟩ := Machine.serve_findFile named closed
    refine performs_ask.2 ⟨m, by rw [refused], ?_⟩
    rw [refused]
    exact performs_pure.2 ⟨rfl, rfl⟩

theorem answer_closeDescriptor (closed : ¬ (m.thread t).own.HasOpen fd) :
    Performs env (· = ·) t (Kernel.closeDescriptor fd) m () m := by
  rw [Kernel.closeDescriptor]
  cases named : Descriptor.ofInt? fd with
  | none => exact performs_pure.2 ⟨rfl, rfl⟩
  | some d =>
    obtain ⟨e, refused⟩ := Machine.serve_takeFile named closed
    refine performs_ask.2 ⟨m, by rw [refused], ?_⟩
    rw [refused]
    exact performs_pure.2 ⟨rfl, rfl⟩

theorem answer_readDescriptor (other : fd ≠ 0) (closed : ¬ (m.thread t).own.HasOpen fd) :
    Performs env (· = ·) t (Kernel.readDescriptor fd n) m none m := by
  rw [Kernel.readDescriptor]
  cases named : Descriptor.ofInt? fd with
  | none => exact performs_pure.2 ⟨rfl, rfl⟩
  | some d =>
    simp only [if_neg (Descriptor.ne_input named other)]
    split
    · exact performs_pure.2 ⟨rfl, rfl⟩
    · exact answer_withFile closed

theorem answer_writeDescriptor {data : Bytes} (other : fd ≠ 1)
    (closed : ¬ (m.thread t).own.HasOpen fd) :
    Performs env (· = ·) t (Kernel.writeDescriptor fd data) m (-1) m := by
  rw [Kernel.writeDescriptor]
  cases named : Descriptor.ofInt? fd with
  | none => exact performs_pure.2 ⟨rfl, rfl⟩
  | some d =>
    simp only [if_neg (Descriptor.ne_output named other)]
    split
    · exact performs_pure.2 ⟨rfl, rfl⟩
    · exact (answer_withFile closed).bind (performs_pure.2 ⟨rfl, rfl⟩)

/-- A call that is refused is answered: it waits for nobody. -/
theorem answers_of_refused {call : Syscall}
    (refused : call.Refused k.settings.maxUserString (m.thread t).own m.devices.pool) :
    ∃ outcome m', Performs env (· = ·) t (k.dispatch call) m outcome m' := by
  have noText {start : VirtAddr} {failure : Outcome} {body : String → ThreadProgram Outcome}
      (holds : (m.thread t).own.HoldsNoText m.devices.pool start k.settings.maxUserString) :
      ∃ outcome m', Performs env (· = ·) t (k.withPath start failure body) m outcome m' := by
    have read : Performs env (· = ·) t (k.userString start) m (.ok none) m :=
      performs_userString.2 ⟨rfl, (map_decode? holds).symm⟩
    exact ⟨_, _, read.bind
      (performs_ask.2 ⟨_, rfl, performs_ask.2 ⟨_, rfl, performs_pure.2 ⟨rfl, rfl⟩⟩⟩)⟩
  cases call with
  | halt | exit _ | wait _ | practice _ => exact refused.elim
  | exec commandLine =>
    have read : Performs env (· = ·) t (k.userString commandLine) m (.ok none) m :=
      performs_userString.2 ⟨rfl, (map_decode? refused).symm⟩
    exact ⟨_, m, read.bind (performs_pure.2 ⟨rfl, rfl⟩)⟩
  | create path _ => exact noText refused
  | remove path => exact noText refused
  | openFile path => exact noText refused
  | filesize fd | tell fd =>
    exact ⟨_, m, (answer_withFile refused).bind (performs_pure.2 ⟨rfl, rfl⟩)⟩
  | seek fd position =>
    refine ⟨.ok .void, m, performs_bind.2 ⟨(), m, ?_, performs_pure.2 ⟨rfl, rfl⟩⟩⟩
    exact performs_bind.2 ⟨none, m, answer_withFile refused, performs_pure.2 ⟨rfl, rfl⟩⟩
  | close fd => exact ⟨_, m, (answer_closeDescriptor refused).bind (performs_pure.2 ⟨rfl, rfl⟩)⟩
  | read fd buffer size =>
    have asked := serve_checkRange m t buffer size.toNat .write
    cases checked : (m.serve t (checkRange buffer size.toNat .write)).1 with
    | error fault =>
      refine ⟨.error fault, m, performs_ask.2 ⟨m, asked, ?_⟩⟩
      rw [checked]
      exact performs_pure.2 ⟨rfl, rfl⟩
    | ok =>
      refine ⟨.ok (.result (-1)), m, performs_ask.2 ⟨m, asked, ?_⟩⟩
      rw [checked]
      exact (answer_readDescriptor refused.1 refused.2).bind (performs_pure.2 ⟨rfl, rfl⟩)
  | write fd buffer size =>
    have asked := serve_copyIn m t buffer size.toNat
    cases copied : (m.serve t (copyIn buffer size.toNat)).1 with
    | error fault =>
      refine ⟨.error fault, m, performs_ask.2 ⟨m, asked, ?_⟩⟩
      rw [copied]
      exact performs_pure.2 ⟨rfl, rfl⟩
    | ok data =>
      refine ⟨.ok (.result (-1)), m, performs_ask.2 ⟨m, asked, ?_⟩⟩
      rw [copied]
      exact (answer_writeDescriptor refused.1 refused.2).bind (performs_pure.2 ⟨rfl, rfl⟩)

end

/-- A system call that is answered with a fault has done nothing, whatever the call and the state. Neither
    has a call that names no open file, uses the console in the wrong direction or passes a string that is
    no text; it is answered with the failure of the call or with a fault, and it is answered even when
    nobody else does anything. A read whose buffer has been accepted is not answered with a fault any more,
    so what it takes from the keyboard or from a file is not lost.

    What is said of a state before and after the call leaves out what `others` did in between, which may be
    anything that does not meddle with what the thread has for itself. If there are none, all is as it was
    but for the log (`Machine.untouched_alone`). -/
theorem Kernel.refused_untouched (k : Kernel) (env : Environment) (t : Tid) (call : Syscall) (m : Machine)
    {others : Machine → Machine → Prop}
    (keeps : ∀ m m', others m m' → (m'.thread t).own = (m.thread t).own) :
    (∀ outcome m', Performs env others t (k.dispatch call) m outcome m' →
      ((∃ fault, outcome = .error fault) → Machine.Untouched others m m') ∧
      (call.Refused k.settings.maxUserString (m.thread t).own m.devices.pool →
        (outcome = .ok call.failure ∨ ∃ fault, outcome = .error fault) ∧
          Machine.Untouched others m m') ∧
      (∀ fd buffer size, call = .read fd buffer size →
        (m.thread t).own.MayFill buffer size.toNat → ∃ value, outcome = .ok (.result value))) ∧
    (call.Refused k.settings.maxUserString (m.thread t).own m.devices.pool →
      ∃ outcome m', Performs env (· = ·) t (k.dispatch call) m outcome m') := by
  refine ⟨fun outcome m' performs => ⟨?_, ?_, ?_⟩, answers_of_refused⟩
  · rintro ⟨fault, rfl⟩
    exact untouched_of_fault keeps performs
  · intro refused
    exact untouched_of_refused keeps refused performs
  · rintro fd buffer size rfl fills
    exact answer_readInto keeps fills performs

/-- A process with a page of memory and no open files, alone on a machine with one key pressed. -/
def Machine.lone : Machine :=
  let (frame, pool) := ((FramePool.ofFrames 1).allocate?).getD (.ofAddress (.ofNat pageSize), .ofFrames 1)
  let space := (AddressSpace.empty 0).map (.ofWord 0x08049000) frame true
  let process := { Process.fresh 1 "lone" 128 with space := space.toOption }
  let thread := { Thread.absent with own := { Belongings.fresh 0 with process := some process } }
  { Machine.fresh (.fresh (.empty .bounded) pool [7]) 1 with threads := #[thread] }

/-- A write from a null pointer and a close of a descriptor that is not open do nothing, and a read gets
    the key. -/
theorem Kernel.refused_untouched_lone :
    let k : Kernel := ⟨{}, .stopsMachine⟩
    let env : Environment := ⟨fun _ => pure (), fun _ => true, [], fun _ => pure ()⟩
    (∃ m', Performs env (· = ·) 0 (k.dispatch (.write 1 (.ofWord 0) 1)) .lone (.error .nullPointer) m' ∧
      Machine.lone.SameButLog m') ∧
    (∃ outcome m', Performs env (· = ·) 0 (k.dispatch (.close 5)) .lone outcome m' ∧
      Machine.lone.SameButLog m') ∧
    (∃ value m', Performs env (· = ·) 0 (k.dispatch (.read 0 (.ofWord 0x08049000) 1)) .lone
      (.ok (.result value)) m') := by
  intro k env
  have alone (m m' : Machine) (same : m = m') : (m'.thread 0).own = (m.thread 0).own := by rw [same]
  refine ⟨?_, ?_, ?_⟩
  · have refused : (Machine.lone.serve 0 (copyIn (.ofWord 0) (UInt32.toNat 1))).1 =
        .error .nullPointer := by decide +kernel
    have killed : Performs env (· = ·) 0 (k.dispatch (.write 1 (.ofWord 0) 1)) .lone
        (.error .nullPointer) .lone := by
      refine performs_ask.2 ⟨.lone, serve_copyIn .., ?_⟩
      rw [refused]
      exact performs_pure.2 ⟨rfl, rfl⟩
    obtain ⟨parts, -⟩ := k.refused_untouched env 0 (.write 1 (.ofWord 0) 1) .lone alone
    exact ⟨_, killed, Machine.untouched_alone.1 ((parts _ _ killed).1 ⟨_, rfl⟩)⟩
  · have refused : (Syscall.close 5).Refused k.settings.maxUserString (Machine.lone.thread 0).own
        Machine.lone.devices.pool := by
      rintro ⟨p, hosts, -, -, found⟩
      cases hosts
      cases found
    obtain ⟨parts, answers⟩ := k.refused_untouched env 0 (.close 5) .lone alone
    obtain ⟨outcome, m', performs⟩ := answers refused
    exact ⟨outcome, m', performs, Machine.untouched_alone.1 ((parts _ _ performs).2.1 refused).2⟩
  · have fills : (Machine.lone.thread 0).own.MayFill (.ofWord 0x08049000) (UInt32.toNat 1) :=
      mayFill_iff.2 (by decide +kernel)
    let pressed := (Machine.lone.serve 0 getByte).2
    have copied : (pressed.serve 0 (copyOut (.ofWord 0x08049000) [7])).1 = .ok () :=
      serve_copyOut (n := UInt32.toNat 1) fills (by decide)
    have done : Performs env (· = ·) 0 (k.dispatch (.read 0 (.ofWord 0x08049000) 1)) .lone
        (.ok (.result 1)) (pressed.serve 0 (copyOut (.ofWord 0x08049000) [7])).2 := by
      refine performs_ask.2 ⟨.lone, serve_checkRange .., ?_⟩
      rw [mayFill_iff.1 fills]
      have read : Performs env (· = ·) 0 (readDescriptor 0 (UInt32.toNat 1)) .lone (some [7]) pressed :=
        performs_bind.2 ⟨[7], pressed,
          performs_ask.2 ⟨pressed, rfl, performs_pure.2 ⟨rfl, rfl⟩⟩, performs_pure.2 ⟨rfl, rfl⟩⟩
      refine performs_bind.2 ⟨some [7], pressed, read, performs_ask.2 ⟨_, rfl, ?_⟩⟩
      rw [copied]
      exact performs_pure.2 ⟨rfl, rfl⟩
    obtain ⟨parts, -⟩ := k.refused_untouched env 0 (.read 0 (.ofWord 0x08049000) 1) .lone alone
    obtain ⟨value, answered⟩ := (parts _ _ done).2.2 _ _ _ rfl fills
    exact ⟨value, _, answered ▸ done⟩

end Userland

import Userland.Proofs.Shielding
import Userland.Proofs.Views

/-!
# Reading and writing move the right bytes

A read takes bytes from a file or from the keyboard to user memory, a write takes them from user memory to a
file or to the display. Each call is told as a change of what the process sees (`Kernel.MovesData`): the
bytes are those at the position of the file, as many as there are or as were asked for; they are found in
user memory where they were asked for, however the buffer lies on pages; and nothing else changes. So what is
written is read again after the position is moved back (`Kernel.moves_data`). What is asked of user memory for
this is so in every state that a scenario comes to (`Scenario.hasMemory`).
-/

namespace Userland

open ThreadProgram DeviceRequest

/-- The first number that a signed word does not hold. -/
abbrev signedLimit : Nat := 0x80000000

/-- User memory from which data can be taken and where it can be put: each of its pages has a frame of its
    own, which is handed out. -/
structure View.HasMemory (v : View) (s : AddressSpace) : Prop where
  space : v.own.space? = some s
  once : s.frames.Nodup
  backed : v.backed = true

/-- The memory of a process is such in each state that a scenario comes to. -/
theorem Scenario.hasMemory {x : Scenario} {turns : ℕ → Turn} {i : ℕ} {t : Tid} {s : AddressSpace} (h : Handle)
    (has : ((x.machineAt turns i).thread t).own.space? = some s) : ((x.machineAt turns i).view t h).HasMemory s where
  space := has
  once := (nodup_frames_append has).of_append_left
  backed := by
    simp only [Machine.view, Machine.Sees, View.of, has, Option.all_some, List.all_eq_true]
    exact backed_of_space has

/-- The next `n` keyboard bytes, with zeros for those that are missing. -/
def Console.keys (c : Console) (n : Nat) : Bytes := c.input.take n ++ Bytes.zeros (n - c.input.length)

/-- The console without them. -/
def Console.skip (c : Console) (n : Nat) : Console := { c with input := c.input.drop n }

theorem Console.keys_succ (c : Console) (n : Nat) : c.keys (n + 1) = c.getByte.1 :: c.getByte.2.keys n := by
  obtain ⟨input, shown⟩ := c
  cases input with
  | nil => simp [keys, getByte, Bytes.zeros, List.replicate_succ]
  | cons byte rest => simp [keys, getByte, Bytes.zeros]

theorem Console.skip_succ (c : Console) (n : Nat) : c.skip (n + 1) = c.getByte.2.skip n := by
  obtain ⟨input, shown⟩ := c
  cases input <;> simp [skip, getByte]

@[simp] theorem Console.length_keys (c : Console) (n : Nat) : (c.keys n).length = n := by
  simp [keys, Bytes.zeros]
  omega

section

variable {k : Kernel} {env : Environment} {others : Machine → Machine → Prop} {t : Tid} {m m' : Machine}
  {fd : Int32} {h : Handle} {f : Stream} {s : AddressSpace} {buffer : VirtAddr} {size : UInt32} {n : Nat}
  {bytes : Bytes} {outcome : Except UserFault Outcome}

/-! ## From a descriptor, and to one -/

/-- A descriptor that names an open file does not name the console. -/
theorem Belongings.Opens.named {b : Belongings} (opens : b.Opens fd h) :
    ∃ d, Descriptor.ofInt? fd = some d ∧ d ≠ .input ∧ d ≠ .output := by
  obtain ⟨p, d, hosts, named, got⟩ := opens
  have file : ¬ d.number < Descriptor.firstFile := fun console => by
    rw [DescriptorTable.get, if_pos (.inl console)] at got
    cases got
  refine ⟨d, named, ?_, ?_⟩
  · rintro rfl
    exact file (by decide)
  · rintro rfl
    exact file (by decide)

theorem Belongings.Opens.readDescriptor {b : Belongings} (opens : b.Opens fd h) (n : Nat) :
    Kernel.readDescriptor fd n = Kernel.withFile fd fun h => Routine.ask (read h n) := by
  obtain ⟨d, named, input, output⟩ := opens.named
  simp only [Kernel.readDescriptor, named, if_neg input, if_neg output]

theorem Belongings.Opens.writeDescriptor {b : Belongings} (opens : b.Opens fd h) (data : Bytes) :
    Kernel.writeDescriptor fd data = do
      let n ← Kernel.withFile fd fun h => Routine.ask (write h data)
      return (n.map Int32.ofNat).getD (-1) := by
  obtain ⟨d, named, input, output⟩ := opens.named
  simp only [Kernel.writeDescriptor, named, if_neg input, if_neg output]

theorem readDescriptor_keyboard (n : Nat) :
    Kernel.readDescriptor 0 n = some <$> Kernel.readKeyboard [] n := rfl

theorem writeDescriptor_display (data : Bytes) : Kernel.writeDescriptor 1 data = do
    ThreadProgram.ask (put data)
    return Int32.ofNat data.length := rfl

/-- A read from a file gives its next bytes, and moves past them. -/
theorem read_file (spares : ∀ m m', others m m' → m'.view t h = m.view t h) (opens : (m.view t h).own.Opens fd h)
    (found : (m.view t h).file = some f) (short : f.data.length < positionLimit) {x : Option Bytes}
    (performs : Performs env others t (Kernel.readDescriptor fd n) m x m') : x = some (f.next n) ∧
      m'.view t h = { m.view t h with file := some { f with position := f.position + (f.next n).length } } := by
  rw [opens.readDescriptor] at performs
  obtain ⟨y, m₁, rfl, between, inside⟩ := performs_withFile opens performs
  obtain ⟨m₂, before, rfl, after⟩ := performs_withVolume (F := View.of h) spares inside
  have same : m₂.view t h = m.view t h := before.trans (spares _ _ between)
  obtain ⟨data, moved⟩ := m₂.view_read (same ▸ found) short n
  refine ⟨congrArg some data, ?_⟩
  rw [← same]
  exact after.trans moved

/-- A read from the keyboard gives the next bytes there, one after the other. -/
theorem read_keyboard (spares : ∀ m m', others m m' → m'.view t h = m.view t h) {done data : Bytes}
    (performs : Performs env others t (Kernel.readKeyboard done n) m data m') :
    data = done.reverse ++ (m.view t h).console.keys n ∧
      m'.view t h = { m.view t h with console := (m.view t h).console.skip n } := by
  -- By induction on how many are still to come; those that have come are kept the other way round.
  induction n generalizing done m with
  | zero =>
    obtain ⟨rfl, rfl⟩ := performs_pure.1 performs
    simp [Console.keys, Console.skip, Bytes.zeros]
  | succ n ih =>
    obtain ⟨m₁, between, rest⟩ := performs_ask.1 performs
    obtain ⟨byte, taken⟩ := m.view_getByte h (t := t)
    have next : m₁.view t h = { m.view t h with console := (m.view t h).console.getByte.2 } :=
      (spares _ _ between).trans taken
    obtain ⟨rfl, after⟩ := ih rest
    rw [after, next, byte, Console.keys_succ, Console.skip_succ]
    simp

/-- What a descriptor gives is put into the buffer that was checked for it. -/
theorem read_into (spares : ∀ m m', others m m' → m'.view t h = m.view t h) (memory : (m.view t h).HasMemory s)
    (checked : s.checkRange buffer size.toNat .write = .ok ()) (short : bytes.length ≤ size.toNat)
    {file : Option Stream} {console : Console}
    (reads : ∀ {m₁ m₂ x}, m₁.view t h = m.view t h →
      Performs env others t (Kernel.readDescriptor fd size.toNat) m₁ x m₂ →
      x = some bytes ∧ m₂.view t h = { m.view t h with file := file, console := console })
    (performs : Performs env others t (k.dispatch (.read fd buffer size)) m outcome m') :
    outcome = .ok (.result (Int32.ofNat bytes.length)) ∧ m'.view t h = { m.view t h with
      memory := overlay (m.view t h).memory buffer bytes, file := file, console := console } := by
  obtain ⟨m₁, between, rest⟩ := performs_ask.1 performs
  rw [serve_checkRange] at between
  rw [mayFill_iff.1 ⟨s, memory.space, checked⟩] at rest
  obtain ⟨x, m₂, got, rest⟩ := performs_bind.1 rest
  obtain ⟨rfl, seen⟩ := reads (spares _ _ between) got
  obtain ⟨m₃, between₃, rest⟩ := performs_ask.1 rest
  -- What was checked is the whole buffer, of which the bytes take the front.
  have fits : s.checkRange buffer bytes.length .write = .ok () := AddressSpace.checkRange_of_le short checked
  have space : (m₂.view t h).own.space? = some s := by rw [seen]; exact memory.space
  have backed : (m₂.view t h).backed = true := by rw [seen]; exact memory.backed
  obtain ⟨copied, after⟩ := Machine.view_copyOut space memory.once backed fits
  rw [copied] at rest
  obtain ⟨rfl, rfl⟩ := performs_pure.1 rest
  refine ⟨rfl, (spares _ _ between₃).trans (after.trans ?_)⟩
  rw [seen]

/-- What is written comes from the buffer. -/
theorem write_from (spares : ∀ m m', others m m' → m'.view t h = m.view t h) (memory : (m.view t h).HasMemory s)
    (checked : s.checkRange buffer size.toNat .read = .ok ())
    (performs : Performs env others t (k.dispatch (.write fd buffer size)) m outcome m') : ∃ x m₁,
      m₁.view t h = m.view t h ∧ outcome = .ok (.result x) ∧
      Performs env others t (Kernel.writeDescriptor fd ((m.view t h).bytes buffer size.toNat)) m₁ x m' := by
  obtain ⟨m₁, between, rest⟩ := performs_ask.1 performs
  rw [serve_copyIn] at between
  rw [m.view_copyIn memory.space memory.backed checked] at rest
  obtain ⟨x, m₂, writes, rest⟩ := performs_bind.1 rest
  obtain ⟨rfl, rfl⟩ := performs_pure.1 rest
  exact ⟨x, m₁, spares _ _ between, rfl, writes⟩

/-- A write to a file is one request to it. -/
theorem write_file (spares : ∀ m m', others m m' → m'.view t h = m.view t h) (opens : (m.view t h).own.Opens fd h)
    {x : Int32} (performs : Performs env others t (Kernel.writeDescriptor fd bytes) m x m') : ∃ m₁ : Machine,
      m₁.view t h = m.view t h ∧ x = Int32.ofNat (m₁.serve t (write h bytes)).1 ∧
      m'.view t h = (m₁.serve t (write h bytes)).2.view t h := by
  rw [opens.writeDescriptor] at performs
  obtain ⟨y, m₂, found, rest⟩ := performs_bind.1 performs
  obtain ⟨count, m₁, rfl, between, inside⟩ := performs_withFile opens found
  obtain ⟨m₃, before, rfl, after⟩ := performs_withVolume (F := View.of h) spares inside
  obtain ⟨rfl, rfl⟩ := performs_pure.1 rest
  exact ⟨m₃, before.trans (spares _ _ between), rfl, after⟩

/-- A write to the display is one buffer there. -/
theorem write_display (spares : ∀ m m', others m m' → m'.view t h = m.view t h) {x : Int32}
    (performs : Performs env others t (Kernel.writeDescriptor 1 bytes) m x m') : x = Int32.ofNat bytes.length ∧
      m'.view t h = { m.view t h with console := (m.view t h).console.put bytes } := by
  rw [writeDescriptor_display] at performs
  obtain ⟨m₁, between, rest⟩ := performs_ask.1 performs
  obtain ⟨rfl, rfl⟩ := performs_pure.1 rest
  exact ⟨rfl, (spares _ _ between).trans (m.view_put bytes)⟩

theorem seek_file (spares : ∀ m m', others m m' → m'.view t h = m.view t h) (opens : (m.view t h).own.Opens fd h)
    (found : (m.view t h).file = some f) {position : UInt32}
    (performs : Performs env others t (k.dispatch (.seek fd position)) m outcome m') :
    m'.view t h = { m.view t h with file := some { f with position := position.toNat } } := by
  obtain ⟨_, m₁, moved, rest⟩ := performs_bind.1 performs
  obtain ⟨-, rfl⟩ := performs_pure.1 rest
  obtain ⟨x, m₂, used, rest⟩ := performs_bind.1 moved
  obtain ⟨-, rfl⟩ := performs_pure.1 rest
  obtain ⟨y, m₃, rfl, between, inside⟩ := performs_withFile opens used
  obtain ⟨m₄, before, -, after⟩ := performs_withVolume (F := View.of h) spares inside
  have same : m₄.view t h = m.view t h := before.trans (spares _ _ between)
  rw [← same]
  exact after.trans (m₄.view_seek (same ▸ found) position)

/-! ## The calls -/

theorem answers_read : Answers env t (k.dispatch (.read fd buffer size)) := by
  have keys (done : Bytes) (n : Nat) : Answers env t (Kernel.readKeyboard done n) := by
    induction n generalizing done with
    | zero => exact answers_pure _
    | succ n ih => exact (answers_ask _).bind fun _ => ih _
  refine (answers_ask _).bind fun checked => ?_
  split
  · exact answers_pure _
  refine Answers.bind ?_ fun got => ?_
  · rw [Kernel.readDescriptor]
    split
    · exact answers_pure _
    split
    · exact (keys [] _).bind fun _ => answers_pure _
    split
    · exact answers_pure _
    · exact answers_withFile fd _
  · split
    · exact answers_pure _
    · refine (answers_ask _).bind fun copied => ?_
      split <;> exact answers_pure _

theorem answers_write : Answers env t (k.dispatch (.write fd buffer size)) := by
  refine (answers_ask _).bind fun copied => ?_
  split
  · exact answers_pure _
  refine Answers.bind ?_ fun _ => answers_pure _
  rw [Kernel.writeDescriptor]
  split
  · exact answers_pure _
  split
  · exact (answers_ask _).bind fun _ => answers_pure _
  split
  · exact answers_pure _
  · exact (answers_withFile fd _).bind fun _ => answers_pure _

theorem answers_seek {position : UInt32} : Answers env t (k.dispatch (.seek fd position)) :=
  ((answers_withFile fd _).bind fun _ => answers_pure _).bind fun _ => answers_pure _

/-- Write a buffer to a file, move its position to `position`, and read as much into another buffer. -/
def Kernel.throughFile (k : Kernel) (fd : Int32) (source target : VirtAddr) (size position : UInt32) :
    ThreadProgram (Except UserFault Outcome × Except UserFault Outcome) := do
  let written ← k.dispatch (.write fd source size)
  let _ ← k.dispatch (.seek fd position)
  let got ← k.dispatch (.read fd target size)
  return (written, got)

theorem answers_throughFile {source target : VirtAddr} {position : UInt32} :
    Answers env t (k.throughFile fd source target size position) :=
  answers_write.bind fun _ => answers_seek.bind fun _ => answers_read.bind fun _ => answers_pure _

theorem toInt_count {size : UInt32} (small : size.toNat < signedLimit) {n : Nat} (le : n ≤ size.toNat) :
    (Int32.ofNat n).toInt = n := Int32.toInt_ofNat_of_lt (Nat.lt_of_le_of_lt le small)

theorem performs_read_file (spares : ∀ m m', others m m' → m'.view t h = m.view t h)
    (memory : (m.view t h).HasMemory s) (opens : (m.view t h).own.Opens fd h) (found : (m.view t h).file = some f)
    (short : f.data.length < positionLimit) (checked : s.checkRange buffer size.toNat .write = .ok ())
    (performs : Performs env others t (k.dispatch (.read fd buffer size)) m outcome m') :
    outcome = .ok (.result (Int32.ofNat (f.next size.toNat).length)) ∧ m'.view t h = { m.view t h with
      memory := overlay (m.view t h).memory buffer (f.next size.toNat)
      file := some { f with position := f.position + (f.next size.toNat).length } } := by
  have le : (f.next size.toNat).length ≤ size.toNat := f.length_next _ ▸ Nat.min_le_left ..
  refine read_into spares memory checked le (fun same got => ?_) performs
  obtain ⟨data, seen⟩ := read_file spares (same ▸ opens) (same ▸ found) short got
  exact ⟨data, same ▸ seen⟩

theorem performs_write_file (spares : ∀ m m', others m m' → m'.view t h = m.view t h)
    (memory : (m.view t h).HasMemory s) (opens : (m.view t h).own.Opens fd h) (found : (m.view t h).file = some f)
    (free : f.denied = false) (fits : f.position + size.toNat < positionLimit)
    (checked : s.checkRange buffer size.toNat .read = .ok ())
    (performs : Performs env others t (k.dispatch (.write fd buffer size)) m outcome m') :
    outcome = .ok (.result (Int32.ofNat size.toNat)) ∧
      ∃ data, Overwrites ((m.view t h).bytes buffer size.toNat) f.position f.data data ∧
        m'.view t h = { m.view t h with
          file := some { f with data := data, position := f.position + size.toNat } } := by
  obtain ⟨x, m₁, same, rfl, writes⟩ := write_from spares memory checked performs
  obtain ⟨m₂, same₂, rfl, after⟩ := write_file spares (same ▸ opens) writes
  have seen : m₂.view t h = m.view t h := same₂.trans same
  have length := (m.view t h).length_bytes buffer size.toNat
  obtain ⟨count, data, puts, written⟩ := m₂.view_write (t := t) (seen ▸ found) free (length.symm ▸ fits)
  rw [count, length]
  refine ⟨rfl, data, puts, ?_⟩
  rw [after, written, seen, length]

/-- What is written to a file, read again from where it was put, gets to the other buffer. -/
theorem performs_throughFile (spares : ∀ m m', others m m' → m'.view t h = m.view t h)
    (memory : (m.view t h).HasMemory s) (opens : (m.view t h).own.Opens fd h) (found : (m.view t h).file = some f)
    (free : f.denied = false) (short : f.data.length < positionLimit)
    (fits : f.position + size.toNat < positionLimit) {source target : VirtAddr} {position : UInt32}
    (back : position.toNat = f.position) (readable : s.checkRange source size.toNat .read = .ok ())
    (writable : s.checkRange target size.toNat .write = .ok ())
    {outcomes : Except UserFault Outcome × Except UserFault Outcome}
    (performs : Performs env others t (k.throughFile fd source target size position) m outcomes m') :
    outcomes = (.ok (.result (Int32.ofNat size.toNat)), .ok (.result (Int32.ofNat size.toNat))) ∧
      (m'.view t h).memory = overlay (m.view t h).memory target ((m.view t h).bytes source size.toNat) := by
  obtain ⟨written, m₁, writes, rest⟩ := performs_bind.1 performs
  obtain ⟨moved, m₂, moves, rest⟩ := performs_bind.1 rest
  obtain ⟨got, m₃, reads, rest⟩ := performs_bind.1 rest
  obtain ⟨rfl, rfl⟩ := performs_pure.1 rest
  obtain ⟨rfl, data, puts, seen₁⟩ := performs_write_file spares memory opens found free fits readable writes
  -- The file has the bytes now, and the position is moved from their end to where they start.
  have seen₂ := seek_file spares (by rw [seen₁]; exact opens) (by rw [seen₁]) moves
  rw [seen₁, back] at seen₂
  have next := puts.next_eq f.denied
  rw [View.length_bytes] at next
  have longer : data.length < positionLimit := puts.length_lt short (by rwa [View.length_bytes])
  obtain ⟨rfl, seen₃⟩ := performs_read_file spares
    ⟨by rw [seen₂]; exact memory.space, memory.once, by rw [seen₂]; exact memory.backed⟩
    (by rw [seen₂]; exact opens) (by rw [seen₂]) longer writable reads
  have count := congrArg List.length next
  rw [View.length_bytes] at count
  refine ⟨?_, ?_⟩
  · rw [count]
  · rw [seen₃, seen₂]
    exact congrArg (overlay (m.view t h).memory target) next

end

/-- What calls on data do to what the process of thread `t` sees, with `h` for the open file. -/
structure Kernel.MovesData (k : Kernel) (env : Environment) (others : Machine → Machine → Prop) (t : Tid)
    (h : Handle) : Prop where
  /-- A read gives bytes from the position on, as many as there are or as were asked for: they are put into
      the buffer, and the position is moved past them. -/
  read : ∀ {m s f fd buffer size outcome m'}, (m.view t h).HasMemory s → (m.view t h).own.Opens fd h →
    (m.view t h).file = some f → f.data.length < positionLimit → size.toNat < signedLimit →
    s.checkRange buffer size.toNat .write = .ok () →
    Performs env others t (k.dispatch (.read fd buffer size)) m outcome m' →
    ∃ value, outcome = .ok (.result value) ∧
      value.toInt = min size.toNat (f.data.length - f.position) ∧
      m'.view t h = { m.view t h with
        memory := overlay (m.view t h).memory buffer (f.next size.toNat)
        file := some { f with position := f.position + min size.toNat (f.data.length - f.position) } }
  /-- A write puts the bytes of the buffer over those of the file, and moves the position past them. -/
  write : ∀ {m s f fd buffer size outcome m'}, (m.view t h).HasMemory s → (m.view t h).own.Opens fd h →
    (m.view t h).file = some f → f.denied = false → f.position + size.toNat < positionLimit →
    size.toNat < signedLimit → s.checkRange buffer size.toNat .read = .ok () →
    Performs env others t (k.dispatch (.write fd buffer size)) m outcome m' →
    ∃ value data, outcome = .ok (.result value) ∧ value.toInt = size.toNat ∧
      Overwrites ((m.view t h).bytes buffer size.toNat) f.position f.data data ∧
      m'.view t h = { m.view t h with
        file := some { f with data := data, position := f.position + size.toNat } }
  /-- A write that is denied changes nothing. -/
  denied : ∀ {m s f fd buffer size outcome m'}, (m.view t h).HasMemory s → (m.view t h).own.Opens fd h →
    (m.view t h).file = some f → f.denied = true → s.checkRange buffer size.toNat .read = .ok () →
    Performs env others t (k.dispatch (.write fd buffer size)) m outcome m' →
    outcome = .ok (.result 0) ∧ m'.view t h = m.view t h
  /-- A read from the keyboard takes the next bytes there, as many as were asked for. -/
  keyboard : ∀ {m s buffer size outcome m'}, (m.view t h).HasMemory s → size.toNat < signedLimit →
    s.checkRange buffer size.toNat .write = .ok () →
    Performs env others t (k.dispatch (.read 0 buffer size)) m outcome m' →
    ∃ value, outcome = .ok (.result value) ∧ value.toInt = size.toNat ∧
      m'.view t h = { m.view t h with
        memory := overlay (m.view t h).memory buffer ((m.view t h).console.keys size.toNat)
        console := (m.view t h).console.skip size.toNat }
  /-- A write to the display shows the bytes of the buffer in one piece. -/
  display : ∀ {m s buffer size outcome m'}, (m.view t h).HasMemory s → size.toNat < signedLimit →
    s.checkRange buffer size.toNat .read = .ok () →
    Performs env others t (k.dispatch (.write 1 buffer size)) m outcome m' →
    ∃ value, outcome = .ok (.result value) ∧ value.toInt = size.toNat ∧
      m'.view t h = { m.view t h with
        console := (m.view t h).console.put ((m.view t h).bytes buffer size.toNat) }
  /-- What was written is read again once the position is moved back. -/
  again : ∀ {m s f fd source target size position outcomes m'}, (m.view t h).HasMemory s →
    (m.view t h).own.Opens fd h → (m.view t h).file = some f → f.denied = false →
    f.data.length < positionLimit → f.position + size.toNat < positionLimit → size.toNat < signedLimit →
    position.toNat = f.position → s.checkRange source size.toNat .read = .ok () →
    s.checkRange target size.toNat .write = .ok () →
    Performs env others t (k.throughFile fd source target size position) m outcomes m' →
    ∃ value, outcomes = (.ok (.result value), .ok (.result value)) ∧ value.toInt = size.toNat ∧
      (m'.view t h).memory =
        overlay (m.view t h).memory target ((m.view t h).bytes source size.toNat)
  /-- With the lock on the volume free, and nobody else doing anything, there is an answer. -/
  answers : ∀ fd buffer size, Answers env t (k.dispatch (.read fd buffer size)) ∧
    Answers env t (k.dispatch (.write fd buffer size)) ∧
    ∀ target position, Answers env t (k.throughFile fd buffer target size position)

/-- Calls on data move the right bytes, whatever other threads do that the process does not see. -/
theorem Kernel.moves_data (k : Kernel) (env : Environment) (t : Tid) (h : Handle)
    {others : Machine → Machine → Prop} (spares : ∀ m m', others m m' → m'.view t h = m.view t h) :
    k.MovesData env others t h where
  read memory opens found short small checked performs := by
    obtain ⟨rfl, seen⟩ := performs_read_file spares memory opens found short checked performs
    rw [Stream.length_next] at seen
    exact ⟨_, rfl, by rw [Stream.length_next]; exact toInt_count small (Nat.min_le_left ..), seen⟩
  write memory opens found free fits small checked performs := by
    obtain ⟨rfl, data, puts, seen⟩ := performs_write_file spares memory opens found free fits checked performs
    exact ⟨_, data, rfl, toInt_count small (Nat.le_refl _), puts, seen⟩
  denied memory opens found denied checked performs := by
    obtain ⟨x, m₁, same, rfl, writes⟩ := write_from spares memory checked performs
    obtain ⟨m₂, same₂, rfl, after⟩ := write_file spares (same ▸ opens) writes
    have seen := same₂.trans same
    obtain ⟨count, kept⟩ := m₂.view_write_denied (t := t) (seen ▸ found) denied _
    rw [count]
    exact ⟨rfl, after.trans (kept.trans seen)⟩
  keyboard {m s buffer size outcome m'} memory small checked performs := by
    obtain ⟨rfl, seen⟩ := read_into spares memory checked (Nat.le_of_eq (Console.length_keys _ _))
      (fun same got => by
        rw [readDescriptor_keyboard] at got
        obtain ⟨data, m₃, keys, rest⟩ := performs_bind.1 got
        obtain ⟨rfl, rfl⟩ := performs_pure.1 rest
        obtain ⟨rfl, after⟩ := read_keyboard spares keys
        rw [same] at after ⊢
        exact ⟨rfl, after⟩) performs
    rw [Console.length_keys]
    exact ⟨_, rfl, toInt_count small (Nat.le_refl _), seen⟩
  display memory small checked performs := by
    obtain ⟨x, m₁, same, rfl, writes⟩ := write_from spares memory checked performs
    obtain ⟨rfl, after⟩ := write_display spares writes
    rw [View.length_bytes, after, same]
    exact ⟨_, rfl, toInt_count small (Nat.le_refl _), rfl⟩
  again memory opens found free short fits small back readable writable performs := by
    obtain ⟨rfl, seen⟩ :=
      performs_throughFile spares memory opens found free short fits back readable writable performs
    exact ⟨_, rfl, toInt_count small (Nat.le_refl _), seen⟩
  answers fd buffer size := ⟨answers_read, answers_write, fun _ _ => answers_throughFile⟩

/-- A process with two pages of memory, one after the other, of which the first starts with two bytes, and
    with a file of three bytes under descriptor 2, alone on a machine. -/
def Machine.reader : Machine :=
  let (first, pool) := ((FramePool.ofFrames 2).allocate?).getD (.ofAddress (.ofNat pageSize), .ofFrames 2)
  let (second, pool) := pool.allocate?.getD (first, pool)
  let space := ((AddressSpace.empty 0).map (.ofWord 0x08049000) first true >>=
    fun s => s.map (.ofWord 0x0804a000) second true).toOption.getD (.empty 0)
  let (h, volume) := (((Volume.empty .bounded).add
    (.ofContents "f" (.ofExtents [.ofBytes 0 [1, 2, 3]]) 3)).openFile? "f").getD (⟨0⟩, .empty .bounded)
  let process := { Process.fresh 1 "reader" 128 with
    space := some space
    files := (DescriptorTable.empty 128).set 2 (some h) }
  let thread := { Thread.absent with own := { Belongings.fresh 0 with process := some process } }
  { Machine.fresh (.fresh volume (space.copyOut pool (.ofWord 0x08049000) [5, 6]).2 [7]) 1 with
    threads := #[thread] }

/-- Two bytes of the file are read into the last byte of one page and the first byte of the other, and so
    are two bytes that were written to it. -/
theorem Kernel.moves_data_reader :
    let k : Kernel := ⟨{}, .stopsMachine⟩
    let env : Environment := ⟨fun _ => pure (), fun _ => true, [], fun _ => pure ()⟩
    (∃ value m', Performs env (· = ·) 0 (k.dispatch (.read 2 (.ofWord 0x08049fff) 2)) .reader
        (.ok (.result value)) m' ∧
      value.toInt = 2 ∧ (m'.view 0 ⟨0⟩).bytes (.ofWord 0x08049fff) 2 = [1, 2]) ∧
    ∃ value m', Performs env (· = ·) 0
        (k.throughFile 2 (.ofWord 0x08049000) (.ofWord 0x08049fff) 2 0) .reader
        (.ok (.result value), .ok (.result value)) m' ∧
      value.toInt = 2 ∧ (m'.view 0 ⟨0⟩).bytes (.ofWord 0x08049fff) 2 = [5, 6] := by
  intro k env
  have alone (m m' : Machine) (same : m = m') : m'.view 0 ⟨0⟩ = m.view 0 ⟨0⟩ := by rw [same]
  have moves := k.moves_data env 0 ⟨0⟩ alone
  obtain ⟨s, space⟩ := Option.isSome_iff_exists.1
    (show (Machine.reader.view 0 ⟨0⟩).own.space?.isSome = true by decide +kernel)
  have sound : ((Machine.reader.view 0 ⟨0⟩).own.space?.all fun s => decide (s.frames.Nodup ∧
      s.checkRange (.ofWord 0x08049fff) 2 .write = .ok () ∧
      s.checkRange (.ofWord 0x08049000) 2 .read = .ok ())) = true := by decide +kernel
  rw [space, Option.all_some, decide_eq_true_eq] at sound
  obtain ⟨once, writable, readable⟩ := sound
  have memory : (Machine.reader.view 0 ⟨0⟩).HasMemory s := ⟨space, once, by decide +kernel⟩
  have opens : (Machine.reader.view 0 ⟨0⟩).own.Opens 2 ⟨0⟩ := ⟨_, ⟨2⟩, rfl, rfl, rfl⟩
  have file : (Machine.reader.view 0 ⟨0⟩).file = some ⟨[1, 2, 3], 0, false⟩ := by rfl
  have free : Machine.reader.VolumeFree := rfl
  refine ⟨?_, ?_⟩
  · obtain ⟨outcome, m', performs, -⟩ := (moves.answers 2 (.ofWord 0x08049fff) 2).1 .reader free
    obtain ⟨value, rfl, count, seen⟩ := moves.read memory opens file (by decide) (by decide) writable performs
    exact ⟨value, m', performs, count, by rw [seen]; decide +kernel⟩
  · obtain ⟨outcomes, m', performs, -⟩ :=
      (moves.answers 2 (.ofWord 0x08049000) 2).2.2 (.ofWord 0x08049fff) 0 .reader free
    obtain ⟨value, rfl, count, seen⟩ := moves.again memory opens file rfl (by decide) (by decide) (by decide) rfl
      readable writable performs
    exact ⟨value, m', performs, count, by rw [View.bytes, seen]; decide +kernel⟩

end Userland

import Userland.Proofs.Refusals
import Userland.Proofs.Requests
import Userland.Proofs.Streams

/-!
# What a process sees of the machine

What a system call on data is about is what its process can see (`View`): what the thread has for itself,
the bytes of user memory, one open file, and the console. Other threads may do what they like in between, as
long as the process does not see it. Then a call that uses a file under its lock comes down to one request
(`performs_withFile`), and what a request does is told by the view alone (`Machine.view_read`,
`Machine.view_write`, `Machine.view_copyOut` and so on).

A thread that nobody disturbs gets its answer, if the lock on the volume is free (`Answers`).
-/

namespace Userland

open ThreadProgram DeviceRequest

/-! ## One request under a lock -/

/-- The thread's process has handle `h` under a descriptor. -/
def Belongings.Opens (b : Belongings) (fd : Int32) (h : Handle) : Prop :=
  ∃ p d, b.process = some p ∧ Descriptor.ofInt? fd = some d ∧ p.files.get d = .ok h

theorem Belongings.hasOpen_iff {b : Belongings} {fd : Int32} : b.HasOpen fd ↔ ∃ h, b.Opens fd h := by
  constructor
  · rintro ⟨p, hosts, number, capacity, found⟩
    obtain ⟨h, found⟩ := Option.isSome_iff_exists.1 found
    have named : Descriptor.ofInt? fd = some ⟨fd.toInt.toNat⟩ :=
      Descriptor.ofInt?_eq_some.2 (Int.toNat_of_nonneg (by omega)).symm
    refine ⟨h, p, _, hosts, named, ?_⟩
    rw [DescriptorTable.get, if_neg (by simp only [Descriptor.firstFile]; omega), found]
  · rintro ⟨h, p, d, hosts, named, got⟩
    refine ⟨p, hosts, ?_⟩
    by_contra closed
    obtain ⟨e, refused⟩ := Process.get_eq_error named closed
    cases got.symm.trans refused

section

variable {env : Environment} {others : Machine → Machine → Prop} {t : Tid} {m m' : Machine} {fd : Int32}
  {h : Handle} {α β : Type}

namespace Machine

theorem serve_of_isQuiet {r : DeviceRequest} (quiet : r.isQuiet = true) : m.serve t r =
    ((r.serve (m.thread t).own m.devices).1,
      { m with devices := (r.serve (m.thread t).own m.devices).2.2 }) := by
  have own := own_of_isQuiet quiet (m.thread t).own m.devices
  rw [serve]
  rcases served : r.serve (m.thread t).own m.devices with ⟨answer, b, d⟩
  rw [served] at own
  dsimp only at own ⊢
  rw [own, m.setThread_thread t]

theorem serve_findFile_of_opens {d : Descriptor} {p : Process} (hosts : (m.thread t).own.process = some p)
    (got : p.files.get d = .ok h) : m.serve t (findFile d) = (.ok h, m) :=
  serve_eq (by simp only [DeviceRequest.serve, hosts, got])

/-- Something of a machine that depends on the devices and on what thread `t` has only. -/
def Sees (F : Belongings → Devices → β) (t : Tid) (m : Machine) : β := F (m.thread t).own m.devices

theorem sees_serve {r : DeviceRequest} (F : Belongings → Devices → β) (quiet : r.isQuiet = true) :
    Sees F t (m.serve t r).2 = F (m.thread t).own (r.serve (m.thread t).own m.devices).2.2 := by
  rw [serve_of_isQuiet quiet]
  rfl

end Machine

variable {F : Belongings → Devices → β}

theorem sees_lock (l : LockId) (m : Machine) :
    (m.attempt env t (.lock l)).machine.Sees F t = m.Sees F t := by
  simp only [Machine.attempt]
  rcases (m.lock l).tryLock t with ⟨_ | _, x⟩ <;> rfl

theorem sees_unblock (u : Tid) (m : Machine) :
    (m.attempt env t (.unblock u)).machine.Sees F t = m.Sees F t := by
  have own := (m.resembles_wake t u).own
  have devices := (m.wake_frame u).2.1
  change F ((m.wake u).1.thread t).own (m.wake u).1.devices = _
  rw [own, devices]
  rfl

theorem sees_unlock {l : LockId} {x : Unit} (spares : ∀ m m', others m m' → m'.Sees F t = m.Sees F t)
    (performs : Performs env others t (unlock l) m x m') : m'.Sees F t = m.Sees F t := by
  refine performs.preserves (R := fun _ => True) spares ⟨fun _ => rfl, fun front => ?_⟩
  -- The thread that waits in front is woken, which changes nothing that is seen.
  cases front with
  | none => trivial
  | some u => exact ⟨sees_unblock u, fun _ => trivial⟩

/-- A request to the volume finds what was there before, and what there is after it stays. -/
theorem performs_withVolume {r : DeviceRequest} {x : r.Answer}
    (spares : ∀ m m', others m m' → m'.Sees F t = m.Sees F t)
    (performs : Performs env others t (Kernel.withVolume (Routine.ask r)) m x m') : ∃ m₁ : Machine,
      m₁.Sees F t = m.Sees F t ∧ x = (m₁.serve t r).1 ∧ m'.Sees F t = (m₁.serve t r).2.Sees F t := by
  obtain ⟨u, m₁, locked, rest⟩ := performs_bind.1 performs
  obtain ⟨y, m₂, asked, rest⟩ := performs_bind.1 rest
  obtain ⟨w, m₃, unlocked, rest⟩ := performs_bind.1 rest
  obtain ⟨rfl, rfl⟩ := performs_pure.1 rest
  obtain ⟨m₄, between, rest⟩ := performs_ask.1 asked
  obtain ⟨rfl, rfl⟩ := performs_pure.1 rest
  have before : m₁.Sees F t = m.Sees F t :=
    locked.preserves (R := fun _ => True) spares ⟨sees_lock _, fun _ => trivial⟩
  exact ⟨m₁, before, rfl, (sees_unlock spares unlocked).trans (spares _ _ between)⟩

/-- What is done with an open file is done under the lock. -/
theorem performs_withFile {body : Handle → Routine α} {x : Option α} (opens : (m.thread t).own.Opens fd h)
    (performs : Performs env others t (Kernel.withFile fd body) m x m') : ∃ y m₁, x = some y ∧ others m m₁ ∧
      Performs env others t (Kernel.withVolume (body h)) m₁ y m' := by
  obtain ⟨p, d, hosts, named, got⟩ := opens
  rw [Kernel.withFile, named] at performs
  obtain ⟨m₁, between, rest⟩ := performs_ask.1 performs
  rw [Machine.serve_findFile_of_opens hosts got] at between rest
  obtain ⟨y, m₂, inside, rest⟩ := performs_bind.1 rest
  obtain ⟨rfl, rfl⟩ := performs_pure.1 rest
  exact ⟨y, m₁, rfl, between, inside⟩

end

/-! ## Views -/

/-- Bytes of memory with other bytes put over them. -/
def overlay (memory : VirtAddr → Option UInt8) (start : VirtAddr) (bytes : Bytes) : VirtAddr → Option UInt8 :=
  fun a => if start.toNat ≤ a.toNat ∧ a.toNat < start.toNat + bytes.length then bytes[a.toNat - start.toNat]?
    else memory a

/-- What the process of a thread can see. -/
structure View where
  /-- What the thread has for itself. -/
  own : Belongings
  /-- The bytes of user memory. -/
  memory : VirtAddr → Option UInt8
  /-- Whether all frames of it are handed out. -/
  backed : Bool
  /-- An open file. -/
  file : Option Stream
  /-- Keyboard and display. -/
  console : Console

namespace View

/-- What is seen with some belongings, and with `h` for the file. -/
def of (h : Handle) (b : Belongings) (d : Devices) : View where
  own := b
  memory a := b.space?.bind fun s => s.byte? d.pool a
  backed := b.space?.all fun s => s.frames.all d.pool.inUse
  file := d.volume.stream? h
  console := d.console

/-- `n` bytes of user memory. -/
def bytes (v : View) (start : VirtAddr) (n : Nat) : Bytes :=
  (List.range n).map fun i => (v.memory (VirtAddr.ofNat (start.toNat + i))).getD 0

@[simp] theorem length_bytes (v : View) (start : VirtAddr) (n : Nat) : (v.bytes start n).length = n := by
  simp [bytes]

end View

namespace AddressSpace

variable {s : AddressSpace} {pool : FramePool} {start a : VirtAddr} {access : Access} {n : Nat} {data : Bytes}

/-- All bytes of a range that was checked are mapped. -/
theorem isSome_translate_of_checkRange (checked : s.checkRange start n access = .ok ()) {i : Nat} (lt : i < n) :
    ∃ a, a.toNat = start.toNat + i ∧ (s.translate a).isSome = true := by
  obtain ⟨a, there, accepted⟩ := checkRange_eq_ok.1 checked i lt
  obtain ⟨-, t, found, -⟩ := checkPointer_eq_ok.1 accepted
  exact ⟨a, VirtAddr.add?_eq_some.1 there, Option.isSome_iff_exists.2 ⟨t, found⟩⟩

theorem checkRange_of_le {k : Nat} (short : k ≤ n) (checked : s.checkRange start n access = .ok ()) :
    s.checkRange start k access = .ok () :=
  checkRange_eq_ok.2 fun i lt => checkRange_eq_ok.1 checked i (Nat.lt_of_lt_of_le lt short)

theorem byte?_copyOut (once : s.frames.Nodup) (backed : s.Backed pool)
    (checked : s.checkRange start data.length .write = .ok ()) :
    (fun a => s.byte? (s.copyOut pool start data).2 a) = overlay (fun a => s.byte? pool a) start data := by
  funext a
  have written : (s.copyOut pool start data).2 = (s.writeFrom pool start 0 data).2 := by
    simp only [copyOut, checked, writeBytes]
  obtain ⟨inside, outside⟩ := byte?_writeFrom once backed start 0 data a
  rw [written, overlay]
  rw [Nat.add_zero] at inside outside
  split
  · rename_i within
    refine inside ⟨within.1, within.2, fun k first last => ?_⟩
    -- A page on the way has a byte of the range.
    obtain ⟨x, place, mapped⟩ := isSome_translate_of_checkRange checked
      (i := max start.toNat (k * pageSize) - start.toNat) (by simp only [pageSize] at *; omega)
    have number : x.toNat / pageSize = k := by simp only [pageSize] at *; omega
    exact number ▸ isSome_translate.1 mapped
  · rename_i without
    exact outside fun gets => without ⟨gets.start, gets.stop⟩

theorem Backed.exists_byte? (backed : s.Backed pool) (mapped : (s.translate a).isSome = true) :
    ∃ byte, s.byte? pool a = some byte := by
  obtain ⟨t, found⟩ := Option.isSome_iff_exists.1 mapped
  obtain ⟨p, held⟩ := Option.isSome_iff_exists.1
    (FramePool.isSome_page?_of_inUse (backed _ (mem_frames_of_translate found)))
  refine ⟨p.get ⟨a.offset, a.offset_lt⟩, ?_⟩
  rw [byte?, found, Option.bind_some, held, Option.bind_some]
  exact Vector.getElem?_eq_getElem a.offset_lt

/-- What is copied out of a range that was checked. -/
theorem copyIn_eq (backed : s.Backed pool) (checked : s.checkRange start n .read = .ok ()) : s.copyIn pool start n =
    .ok ((List.range n).map fun i => (s.byte? pool (VirtAddr.ofNat (start.toNat + i))).getD 0) := by
  have read : s.readFrom pool start 0 n = .ok _ := (readFrom_eq_ok backed start 0 n
      ((List.range n).map fun i => (s.byte? pool (VirtAddr.ofNat (start.toNat + i))).getD 0)).2
    ⟨by rw [List.length_map, List.length_range], fun i lt => ?_⟩
  · rw [copyIn, checked, readBytes, read]
    rfl
  obtain ⟨a, place, mapped⟩ := isSome_translate_of_checkRange checked lt
  have there : VirtAddr.ofNat (start.toNat + i) = a := place ▸ ofNat_toNat a
  obtain ⟨byte, shown⟩ := backed.exists_byte? mapped
  refine ⟨a, by rw [place, Nat.add_zero], ?_⟩
  rw [List.getElem?_map, List.getElem?_range lt, Option.map_some, there, shown, Option.getD_some]

end AddressSpace

/-! ## Requests -/

namespace Machine

variable {t : Tid} {m : Machine} {h : Handle} {f : Stream} {s : AddressSpace} {start : VirtAddr} {n : Nat}
  {bytes : Bytes}

/-- What the process of thread `t` sees, with `h` for the file. -/
def view (m : Machine) (t : Tid) (h : Handle) : View := m.Sees (View.of h) t

theorem view_serve {r : DeviceRequest} (quiet : r.isQuiet = true) : (m.serve t r).2.view t h =
    View.of h (m.thread t).own (r.serve (m.thread t).own m.devices).2.2 := sees_serve (View.of h) quiet

theorem backed_view (space : (m.view t h).own.space? = some s) (backed : (m.view t h).backed = true) :
    s.Backed m.devices.pool := by
  change ((m.thread t).own.space?.all fun s => s.frames.all m.devices.pool.inUse) = true at backed
  change (m.thread t).own.space? = some s at space
  rw [space, Option.all_some, List.all_eq_true] at backed
  exact backed

theorem memory_view (space : (m.view t h).own.space? = some s) :
    (m.view t h).memory = fun a => s.byte? m.devices.pool a := by
  change (m.thread t).own.space? = some s at space
  funext a
  change ((m.thread t).own.space?.bind fun s => s.byte? m.devices.pool a) = _
  rw [space, Option.bind_some]

/-- A read takes the next bytes of the file. -/
theorem view_read (found : (m.view t h).file = some f) (short : f.data.length < positionLimit) (n : Nat) :
    (m.serve t (read h n)).1 = f.next n ∧ (m.serve t (read h n)).2.view t h =
      { m.view t h with file := some { f with position := f.position + (f.next n).length } } := by
  obtain ⟨data, moved⟩ := Volume.read_of_stream? found short n
  refine ⟨data, ?_⟩
  rw [view_serve rfl]
  exact congrArg (fun file => { m.view t h with file := file }) moved

theorem view_seek (found : (m.view t h).file = some f) (position : UInt32) :
    (m.serve t (seek h position)).2.view t h =
      { m.view t h with file := some { f with position := position.toNat } } := by
  rw [view_serve rfl]
  exact congrArg (fun file => { m.view t h with file := file }) (Volume.seek_of_stream? found position)

/-- A write puts its bytes into the file. -/
theorem view_write (found : (m.view t h).file = some f) (free : f.denied = false)
    (fits : f.position + bytes.length < positionLimit) : (m.serve t (write h bytes)).1 = bytes.length ∧
      ∃ data, Overwrites bytes f.position f.data data ∧ (m.serve t (write h bytes)).2.view t h =
        { m.view t h with file := some { f with data := data, position := f.position + bytes.length } } := by
  obtain ⟨count, data, puts, written⟩ := Volume.write_of_stream? found free bytes fits
  refine ⟨count, data, puts, ?_⟩
  rw [view_serve rfl]
  exact congrArg (fun file => { m.view t h with file := file }) written

theorem view_write_denied (found : (m.view t h).file = some f) (denied : f.denied = true) (bytes : Bytes) :
    (m.serve t (write h bytes)).1 = 0 ∧ (m.serve t (write h bytes)).2.view t h = m.view t h := by
  have nothing := Volume.write_of_stream?_denied found denied bytes
  refine ⟨congrArg Prod.fst nothing, ?_⟩
  rw [view_serve rfl]
  exact congrArg (fun out => { m.view t h with file := Volume.stream? out.2 h }) nothing

/-- Bytes are copied to user memory that was checked for them. -/
theorem view_copyOut (space : (m.view t h).own.space? = some s) (once : s.frames.Nodup)
    (backed : (m.view t h).backed = true) (checked : s.checkRange start bytes.length .write = .ok ()) :
    (m.serve t (copyOut start bytes)).1 = .ok () ∧ (m.serve t (copyOut start bytes)).2.view t h =
      { m.view t h with memory := overlay (m.view t h).memory start bytes } := by
  have held := backed_view space backed
  have copied := AddressSpace.byte?_copyOut once held checked
  have inUse := funext (AddressSpace.sameUse_copyOut s m.devices.pool start bytes).inUse
  have own : (m.thread t).own.space? = some s := space
  have served : (copyOut start bytes).serve (m.thread t).own m.devices =
      ((s.copyOut m.devices.pool start bytes).1, (m.thread t).own,
        { m.devices with pool := (s.copyOut m.devices.pool start bytes).2 }) := by
    simp only [DeviceRequest.serve, own]
  constructor
  · rw [serve_of_isQuiet rfl, served]
    exact AddressSpace.copyOut_of_checkRange m.devices.pool checked (Nat.le_refl _)
  · rw [memory_view space, ← copied, view_serve rfl, served]
    simp only [View.of, own, Option.bind_some, Option.all_some, inUse, view, Sees]

theorem view_copyIn (space : (m.view t h).own.space? = some s) (backed : (m.view t h).backed = true)
    (checked : s.checkRange start n .read = .ok ()) :
    (m.serve t (copyIn start n)).1 = .ok ((m.view t h).bytes start n) := by
  have own : (m.thread t).own.space? = some s := space
  have served : ((copyIn start n).serve (m.thread t).own m.devices).1 = s.copyIn m.devices.pool start n := by
    simp only [DeviceRequest.serve, onMemory, own]
  rw [serve_of_isQuiet rfl, served, AddressSpace.copyIn_eq (backed_view space backed) checked, View.bytes,
    memory_view space]

/-- A keyboard byte is taken. -/
theorem view_getByte (h : Handle) : (m.serve t getByte).1 = (m.view t h).console.getByte.1 ∧
    (m.serve t getByte).2.view t h = { m.view t h with console := (m.view t h).console.getByte.2 } := by
  rw [view_serve rfl]
  exact ⟨rfl, rfl⟩

theorem view_put (bytes : Bytes) : (m.serve t (put bytes)).2.view t h =
    { m.view t h with console := (m.view t h).console.put bytes } := by
  rw [view_serve rfl]
  rfl

end Machine

/-! ## Answers -/

section

variable {env : Environment} {t : Tid} {m : Machine} {α β : Type}

/-- Nobody holds the lock on the volume. -/
def Machine.VolumeFree (m : Machine) : Prop := (m.lock Kernel.volumeLock).holder = none

/-- If the lock on the volume is free and nobody else does anything, thread `t` comes to the end of a program,
    and the lock is free then. -/
def Answers (env : Environment) (t : Tid) (p : ThreadProgram α) : Prop :=
  ∀ m : Machine, m.VolumeFree → ∃ x m', Performs env (· = ·) t p m x m' ∧ m'.VolumeFree

theorem answers_pure (x : α) : Answers env t (pure x : ThreadProgram α) := fun m free => ⟨x, m, .pure x m, free⟩

theorem Answers.bind {p : ThreadProgram α} {f : α → ThreadProgram β} (first : Answers env t p)
    (rest : ∀ x, Answers env t (f x)) : Answers env t (p >>= f) := fun m free => by
  obtain ⟨x, m₁, performs, free₁⟩ := first m free
  obtain ⟨y, m₂, performs₂, free₂⟩ := rest x m₁ free₁
  exact ⟨y, m₂, performs.bind performs₂, free₂⟩

theorem answers_ask (r : DeviceRequest) : Answers env t (ThreadProgram.ask r) := fun m free =>
  ⟨_, _, .ask rfl rfl (.pure (m.serve t r).1 (m.serve t r).2), free⟩

/-- Requests that are served at once do not wait, and change no lock. -/
theorem performs_ofRoutine (env : Environment) (t : Tid) (p : Routine α) (m : Machine) :
    ∃ x m', Performs env (· = ·) t (ofRoutine p) m x m' ∧ m'.locks = m.locks := by
  induction p generalizing m with
  | pure x => exact ⟨x, m, .pure x m, rfl⟩
  | ask r next ih =>
    obtain ⟨x, m', performs, same⟩ := ih (m.serve t r).1 (m.serve t r).2
    exact ⟨x, m', .ask rfl rfl performs, same⟩

/-- The lock is free once it is released, whoever is woken then. -/
theorem performs_unlock (env : Environment) (t : Tid) (m : Machine) :
    ∃ m', Performs env (· = ·) t (unlock Kernel.volumeLock) m () m' ∧ m'.VolumeFree := by
  let released := m.setLock Kernel.volumeLock (m.lock Kernel.volumeLock).release.2
  have free : released.VolumeFree := by
    simp only [released, Machine.VolumeFree, Machine.lock, Machine.setLock, Array.getD_eq_getD_getElem?,
      Array.getElem?_setIfInBounds, if_true]
    split <;> rfl
  have done : m.attempt env t (.release Kernel.volumeLock) =
      .done (m.lock Kernel.volumeLock).release.1 released [] := rfl
  cases front : (m.lock Kernel.volumeLock).release.1 with
  | none =>
    rw [front] at done
    exact ⟨released, .ask done rfl (.pure () released), free⟩
  | some u =>
    rw [front] at done
    refine ⟨(released.wake u).1, .ask done rfl (.ask rfl rfl (.pure () _)), ?_⟩
    have same := (released.wake_frame u).2.2.2.1
    simp only [Machine.VolumeFree, Machine.lock] at free ⊢
    rwa [same]

theorem answers_withVolume (body : Routine α) : Answers env t (Kernel.withVolume body) := fun m free => by
  have holder : (m.lock Kernel.volumeLock).holder = none := free
  obtain ⟨taken, locked⟩ : ∃ taken, m.attempt env t (.lock Kernel.volumeLock) = .done () taken [] := by
    simp only [Machine.attempt, SleepLock.tryLock, holder]
    exact ⟨_, rfl⟩
  obtain ⟨x, m₂, inside, -⟩ := performs_ofRoutine env t body taken
  obtain ⟨m₃, unlocked, free₃⟩ := performs_unlock env t m₂
  exact ⟨x, m₃, .ask locked rfl (inside.bind (unlocked.bind (.pure x m₃))), free₃⟩

theorem answers_withFile (fd : Int32) (body : Handle → Routine α) : Answers env t (Kernel.withFile fd body) := by
  rw [Kernel.withFile]
  split
  · exact answers_pure _
  · refine (answers_ask _).bind fun found => ?_
    split
    · exact answers_pure _
    · exact (answers_withVolume _).bind fun _ => answers_pure _

end

end Userland

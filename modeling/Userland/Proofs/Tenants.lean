import Mathlib.Logic.Function.Basic
import Userland.Proofs.UserMemory

/-!
# Address spaces that share a pool

Any number of address spaces take their frames from one pool (`Tenants`), in any order of operations
(`Tenants.run`). What can be told of a space is told by the operations on it and their answers: which
frame was mapped at a page and how, and which bytes were stored since (`SpaceRecord`). A record knows no
pool. Mapping a frame of zeros and storing bytes keep a space as its record tells
(`AddressSpace.IsAsTold.install`, `AddressSpace.IsAsTold.store`).
-/

namespace Userland

/-! ## Operations -/

/-- Address spaces that share devices, and frames of theirs that are in no space. -/
structure Tenants where
  /-- The devices. -/
  devices : Devices
  /-- The spaces, by number; nothing in the place of one that was dropped. -/
  spaces : List (Option AddressSpace)
  /-- The frames that were handed out and are not mapped. -/
  held : List Frame

/-- What can be done with spaces and frames. -/
inductive TenantOp where
  /-- Make a space. -/
  | create
  /-- Take a frame from the pool. -/
  | allocate
  /-- Map a frame. -/
  | map (i : Nat) (page : VirtAddr) (f : Frame) (writable : Bool)
  /-- Give a frame back that is not mapped. -/
  | free (f : Frame)
  /-- Read bytes of a space. -/
  | read (i : Nat) (start : VirtAddr) (n : Nat)
  /-- Store bytes in a space. -/
  | write (i : Nat) (start : VirtAddr) (data : Bytes)
  /-- Drop a space. -/
  | drop (i : Nat)

/-- The answer to an operation. -/
inductive TenantReply where
  /-- There is no such space or frame. -/
  | missing
  /-- The number of a new space. -/
  | made (i : Nat)
  /-- A frame, if there was one left. -/
  | given (f : Option Frame)
  /-- Whether a frame was mapped. -/
  | mapped (result : Except MappingError Unit)
  /-- Bytes. -/
  | read (result : Except MappingError Bytes)
  /-- Whether all bytes were stored. -/
  | written (result : Except MappingError Unit)
  /-- Done. -/
  | done

namespace Tenants

open Routine

/-- The pool. -/
def pool (m : Tenants) : FramePool := m.devices.pool

/-- The space with a number. -/
def space? (m : Tenants) (i : Nat) : Option AddressSpace := (m.spaces[i]?).join

/-- Someone with a space and a frame in hand. -/
def holding (space : Option AddressSpace) (frame : Option Frame) : Belongings :=
  { Belongings.fresh 0 with hands := { Hands.empty with space := space, frame := frame } }

/-- Run a routine with a space and a frame in hand. -/
def handle {α : Type} (m : Tenants) (space : Option AddressSpace) (frame : Option Frame)
    (r : Routine α) : α × Hands × Devices :=
  let (x, b, d) := r.run (holding space frame) m.devices
  (x, b.hands, d)

/-- Map a frame in hand into a space. -/
def mapInto (m : Tenants) (i : Nat) (s : AddressSpace) (page : VirtAddr) (f : Frame)
    (writable : Bool) : TenantReply × Tenants :=
  let (result, hands, d) := m.handle (some s) (some f) (ask (.mapFrame page writable))
  (.mapped result, ⟨d, m.spaces.set i hands.space, m.held.erase f⟩)

/-- Perform an operation. -/
def perform (m : Tenants) : TenantOp → TenantReply × Tenants
  | .create =>
    let (_, hands, d) := m.handle none none (ask .newSpace)
    (.made m.spaces.length, { m with devices := d, spaces := m.spaces ++ [hands.space] })
  | .allocate =>
    let (_, hands, d) := m.handle none none (ask .allocate)
    (.given hands.frame, { m with devices := d, held := hands.frame.toList ++ m.held })
  | .map i page f writable =>
    match m.space? i with
    | some s => if f ∈ m.held then m.mapInto i s page f writable else (.missing, m)
    | none => (.missing, m)
  | .free f =>
    if f ∈ m.held then
      let (_, _, d) := m.handle none (some f) (ask .freeFrame)
      (.done, { m with devices := d, held := m.held.erase f })
    else (.missing, m)
  | .read i start n =>
    match m.space? i with
    | some s => (.read (s.readBytes m.pool start n), m)
    | none => (.missing, m)
  | .write i start data =>
    match m.space? i with
    | some s =>
      let (result, pool) := s.writeBytes m.pool start data
      (.written result, { m with devices := { m.devices with pool := pool } })
    | none => (.missing, m)
  | .drop i =>
    match m.space? i with
    | some s =>
      let (_, hands, d) := m.handle (some s) none Loader.releaseSpace
      (.done, { m with devices := d, spaces := m.spaces.set i hands.space })
    | none => (.missing, m)

end Tenants

/-! ## What the operations tell -/

/-- A space without a pool: what each page was mapped to, and whether for writing, and the byte at each
    address of a mapped page. -/
structure SpaceRecord where
  /-- The frame and the permission of each page, by number. -/
  pages : Nat → Option (Frame × Bool)
  /-- The byte at each address. -/
  byte : Nat → UInt8

namespace SpaceRecord

/-- Nothing is mapped. -/
def empty : SpaceRecord := ⟨fun _ => none, fun _ => 0⟩

/-- Page number `n` is mapped. It is all zeros. -/
def install (r : SpaceRecord) (n : Nat) (f : Frame) (writable : Bool) : SpaceRecord :=
  ⟨Function.update r.pages n (some (f, writable)), fun a => if a / pageSize = n then 0 else r.byte a⟩

/-- All pages from that of address `start` to that of address `stop` are mapped. -/
def mapsAll (r : SpaceRecord) (start stop : Nat) : Bool :=
  (List.range (stop / pageSize + 1)).all fun n => n < start / pageSize || (r.pages n).isSome

/-- Bytes are stored, up to the first page that is not mapped. -/
def store (r : SpaceRecord) (start : Nat) (data : Bytes) : SpaceRecord :=
  { r with byte := fun a =>
      if start ≤ a ∧ a < start + data.length ∧ r.mapsAll start a then (data[a - start]?).getD 0
      else r.byte a }

theorem pages_install (r : SpaceRecord) (n k : Nat) (f : Frame) (writable : Bool) :
    (r.install n f writable).pages k = if k = n then some (f, writable) else r.pages k :=
  Function.update_apply ..

theorem byte_install (r : SpaceRecord) (n a : Nat) (f : Frame) (writable : Bool) :
    (r.install n f writable).byte a = if a / pageSize = n then 0 else r.byte a := rfl

theorem pages_store (r : SpaceRecord) (start : Nat) (data : Bytes) :
    (r.store start data).pages = r.pages := rfl

theorem byte_store (r : SpaceRecord) (start a : Nat) (data : Bytes) :
    (r.store start data).byte a =
      if start ≤ a ∧ a < start + data.length ∧ r.mapsAll start a then (data[a - start]?).getD 0
      else r.byte a := rfl

theorem mapsAll_iff {r : SpaceRecord} {start stop : Nat} : r.mapsAll start stop = true ↔
    ∀ n, start / pageSize ≤ n → n ≤ stop / pageSize → (r.pages n).isSome = true := by
  simp only [mapsAll, List.all_eq_true, List.mem_range, Bool.or_eq_true, decide_eq_true_eq]
  constructor
  · intro all n first last
    exact (all n (by omega)).resolve_left (by omega)
  · intro all n lt
    rcases Nat.lt_or_ge n (start / pageSize) with before | after
    · exact .inl before
    · exact .inr (all n after (by omega))

end SpaceRecord

/-- What an operation and its answer tell of the spaces. -/
def TenantOp.told (told : Nat → SpaceRecord) : TenantOp → TenantReply → Nat → SpaceRecord
  | .create, .made i => Function.update told i .empty
  | .map i page f writable, .mapped (.ok ()) =>
    Function.update told i ((told i).install (page.toNat / pageSize) f writable)
  | .write i start data, .written _ => Function.update told i ((told i).store start.toNat data)
  | _, _ => told

namespace Tenants

/-- Devices of which no space and no frame has been taken. -/
def start (d : Devices) : Tenants := ⟨d, [], []⟩

/-- What operations lead to, one after the other, and what they tell. -/
def run (d : Devices) (ops : List TenantOp) : Tenants × (Nat → SpaceRecord) :=
  ops.foldl (fun (m, told) op => ((m.perform op).2, op.told told (m.perform op).1))
    (start d, fun _ => .empty)

end Tenants

/-- A space is as its record tells. -/
structure AddressSpace.IsAsTold (s : AddressSpace) (pool : FramePool) (r : SpaceRecord) : Prop where
  /-- An address resolves to what its page was mapped to, and to nothing if it was not mapped. -/
  translate : ∀ a, s.translate a =
    (r.pages (a.toNat / pageSize)).map fun (f, writable) => ⟨f, .ofUser writable⟩
  /-- Neither page 0 nor a page of the kernel is mapped. -/
  user : ∀ n, (r.pages n).isSome = true → 0 < n ∧ n < AddressSpace.userPages
  /-- The bytes of the mapped pages are those of the record. -/
  byte : ∀ a, s.byte? pool a = (r.pages (a.toNat / pageSize)).map fun _ => r.byte a.toNat

namespace AddressSpace

variable {s s' : AddressSpace} {pool pool' : FramePool} {f : Frame} {page : VirtAddr}
  {writable : Bool} {r : SpaceRecord} {n : Nat}

theorem IsAsTold.maps_iff (asTold : s.IsAsTold pool r) : s.Maps n ↔ (r.pages n).isSome = true := by
  have known (user : n < userPages) : s.Maps n ↔ (r.pages n).isSome = true := by
    have number : (pageAddress n).toNat / pageSize = n := number_of_lt user
    have told := asTold.translate (pageAddress n)
    rw [number] at told
    rw [← number, ← isSome_translate, told, number, Option.isSome_map]
  exact ⟨fun maps => (known maps.1).1 maps, fun some => (known (asTold.user n some).2).2 some⟩

theorem isAsTold_empty (root : Nat) (pool : FramePool) : (empty root).IsAsTold pool .empty where
  translate a := by
    rw [translate_eq, presentAt_empty]
    simp [SpaceRecord.empty]
  user n some := by cases some
  byte a := by
    rw [byte?, translate_eq, presentAt_empty]
    simp [SpaceRecord.empty]

theorem IsAsTold.congr (asTold : s.IsAsTold pool r)
    (same : ∀ f ∈ s.frames, pool'.page? f = pool.page? f) : s.IsAsTold pool' r :=
  ⟨asTold.translate, asTold.user, fun a => (byte?_congr same a).trans (asTold.byte a)⟩

theorem translate_map (mapped : s.map page f writable = .ok s') (a : VirtAddr) :
    s'.translate a = if a.toNat / pageSize = page.toNat / pageSize then
      some ⟨f, .ofUser writable⟩ else s.translate a := by
  obtain ⟨-, -, user, -⟩ := checkMappable_eq_ok.1 (map_eq_ok mapped).1
  rw [translate_eq, translate_eq, presentAt_map mapped]
  by_cases here : a.toNat / pageSize = page.toNat / pageSize
  · have user' : a.isUser = true := isUser_iff.2 (here ▸ isUser_iff.1 user)
    rw [if_pos user', if_pos here, if_pos here, Option.map_some, userEntry,
      PageEntry.translation_page]
  · rw [if_neg here, if_neg here]

/-- A frame of zeros is mapped as a page of zeros. -/
theorem IsAsTold.install (asTold : s.IsAsTold pool r) (mapped : s.map page f writable = .ok s')
    (blank : pool.page? f = some (Page.filled 0)) :
    s'.IsAsTold pool (r.install (page.toNat / pageSize) f writable) where
  translate a := by
    rw [translate_map mapped, SpaceRecord.pages_install, asTold.translate]
    split <;> rfl
  user n some := by
    obtain ⟨-, above, user, -⟩ := checkMappable_eq_ok.1 (map_eq_ok mapped).1
    rw [SpaceRecord.pages_install] at some
    split at some
    · rename_i here
      exact here ▸ ⟨Nat.div_pos above (by decide), isUser_iff.1 user⟩
    · exact asTold.user n some
  byte a := by
    rw [byte?, translate_map mapped, SpaceRecord.pages_install, SpaceRecord.byte_install]
    by_cases here : a.toNat / pageSize = page.toNat / pageSize
    · have zero : (Page.filled 0)[a.offset]? = some 0 := by simp [Page.filled, a.offset_lt]
      rw [if_pos here, if_pos here, if_pos here, Option.bind_some, blank, Option.bind_some, zero]
      rfl
    · rw [if_neg here, if_neg here, if_neg here]
      exact asTold.byte a

theorem IsAsTold.gets_iff (asTold : s.IsAsTold pool r) {start count x : Nat} :
    s.Gets start count x ↔ start ≤ x ∧ x < start + count ∧ r.mapsAll start x = true := by
  rw [SpaceRecord.mapsAll_iff]
  exact ⟨fun ⟨first, last, mapped⟩ =>
      ⟨first, last, fun n below above => asTold.maps_iff.1 (mapped n below above)⟩,
    fun ⟨first, last, mapped⟩ =>
      ⟨first, last, fun n below above => asTold.maps_iff.2 (mapped n below above)⟩⟩

/-- Bytes that are stored are told. -/
theorem IsAsTold.store (asTold : s.IsAsTold pool r) (once : s.frames.Nodup) (backed : s.Backed pool)
    (start : VirtAddr) (data : Bytes) :
    s.IsAsTold (s.writeBytes pool start data).2 (r.store start.toNat data) where
  translate := asTold.translate
  user := asTold.user
  byte a := by
    obtain ⟨reached, missed⟩ := byte?_writeFrom once backed start 0 data a
    rw [Nat.add_zero, asTold.gets_iff] at reached missed
    by_cases gets : start.toNat ≤ a.toNat ∧ a.toNat < start.toNat + data.length ∧
        r.mapsAll start.toNat a.toNat = true
    · have mapped := SpaceRecord.mapsAll_iff.1 gets.2.2 (a.toNat / pageSize)
        (Nat.div_le_div_right gets.1) (Nat.le_refl _)
      obtain ⟨place, found⟩ := Option.isSome_iff_exists.1 mapped
      have inside : a.toNat - start.toNat < data.length := by omega
      rw [writeBytes, reached gets, SpaceRecord.pages_store, SpaceRecord.byte_store, if_pos gets,
        found, Option.map_some, List.getElem?_eq_getElem inside, Option.getD_some]
    · rw [writeBytes, missed gets, SpaceRecord.pages_store, SpaceRecord.byte_store, if_neg gets]
      exact asTold.byte a

end AddressSpace

end Userland

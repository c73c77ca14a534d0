import Userland.Proofs.Requests

/-!
# Routines on files of any kind

What a routine comes to is settled by the devices, but files need not do as a volume's do: they may read
as they like, and have any length at any time. `Custody.Serves` says what a request may come to then, and
`Routine.Ends` what a routine may come to. A record is kept of the frames that the pool hands out and takes
back meanwhile (`Custody`).
-/

namespace Userland

/-! ## Counting frames -/

namespace FramePool

variable {pool pool' : FramePool} {f : Frame}

/-- Where the frames of a pool are in use. -/
def usage (pool : FramePool) : List Bool := pool.slots.toList.map (·.inUse)

theorem usedFrames_eq_count (pool : FramePool) : pool.usedFrames = pool.usage.count true := by
  rw [usedFrames, usage, ← Array.countP_toList, List.count, List.countP_map]
  refine List.countP_congr fun slot _ => ?_
  simp

theorem getElem?_usage (pool : FramePool) (f : Frame) :
    pool.usage[f.index]?.getD false = pool.inUse f := by
  simp [usage, inUse]

@[simp] theorem usage_modify (pool : FramePool) (f : Frame) (change : Page → Page) :
    (pool.modify f change).usage = pool.usage := by
  refine List.ext_getElem? fun i => ?_
  simp only [usage, modify, List.getElem?_map, Array.getElem?_toList, Array.getElem?_modify]
  split
  · cases pool.slots[i]? <;> rfl
  · rfl

theorem usage_release (pool : FramePool) (f : Frame) :
    (pool.release f).usage = pool.usage.set f.index false := by
  refine List.ext_getElem? fun i => ?_
  rw [List.getElem?_set']
  simp only [usage, release, List.getElem?_map, Array.getElem?_toList, Array.getElem?_modify]
  split
  · cases pool.slots[i]? <;> rfl
  · rfl

theorem usage_allocate? (given : pool.allocate? = some (f, pool')) :
    pool'.usage = pool.usage.set f.index true := by
  obtain ⟨-, -, rfl⟩ := allocate?_eq_some given
  simp [usage, List.map_set]

/-- A frame that is handed out counts. -/
theorem usedFrames_allocate? (given : pool.allocate? = some (f, pool')) :
    pool'.usedFrames = pool.usedFrames + 1 := by
  obtain ⟨inside, free, -⟩ := allocate?_eq_some given
  have inside : f.index < pool.usage.length := by simpa [usage] using inside
  have free : pool.usage[f.index] = false := by simpa [inside, ← getElem?_usage] using free
  rw [usedFrames_eq_count, usedFrames_eq_count, usage_allocate? given, List.count_set inside]
  simp [free]

/-- A frame that is given back counts no more. -/
theorem usedFrames_release (live : pool.inUse f = true) :
    (pool.release f).usedFrames + 1 = pool.usedFrames := by
  have inside : f.index < pool.usage.length := by simpa [usage] using lt_size_of_inUse live
  have used : pool.usage[f.index] = true := by simpa [inside, ← getElem?_usage] using live
  have counted : 0 < pool.usage.count true := List.count_pos_iff.2 (used ▸ List.getElem_mem inside)
  rw [usedFrames_eq_count, usedFrames_eq_count, usage_release, List.count_set inside]
  simp only [used, beq_self_eq_true, if_true, Bool.false_beq, Bool.not_true, Bool.false_eq_true, if_false]
  omega

@[simp] theorem usedFrames_modify (pool : FramePool) (f : Frame) (change : Page → Page) :
    (pool.modify f change).usedFrames = pool.usedFrames := by
  rw [usedFrames_eq_count, usedFrames_eq_count, usage_modify]

@[simp] theorem usedFrames_write (pool : FramePool) (f : Frame) (offset : Nat) (bs : Bytes) :
    (pool.write f offset bs).usedFrames = pool.usedFrames := usedFrames_modify ..

end FramePool

/-! ## The record of frames -/

namespace DeviceRequest

/-- The record is faithful: a frame is in use after a request if it was so before, or has been handed out,
    unless it has been given back. -/
theorem inUse_serve (r : DeviceRequest) (b : Belongings) (d : Devices) (f : Frame) :
    (r.serve b d).2.2.pool.inUse f = true ↔
      (d.pool.inUse f = true ∨ f ∈ r.handsOut d) ∧ f ∉ r.givesBack b := by
  have effect := poolEffect_serve r b d
  generalize (r.serve b d).2.2.pool = pool at effect ⊢
  have still (nothing : r.handsOut d = []) (none : r.givesBack b = []) :
      pool.inUse f = true ↔ (d.pool.inUse f = true ∨ f ∈ r.handsOut d) ∧ f ∉ r.givesBack b := by
    rw [(effect.sameUse nothing none).inUse f, nothing, none]
    simp
  cases effect with
  | same nothing none => exact still nothing none
  | copied | stored | written | filled | cleared => exact still rfl rfl
  | allocated given => simp [handsOut, givesBack, given, FramePool.inUse_allocate? given, or_comm]
  | released nothing given => simp [nothing, given, FramePool.inUse_release, and_comm]

end DeviceRequest

/-! ## Routines -/

/-- What a thread has and what the devices are like in the course of a routine, with a record of frames. -/
structure Custody where
  /-- What the thread has. -/
  own : Belongings
  /-- What the devices are like. -/
  devices : Devices
  /-- The frames that the pool has handed out, newest first. -/
  taken : List Frame
  /-- The frames that it has taken back, newest first. -/
  returned : List Frame

namespace Custody

/-- Nothing is recorded yet. -/
def start (b : Belongings) (d : Devices) : Custody := ⟨b, d, [], []⟩

/-- What a request comes to. -/
def after (c : Custody) (r : DeviceRequest) : Custody :=
  let (_, own, devices) := r.serve c.own c.devices
  ⟨own, devices, r.handsOut c.devices ++ c.taken, r.givesBack c.own ++ c.returned⟩

/-- What a request may come to if files are of any kind. -/
inductive Serves : (r : DeviceRequest) → Custody → r.Answer → Custody → Prop where
  /-- It is served as it is on a volume. -/
  | served (r : DeviceRequest) (c : Custody) : Serves r c (r.serve c.own c.devices).1 (c.after r)
  /-- A file gives any bytes, more or fewer than it was asked for, and its handle is at any position then. -/
  | read (h : Handle) (n : Nat) (c : Custody) (data : Bytes) (o : OpenFile) (position : UInt32) :
    c.devices.volume.opened? h = some o →
    Serves (.read h n) c data { c with
      devices := { c.devices with
        volume := c.devices.volume.setOpened h { o with position := position } }.note c.own.tid
          (.read (c.devices.volume.nameOf h) n data.length) }
  /-- A file has any length. -/
  | length (h : Handle) (c : Custody) (n : UInt32) : Serves (.length h) c n c

/-- Where files have no say, a request is served in one way. -/
theorem Serves.eq {r : DeviceRequest} {c c' : Custody} {answer : r.Answer} (h : Serves r c answer c')
    (read : ∀ h n, r ≠ .read h n) (length : ∀ h, r ≠ .length h) :
    answer = (r.serve c.own c.devices).1 ∧ c' = c.after r := by
  cases h with
  | served => exact ⟨rfl, rfl⟩
  | read h n => exact absurd rfl (read h n)
  | length h => exact absurd rfl (length h)

end Custody

namespace Routine

variable {α β : Type} {c c' c'' : Custody}

/-- What a routine may come to if files are of any kind. -/
inductive Ends : {α : Type} → Routine α → Custody → α → Custody → Prop where
  /-- It is over. -/
  | pure {α : Type} (x : α) (c : Custody) : Ends (Program.pure x) c x c
  /-- It makes a request and goes on with the answer. -/
  | ask {α : Type} {r : DeviceRequest} {next : r.Answer → Routine α} {c c' c'' : Custody}
    {answer : r.Answer} {x : α} : Custody.Serves r c answer c' → Ends (next answer) c' x c'' →
    Ends (Program.ask r next) c x c''

/-- What a routine comes to on a volume is one of the things that it may come to. -/
theorem ends_run (p : Routine α) (b : Belongings) (d : Devices) (taken returned : List Frame) :
    ∃ taken' returned', p.Ends ⟨b, d, taken, returned⟩ (p.run b d).1
      ⟨(p.run b d).2.1, (p.run b d).2.2, taken', returned'⟩ := by
  induction p generalizing b d taken returned with
  | pure x => exact ⟨taken, returned, .pure x _⟩
  | ask r next ih =>
    obtain ⟨taken', returned', ends⟩ := ih (r.serve b d).1 (r.serve b d).2.1 (r.serve b d).2.2
      (r.handsOut d ++ taken) (r.givesBack b ++ returned)
    exact ⟨taken', returned', .ask (.served r ⟨b, d, taken, returned⟩) ends⟩

theorem ends_pure {x y : α} : (pure x : Routine α).Ends c y c' ↔ y = x ∧ c' = c := by
  constructor
  · rintro ⟨⟩
    exact ⟨rfl, rfl⟩
  · rintro ⟨rfl, rfl⟩
    exact .pure _ _

theorem ends_ask {r : DeviceRequest} {answer : r.Answer} :
    (ask r).Ends c answer c' ↔ Custody.Serves r c answer c' := by
  constructor
  · intro ends
    cases ends with
    | ask serves rest =>
      cases rest
      exact serves
  · exact fun serves => .ask serves (.pure answer c')

/-- Where routines are put together, so are their ends. -/
theorem ends_bind {p : Routine α} {f : α → Routine β} {y : β} :
    (p >>= f).Ends c y c'' ↔ ∃ x c', p.Ends c x c' ∧ (f x).Ends c' y c'' := by
  change Ends (p.bind f) c y c'' ↔ _
  induction p generalizing c with
  | pure x =>
    refine ⟨fun ends => ⟨x, c, .pure x c, ends⟩, ?_⟩
    rintro ⟨_, _, ⟨⟩, ends⟩
    exact ends
  | ask r next ih =>
    constructor
    · intro ends
      cases ends with
      | ask serves rest =>
        obtain ⟨x, c', first, ends⟩ := (ih _).1 rest
        exact ⟨x, c', .ask serves first, ends⟩
    · rintro ⟨x, c', first, ends⟩
      cases first with
      | ask serves rest => exact .ask serves ((ih _).2 ⟨x, c', rest, ends⟩)

end Routine

end Userland

import Mathlib.Algebra.GroupWithZero.Nat
import Userland.Proofs.VolumeAccess

/-!
# Who denies writes

Each file counts the handles that deny writes to it. That count is what it should be: as many as there
are open handles on the file that deny writes to it, and those with which the run began
(`Volume.Tallied`). So a denial goes with the handle that denies, and each of these is one thread's.
-/

namespace Userland

/-- An open file that is file number `n` denies writes to it. -/
def OpenFile.denies (o : OpenFile) (n : Nat) : Bool := o.denying && decide (o.node = n)

namespace Volume

variable {v v' : Volume} {h : Handle} {base : Nat → Nat} {o : OpenFile} {n : Nat} {path : String}

/-- How many open handles deny writes to file number `n`. -/
def deniers (v : Volume) (n : Nat) : Nat := v.handles.countP fun slot => slot.any (·.denies n)

/-- How many of some handles deny writes to file number `n`. -/
def deniersAmong (v : Volume) (hs : List Handle) (n : Nat) : Nat :=
  hs.countP fun h => (v.opened? h).any (·.denies n)

/-- Where each open handle is listed once, what can be counted of the open files can be counted there. -/
theorem countP_handles {hs : List Handle} (once : hs.Nodup) (live : ∀ h, v.isOpen h = true ↔ h ∈ hs)
    (P : OpenFile → Bool) : v.handles.countP (·.any P) = hs.countP fun h => (v.opened? h).any P := by
  -- The list has the numbers of the open handles, maybe in another order.
  have numbers : (hs.map (·.index)).Perm ((List.range v.handles.size).filter fun i => v.isOpen ⟨i⟩) := by
    refine (List.perm_ext_iff_of_nodup (once.map fun _ _ same => congrArg Handle.mk same)
      (List.nodup_range.filter _)).2 fun i => ?_
    rw [List.mem_map, List.mem_filter, List.mem_range, live]
    constructor
    · rintro ⟨h, mem, rfl⟩
      refine ⟨?_, mem⟩
      obtain ⟨o, opened⟩ := Option.isSome_iff_exists.1 ((live h).2 mem)
      exact (Array.getElem?_eq_some_iff.1 (handles_of_opened? opened)).1
    · exact fun mem => ⟨⟨i⟩, mem.2, rfl⟩
  calc v.handles.countP (·.any P)
      = (List.range v.handles.size).countP fun i => (v.opened? ⟨i⟩).any P := by
        rw [← Array.countP_toList, ← AddressSpace.filterMap_range_getElem? v.handles.toList,
          List.countP_filterMap, Array.length_toList]
        refine List.countP_congr fun i _ => ?_
        rw [Array.getElem?_toList, opened?]
        cases v.handles[i]? <;> simp
    _ = ((List.range v.handles.size).filter fun i => v.isOpen ⟨i⟩).countP fun i => (v.opened? ⟨i⟩).any P := by
        rw [List.countP_filter]
        refine List.countP_congr fun i _ => ?_
        rw [isOpen]
        cases v.opened? ⟨i⟩ <;> simp
    _ = (hs.map (·.index)).countP fun i => (v.opened? ⟨i⟩).any P := (numbers.countP_eq _).symm
    _ = hs.countP fun h => (v.opened? h).any P := List.countP_map

/-- Where each open handle is listed once, those that are listed are all that deny. -/
theorem deniers_eq {hs : List Handle} (once : hs.Nodup) (live : ∀ h, v.isOpen h = true ↔ h ∈ hs) (n : Nat) :
    v.deniers n = v.deniersAmong hs n := countP_handles once live (·.denies n)

/-- Names and handles are those of files, and each file counts who denies writes to it. File number `n`
    was denied `base n` times before. -/
structure Tallied (base : Nat → Nat) (v : Volume) : Prop where
  /-- Each name is that of a file. -/
  names : ∀ entry ∈ v.directory, entry.2 < v.nodes.size
  /-- Each handle is on a file. -/
  handles : ∀ h o, v.opened? h = some o → o.node < v.nodes.size
  /-- What is not a file was not denied. -/
  unmade : ∀ n, v.nodes.size ≤ n → base n = 0
  /-- The count is right. -/
  count : ∀ n f, v.nodes[n]? = some f → f.denials = base n + v.deniers n

/-- What is open under a slot counts as it is. -/
theorem deniers_setIfInBounds (opened : v.opened? h = some o) (slot : Option OpenFile)
    (handles : v'.handles = v.handles.setIfInBounds h.index slot) (n : Nat) :
    v'.deniers n + (o.denies n).toNat = v.deniers n + (slot.any (·.denies n)).toNat := by
  obtain ⟨inside, atSlot⟩ := Array.getElem?_eq_some_iff.1 (handles_of_opened? opened)
  have counted : (o.denies n).toNat ≤ v.deniers n := by
    cases denies : o.denies n with
    | false => exact Nat.zero_le _
    | true => exact Array.countP_pos_iff.2 ⟨_, Array.getElem_mem inside, by rw [atSlot]; exact denies⟩
  simp only [deniers, handles, Array.setIfInBounds, inside, dif_pos] at counted ⊢
  rw [Array.countP_set inside, atSlot, Option.any_some]
  generalize v.handles.countP _ = count at counted ⊢
  generalize o.denies n = before at counted ⊢
  generalize slot.any (·.denies n) = after
  cases before <;> cases after <;>
    simp only [Bool.toNat_true, Bool.toNat_false, Bool.false_eq_true, if_true, if_false] at counted ⊢ <;>
    omega

theorem denies_le_deniers (opened : v.opened? h = some o) (n : Nat) : (o.denies n).toNat ≤ v.deniers n := by
  have counts := @deniers_setIfInBounds v { v with handles := v.handles.setIfInBounds h.index none } h o
    opened none rfl n
  simp only [Option.any_none, Bool.toNat_false, Nat.add_zero] at counts
  omega

/-- When the file that a handle has open counts one denial more or less, so does the handle. -/
theorem Tallied.change (h' : v.Tallied base) (opened : v.opened? h = some o) (slot : Option OpenFile)
    (handles : v'.handles = v.handles.setIfInBounds h.index slot)
    (node : ∀ o', slot = some o' → o'.node = o.node) (directory : v'.directory = v.directory)
    (size : v'.nodes.size = v.nodes.size)
    (nodes : ∀ n f', v'.nodes[n]? = some f' → ∃ f, v.nodes[n]? = some f ∧
      ((o.denies n).toNat ≤ f.denials →
        f'.denials + (o.denies n).toNat = f.denials + (slot.any (·.denies n)).toNat)) :
    v'.Tallied base where
  names := by rw [directory, size]; exact h'.names
  handles g o' opened' := by
    rw [size]
    simp only [opened?, handles, Array.getElem?_setIfInBounds] at opened'
    split at opened'
    · split at opened'
      · rw [node o' (by simpa using opened')]
        exact h'.handles h o opened
      · cases opened'
    · exact h'.handles g o' opened'
  unmade := by rw [size]; exact h'.unmade
  count n f' found := by
    obtain ⟨f, before, changes⟩ := nodes n f' found
    have count := h'.count n f before
    have le := denies_le_deniers opened n
    have counts := deniers_setIfInBounds opened slot handles n
    have := changes (by omega)
    omega

/-- A handle may change in any way that does not concern its denial. -/
theorem Tallied.setOpened (h' : v.Tallied base) (opened : v.opened? h = some o) {o' : OpenFile}
    (node : o'.node = o.node) (denying : o'.denying = o.denying) : (v.setOpened h o').Tallied base := by
  refine h'.change opened (some o') rfl (fun o'' same => Option.some.inj same ▸ node) rfl rfl
    fun n f' found => ⟨f', found, fun _ => ?_⟩
  simp [OpenFile.denies, node, denying]

/-- A file may change together with a handle on it. -/
theorem Tallied.modifyNode (h' : v.Tallied base) (opened : v.opened? h = some o) {o' : OpenFile}
    {change : FileNode → FileNode} (node : o'.node = o.node)
    (changes : ∀ f, o.denying.toNat ≤ f.denials →
      (change f).denials + o.denying.toNat = f.denials + o'.denying.toNat) :
    ((v.modifyNode o.node change).setOpened h o').Tallied base := by
  refine h'.change opened (some o') rfl (fun o'' same => Option.some.inj same ▸ node) rfl
    (Array.size_modify ..) fun n f' found => ?_
  simp only [Volume.setOpened, Volume.modifyNode, Array.getElem?_modify] at found
  split at found
  · rename_i same
    obtain ⟨f, before, rfl⟩ := Option.map_eq_some_iff.1 found
    exact ⟨f, before, fun le => by simpa [OpenFile.denies, node, same] using changes f (by
      simpa [OpenFile.denies, same] using le)⟩
  · rename_i other
    exact ⟨f', found, fun _ => by simp [OpenFile.denies, node, other]⟩

/-! ## Operations -/

/-- No handle is on a file that is new. -/
theorem Tallied.add (h' : v.Tallied base) {f : FileNode} (fresh : f.denials = 0) : (v.add f).Tallied base := by
  -- No handle has hold of a file with the number of the new one.
  have unused : v.deniers v.nodes.size = 0 := by
    refine Array.countP_eq_zero.2 fun slot mem => ?_
    obtain ⟨i, inside, rfl⟩ := Array.mem_iff_getElem.1 mem
    cases slot : v.handles[i] with
    | none => simp
    | some o =>
      have := h'.handles ⟨i⟩ o (by simp [opened?, Array.getElem?_eq_getElem inside, slot])
      simp [OpenFile.denies, Nat.ne_of_lt this]
  have more : (v.nodes.push f).size = v.nodes.size + 1 := Array.size_push ..
  constructor
  · intro entry mem
    simp only [Volume.add, more]
    rcases List.mem_cons.1 mem with rfl | mem
    · exact Nat.lt_succ_self _
    · exact Nat.lt_succ_of_lt (h'.names entry (List.mem_of_mem_filter mem))
  · intro g o opened
    simp only [Volume.add, more]
    exact Nat.lt_succ_of_lt (h'.handles g o opened)
  · intro n le
    simp only [Volume.add, more] at le
    exact h'.unmade n (Nat.le_of_succ_le le)
  · intro n g found
    simp only [Volume.add, Array.getElem?_push] at found
    split at found
    · rename_i new
      obtain rfl := Option.some.inj found
      subst new
      rw [h'.unmade _ (Nat.le_refl _), fresh]
      exact (Nat.zero_add _).symm.trans (congrArg (0 + ·) unused).symm
    · exact h'.count n g found

theorem Tallied.create (h' : v.Tallied base) (path : String) (size : UInt32) :
    (v.create path size).2.Tallied base := by
  unfold Volume.create
  split
  · exact h'
  · exact h'.add rfl

theorem Tallied.remove (h' : v.Tallied base) (path : String) : (v.remove path).2.Tallied base := by
  unfold Volume.remove
  split
  · exact ⟨fun entry mem => h'.names entry (List.mem_of_mem_filter mem), h'.handles, h'.unmade, h'.count⟩
  · exact h'

/-- A handle that is new denies nothing. -/
theorem Tallied.openFile? (h' : v.Tallied base) (given : v.openFile? path = some (h, v')) :
    v'.Tallied base := by
  simp only [Volume.openFile?, Option.map_eq_some_iff, Prod.mk.injEq] at given
  obtain ⟨i, named, rfl, rfl⟩ := given
  have named : (path, i) ∈ v.directory := by
    obtain ⟨before, after, same, -⟩ := List.lookup_eq_some_iff.1 named
    simp [same]
  refine ⟨h'.names, fun g o opened => ?_, h'.unmade, fun n f found => ?_⟩
  · simp only [opened?, Array.getElem?_push] at opened
    split at opened
    · obtain rfl : _ = o := by simpa using opened
      exact h'.names _ named
    · exact h'.handles g o opened
  · rw [h'.count n f found]
    simp [deniers, OpenFile.denies]

theorem Tallied.read (h' : v.Tallied base) (h : Handle) (n : Nat) : (v.read h n).2.Tallied base := by
  unfold Volume.read
  split
  · rename_i opened _
    exact h'.setOpened opened rfl rfl
  · exact h'

theorem Tallied.write (h' : v.Tallied base) (h : Handle) (data : Bytes) :
    (v.write h data).2.Tallied base := by
  unfold Volume.write
  split
  · rename_i opened _
    split
    · exact h'
    · exact h'.modifyNode opened rfl fun f _ => rfl
  · exact h'

theorem Tallied.seek (h' : v.Tallied base) (h : Handle) (position : UInt32) :
    (v.seek h position).Tallied base := by
  unfold Volume.seek
  split
  · rename_i opened
    exact h'.setOpened opened rfl rfl
  · exact h'

theorem Tallied.deny (h' : v.Tallied base) (h : Handle) : (v.deny h).Tallied base := by
  unfold Volume.deny
  split
  · rename_i o opened
    split
    · exact h'
    · rename_i silent
      exact h'.modifyNode opened rfl fun f _ => by simp [silent]
  · exact h'

theorem Tallied.allow (h' : v.Tallied base) (h : Handle) : (v.allow h).Tallied base := by
  unfold Volume.allow
  split
  · rename_i o opened
    split
    · rename_i denying
      refine h'.modifyNode opened rfl fun f some => ?_
      simp only [denying, Bool.toNat_true, Bool.toNat_false] at some ⊢
      omega
    · exact h'
  · exact h'

/-- A handle whose denial has been taken back denies nothing. -/
theorem opened?_allow (opened : v.opened? h = some o) :
    ∃ o', (v.allow h).opened? h = some o' ∧ o'.denying = false := by
  obtain ⟨inside, -⟩ := Array.getElem?_eq_some_iff.1 (handles_of_opened? opened)
  unfold Volume.allow
  simp only [opened]
  split
  · exact ⟨{ o with denying := false }, by
      simp [opened?, Volume.setOpened, Volume.modifyNode, inside], rfl⟩
  · rename_i silent
    exact ⟨o, opened, by simpa using silent⟩

theorem Tallied.close (h' : v.Tallied base) (h : Handle) : (v.close h).Tallied base := by
  unfold Volume.close
  split
  · rename_i o opened
    obtain ⟨o', opened', silent⟩ := opened?_allow opened
    exact (h'.allow h).change opened' none rfl nofun rfl rfl fun n f' found =>
      ⟨f', found, fun _ => by simp [OpenFile.denies, silent]⟩
  · exact h'

end Volume

/-! ## Runs -/

open DeviceRequest in
/-- Whatever is asked for, files count who denies writes to them. -/
theorem DeviceRequest.tallied_serve {base : Nat → Nat} (r : DeviceRequest) (b : Belongings) {d : Devices}
    (h : d.volume.Tallied base) : (r.serve b d).2.2.volume.Tallied base := by
  cases r with
  | openFile path =>
    simp only [serve]
    split
    · rename_i opened
      exact h.openFile? opened
    · exact h
  | create path size => exact h.create path size
  | remove path => exact h.remove path
  | read file n => exact h.read file n
  | write file data => exact h.write file data
  | seek file position => exact h.seek file position
  | deny file => exact h.deny file
  | allow file => exact h.allow file
  | close file => exact h.close file
  | tell | length => exact h
  | _ =>
    rw [volume_serve rfl]
    exact h

namespace Scenario

variable {x : Scenario}

/-- How often each file is denied when the run begins. -/
def denials (x : Scenario) (n : Nat) : Nat := ((x.nodes[n]?).map (·.denials)).getD 0

/-- At all times each file counts who denies writes to it, if names are those of files. -/
theorem tallied_at (names : ∀ entry ∈ x.directory, entry.2 < x.nodes.size) (turns : ℕ → Turn) (i : ℕ) :
    (x.machineAt turns i).devices.volume.Tallied x.denials := by
  induction i with
  | zero =>
    refine ⟨names, nofun, fun n le => ?_, fun n f found => ?_⟩
    · rw [denials, Array.getElem?_eq_none (show x.nodes.size ≤ n from le)]
      rfl
    · rw [denials, show x.nodes[n]? = some f from found]
      rfl
  | succ i ih =>
    rcases Machine.volume_turn x.environment (x.machineAt turns i) (turns i) with
      same | ⟨t, r, next, -, -, volume⟩
    · exact same.symm ▸ ih
    · exact volume.symm ▸ r.tallied_serve _ ih

/-- If nobody else has a handle, these threads are all that deny. -/
theorem denials_eq (names : ∀ entry ∈ x.directory, entry.2 < x.nodes.size) {turns : ℕ → Turn} {i : ℕ}
    {l : List Tid} (distinct : l.Nodup)
    (others : ∀ t, t ∉ l → ((x.machineAt turns i).thread t).own.handles = []) {n : Nat} {f : FileNode}
    (found : (x.machineAt turns i).devices.volume.nodes[n]? = some f) :
    f.denials = x.denials n + (l.map fun t => (x.machineAt turns i).devices.volume.deniersAmong
      ((x.machineAt turns i).thread t).own.handles n).sum := by
  have handles := (x.sound turns i).handles
  rw [(x.tallied_at names turns i).count n f found,
    Volume.deniers_eq (handles.nodup_flatMap distinct) fun h => ?_]
  · exact congrArg _ List.countP_flatMap
  · rw [handles.live, List.mem_flatMap]
    refine exists_congr fun t => (and_iff_right_of_imp fun mem => ?_).symm
    by_contra away
    rw [others t away] at mem
    cases mem

end Scenario

end Userland

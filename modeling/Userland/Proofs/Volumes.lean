import Mathlib.Tactic.Common
import Userland.Files.Volume

/-!
# The volume, operation by operation

Two things are told of a volume. The first is which handles are open (`Volume.isOpen`): only opening
and closing change that, and the volume counts them (`Volume.Counted`). The second is what a handle
reads (`Volume.Reads`): the bytes of its file from its position on, as far as the file goes, and the
position moves past them (`Volume.Reads.read`).
-/

namespace Userland

namespace Contents

variable {c : Contents} {start n i : Nat}

/-- The extents that reach into a range hold what the file holds there. -/
theorem get_within (lt : i < n) : (c.within start n).get (start + i) = c.get (start + i) := by
  have covering : (fun e : Extent => decide (e.start < start + n && start < e.start + e.length &&
      e.covers (start + i))) = fun e => e.covers (start + i) := by
    funext e
    simp only [Extent.covers]
    grind
  have same : (c.within start n).extents.find? (·.covers (start + i)) =
      c.extents.find? (·.covers (start + i)) := by
    rw [within, List.find?_filter]
    simpa using congrArg (c.extents.find? ·) covering
  simp only [get, same]

@[simp] theorem length_read (c : Contents) (start n : Nat) : (c.read start n).length = n := by
  simp [read]

/-- Reading gives the bytes one after the other. -/
theorem getElem?_read (c : Contents) (start n i : Nat) :
    (c.read start n)[i]? = if i < n then some (c.get (start + i)) else none := by
  by_cases lt : i < n
  · simp [read, lt, get_within]
  · simp [read, lt]

end Contents

namespace Volume

variable {v v' : Volume} {h g : Handle} {f : FileNode} {path : String} {pos : Nat}

theorem index_injective {h g : Handle} (same : h.index = g.index) : h = g := by
  cases h
  cases g
  cases same
  rfl

/-! ## Open handles -/

/-- Whether a handle is open. -/
def isOpen (v : Volume) (h : Handle) : Bool := (v.opened? h).isSome

/-- The number that the volume keeps is the number of its open handles. -/
def Counted (v : Volume) : Prop := v.openHandles = v.handles.countP (·.isSome)

/-- Neither which handles are open nor whether they are counted differs. -/
structure SameOpen (v v' : Volume) : Prop where
  /-- The same handles are open. -/
  isOpen : ∀ g, v'.isOpen g = v.isOpen g
  /-- They are counted if they were. -/
  counted : v.Counted → v'.Counted

theorem SameOpen.refl (v : Volume) : v.SameOpen v := ⟨fun _ => rfl, id⟩

theorem SameOpen.trans {v₁ v₂ v₃ : Volume} (h : v₁.SameOpen v₂) (h' : v₂.SameOpen v₃) :
    v₁.SameOpen v₃ :=
  ⟨fun g => (h'.isOpen g).trans (h.isOpen g), h'.counted ∘ h.counted⟩

theorem handles_of_opened? {o : OpenFile} (opened : v.opened? h = some o) :
    v.handles[h.index]? = some (some o) := by
  simp only [opened?] at opened
  cases found : v.handles[h.index]? with
  | none => simp [found] at opened
  | some slot => simpa [found] using opened

/-- What is open under a slot may change as long as the slot stays in use. -/
theorem sameOpen_setOpened {o : OpenFile} (opened : v.opened? h = some o) (o' : OpenFile) :
    v.SameOpen (v.setOpened h o') := by
  have slot := handles_of_opened? opened
  obtain ⟨inside, atSlot⟩ := Array.getElem?_eq_some_iff.1 slot
  constructor
  · intro g
    simp only [isOpen, opened?, setOpened, Array.getElem?_setIfInBounds]
    split
    · rename_i same
      simp [← same, inside, atSlot]
    · rfl
  · intro counted
    simp only [Counted, setOpened, Array.setIfInBounds, inside, dif_pos] at *
    have : 0 < v.handles.countP (·.isSome) :=
      Array.countP_pos_iff.2 ⟨_, Array.getElem_mem inside, by rw [atSlot]; rfl⟩
    rw [Array.countP_set inside, atSlot, counted]
    simp only [Option.isSome_some, if_true]
    omega

theorem sameOpen_modifyNode (v : Volume) (i : Nat) (change : FileNode → FileNode) :
    v.SameOpen (v.modifyNode i change) := ⟨fun _ => rfl, id⟩

theorem sameOpen_create (v : Volume) (path : String) (size : UInt32) :
    v.SameOpen (v.create path size).2 := by
  unfold create
  split
  · exact .refl v
  · exact ⟨fun _ => rfl, id⟩

theorem sameOpen_remove (v : Volume) (path : String) : v.SameOpen (v.remove path).2 := by
  unfold remove
  split
  · exact ⟨fun _ => rfl, id⟩
  · exact .refl v

theorem sameOpen_read (v : Volume) (h : Handle) (n : Nat) : v.SameOpen (v.read h n).2 := by
  unfold read
  split
  · rename_i opened _
    exact sameOpen_setOpened opened _
  · exact .refl v

theorem sameOpen_write (v : Volume) (h : Handle) (data : Bytes) :
    v.SameOpen (v.write h data).2 := by
  unfold write
  split
  · rename_i o f opened _
    split
    · exact .refl v
    · exact (sameOpen_modifyNode v o.node _).trans
        (sameOpen_setOpened (v := v.modifyNode o.node _) opened _)
  · exact .refl v

theorem sameOpen_seek (v : Volume) (h : Handle) (position : UInt32) :
    v.SameOpen (v.seek h position) := by
  unfold seek
  split
  · rename_i opened
    exact sameOpen_setOpened opened _
  · exact .refl v

theorem sameOpen_deny (v : Volume) (h : Handle) : v.SameOpen (v.deny h) := by
  unfold deny
  split
  · rename_i o opened
    split
    · exact .refl v
    · exact (sameOpen_modifyNode v o.node _).trans
        (sameOpen_setOpened (v := v.modifyNode o.node _) opened _)
  · exact .refl v

theorem sameOpen_allow (v : Volume) (h : Handle) : v.SameOpen (v.allow h) := by
  unfold allow
  split
  · rename_i o opened
    split
    · exact (sameOpen_modifyNode v o.node _).trans
        (sameOpen_setOpened (v := v.modifyNode o.node _) opened _)
    · exact .refl v
  · exact .refl v

/-- Opening gives a handle that was not open and is now. -/
theorem openFile?_eq_some (given : v.openFile? path = some (h, v')) :
    v.isOpen h = false ∧ (∀ g, v'.isOpen g = (decide (g = h) || v.isOpen g)) ∧
      (v.Counted → v'.Counted) := by
  simp only [openFile?, Option.map_eq_some_iff, Prod.mk.injEq] at given
  obtain ⟨i, -, rfl, rfl⟩ := given
  refine ⟨by simp [isOpen, opened?], fun g => ?_, fun counted => ?_⟩
  · simp only [isOpen, opened?, Array.getElem?_push]
    by_cases new : g.index = v.handles.size
    · have : g = ⟨v.handles.size⟩ := index_injective new
      simp [this]
    · have : g ≠ ⟨v.handles.size⟩ := fun same => new (congrArg Handle.index same)
      simp [new, this]
  · simpa [Counted] using counted

/-- Closing closes one handle. -/
theorem isOpen_close (v : Volume) (h g : Handle) :
    (v.close h).isOpen g = (!decide (g = h) && v.isOpen g) := by
  unfold close
  split
  · have same := (sameOpen_allow v h).isOpen g
    by_cases closed : g = h
    · subst closed
      simp [isOpen, opened?, Array.getElem?_setIfInBounds]
      split <;> simp
    · have : h.index ≠ g.index := fun e => closed (index_injective e.symm)
      simpa [isOpen, opened?, Array.getElem?_setIfInBounds, closed, this] using same
  · rename_i shut
    by_cases closed : g = h
    · subst closed
      simp [isOpen, shut]
    · simp [closed]

theorem Counted.close (counted : v.Counted) (h : Handle) : (v.close h).Counted := by
  unfold Volume.close
  split
  · rename_i o opened
    have allowed := (sameOpen_allow v h).counted counted
    have open' := (sameOpen_allow v h).isOpen h
    rw [isOpen, isOpen, opened, Option.isSome_some, Option.isSome_iff_exists] at open'
    obtain ⟨o', opened'⟩ := open'
    obtain ⟨inside, atSlot⟩ := Array.getElem?_eq_some_iff.1 (handles_of_opened? opened')
    have kept : (v.allow h).openHandles = v.openHandles := by
      unfold allow modifyNode setOpened
      split <;> [split <;> rfl; rfl]
    simp only [Counted, Array.setIfInBounds, inside, dif_pos] at *
    rw [Array.countP_set inside, atSlot, ← allowed, kept]
    simp
  · exact counted

/-- A volume that counts its handles counts none if none is open. -/
theorem Counted.openHandles_eq_zero (counted : v.Counted) :
    v.openHandles = 0 ↔ ∀ h, v.isOpen h = false := by
  rw [counted, Array.countP_eq_zero]
  constructor
  · intro none h
    cases found : v.handles[h.index]? with
    | none => simp [isOpen, opened?, found]
    | some slot => simpa [isOpen, opened?, found] using none slot (Array.mem_of_getElem? found)
  · intro shut slot mem
    obtain ⟨i, inside, rfl⟩ := Array.mem_iff_getElem.1 mem
    simpa [isOpen, opened?, Array.getElem?_eq_getElem inside] using shut ⟨i⟩

/-! ## Reading -/

/-- The file under a name. -/
def file? (v : Volume) (path : String) : Option FileNode := (v.lookup path).bind (v.nodes[·]?)

/-- Handle `h` is at position `pos` of a file that holds what `f` holds. -/
def Reads (v : Volume) (h : Handle) (f : FileNode) (pos : Nat) : Prop :=
  ∃ o g, v.opened? h = some o ∧ v.nodes[o.node]? = some g ∧ o.position.toNat = pos ∧
    g.contents = f.contents ∧ g.size = f.size ∧ g.endless = f.endless

theorem reads_setOpened {o : OpenFile} {g : FileNode} (opened : v.opened? h = some o)
    (node : v.nodes[o.node]? = some g) (position : UInt32) :
    (v.setOpened h { o with position := position }).Reads h g position.toNat := by
  obtain ⟨inside, -⟩ := Array.getElem?_eq_some_iff.1 (handles_of_opened? opened)
  exact ⟨{ o with position := position }, g, by simp [setOpened, opened?, inside], node, rfl, rfl,
    rfl, rfl⟩

/-- The file that is opened under a name is read from its start. -/
theorem reads_openFile? (given : v.openFile? path = some (h, v')) (file : v.file? path = some f) :
    v'.Reads h f 0 := by
  obtain ⟨i, named, node⟩ := Option.bind_eq_some_iff.1 file
  simp only [openFile?, named, Option.map_some, Option.some.injEq, Prod.mk.injEq] at given
  obtain ⟨rfl, rfl⟩ := given
  exact ⟨⟨i, 0, false⟩, f, by simp [opened?], node, rfl, rfl, rfl, rfl⟩

theorem Reads.deny (reads : v.Reads h f pos) : (v.deny h).Reads h f pos := by
  obtain ⟨o, g, opened, node, position, contents, size, endless⟩ := reads
  obtain ⟨inside, -⟩ := Array.getElem?_eq_some_iff.1 (handles_of_opened? opened)
  unfold Volume.deny
  rw [opened]
  by_cases denying : o.denying = true
  · simp only [denying, if_true]
    exact ⟨o, g, opened, node, position, contents, size, endless⟩
  · refine ⟨{ o with denying := true }, { g with denials := g.denials + 1 }, ?_, ?_, position,
      contents, size, endless⟩
    · simp [denying, opened?, setOpened, modifyNode, inside]
    · simp [denying, setOpened, modifyNode, Array.getElem?_modify, node]

theorem Reads.seek (reads : v.Reads h f pos) (position : UInt32) :
    (v.seek h position).Reads h f position.toNat := by
  obtain ⟨o, g, opened, node, -, contents, size, endless⟩ := reads
  unfold Volume.seek
  rw [opened]
  obtain ⟨o', g', opened', node', position', contents', size', endless'⟩ :=
    reads_setOpened opened node position
  exact ⟨o', g', opened', node', position', contents'.trans contents, size'.trans size,
    endless'.trans endless⟩

/-- A file that has an end and no byte past the greatest position is read as far as it goes, and the
    position moves as far. -/
theorem Reads.read (reads : v.Reads h f pos) (finite : f.endless = false)
    (short : f.size < positionLimit) (n : Nat) :
    (v.read h n).1 = f.contents.read pos (min n (f.size - pos)) ∧
      (v.read h n).2.Reads h f (pos + min n (f.size - pos)) := by
  obtain ⟨o, g, opened, node, rfl, contents, size, endless⟩ := reads
  have available : g.available o.position n = min n (f.size - o.position.toNat) := by
    simp [FileNode.available, endless, finite, size]
  have moved : (o.position + UInt32.ofNat (min n (f.size - o.position.toNat))).toNat =
      o.position.toNat + min n (f.size - o.position.toNat) := by
    have := o.position.toNat_lt
    rw [UInt32.toNat_add, UInt32.toNat_ofNat']
    simp only [positionLimit] at short
    omega
  have file : v.node? h = some g := by rw [node?, opened, Option.bind_some, node]
  simp only [Volume.read, opened, file, available, contents, true_and]
  obtain ⟨o', g', opened', node', position', contents', size', endless'⟩ :=
    reads_setOpened opened node (o.position + UInt32.ofNat (min n (f.size - o.position.toNat)))
  exact ⟨o', g', opened', node', position'.trans moved, contents'.trans contents,
    size'.trans size, endless'.trans endless⟩

/-- Nothing is read where there is no file. -/
theorem read_of_node?_eq_none (absent : v.node? h = none) (n : Nat) : (v.read h n).1 = [] := by
  simp [Volume.read, absent]

/-- A name without a file opens nothing, or a handle under which there is no file. -/
theorem node?_openFile? (given : v.openFile? path = some (h, v')) (file : v.file? path = none) :
    v'.node? h = none := by
  obtain ⟨i, named, same⟩ := Option.map_eq_some_iff.1 given
  simp only [Prod.mk.injEq] at same
  obtain ⟨rfl, rfl⟩ := same
  rw [file?, named, Option.bind_some] at file
  simp [node?, opened?, file]

theorem node?_deny (absent : v.node? h = none) : (v.deny h).node? h = none := by
  unfold Volume.deny
  cases opened : v.opened? h with
  | none => exact absent
  | some o =>
    obtain ⟨inside, -⟩ := Array.getElem?_eq_some_iff.1 (handles_of_opened? opened)
    rw [node?, opened, Option.bind_some] at absent
    by_cases denying : o.denying = true
    · simpa [denying, node?, opened] using absent
    · simp [denying, node?, opened?, setOpened, modifyNode, Array.getElem?_modify, absent, inside]

/-! ## Lengths -/

/-- Position and denial of a handle do not matter for the length of its file. -/
theorem length_setOpened {o : OpenFile} (opened : v.opened? h = some o) (position : UInt32)
    (denying : Bool) (g : Handle) :
    (v.setOpened h ⟨o.node, position, denying⟩).length g = v.length g := by
  obtain ⟨inside, -⟩ := Array.getElem?_eq_some_iff.1 (handles_of_opened? opened)
  by_cases here : g = h
  · subst here
    have changed : (v.setOpened g ⟨o.node, position, denying⟩).opened? g =
        some ⟨o.node, position, denying⟩ := by
      simp [setOpened, opened?, inside]
    simp only [length, node?, opened, changed, Option.bind_some]
    rfl
  · have other : h.index ≠ g.index := fun e => here (index_injective e.symm)
    simp [length, node?, setOpened, opened?, other]

/-- A change that leaves the size and the claimed length of a file alone changes no length. -/
theorem length_modifyNode {change : FileNode → FileNode}
    (same : ∀ f, (change f).length = f.length) (v : Volume) (i : Nat) (g : Handle) :
    (v.modifyNode i change).length g = v.length g := by
  simp only [length, node?, modifyNode, opened?]
  cases (v.handles[g.index]?).join with
  | none => rfl
  | some o =>
    simp only [Option.bind_some, Array.getElem?_modify]
    split
    · cases v.nodes[o.node]? <;> simp [same]
    · rfl

theorem length_read (v : Volume) (h : Handle) (n : Nat) (g : Handle) :
    (v.read h n).2.length g = v.length g := by
  unfold read
  split
  · rename_i opened _
    exact length_setOpened opened _ _ g
  · rfl

theorem length_deny (v : Volume) (h : Handle) (g : Handle) : (v.deny h).length g = v.length g := by
  unfold deny
  split
  · rename_i o opened
    split
    · rfl
    · have opened' : (v.modifyNode o.node fun f => { f with denials := f.denials + 1 }).opened? h =
          some o := opened
      rw [length_setOpened opened']
      refine length_modifyNode ?_ v o.node g
      exact fun _ => rfl
  · rfl

/-- A handle has the length of the file that was opened. -/
theorem length_openFile? (given : v.openFile? path = some (h, v')) (file : v.file? path = some f) :
    v'.length h = f.length := by
  obtain ⟨i, named, node⟩ := Option.bind_eq_some_iff.1 file
  simp only [openFile?, named, Option.map_some, Option.some.injEq, Prod.mk.injEq] at given
  obtain ⟨rfl, rfl⟩ := given
  simp [length, node?, opened?, node]

end Volume

end Userland

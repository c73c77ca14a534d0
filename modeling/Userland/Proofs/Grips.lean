import Userland.Proofs.Denials

/-!
# What handles have hold of

A handle has hold of a file, and may deny writes to it (`Volume.grip?`). It keeps both until it is closed,
unless a denial is placed or taken back with that very handle, whatever is asked for
(`DeviceRequest.gripEffect_serve`). A file changes when it is written, and not as long as it is denied
(`DeviceRequest.node_serve`).
-/

namespace Userland

namespace Volume

variable {v : Volume} {h g : Handle} {n : Nat} {o : OpenFile} {f : FileNode} {b : Bool}

/-- What a handle has hold of: the number of its file, and whether it denies writes to it. -/
def grip? (v : Volume) (h : Handle) : Option (Nat × Bool) := (v.opened? h).map fun o => (o.node, o.denying)

theorem grip?_eq_some : v.grip? h = some (n, b) ↔ ∃ o, v.opened? h = some o ∧ o.node = n ∧ o.denying = b := by
  simp [grip?, Option.map_eq_some_iff]

theorem isSome_grip? (v : Volume) (h : Handle) : (v.grip? h).isSome = v.isOpen h := Option.isSome_map

/-- When a handle is changed, only that handle is. -/
theorem grip?_setOpened (opened : v.opened? h = some o) (o' : OpenFile) (g : Handle) :
    (v.setOpened h o').grip? g = if g = h then some (o'.node, o'.denying) else v.grip? g := by
  obtain ⟨inside, -⟩ := Array.getElem?_eq_some_iff.1 (handles_of_opened? opened)
  split
  · next same => simp [grip?, opened?, setOpened, same, inside]
  · next other =>
    have apart : h.index ≠ g.index := fun same => other (index_injective same.symm)
    simp [grip?, opened?, setOpened, apart]

/-- A change of the position does not matter. -/
theorem grip?_position (opened : v.opened? h = some o) (position : UInt32) (g : Handle) :
    (v.setOpened h { o with position := position }).grip? g = v.grip? g := by
  rw [grip?_setOpened opened]
  split
  · next same => rw [grip?, same, opened, Option.map_some]
  · rfl

theorem grip?_read (v : Volume) (h : Handle) (count : Nat) (g : Handle) :
    (v.read h count).2.grip? g = v.grip? g := by
  unfold read
  split
  · next opened _ => exact grip?_position opened _ g
  · rfl

theorem grip?_write (v : Volume) (h : Handle) (data : Bytes) (g : Handle) :
    (v.write h data).2.grip? g = v.grip? g := by
  unfold write
  split
  · next o f opened _ =>
    split
    · rfl
    · exact @grip?_position (v.modifyNode o.node _) h o opened _ g
  · rfl

theorem grip?_seek (v : Volume) (h : Handle) (position : UInt32) (g : Handle) :
    (v.seek h position).grip? g = v.grip? g := by
  unfold seek
  split
  · next opened => exact grip?_position opened _ g
  · rfl

/-- A handle that denies writes has hold of the same file. -/
theorem grip?_deny (v : Volume) (h g : Handle) :
    (v.deny h).grip? g = if g = h then (v.grip? g).map fun p => (p.1, true) else v.grip? g := by
  unfold deny
  split
  · next o opened =>
    have has : v.grip? h = some (o.node, o.denying) := by rw [grip?, opened, Option.map_some]
    split
    · next denying =>
      split
      · next same => rw [same, has, denying, Option.map_some]
      · rfl
    · rw [@grip?_setOpened (v.modifyNode o.node _) h o opened]
      split
      · next same => rw [same, has, Option.map_some]
      · rfl
  · next shut =>
    split
    · next same => rw [same, grip?, shut, Option.map_none, Option.map_none]
    · rfl

/-- So has one whose denial is taken back. -/
theorem grip?_allow (v : Volume) (h g : Handle) :
    (v.allow h).grip? g = if g = h then (v.grip? g).map fun p => (p.1, false) else v.grip? g := by
  unfold allow
  split
  · next o opened =>
    have has : v.grip? h = some (o.node, o.denying) := by rw [grip?, opened, Option.map_some]
    split
    · rw [@grip?_setOpened (v.modifyNode o.node _) h o opened]
      split
      · next same => rw [same, has, Option.map_some]
      · rfl
    · next silent =>
      split
      · next same => rw [same, has, Option.map_some, eq_false_of_ne_true silent]
      · rfl
  · next shut =>
    split
    · next same => rw [same, grip?, shut, Option.map_none, Option.map_none]
    · rfl

/-- A handle that is closed has hold of nothing. -/
theorem grip?_close (v : Volume) (h g : Handle) :
    (v.close h).grip? g = if g = h then none else v.grip? g := by
  unfold close
  split
  · next o opened =>
    split
    · next same => simp [grip?, opened?, Array.getElem?_setIfInBounds, same]; split <;> simp
    · next other =>
      have apart : h.index ≠ g.index := fun same => other (index_injective same.symm)
      have kept : (v.allow h).grip? g = v.grip? g := (grip?_allow v h g).trans (if_neg other)
      rw [← kept]
      simp [grip?, opened?, apart]
  · next shut =>
    split
    · next same => rw [same, grip?, shut, Option.map_none]
    · rfl

/-- A handle that is new has hold of a file and does not deny writes to it. -/
theorem grip?_openFile? {path : String} {v' : Volume} (given : v.openFile? path = some (h, v')) (g : Handle) :
    v.grip? h = none ∧ ∃ n, v.lookup path = some n ∧
      v'.grip? g = if g = h then some (n, false) else v.grip? g := by
  simp only [openFile?, Option.map_eq_some_iff, Prod.mk.injEq] at given
  obtain ⟨n, named, rfl, rfl⟩ := given
  refine ⟨by simp [grip?, opened?], n, named, ?_⟩
  split
  · next same => simp [grip?, opened?, same]
  · next other =>
    have apart : g.index ≠ v.handles.size := fun same => other (index_injective same)
    simp [grip?, opened?, Array.getElem?_push, apart]

/-! ## Files -/

/-- A file that is denied at least as often as a handle denies is denied. -/
theorem Tallied.denied {base : Nat → Nat} (tallied : v.Tallied base) (grips : v.grip? h = some (n, true)) :
    ∃ f, v.nodes[n]? = some f ∧ 0 < f.denials := by
  obtain ⟨o, opened, rfl, denying⟩ := grip?_eq_some.1 grips
  have inside := tallied.handles h o opened
  refine ⟨v.nodes[o.node], Array.getElem?_eq_getElem inside, ?_⟩
  have counted := tallied.count o.node _ (Array.getElem?_eq_getElem inside)
  have one := denies_le_deniers opened o.node
  rw [OpenFile.denies, denying, decide_eq_true rfl, Bool.and_true, Bool.toNat_true] at one
  omega

/-- If no handle denies writes to a file it is denied as often as before. -/
theorem Tallied.undenied {base : Nat → Nat} (tallied : v.Tallied base)
    (nobody : ∀ h, v.grip? h ≠ some (n, true)) (found : v.nodes[n]? = some f) : f.denials = base n := by
  rw [tallied.count n f found, deniers, Array.countP_eq_zero.2, Nat.add_zero]
  intro slot mem denies
  obtain ⟨i, inside, rfl⟩ := Array.mem_iff_getElem.1 mem
  cases slot : v.handles[i] with
  | none =>
    rw [slot] at denies
    cases denies
  | some o =>
    rw [slot, Option.any_some, OpenFile.denies, Bool.and_eq_true, decide_eq_true_eq] at denies
    refine nobody ⟨i⟩ (grip?_eq_some.2 ⟨o, ?_, denies.2, denies.1⟩)
    rw [opened?, Array.getElem?_eq_getElem inside, slot]
    rfl

theorem node_modifyNode {change : FileNode → FileNode} {i : Nat} (found : v.nodes[n]? = some f)
    (same : ∀ f, ∃ m, change f = { f with denials := m }) :
    ∃ m, (v.modifyNode i change).nodes[n]? = some { f with denials := m } := by
  rw [modifyNode, Array.getElem?_modify]
  split
  · obtain ⟨m, changed⟩ := same f
    exact ⟨m, by rw [found, Option.map_some, changed]⟩
  · exact ⟨f.denials, found⟩

theorem node_deny (found : v.nodes[n]? = some f) (h : Handle) :
    ∃ m, (v.deny h).nodes[n]? = some { f with denials := m } := by
  unfold deny
  split
  · split
    · exact ⟨f.denials, found⟩
    · exact node_modifyNode found fun f => ⟨f.denials + 1, rfl⟩
  · exact ⟨f.denials, found⟩

theorem node_allow (found : v.nodes[n]? = some f) (h : Handle) :
    ∃ m, (v.allow h).nodes[n]? = some { f with denials := m } := by
  unfold allow
  split
  · split
    · exact node_modifyNode found fun f => ⟨f.denials - 1, rfl⟩
    · exact ⟨f.denials, found⟩
  · exact ⟨f.denials, found⟩

theorem node_close (found : v.nodes[n]? = some f) (h : Handle) :
    ∃ m, (v.close h).nodes[n]? = some { f with denials := m } := by
  unfold close
  split
  · exact node_allow found h
  · exact ⟨f.denials, found⟩

/-- A write with a handle on another file, or while the file is denied, leaves it as it is. -/
theorem node_write (found : v.nodes[n]? = some f) (h : Handle) (data : Bytes)
    (denied : (∃ b, v.grip? h = some (n, b)) → 0 < f.denials) :
    (v.write h data).2.nodes[n]? = some f := by
  unfold write
  split
  · next o g opened node =>
    rw [node?, opened, Option.bind_some] at node
    split
    · exact found
    · next free =>
      refine (Array.getElem?_modify ..).trans ((if_neg ?_).trans found)
      rintro rfl
      obtain rfl := Option.some.inj (node.symm.trans found)
      exact free (denied ⟨o.denying, by rw [grip?, opened, Option.map_some]⟩)
  · exact found

/-- A write to a file that is denied changes nothing. -/
theorem write_eq_of_denied (grips : v.grip? h = some (n, b)) (found : v.nodes[n]? = some f)
    (denied : 0 < f.denials) (data : Bytes) : v.write h data = (0, v) := by
  obtain ⟨o, opened, rfl, -⟩ := grip?_eq_some.1 grips
  have node : v.node? h = some f := by rw [node?, opened, Option.bind_some, found]
  simp only [write, opened, node, if_pos denied]

theorem write_of_denied (grips : v.grip? h = some (n, b)) (found : v.nodes[n]? = some f) (denied : 0 < f.denials)
    (data : Bytes) : (v.write h data).1 = 0 :=
  congrArg Prod.fst (write_eq_of_denied grips found denied data)

/-- A write to a file that is not denied is taken as far as files of the volume grow. -/
theorem write_of_free (grips : v.grip? h = some (n, b)) (found : v.nodes[n]? = some f) (free : f.denials = 0)
    (data : Bytes) : (v.write h data).1 = v.growth.taken (v.tell h) data.length := by
  obtain ⟨o, opened, rfl, -⟩ := grip?_eq_some.1 grips
  have node : v.node? h = some f := by rw [node?, opened, Option.bind_some, found]
  simp [write, opened, node, free, tell]

end Volume

namespace DeviceRequest

variable {r : DeviceRequest} {b : Belongings} {d : Devices} {h : Handle} {n : Nat} {f : FileNode}

/-- What a request may make of what a handle has hold of. -/
inductive GripEffect (v : Volume) (h : Handle) : DeviceRequest → Option (Nat × Bool) → Prop where
  /-- It stays as it is. -/
  | same {r : DeviceRequest} : GripEffect v h r (v.grip? h)
  /-- The handle denies writes from now on. -/
  | denied : GripEffect v h (deny h) ((v.grip? h).map fun p => (p.1, true))
  /-- It allows them again. -/
  | allowed : GripEffect v h (allow h) ((v.grip? h).map fun p => (p.1, false))
  /-- The handle is closed. -/
  | closed : GripEffect v h (close h) none
  /-- The handle is new. -/
  | opened {r : DeviceRequest} {n : Nat} : v.grip? h = none → GripEffect v h r (some (n, false))

/-- Serving a request has such an effect on each handle. -/
theorem gripEffect_serve (r : DeviceRequest) (b : Belongings) (d : Devices) (h : Handle) :
    GripEffect d.volume h r ((r.serve b d).2.2.volume.grip? h) := by
  have kept {r : DeviceRequest} {grip : Option (Nat × Bool)} (same : grip = d.volume.grip? h) :
      GripEffect d.volume h r grip := same ▸ .same
  cases goes : r.onVolume with
  | false => exact kept (by rw [volume_serve goes])
  | true =>
    cases r with
    | openFile path =>
      simp only [serve]
      split
      · next g v' given =>
-- A new handle had hold of nothing before, and old ones keep what they have hold of.
        obtain ⟨new, n, -, grips⟩ := Volume.grip?_openFile? given h
        by_cases same : h = g
        · rw [if_pos same] at grips
          change GripEffect _ h _ (v'.grip? h)
          rw [grips]
          exact .opened (same ▸ new)
        · exact kept (grips.trans (if_neg same))
      · exact .same
    | create path size =>
      refine kept ?_
      change (d.volume.create path size).2.grip? h = _
      unfold Volume.create
      split <;> rfl
    | remove path =>
      refine kept ?_
      change (d.volume.remove path).2.grip? h = _
      unfold Volume.remove
      split <;> rfl
    | read g count => exact kept (Volume.grip?_read d.volume g count h)
    | write g data => exact kept (Volume.grip?_write d.volume g data h)
    | seek g position => exact kept (Volume.grip?_seek d.volume g position h)
    | tell | length => exact .same
    | deny g =>
      have grips := Volume.grip?_deny d.volume g h
      change GripEffect _ h _ ((d.volume.deny g).grip? h)
      by_cases same : h = g
      · subst same
        rw [grips, if_pos rfl]
        exact .denied
      · exact kept (grips.trans (if_neg same))
    | allow g =>
      have grips := Volume.grip?_allow d.volume g h
      change GripEffect _ h _ ((d.volume.allow g).grip? h)
      by_cases same : h = g
      · subst same
        rw [grips, if_pos rfl]
        exact .allowed
      · exact kept (grips.trans (if_neg same))
    | close g =>
      have grips := Volume.grip?_close d.volume g h
      change GripEffect _ h _ ((d.volume.close g).grip? h)
      by_cases same : h = g
      · subst same
        rw [grips, if_pos rfl]
        exact .closed
      · exact kept (grips.trans (if_neg same))
    | _ => cases goes

/-- A file is as it was, save for how often it is denied, if it is not written or is denied. -/
theorem node_serve (found : d.volume.nodes[n]? = some f)
    (denied : ∀ g data, r = .write g data → (∃ c, d.volume.grip? g = some (n, c)) → 0 < f.denials) :
    ∃ m, (r.serve b d).2.2.volume.nodes[n]? = some { f with denials := m } := by
  have still : ∃ m, d.volume.nodes[n]? = some { f with denials := m } := ⟨f.denials, found⟩
  cases goes : r.onVolume with
  | false => rwa [volume_serve goes]
  | true =>
    cases r with
    | openFile path =>
      simp only [serve]
      split
      · next given =>
        simp only [Volume.openFile?, Option.map_eq_some_iff, Prod.mk.injEq] at given
        obtain ⟨-, -, -, rfl⟩ := given
        exact still
      · exact still
    | create path size =>
      change ∃ m, (d.volume.create path size).2.nodes[n]? = _
      unfold Volume.create
      split
      · exact still
      · obtain ⟨inside, -⟩ := Array.getElem?_eq_some_iff.1 found
        refine ⟨f.denials, (Array.getElem?_push ..).trans ((if_neg ?_).trans found)⟩
        exact Nat.ne_of_lt inside
    | remove path =>
      change ∃ m, (d.volume.remove path).2.nodes[n]? = _
      unfold Volume.remove
      split <;> exact still
    | read g count =>
      change ∃ m, (d.volume.read g count).2.nodes[n]? = _
      unfold Volume.read
      split <;> exact still
    | write g data => exact ⟨f.denials, Volume.node_write found g data (denied g data rfl)⟩
    | seek g position =>
      change ∃ m, (d.volume.seek g position).nodes[n]? = _
      unfold Volume.seek
      split <;> exact still
    | tell | length => exact still
    | deny g => exact Volume.node_deny found g
    | allow g => exact Volume.node_allow found g
    | close g => exact Volume.node_close found g
    | _ => cases goes

end DeviceRequest

end Userland

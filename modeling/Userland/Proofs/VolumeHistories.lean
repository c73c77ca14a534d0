import Userland.Proofs.HeldHandles

/-!
# Histories of a volume

What was done with a volume says by itself which files were made (`VolumeDesk.made`), which of them has a name
(`VolumeDesk.named`), which was opened under a number (`VolumeDesk.opened`), and whether writes to it were
denied under that number and not allowed since (`VolumeDesk.denying`). Each operation leaves volume and
handles as its history has them (`VolumeDesk.Records.perform`), and so does every history
(`VolumeDesk.records_after`). A script is answered accordingly (`VolumeDesk.getElem?_performAll`).
-/

namespace Userland

namespace VolumeDesk

/-! ## What a history says -/

mutual

/-- How many files were made. -/
def made : List VolumeOp → Nat
  | [] => 0
  | .add _ _ :: past => made past + 1
  | .create path _ :: past => if (named past path).isSome then made past else made past + 1
  | _ :: past => made past

/-- The file that has a name: the last that was made under it, if the name was not taken away since. Files
    are numbered in the order in which they were made. -/
def named : List VolumeOp → String → Option Nat
  | [], _ => none
  | .add path _ :: past, name => if name = path then some (made past) else named past name
  | .create path _ :: past, name =>
    if name = path then (named past path).or (some (made past)) else named past name
  | .remove path :: past, name => if name = path then none else named past name
  | _ :: past, name => named past name

end

/-- The file that was opened under a number, if it was not closed since. -/
def opened : List VolumeOp → Nat → Option Nat
  | [], _ => none
  | .openFile path i :: past, k => if k = i then (named past path).or (opened past k) else opened past k
  | .close i :: past, k => if k = i then none else opened past k
  | _ :: past, k => opened past k

/-- Whether writes were denied under a number, and not allowed since, and no other file was opened there. -/
def denying : List VolumeOp → Nat → Bool
  | [], _ => false
  | .deny i :: past, k => if k = i then (opened past k).isSome else denying past k
  | .allow i :: past, k => if k = i then false else denying past k
  | .openFile path i :: past, k => if k = i ∧ (named past path).isSome then false else denying past k
  | _ :: past, k => denying past k

/-- The numbers that deny writes to a file. -/
def deniers (past : List VolumeOp) (n : Nat) : Set Nat := {k | opened past k = some n ∧ denying past k = true}

/-- The desk after a history, of which the last operation is the first in the list. -/
def after : List VolumeOp → VolumeDesk
  | [] => ⟨.empty .unbounded, []⟩
  | op :: past => (op.perform (after past)).2

/-! ## The desk as its history has it -/

/-- Names, files and handles are as a history says. -/
structure Records (past : List VolumeOp) (desk : VolumeDesk) : Prop where
  /-- All bytes that are written are taken. -/
  growth : desk.volume.growth = .unbounded
  /-- Each file counts the handles that deny writes to it. -/
  tallied : desk.volume.Tallied fun _ => 0
  /-- The open handles are counted. -/
  counted : desk.volume.Counted
  /-- Files are those that were made. -/
  size : desk.volume.nodes.size = made past
  /-- Their names are as the history says. -/
  names : ∀ name, desk.volume.lookup name = named past name
  /-- Open handles are held. -/
  holds : desk.Holds []
  /-- What they have hold of is as the history says. -/
  grips : ∀ k, desk.grip? k = (opened past k).map (·, denying past k)

section Steps

variable {past : List VolumeOp} {desk : VolumeDesk} {op : VolumeOp} {v : Volume} {i k n : Nat} {h : Handle}

theorem Records.grip?_eq (records : Records past desk) (found : opened past k = some n) :
    desk.grip? k = some (n, denying past k) := by
  rw [records.grips, found, Option.map_some]

/-- An operation that makes no file and takes no name. -/
theorem Records.onVolume (records : Records past desk) (files : desk.volume.SameFiles v)
    (same : desk.volume.SameOpen v) (tallied : v.Tallied fun _ => 0)
    (made_eq : made (op :: past) = made past) (named_eq : named (op :: past) = named past)
    (grips : ∀ k, (VolumeDesk.mk v desk.held).grip? k = (opened (op :: past) k).map (·, denying (op :: past) k)) :
    Records (op :: past) ⟨v, desk.held⟩ where
  growth := files.growth.trans records.growth
  tallied := tallied
  counted := same.counted records.counted
  size := (files.size.trans records.size).trans made_eq.symm
  names name := by rw [named_eq, ← records.names, Volume.lookup, files.directory, Volume.lookup]
  holds := records.holds.sameOpen same
  grips := grips

/-- An operation that does not concern denials either. -/
theorem Records.quiet (records : Records past desk) (files : desk.volume.SameFiles v)
    (same : desk.volume.SameOpen v) (tallied : v.Tallied fun _ => 0)
    (made_eq : made (op :: past) = made past) (named_eq : named (op :: past) = named past)
    (opened_eq : opened (op :: past) = opened past) (denying_eq : denying (op :: past) = denying past)
    (grips : ∀ g, v.grip? g = desk.volume.grip? g) : Records (op :: past) ⟨v, desk.held⟩ := by
  refine records.onVolume files same tallied made_eq named_eq fun k => ?_
  rw [opened_eq, denying_eq, ← records.grips, grip?, grip?, funext grips]

theorem Records.idle (records : Records past desk)
    (made_eq : made (op :: past) = made past) (named_eq : named (op :: past) = named past)
    (opened_eq : opened (op :: past) = opened past) (denying_eq : denying (op :: past) = denying past) :
    Records (op :: past) desk :=
  records.quiet (.refl _) (.refl _) records.tallied made_eq named_eq opened_eq denying_eq fun _ => rfl

/-- A file that is made gets the next number. -/
theorem Records.add (records : Records past desk) {f : FileNode} (fresh : f.denials = 0)
    (made_eq : made (op :: past) = made past + 1)
    (named_eq : ∀ name, named (op :: past) name = if name = f.name then some (made past) else named past name)
    (opened_eq : opened (op :: past) = opened past) (denying_eq : denying (op :: past) = denying past) :
    Records (op :: past) ⟨desk.volume.add f, desk.held⟩ where
  growth := records.growth
  tallied := records.tallied.add fresh
  counted := records.counted
  size := (Array.size_push ..).trans ((congrArg (· + 1) records.size).trans made_eq.symm)
  names name := by rw [Volume.lookup_add, named_eq, records.size, records.names]
  holds := records.holds.sameOpen ⟨fun _ => rfl, id⟩
  grips := by
    rw [opened_eq, denying_eq]
    exact records.grips

theorem Records.create (records : Records past desk) (path : String) (size : UInt32) :
    Records (.create path size :: past) ⟨(desk.volume.create path size).2, desk.held⟩ := by
  cases taken : named past path with
  -- A name that is taken keeps its file.
  | some n =>
    have refused : (desk.volume.create path size).2 = desk.volume := by
      rw [Volume.create, records.names, taken]
      rfl
    rw [refused]
    refine records.idle ?_ (funext fun name => ?_) rfl rfl
    · simp [made, taken]
    · simp only [named, taken, Option.some_or]
      split
      · next same => rw [same, taken]
      · rfl
  | none =>
    have created : (desk.volume.create path size).2 =
        desk.volume.add (FileNode.ofContents path Contents.zero size.toNat) := by
      rw [Volume.create, records.names, taken]
      rfl
    rw [created]
    refine records.add rfl ?_ (fun name => ?_) rfl rfl
    · simp [made, taken]
    · rw [named, taken, Option.none_or]
      rfl

theorem Records.remove (records : Records past desk) (path : String) :
    Records (.remove path :: past) ⟨(desk.volume.remove path).2, desk.held⟩ where
  growth := by
    unfold Volume.remove
    split <;> exact records.growth
  tallied := records.tallied.remove path
  counted := (Volume.sameOpen_remove desk.volume path).counted records.counted
  size := by
    unfold Volume.remove
    split <;> exact records.size
  names name := by rw [Volume.lookup_remove, records.names, named]
  holds := records.holds.sameOpen (Volume.sameOpen_remove desk.volume path)
  grips k := by
    refine Eq.trans ?_ (records.grips k)
    unfold Volume.remove
    split <;> rfl

/-- A handle that is closed has hold of nothing. -/
theorem Records.close (records : Records past desk) (i : Nat) :
    Records (.close i :: past) (VolumeOp.drop desk i) where
  growth := (sameFiles_drop desk i).growth.trans records.growth
  tallied := tallied_drop desk records.tallied i
  counted := counted_drop desk records.counted i
  size := (sameFiles_drop desk i).size.trans records.size
  names name := by
    rw [Volume.lookup, (sameFiles_drop desk i).directory]
    exact records.names name
  holds := records.holds.drop i
  grips k := by
    rw [records.holds.grip?_drop, records.grips, opened]
    split <;> rfl

/-- A handle that is opened has hold of the file that has the name, and denies nothing. What was under its
    number is closed. -/
theorem Records.openFile (records : Records past desk) (path : String) (i : Nat) :
    Records (.openFile path i :: past) ((VolumeOp.openFile path i).perform desk).2 := by
  cases given : desk.volume.openFile? path with
  | none =>
    have untaken : named past path = none := by
      rw [← records.names]
      exact Option.map_eq_none_iff.1 given
    simp only [VolumeOp.perform, given]
    refine records.idle rfl rfl (funext fun k => ?_) (funext fun k => ?_)
    · rw [opened, untaken, Option.none_or, ite_self]
    · rw [denying, untaken, Option.isSome_none, if_neg fun both => Bool.false_ne_true both.2]
  | some result =>
    obtain ⟨h, v⟩ := result
    have files := Volume.sameFiles_openFile? given
    have dropped := sameFiles_drop ⟨v, desk.held⟩ i
    have loose := records.holds.openFile? given
    obtain ⟨-, n, taken, grips⟩ := Volume.grip?_openFile? given h
    rw [if_pos rfl] at grips
    rw [records.names] at taken
    -- The new handle is open before the old one is closed, and held only afterwards.
    have unused : (VolumeOp.drop ⟨v, desk.held⟩ i).held.lookup i = none :=
      (lookup_drop ⟨v, desk.held⟩ i i).trans (if_pos rfl)
    simp only [VolumeOp.perform, given]
    refine ⟨dropped.growth.trans (files.growth.trans records.growth),
      tallied_drop ⟨v, desk.held⟩ (records.tallied.openFile? given) i,
      counted_drop ⟨v, desk.held⟩ ((Volume.openFile?_eq_some given).2.2 records.counted) i,
      dropped.size.trans (files.size.trans records.size), fun name => ?_, (loose.drop i).keep unused,
      fun k => ?_⟩
    · rw [Volume.lookup, dropped.directory, files.directory]
      exact records.names name
    · rw [grip?, lookup_cons_eq, opened, denying, taken]
      by_cases here : k = i
      · rw [if_pos here, if_pos here, if_pos ⟨here, rfl⟩]
        exact (loose.grip?_drop_loose (List.mem_singleton_self h) i).trans grips
      · rw [if_neg here, if_neg here, if_neg fun both => here both.1, ← records.grips]
        exact (loose.grip?_drop i k).trans ((if_neg here).trans (records.holds.grip?_openFile? given k))

/-- What is done with a handle may move its position and change its file. -/
theorem Records.uses (records : Records past desk) {f : Handle → VolumeReply × Volume} (i : Nat)
    (files : ∀ h, desk.volume.SameFiles (f h).2) (same : ∀ h, desk.volume.SameOpen (f h).2)
    (tallied : ∀ h, (f h).2.Tallied fun _ => 0) (grips : ∀ h g, (f h).2.grip? g = desk.volume.grip? g)
    (made_eq : made (op :: past) = made past) (named_eq : named (op :: past) = named past)
    (opened_eq : opened (op :: past) = opened past) (denying_eq : denying (op :: past) = denying past) :
    Records (op :: past) (VolumeOp.withHandle desk i f).2 := by
  unfold VolumeOp.withHandle
  split
  · next h _ =>
    exact records.quiet (files h) (same h) (tallied h) made_eq named_eq opened_eq denying_eq (grips h)
  · exact records.idle made_eq named_eq opened_eq denying_eq

/-- Denials are placed and taken back under a number whose handle is open. -/
theorem Records.sets (records : Records past desk) {change : Handle → Volume} (i : Nat) (b : Bool)
    (files : ∀ h, desk.volume.SameFiles (change h)) (same : ∀ h, desk.volume.SameOpen (change h))
    (tallied : ∀ h, (change h).Tallied fun _ => 0)
    (grips : ∀ h g, (change h).grip? g =
      if g = h then (desk.volume.grip? g).map fun p => (p.1, b) else desk.volume.grip? g)
    (made_eq : made (op :: past) = made past) (named_eq : named (op :: past) = named past)
    (opened_eq : opened (op :: past) = opened past)
    (denying_eq : ∀ k n, opened past k = some n →
      denying (op :: past) k = if k = i then b else denying past k) :
    Records (op :: past) (VolumeOp.withHandle desk i fun h => (.nothing, change h)).2 := by
  -- Whether the number is in use or not, the history tells the change as one of what it has hold of.
  have told (k : Nat) : (opened (op :: past) k).map (·, denying (op :: past) k) =
      if k = i then (desk.grip? k).map fun p => (p.1, b) else desk.grip? k := by
    rw [opened_eq, records.grips]
    cases found : opened past k with
    | none => simp
    | some n =>
      rw [denying_eq k n found]
      split <;> rfl
  unfold VolumeOp.withHandle
  split
  · next h found =>
    refine records.onVolume (files h) (same h) (tallied h) made_eq named_eq fun k => ?_
    rw [told, records.holds.grip?_set found (grips h)]
  · next unused =>
    refine records.onVolume (.refl _) (.refl _) records.tallied made_eq named_eq fun k => ?_
    rw [told]
    split
    · next same =>
      have none : desk.grip? i = none := by rw [grip?, unused, Option.bind_none]
      rw [same, none, Option.map_none]
    · rfl

/-- Each operation leaves the desk as the history says that has it as its last. -/
theorem Records.perform (records : Records past desk) (op : VolumeOp) :
    Records (op :: past) (op.perform desk).2 := by
  cases op with
  | add path data => exact records.add rfl rfl (fun _ => rfl) rfl rfl
  | create path size => exact records.create path size
  | remove path => exact records.remove path
  | openFile path i => exact records.openFile path i
  | close i => exact records.close i
  | read i count =>
    exact records.uses i (desk.volume.sameFiles_read · count) (desk.volume.sameOpen_read · count)
      (records.tallied.read · count) (desk.volume.grip?_read · count) rfl rfl rfl rfl
  | write i data =>
    exact records.uses i (desk.volume.sameFiles_write · data) (desk.volume.sameOpen_write · data)
      (records.tallied.write · data) (desk.volume.grip?_write · data) rfl rfl rfl rfl
  | seek i position =>
    exact records.uses i (desk.volume.sameFiles_seek · position) (desk.volume.sameOpen_seek · position)
      (records.tallied.seek · position) (desk.volume.grip?_seek · position) rfl rfl rfl rfl
  | deny i =>
    refine records.sets i true desk.volume.sameFiles_deny desk.volume.sameOpen_deny records.tallied.deny
      desk.volume.grip?_deny rfl rfl rfl fun k n found => ?_
    rw [denying, found, Option.isSome_some]
  | allow i =>
    exact records.sets i false desk.volume.sameFiles_allow desk.volume.sameOpen_allow records.tallied.allow
      desk.volume.grip?_allow rfl rfl rfl fun k n _ => rfl
  | stat i =>
    exact records.uses i (fun _ => .refl _) (fun _ => .refl _) (fun _ => records.tallied) (fun _ _ => rfl)
      rfl rfl rfl rfl

end Steps

/-- Whatever was done, the desk is as the history says. -/
theorem records_after (past : List VolumeOp) : Records past (after past) := by
  induction past with
  | nil =>
    refine ⟨rfl, ⟨nofun, fun h o opened => ?_, fun _ _ => rfl, fun n f found => ?_⟩, rfl, rfl, fun _ => rfl,
      ⟨.nil, .nil, fun h => ?_⟩, fun _ => rfl⟩
    · cases opened
    · cases found
    · simp [after, Volume.isOpen, Volume.opened?, Volume.empty]
  | cons op past ih => exact ih.perform op

/-- A script is answered as the operations before each of its own have it. -/
theorem getElem?_performAll (past ops : List VolumeOp) (i : Nat) :
    (VolumeOp.performAll (after past) ops)[i]? = ops[i]?.map fun op =>
      ((op.perform (after ((ops.take i).reverse ++ past))).1,
        (after (op :: ((ops.take i).reverse ++ past))).volume.openHandles) := by
  induction ops generalizing past i with
  | nil => rfl
  | cons op ops ih =>
    cases i with
    | zero => rfl
    | succ i =>
      have rest : (VolumeOp.performAll (after past) (op :: ops))[i + 1]? =
          (VolumeOp.performAll (after (op :: past)) ops)[i]? := rfl
      rw [rest, ih, List.getElem?_cons_succ, List.take_succ_cons, List.reverse_cons, List.append_assoc]
      rfl

end VolumeDesk

end Userland

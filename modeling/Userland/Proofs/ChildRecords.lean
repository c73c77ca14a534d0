import Userland.Proofs.Statuses

/-!
# Which children are on record

A thread has a child on record from the time when it has started it until it first waits for it, or
exits.
-/

namespace Userland

open ThreadProgram

-- Which words a line has does not matter for the calls that are made with it.
attribute [local irreducible] Words.ofString

/-! ## What becomes of the records -/

namespace Action

/-- An action enters a child into the records of a family. -/
def Enters : Action → Family → Tid → Prop
  | .device (.register family' child _), family, t => family' = family ∧ t = child
  | _, _, _ => False

/-- An action takes a child from the records of a family, if it is there. -/
def Leaves : Action → Family → Tid → Prop
  | .device (.takeChild family' pid), family, t => family' = family ∧ (t : Int) = pid.toInt
  | .device (.takeChildren family'), family, _ => family' = family
  | _, _, _ => False

/-- The actions that change no records. -/
def sparesChildren : Action → Bool
  | .device (.register ..) | .device (.takeChild ..) | .device (.takeChildren _) => false
  | _ => true

variable {a : Action}

theorem not_leaves (spares : a.sparesChildren = true) (family : Family) (t : Tid) :
    ¬a.Leaves family t := by
  cases a with
  | device r => cases r <;> first | exact id | cases spares
  | _ => exact id

theorem not_enters (spares : a.sparesChildren = true) (family : Family) (t : Tid) :
    ¬a.Enters family t := by
  cases a with
  | device r => cases r <;> first | exact id | cases spares
  | _ => exact id

end Action

namespace Children

variable {r : Children} {t u : Tid} {exit : ChannelId}

theorem mem_keys_register (new : t ∉ r.keys) : u ∈ (r.register t exit).keys ↔ u ∈ r.keys ∨ u = t := by
  rw [keys, ((records_register new).map _).mem_iff, List.map_cons, List.mem_cons]
  exact or_comm

theorem mem_keys_remove : u ∈ (r.remove t).keys ↔ u ∈ r.keys ∧ u ≠ t := by
  simp [keys, remove]

end Children

namespace Belongings

variable {b : Belongings} {family family' : Family} {f : Children → Children}

theorem children_modifyChildren_of_ne (other : family' ≠ family) :
    (b.modifyChildren f family).children family' = b.children family' := by
  cases family <;> cases family' <;> first | rfl | exact absurd rfl other

/-- Records of a process are there only if there is a process. -/
theorem hosted_of_record {t : Tid} {exit : ChannelId} (mem : (t, exit) ∈ (b.children family).records) :
    family = .process → b.process.isSome = true := by
  rintro rfl
  cases hosts : b.process with
  | none => simp [children, hosts, Children.empty] at mem
  | some p => rfl

theorem children_modifyChildren_empty :
    (b.modifyChildren (fun _ => .empty) family).children family = .empty := by
  cases family with
  | process => cases hosts : b.process <;> simp [modifyChildren, modifyProcess, children, hosts]
  | kin => rfl
  | initial => rfl

end Belongings

theorem DeviceRequest.sparesChildren_eq_false_of_family? {r : DeviceRequest} {family : Family}
    (works : r.family? = some family) : (Action.device r).sparesChildren = false := by
  cases r <;> first | rfl | cases works

open DeviceRequest in
theorem DeviceRequest.children_serve {r : DeviceRequest} {s : Standing} {d : Devices}
    (spares : (Action.device r).sparesChildren = true) (permitted : r.Permitted s) (family : Family) :
    (r.serve s.own d).2.1.children family = s.own.children family := by
  obtain ⟨b, g⟩ := s
  have edited {f : Process → Process} {hands : Hands} (children : ∀ p, (f p).children = p.children) :
      Belongings.children { b.modifyProcess f with hands := hands } family = b.children family :=
    b.children_modifyProcess children family
  have effect := effect_serve r b d
  change (r.serve b d).2.1.children family = b.children family
  generalize (r.serve b d).2.1 = b' at effect ⊢
  cases effect with
  | quiet | hands | level | destroyProcess => cases family <;> rfl
  | files | detachSpace | installSpace => exact edited fun _ => rfl
  | edited _ edits => exact edited fun p => (sameContents_of_edit? edits p).children
  | records _ works => cases (sparesChildren_eq_false_of_family? works).symm.trans spares
  | newProcess =>
    have nobody : b.process = none := permitted.1
    cases family with
    | process => rw [Belongings.children, Belongings.children, nobody]; rfl
    | kin | initial => rfl
  | detachProcess =>
    cases family with
    | process =>
      cases hosts : b.process with
      | none => simp [Belongings.children, hosts]
      | some p => simp [Belongings.children, hosts, (permitted.2 p hosts).children]
    | kin | initial => rfl

open DeviceRequest in
/-- The record of the child with a number is taken, and no other. -/
theorem DeviceRequest.mem_keys_takeChild (family : Family) (pid : Int32) (b : Belongings) (d : Devices)
    (t : Tid) : t ∈ (((takeChild family pid).serve b d).2.1.children family).keys ↔
      t ∈ (b.children family).keys ∧ (t : Int) ≠ pid.toInt := by
  cases found : (b.children family).find? pid with
  | none =>
    have others := Children.find?_eq_none.1 found t
    simp only [serve, found]
    exact ⟨fun mem => ⟨mem, others mem⟩, And.left⟩
  | some record =>
    obtain ⟨child, exit⟩ := record
    obtain ⟨mem, same⟩ := Children.mem_of_find? found
    simp only [serve, found]
    rw [Belongings.children_modifyChildren (Belongings.hosted_of_record mem),
      Children.mem_keys_remove, ← same, ne_eq, ne_eq, Int.ofNat_inj]

open DeviceRequest in
/-- What an action makes of the records. -/
theorem Follows.mem_keys {a : Action} {answer : a.Answer} {s s' : Standing}
    (follows : Follows a s answer s') (allowed : Allowed a s) (family : Family) (t : Tid) :
    t ∈ (s'.own.children family).keys ↔
      t ∈ (s.own.children family).keys ∧ ¬a.Leaves family t ∨ a.Enters family t := by
  have spared (spares : a.sparesChildren = true)
      (same : s'.own.children family = s.own.children family) :
      t ∈ (s'.own.children family).keys ↔
        t ∈ (s.own.children family).keys ∧ ¬a.Leaves family t ∨ a.Enters family t := by
    simp [same, Action.not_leaves spares, Action.not_enters spares]
  cases follows with
  | act a s answer other _ =>
    cases a with
    | device r => exact absurd rfl (other r)
    | _ => exact spared rfl rfl
  | device r s d =>
    cases spares : (Action.device r).sparesChildren with
    | true => exact spared spares (DeviceRequest.children_serve spares allowed.2 family)
    | false =>
      cases r with
      | register family' child exit =>
        obtain ⟨-, hosted, -, -, -, new, -⟩ := allowed
        change t ∈ ((s.own.modifyChildren _ family').children family).keys ↔ _
        by_cases same : family = family'
        · subst same
          rw [Belongings.children_modifyChildren hosted,
            Children.mem_keys_register (Belongings.notMem_keys new family)]
          simp [Action.Leaves, Action.Enters]
        · rw [Belongings.children_modifyChildren_of_ne same]
          simp [Action.Leaves, Action.Enters, Ne.symm same]
      | takeChild family' pid =>
        by_cases same : family = family'
        · subst same
          rw [mem_keys_takeChild]
          simp [Action.Leaves, Action.Enters]
        · obtain ⟨f, own⟩ := own_of_family? (r := .takeChild family' pid) rfl s.own d
          rw [own, Belongings.children_modifyChildren_of_ne same]
          simp [Action.Leaves, Action.Enters, Ne.symm same]
      | takeChildren family' =>
        change t ∈ ((s.own.modifyChildren _ family').children family).keys ↔ _
        by_cases same : family = family'
        · subst same
          rw [Belongings.children_modifyChildren_empty]
          simp [Action.Leaves, Action.Enters, Children.keys, Children.empty]
        · rw [Belongings.children_modifyChildren_of_ne same]
          simp [Action.Leaves, Action.Enters, Ne.symm same]
      | _ => cases spares

/-- What a thread has changes only when it makes a request. -/
theorem Follows.own_eq {a : Action} {answer : a.Answer} {s s' : Standing}
    (follows : Follows a s answer s') (other : ∀ r, a ≠ .device r) : s'.own = s.own := by
  cases follows with
  | device r => exact absurd rfl (other r)
  | act => rfl

theorem Follows.duties_eq {a : Action} {answer : a.Answer} {s s' : Standing}
    (follows : Follows a s answer s') : s'.duties = a.after answer s.duties := by
  cases follows <;> rfl

theorem Follows.own_serve {r : DeviceRequest} {answer : r.Answer} {s s' : Standing}
    (follows : Follows (.device r) s answer s') : ∃ d, s'.own = (r.serve s.own d).2.1 := by
  cases follows with
  | device r s d => exact ⟨d, rfl⟩
  | act _ _ _ other => exact absurd rfl (other r)

/-- What a thread has is what it had, and on record with a family is a child that is new. -/
structure Belongings.Gains (b : Belongings) (family : Family) (u : Tid) (b' : Belongings) : Prop where
  /-- The child was not on record. -/
  new : u ∉ (b.children family).keys
  /-- The family is there. -/
  hosted : family = .process → b.process.isSome = true
  /-- It is on record now, and nothing else is new. -/
  recorded : ∃ exit, b' = b.modifyChildren (·.register u exit) family

theorem Belongings.Gains.mem_keys {b b' : Belongings} {family : Family} {u : Tid}
    (gains : b.Gains family u b') (f : Family) (t : Tid) :
    t ∈ (b'.children f).keys ↔ t ∈ (b.children f).keys ∨ f = family ∧ t = u := by
  obtain ⟨new, hosted, exit, rfl⟩ := gains
  by_cases same : f = family
  · subst same
    rw [children_modifyChildren hosted, Children.mem_keys_register new]
    simp
  · simp [children_modifyChildren_of_ne same, same]

/-! ## While a call lasts -/

/-- While a thread that stands so runs a program, `I` holds of how it stands; the thread does not leave the
    program, and in the end `Q` holds. -/
def ThreadProgram.Along {α : Type} (I : Standing → Prop) (Q : α → Standing → Prop) :
    ThreadProgram α → Standing → Prop
  | Program.pure x, s => Q x s
  | Program.ask a next, s => a.goesOn = true ∧ I s ∧
    ∀ answer s', Allowed a s → Follows a s answer s' → Along I Q (next answer) s'

theorem ThreadProgram.Along.mono {α : Type} {I I' : Standing → Prop} {Q Q' : α → Standing → Prop}
    {p : ThreadProgram α} {s : Standing} (h : p.Along I Q s) (holds : ∀ s, I s → I' s)
    (results : ∀ x s, Q x s → Q' x s) : p.Along I' Q' s := by
  induction p generalizing s with
  | pure x => exact results x s h
  | ask a next ih =>
    exact ⟨h.1, holds s h.2.1, fun answer s' allowed follows => ih answer (h.2.2 answer s' allowed follows)⟩

theorem ThreadProgram.Along.holds {α : Type} {I : Standing → Prop} {Q : α → Standing → Prop}
    {p : ThreadProgram α} {s : Standing} (h : p.Along I Q s) (ongoing : ∀ r, p ≠ Program.pure r) :
    I s := by
  cases p with
  | pure x => exact absurd rfl (ongoing x)
  | ask a next => exact h.2.1

namespace Standing

/-- The children on record are these. -/
def Records (s : Standing) (K : Family → Tid → Prop) : Prop :=
  ∀ family t, t ∈ (s.own.children family).keys ↔ K family t

variable {s s' : Standing} {K K' : Family → Tid → Prop} {a : Action} {answer : a.Answer}

theorem Records.congr (h : s.Records K) (same : ∀ family t, K family t ↔ K' family t) :
    s.Records K' := fun family t => (h family t).trans (same family t)

theorem Records.follows (h : s.Records K) (allowed : Allowed a s) (follows : Follows a s answer s') :
    s'.Records fun family t => K family t ∧ ¬a.Leaves family t ∨ a.Enters family t := fun family t => by
  rw [follows.mem_keys allowed, h]

end Standing

theorem Standing.Records.spared {s s' : Standing} {K : Family → Tid → Prop} {a : Action}
    {answer : a.Answer} (h : s.Records K) (spares : a.sparesChildren = true) (allowed : Allowed a s)
    (follows : Follows a s answer s') : s'.Records K :=
  (h.follows allowed follows).congr fun family t => by
    simp [Action.not_leaves spares, Action.not_enters spares]

namespace KernelCall

variable {k : Kernel} {s : Standing} {K : Family → Tid → Prop} {I : Standing → Prop} {α : Type}

/-- Receivers are dropped, and what the thread has stays. -/
theorem along_dropReceivers {channels : List ChannelId} {rest : Unit → ThreadProgram α}
    {Q : α → Standing → Prop} (holds : ∀ s', s'.own = s.own → I s')
    (last : ∀ s', s'.own = s.own → (rest ()).Along I Q s') :
    (Kernel.dropReceivers channels >>= rest).Along I Q s := by
  induction channels generalizing s with
  | nil => exact last s rfl
  | cons c channels ih =>
    refine ⟨rfl, holds s rfl, fun _ s₁ _ follows => ?_⟩
    have same := follows.own_eq fun _ => nofun
    exact ih (fun s' same' => holds s' (same'.trans same)) fun s' same' => last s' (same'.trans same)

/-- A child that is started is on record, and the thread has what it had besides. If none is started the
    thread has what it had. -/
theorem along_execute {family : Family} {line : String} {b : Belongings} (own : s.own = b)
    (distinct : (b.children family).keys.Nodup) :
    (k.execute family line).Along (fun s => s.own = b ∨ ∃ u, b.Gains family u s.own)
      (fun r s => (∀ e, r = .error e → s.own = b) ∧ ∀ u, r = .ok u → b.Gains family u s.own) s := by
  have failed (e : ExecError) (s : Standing) (own : s.own = b) :
      (∀ e', (.error e : Except ExecError Tid) = .error e' → s.own = b) ∧
        ∀ u, (.error e : Except ExecError Tid) = .ok u → b.Gains family u s.own := ⟨fun _ _ => own, nofun⟩
  unfold Kernel.execute
  dsimp only
  split
  · exact failed _ s own
  refine ⟨rfl, .inl own, fun loaded s₁ _ follows => ?_⟩
  replace own := (follows.own_eq fun _ => nofun).trans own
  refine ⟨rfl, .inl own, fun exit s₂ _ follows => ?_⟩
  replace own := (follows.own_eq fun _ => nofun).trans own
  refine ⟨rfl, .inl own, fun child s₃ _ follows => ?_⟩
  have promise : ∀ t, child = some t → t < threadLimit := by
    cases follows with
    | act _ _ _ _ promise => exact fun t same => (promise t same).1
  replace own := (follows.own_eq fun _ => nofun).trans own
  cases child with
  | none =>
    exact along_dropReceivers (fun s same => .inl (same.trans own)) fun s same => failed _ s (same.trans own)
  | some child =>
    have small := promise child rfl
    refine ⟨rfl, .inl own, fun _ s₄ _ follows => ?_⟩
    replace own := (follows.own_eq fun _ => nofun).trans own
    refine ⟨rfl, .inl own, fun _ s₅ allowed follows => ?_⟩
    obtain ⟨-, hosted, -, -, -, new, -⟩ := allowed
    rw [own] at hosted new
    replace new := Belongings.notMem_keys new family
    replace own : s₅.own = b.modifyChildren (·.register child exit) family := by
      obtain ⟨d, served⟩ := follows.own_serve
      rw [served, own]
      rfl
    have gains (s : Standing) (same : s.own = s₅.own) : b.Gains family child s.own :=
      ⟨new, hosted, exit, same.trans own⟩
    refine ⟨rfl, .inr ⟨child, gains s₅ rfl⟩, fun _ s₆ _ follows => ?_⟩
    have same := follows.own_eq fun _ => nofun
    refine ⟨rfl, .inr ⟨child, gains s₆ same⟩, fun answer s₇ _ follows => ?_⟩
    replace same := (follows.own_eq fun _ => nofun).trans same
    dsimp only [Program.bind]
    split
    · refine ⟨rfl, .inr ⟨child, gains s₇ same⟩, fun _ s₈ _ follows => ⟨nofun, fun u started => ?_⟩⟩
      obtain rfl := Except.ok.inj started
      obtain ⟨d, served⟩ := follows.own_serve
      exact gains s₈ (served.trans same)
    · -- The record is taken back.
      refine ⟨rfl, .inr ⟨child, gains s₇ same⟩, fun _ s₈ _ follows => ?_⟩
      replace same := (follows.own_eq fun _ => nofun).trans same
      refine ⟨rfl, .inr ⟨child, gains s₈ same⟩, fun record s₉ _ follows => ?_⟩
      replace own : s₉.own = b := by
        obtain ⟨d, served⟩ := follows.own_serve
        rw [served, same, own, Belongings.serve_takeChild_register hosted new distinct small]
      change Along _ _ ((Kernel.dropReceivers record.toList >>= fun x =>
        act (.unlockRegistry family) >>= fun _ => pure x) >>= fun _ =>
          (pure (.error .loadFailed) : ThreadProgram (Except ExecError Tid))) s₉
      rw [bind_assoc]
      refine along_dropReceivers (fun s same => .inl (same.trans own)) fun s same => ?_
      refine ⟨rfl, .inl (same.trans own), fun _ s' _ follows => failed _ s' ?_⟩
      exact ((follows.own_eq fun _ => nofun).trans same).trans own

/-- A child that is started is on record, and nobody else comes or goes. -/
theorem records_execute {family : Family} {line : String} (records : s.Records K)
    (distinct : (s.own.children family).keys.Nodup) :
    (k.execute family line).Along (fun s => ∀ f t, K f t → t ∈ (s.own.children f).keys)
      (fun r s => s.Records fun f t => K f t ∨ f = family ∧ r = .ok t) s := by
  refine (along_execute rfl distinct).mono (fun s' holds f t old => ?_) fun r s' after f t => ?_
  · rcases holds with same | ⟨u, gains⟩
    · exact same ▸ (records f t).2 old
    · exact (gains.mem_keys f t).2 (.inl ((records f t).2 old))
  · cases r with
    | error e => simp [after.1 e rfl, records f t]
    | ok u => simp [(after.2 u rfl).mem_keys, records f t, eq_comm]

/-- A child that is awaited is on record no more, and nobody else comes or goes. -/
theorem along_wait {family : Family} {pid : Int32} (records : s.Records K) :
    (Kernel.wait family pid).Along
      (fun s => ∀ f t, K f t → ¬(f = family ∧ (t : Int) = pid.toInt) → t ∈ (s.own.children f).keys)
      (fun _ s => s.Records fun f t => K f t ∧ ¬(f = family ∧ (t : Int) = pid.toInt)) s := by
  rw [wait_eq]
  have kept {s' : Standing} (same : s'.own = s.own) : s'.Records K := fun f t => same ▸ records f t
  refine ⟨rfl, fun f t old _ => (records f t).2 old, fun _ s₁ _ follows => ?_⟩
  replace kept := kept (follows.own_eq fun _ => nofun)
  refine ⟨rfl, fun f t old _ => (kept f t).2 old, fun record s₂ allowed follows => ?_⟩
  replace kept : s₂.Records fun f t => K f t ∧ ¬(f = family ∧ (t : Int) = pid.toInt) :=
    (kept.follows allowed follows).congr fun f t => by
      simp [Action.Leaves, Action.Enters, eq_comm]
  -- From here on the records stay as they are.
  refine ⟨rfl, fun f t old other => (kept f t).2 ⟨old, other⟩, fun _ s₃ allowed follows => ?_⟩
  replace kept := kept.spared rfl allowed follows
  cases record <;> exact ⟨rfl, fun f t old other => (kept f t).2 ⟨old, other⟩,
    fun _ s₄ allowed follows => kept.spared rfl allowed follows⟩

end KernelCall

/-- A number that fits a thread is the one that programs see. -/
theorem Tid.coe_eq_toInt {t : Tid} (small : t < threadLimit) (pid : Int32) :
    (t : Int) = pid.toInt ↔ pid = t.toPid := by
  rw [← Tid.toInt_toPid small, Int32.toInt_inj, eq_comm]

/-- Records stay when a thread does nothing to them. -/
theorem Advances.records {blocks : ℕ → ThreadProgram Unit} {told : ∀ a : Action, Option a.Answer}
    {p p' : ThreadProgram Unit} {s s' : Standing} {K : Family → Tid → Prop}
    (advances : Advances blocks told p s p' s')
    (spares : ∀ a next answer, p = Program.ask a next → told a = some answer → a.sparesChildren = true)
    (records : s.Records K) : s'.Records K := by
  cases advances with
  | rest | goto | finish => exact records
  | @go a next answer s s' same allowed follows =>
    exact records.spared (spares a next answer rfl same) allowed follows

theorem Action.spares_of_isPlain {a : Action} (plain : a.isPlain = true) : a.sparesChildren = true := by
  cases a with
  | device r => cases r <;> first | rfl | cases plain
  | _ => rfl

/-! ## Over time -/

namespace Scenario

variable {x : Scenario} {turns : ℕ → Turn} {i j b : ℕ} {t u : Tid} {c : KernelCall} {family : Family}

/-- As long as a part of what a thread does lasts, what is so along it is so. -/
theorem along_at {α : Type} {p : ThreadProgram α} {next : α → ThreadProgram Unit} {I : Standing → Prop}
    {Q : α → Standing → Prop} {d : ℕ} (here : x.programAt turns b t = p >>= next)
    (inside : t < (x.machineAt turns b).threads.size) (along : Along I Q p (x.standingAt turns b t))
    (ongoing : ∀ e < d, ∀ r, x.leftAt turns t p b e ≠ Program.pure r) :
    x.programAt turns (b + d) t = x.leftAt turns t p b d >>= next ∧
      Along I Q (x.leftAt turns t p b d) (x.standingAt turns (b + d) t) := by
  induction d with
  | zero => exact ⟨here, along⟩
  | succ d ih =>
    obtain ⟨here, along⟩ := ih fun e before => ongoing e (Nat.lt_succ_of_lt before)
    have inside := Nat.lt_of_lt_of_le inside (x.size_le turns (Nat.le_add_right b d))
    cases left : x.leftAt turns t p b d with
    | pure r => exact absurd left (ongoing d (Nat.lt_succ_self d) r)
    | ask a first =>
      rw [left] at here along
      have after : x.programAt turns (b + d + 1) t = (Program.ask a first).advance (x.toldAt turns (b + d) t) >>= next := by
        rw [← Program.advance_bind (left ▸ ongoing d (Nat.lt_succ_self d))]
        exact programAt_succ_of_goesOn here inside along.1
      have advances := (x.sound turns (b + d)).advances x.lawful (turns (b + d)) inside
      rw [leftAt, left]
      exact ⟨after, advances.part here after along along.2.2⟩

/-- No child is on record twice. -/
theorem nodup_keys_at (family : Family) : ((x.standingAt turns i t).own.children family).keys.Nodup :=
  Belongings.nodup_keys ((x.sound turns i).channels.consistent t).named family

section
variable {I : Standing → Prop} {Q : c.Result → Standing → Prop}

/-- What is so along a call is so while the call lasts. -/
theorem Within.along (within : x.Within turns c b i t)
    (along : (c.program x.kernel).Along I Q (x.standingAt turns b t)) : I (x.standingAt turns i t) := by
  obtain ⟨-, -, -, next, here, -⟩ := within.1.composed
  obtain ⟨begins, d, rfl, ongoing⟩ := within
  exact (along_at here begins.inside along fun e early r over' =>
    ongoing r (leftAt_of_pure (Nat.le_of_lt early) over')).2.holds ongoing

/-- What is so after a call is so when it returns. -/
theorem Returns.along {r : c.Result} (returns : x.Returns turns t c b r i)
    (along : (c.program x.kernel).Along I Q (x.standingAt turns b t)) : Q r (x.standingAt turns i t) := by
  obtain ⟨⟨begins, d, rfl, left⟩, lasts⟩ := returns
  obtain ⟨-, -, -, next, here, -⟩ := begins.composed
  have after := (along_at here begins.inside along fun e early r' over' =>
    (lasts (b + e) (Nat.add_lt_add_left early b) (Nat.le_add_right b e)).not_gives r'
      ⟨begins, e, rfl, over'⟩).2
  rwa [left] at after

end

/-- A thread has started a child, and has not begun to wait for it. -/
def Owed (x : Scenario) (turns : ℕ → Turn) (family : Family) (u : Tid) (i : ℕ) (t : Tid) : Prop :=
  ∃ line b, x.Gives turns t (.execute family line) b (.ok u) i ∧
    ∀ j < i, b ≤ j → ¬x.Begins turns j t (.wait family u.toPid)

/-- Threads are not forgotten, and a thread that is told has a number that programs can see. -/
theorem small_of_mem_keys (listed : u ∈ ((x.standingAt turns i t).own.children family).keys) :
    u < threadLimit := by
  have sound := x.sound turns i
  obtain ⟨⟨v, exit⟩, recorded, rfl⟩ := List.mem_map.1 listed
  have born := (sound.channels.consistent t).recorded _ (Belongings.records_of_children recorded)
  obtain ⟨-, start, started, -⟩ := sound.channels.born t v exit born
  by_contra large
  rw [sound.channels.beyond v (Nat.le_trans sound.small (Nat.not_lt.1 large))] at started
  cases started

/-- A thread that was just made has nothing. -/
theorem own_of_new (new : ∀ j < i, (x.machineAt turns j).threads.size ≤ t) :
    ∃ n, (x.standingAt turns i t).own = .fresh n := by
  cases i with
  | zero =>
    change ∃ n, (x.machine.thread t).own = .fresh n
    rw [x.thread_machine]
    split <;> exact ⟨_, rfl⟩
  | succ i =>
    by_cases inside : t < (x.machineAt turns (i + 1)).threads.size
    · obtain ⟨start, thread, -⟩ := Machine.births (γ := x.dutiesAt turns i) rfl
        (new i (Nat.lt_succ_self i)) inside
      exact ⟨t, by rw [standingAt, Machine.standing, machineAt, thread]; rfl⟩
    · exact ⟨0, by rw [standingAt, Machine.standing, Machine.thread_of_size_le (Nat.not_lt.1 inside)]; rfl⟩

/-- Who has nobody on record has not started anybody. -/
theorem Owed.inside (owed : x.Owed turns family u i t) :
    ∃ j < i, t < (x.machineAt turns j).threads.size := by
  obtain ⟨line, b, gives, -⟩ := owed
  exact ⟨b, gives.lt, gives.1.inside⟩

/-- Nothing is owed any more or less unless a call ends or begins. -/
theorem owed_succ (outside : ∀ c b, ¬x.Within turns c b i t) :
    x.Owed turns family u (i + 1) t ↔ x.Owed turns family u i t := by
  constructor
  · rintro ⟨line, b, gives, waits⟩
    refine ⟨line, b, ?_, fun j before => waits j (Nat.lt_succ_of_lt before)⟩
    rcases within_or_gives gives.1 (Nat.le_of_lt_succ gives.lt) with within | ⟨r, gives'⟩
    · exact absurd within (outside _ b)
    · exact gives.unique (gives'.mono (Nat.le_succ i)) ▸ gives'
  · rintro ⟨line, b, gives, waits⟩
    refine ⟨line, b, gives.mono (Nat.le_succ i), fun j before later begins => ?_⟩
    rcases Nat.lt_succ_iff_lt_or_eq.1 before with before | rfl
    · exact waits j before later begins
    · exact outside _ _ begins.within

/-- What is owed after a call was owed before it, and the thread does not wait for it, or the call has
    started it. -/
theorem owed_of_within (begins : x.Begins turns b t c) {n : ℕ} (lt : b < n)
    (lasts : ∀ j < n, b ≤ j → x.Within turns c b j t) :
    x.Owed turns family u n t ↔ x.Owed turns family u b t ∧ c ≠ .wait family u.toPid ∨
      ∃ line, x.Gives turns t (.execute family line) b (.ok u) n := by
  constructor
  · rintro ⟨line, b', gives, waits⟩
    rcases Nat.lt_trichotomy b' b with before | rfl | later
    · refine .inl ⟨⟨line, b', gives.by_begins before (Nat.le_of_lt lt) begins,
        fun j early => waits j (Nat.lt_trans early lt)⟩, ?_⟩
      rintro rfl
      exact waits b lt (Nat.le_of_lt before) begins
    · exact .inr ⟨line, gives⟩
    · exact absurd gives.1 ((lasts b' gives.lt (Nat.le_of_lt later)).not_begins later _)
  · rintro (⟨⟨line, b', gives, waits⟩, other⟩ | ⟨line, gives⟩)
    · refine ⟨line, b', gives.mono (Nat.le_of_lt lt), fun j before later waiting => ?_⟩
      rcases Nat.lt_trichotomy j b with early | rfl | late
      · exact waits j early later waiting
      · rcases KernelCall.eq_of_calls begins.2 waiting.2 with same | ⟨_, _, _, -, same, -⟩
        · exact other same
        · cases same
      · exact (lasts j before (Nat.le_of_lt late)).not_begins late _ waiting
    · refine ⟨line, b, gives, fun j before later waiting => ?_⟩
      rcases Nat.eq_or_lt_of_le later with rfl | late
      · rcases KernelCall.eq_of_calls gives.1.2 waiting.2 with same | ⟨_, _, _, -, same, -⟩ <;> cases same
      · exact (lasts j before later).not_begins late _ waiting

/-- While a call lasts its beginning lies back. -/
theorem Within.le (within : x.Within turns c b i t) : b ≤ i := by
  obtain ⟨-, d, rfl, -⟩ := within
  exact Nat.le_add_right b d

/-- Command lines that begin at the same time come to the same. -/
theorem Gives.execute_congr {line line' : String} {family' : Family} {r : Except ExecError Tid}
    (gives : x.Gives turns t (.execute family line) b r i)
    (begins : x.Begins turns b t (.execute family' line')) :
    family = family' ∧ x.Gives turns t (.execute family' line') b r i := by
  rcases KernelCall.eq_of_calls gives.1.2 begins.2 with same | ⟨_, _, _, same, same', programs⟩
  · obtain ⟨rfl, rfl⟩ := KernelCall.execute.inj same
    exact ⟨rfl, gives⟩
  · obtain ⟨rfl, rfl⟩ := KernelCall.execute.inj same
    obtain ⟨rfl, rfl⟩ := KernelCall.execute.inj same'
    obtain ⟨-, d, rfl, left⟩ := gives
    refine ⟨rfl, begins, d, rfl, ?_⟩
    change x.leftAt turns t (x.kernel.execute family' line') b d = Program.pure r
    rw [← programs]
    exact left

/-- The records after a call are what is owed after it, if they were what was owed before. -/
theorem records_after {n : ℕ} {r : c.Result} (returns : x.Returns turns t c b r n)
    (records : (x.standingAt turns b t).Records fun f u => x.Owed turns f u b t) :
    (x.standingAt turns n t).Records fun f u => x.Owed turns f u n t := by
  obtain ⟨gives, lasts⟩ := id returns
  have begins := gives.1
  cases c with
  | exit status => cases r
  | execute family line =>
    refine Standing.Records.congr
      (returns.along (KernelCall.records_execute records (nodup_keys_at family))) fun f u => ?_
    rw [owed_of_within begins gives.lt lasts]
    refine or_congr (by simp) ⟨?_, ?_⟩
    · rintro ⟨rfl, rfl⟩
      exact ⟨line, gives⟩
    · rintro ⟨line', gives'⟩
      obtain ⟨rfl, gives'⟩ := gives'.execute_congr begins
      exact ⟨rfl, gives.unique gives'⟩
  | wait family pid =>
    refine Standing.Records.congr (returns.along (KernelCall.along_wait records)) fun f u => ?_
    rw [owed_of_within begins gives.lt lasts]
    have other (line : String) : ¬x.Gives turns t (.execute f line) b (.ok u) n := fun gives' => by
      rcases KernelCall.eq_of_calls begins.2 gives'.1.2 with same | ⟨_, _, _, same, -⟩ <;> cases same
    simp only [other, exists_false, or_false]
    refine and_congr_right fun owed => not_congr ?_
    rw [Tid.coe_eq_toInt (small_of_mem_keys ((records f u).2 owed)), KernelCall.wait.injEq, @eq_comm _ f]

/-- A thread that has not exited, and is not in a call, has on record whom it has started and not begun
    to wait for. -/
theorem records_exact (outside : ∀ c b, x.Within turns c b i t → b = i)
    (stays : ∀ status, ∀ j < i, ¬x.Begins turns j t (.exit status)) :
    (x.standingAt turns i t).Records fun f u => x.Owed turns f u i t := by
  induction i using Nat.strongRecOn with
  | ind i ih =>
  by_cases new : ∀ j < i, (x.machineAt turns j).threads.size ≤ t
  · obtain ⟨n, own⟩ := own_of_new new
    intro f u
    rw [own]
    refine iff_of_false ?_ fun owed => ?_
    · cases f <;> exact List.not_mem_nil
    · obtain ⟨j, before, inside⟩ := owed.inside
      exact Nat.not_lt.2 (new j before) inside
  obtain ⟨j, before, inside⟩ : ∃ j < i, t < (x.machineAt turns j).threads.size := by simpa using new
  obtain ⟨i, rfl⟩ : ∃ k, i = k + 1 := ⟨i - 1, by omega⟩
  replace inside := Nat.lt_of_lt_of_le inside (x.size_le turns (Nat.le_of_lt_succ before))
  by_cases quiet : ∀ c b, ¬x.Within turns c b i t
  · have records := ih i (Nat.lt_succ_self i) (fun c b within => absurd within (quiet c b))
      fun status j early => stays status j (Nat.lt_succ_of_lt early)
    refine Standing.Records.congr (((x.sound turns i).advances x.lawful (turns i) inside).records
      (fun a next answer here told => ?_) records) fun f u => (owed_succ quiet).symm
    have does : x.Does turns i t a answer := ⟨⟨next, here⟩, told⟩
    rcases quiet_of_not_within quiet here does.goes with plain | ⟨esp, rfl⟩ | ⟨block, rfl⟩
    · exact Action.spares_of_isPlain plain
    · rfl
    · rfl
  · -- The thread was in a call, which is over.
    obtain ⟨c, b, within⟩ : ∃ c b, x.Within turns c b i t := by simpa using quiet
    have lt : b < i + 1 := Nat.lt_succ_of_le within.le
    obtain ⟨r, gives⟩ := (within_or_gives within.1 (Nat.le_of_lt lt)).resolve_left fun within =>
      Nat.ne_of_lt lt (outside c b within)
    refine records_after ⟨gives, fun j early late => within.mono late (Nat.le_of_lt_succ early)⟩
      (ih b lt ?_ ?_)
    · intro c' b' within'
      exact (Nat.eq_or_lt_of_le within'.le).resolve_right fun early =>
        within'.not_begins early c within.1
    · exact fun status j early => stays status j (Nat.lt_trans early lt)

/-- A child that a thread has started stays on record until the thread begins to wait for it, or exits. -/
theorem recorded_of_owed (owed : x.Owed turns family u i t)
    (stays : ∀ status, ∀ j < i, ¬x.Begins turns j t (.exit status)) :
    u ∈ ((x.standingAt turns i t).own.children family).keys := by
  by_cases outside : ∀ c b, x.Within turns c b i t → b = i
  · exact (records_exact outside stays family u).2 owed
  obtain ⟨c, b, within, other⟩ : ∃ c b, x.Within turns c b i t ∧ b ≠ i := by simpa using outside
  have lt : b < i := Nat.lt_of_le_of_ne within.le other
  have lasts (j : ℕ) (before : j < i) (later : b ≤ j) : x.Within turns c b j t :=
    within.mono later (Nat.le_of_lt before)
  have begins := within.1
  obtain ⟨old, unwaited⟩ : x.Owed turns family u b t ∧ c ≠ .wait family u.toPid := by
    refine ((owed_of_within begins lt lasts).1 owed).resolve_right ?_
    rintro ⟨line, gives⟩
    rcases KernelCall.eq_of_calls begins.2 gives.1.2 with rfl | ⟨_, _, _, rfl, -, -⟩
    · exact within.not_gives _ gives
    · exact within.not_gives _ (gives.execute_congr begins).2
  have records := @records_exact x turns b t
    (fun c' b' within' => (Nat.eq_or_lt_of_le within'.le).resolve_right fun early =>
      within'.not_begins early c begins)
    fun status j early => stays status j (Nat.lt_trans early lt)
  cases c with
  | exit status => exact absurd begins (stays status b lt)
  | execute family' line =>
    exact within.along (KernelCall.records_execute records (nodup_keys_at _)) family u old
  | wait family' pid =>
    refine within.along (KernelCall.along_wait records) family u old ?_
    rintro ⟨rfl, same⟩
    refine unwaited (congrArg _ ?_)
    exact (Tid.coe_eq_toInt (small_of_mem_keys ((records family u).2 old)) pid).1 same

end Scenario

end Userland

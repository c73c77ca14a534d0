import Userland.Proofs.Leaving
import Userland.Proofs.Sequences
import Userland.Proofs.Starting

/-!
# Where denials are placed and taken back

A load uses a file after it has denied writes to it (`Kernel.before_loading`). The denial is taken back in
two places, when the load fails and when the process exits, and there the handle is closed with the next
request (`Kernel.leads_loading`, `Kernel.leads_exitProcess`).
-/

namespace Userland

open ThreadProgram
open Program (Only)

-- Which words a line has does not matter for what is done with them.
attribute [local irreducible] Words.ofString

/-! ## What comes next in a program -/

namespace Program

variable {σ : Signature} {α β : Type} {S : σ.Request → Program σ α → Prop} {P : σ.Request → Prop} {R : α → Prop}

/-- Whatever the program asks for, what it does next is fit for that. -/
def Leads (S : σ.Request → Program σ α → Prop) : Program σ α → Prop
  | pure _ => True
  | ask r next => ∀ answer, S r (next answer) ∧ (next answer).Leads S

/-- If anything is fit for all that is asked for, so is what is done next. -/
theorem Leads.of_only {p : Program σ α} (only : p.Only P R) (fits : ∀ r q, P r → S r q) : p.Leads S := by
  induction p with
  | pure x => trivial
  | ask r next ih => exact fun answer => ⟨fits r _ only.1, ih answer (only.2 answer)⟩

/-- What is done next is all that is left. -/
theorem Only.leads {p : Program σ α} (only : p.Only P R) : p.Leads fun r q => P r ∧ q.Only P R := by
  induction p with
  | pure x => trivial
  | ask r next ih => exact fun answer => ⟨⟨only.1, only.2 answer⟩, ih answer (only.2 answer)⟩

theorem Leads.and {S' : σ.Request → Program σ α → Prop} {p : Program σ α} (leads : p.Leads S)
    (leads' : p.Leads S') : p.Leads fun r q => S r q ∧ S' r q := by
  induction p with
  | pure x => trivial
  | ask r next ih =>
    exact fun answer => ⟨⟨(leads answer).1, (leads' answer).1⟩, ih answer (leads answer).2 (leads' answer).2⟩

theorem Leads.mono {S' : σ.Request → Program σ α → Prop} {p : Program σ α} (leads : p.Leads S)
    (fits : ∀ r q, S r q → S' r q) : p.Leads S' := by
  induction p with
  | pure x => trivial
  | ask r next ih => exact fun answer => ⟨fits r _ (leads answer).1, ih answer (leads answer).2⟩

theorem Leads.bind {S' : σ.Request → Program σ β → Prop} {p : Program σ α} {f : α → Program σ β}
    (first : p.Leads S) (fits : ∀ r q, S r q → S' r (q >>= f)) (rest : ∀ x, (f x).Leads S') :
    (p >>= f).Leads S' := by
  change (p.bind f).Leads S'
  induction p with
  | pure x => exact rest x
  | ask r next ih => exact fun answer => ⟨fits r _ (first answer).1, ih answer (first answer).2⟩

/-- What comes first does not matter if anything is fit for it. -/
theorem Leads.after_only {S' : σ.Request → Program σ β → Prop} {p : Program σ α} {f : α → Program σ β}
    (only : p.Only P R) (fits : ∀ r q, P r → S' r q) (rest : ∀ x, R x → (f x).Leads S') :
    (p >>= f).Leads S' := by
  change (p.bind f).Leads S'
  induction p with
  | pure x => exact rest x only
  | ask r next ih => exact fun answer => ⟨fits r _ only.1, ih answer (only.2 answer)⟩

theorem Leads.advance {S : Action → ThreadProgram α → Prop} {p : ThreadProgram α}
    {told : ∀ a : Action, Option a.Answer} (leads : p.Leads S) : (p.advance told).Leads S := by
  cases p with
  | pure x => trivial
  | ask a next =>
    change Leads S ((told a).elim (ask a next) next)
    cases told a with
    | none => exact leads
    | some answer => exact (leads answer).2

end Program

namespace ThreadProgram

variable {α β : Type} {S : DeviceRequest → Routine α → Prop} {S' : Action → ThreadProgram β → Prop}

/-- A routine goes on as part of what a thread does. -/
theorem leads_ofRoutine {p : Routine α} {f : α → ThreadProgram β} (leads : p.Leads S)
    (fits : ∀ r q, S r q → S' (.device r) (ofRoutine q >>= f)) (rest : ∀ x, (f x).Leads S') :
    (ofRoutine p >>= f).Leads S' := by
  induction p with
  | pure x => exact rest x
  | ask r next ih => exact fun answer => ⟨fits r _ (leads answer).1, ih answer (leads answer).2⟩

/-- What is done to free a lock asks for nothing of a device. -/
theorem only_unlock (l : LockId) {P : Action → Prop} (other : ∀ a : Action, (∀ r, a ≠ .device r) → P a) :
    (unlock l).Only P fun _ => True := by
  refine ⟨other _ fun _ => nofun, fun waiter => ?_⟩
  cases waiter with
  | none => trivial
  | some t => exact ⟨other _ fun _ => nofun, fun _ => trivial⟩

/-- What is done with the lock held goes on with the lock freed. -/
theorem leads_withLock {l : LockId} {body : Routine α} {S' : Action → ThreadProgram α → Prop}
    (inside : body.Leads S)
    (fits : ∀ r q, S r q → S' (.device r) (ofRoutine q >>= fun x => unlock l >>= fun _ => pure x))
    (others : ∀ a q, (∀ r, a ≠ .device r) → S' a q) : (withLock l body).Leads S' := by
  refine fun _ => ⟨others _ _ fun _ => nofun, leads_ofRoutine inside fits fun x => ?_⟩
  exact Program.Leads.after_only (only_unlock l fun a other => other) (fun a q other => others a q other)
    fun _ _ => trivial

end ThreadProgram

namespace Scenario

/-- What is left of a program goes on in the same way. -/
theorem leads_leftAt {x : Scenario} {turns : ℕ → Turn} {b : ℕ} {t : Tid} {α : Type}
    {S : Action → ThreadProgram α → Prop} {p : ThreadProgram α} (leads : p.Leads S) (d : ℕ) :
    (x.leftAt turns t p b d).Leads S := by
  induction d with
  | zero => exact leads
  | succ d ih => exact ih.advance

end Scenario

/-! ## Loads -/

/-- The requests that use a file, save that they are about denials. -/
def DeviceRequest.uses (file : Handle) : DeviceRequest → Bool
  | read h _ | seek h _ | length h => decide (h = file)
  | _ => false

namespace Loader

open DeviceRequest Routine

/-- What a load does after a request that has to do with a denial. -/
structure Ensues (r : DeviceRequest) (q : Routine (Except LoadError LoadedProgram)) : Prop where
  /-- If a program is loaded, the file that was denied is its executable. -/
  denied : ∀ file, r = deny file → q.Only (fun _ => True) fun result => ∀ p, result = .ok p → p.executable = file
  /-- A file that is allowed is closed. -/
  allowed : ∀ file, r = allow file → ∃ next, q = Program.ask (close file) next
  /-- When it is closed the load has failed. -/
  closed : ∀ file, r = close file → ∃ e, q = Program.pure (.error e)

/-- Anything may be done after other requests. -/
theorem ensues_of_fills {file : Handle} {r : DeviceRequest} (fills : r.fills file = true)
    (q : Routine (Except LoadError LoadedProgram)) : Ensues r q where
  denied _ same := by subst same; cases fills
  allowed _ same := by subst same; cases fills
  closed _ same := by subst same; cases fills

theorem leads_letGo (file : Handle) (result : Except LoadError LoadedProgram) :
    (letGo file result).Leads Ensues := by
  cases result with
  | ok p => trivial
  | error e => exact fun _ => ⟨⟨nofun, fun _ same => ⟨_, by cases same; rfl⟩, nofun⟩,
      fun _ => ⟨⟨nofun, nofun, fun _ _ => ⟨e, rfl⟩⟩, trivial⟩⟩

theorem leads_load (arguments : List String) : (load arguments).Leads Ensues := by
  cases arguments with
  | nil => trivial
  | cons name rest =>
    rw [load_eq]
    refine fun opened => ⟨⟨nofun, nofun, nofun⟩, ?_⟩
    cases opened with
    | none => trivial
    | some file =>
      refine fun _ => ⟨⟨fun _ same => ?_, nofun, nofun⟩, ?_⟩
      · cases same
        refine (fills_fillFrom.mono (fun _ _ => trivial) fun _ => id).bind fun result so => ?_
        cases result with
        | ok p => exact so
        | error e => exact ⟨trivial, fun _ => ⟨trivial, fun _ => nofun⟩⟩
      · change (fillFrom file name (name :: rest) >>= letGo file).Leads Ensues
        exact .after_only fills_fillFrom (fun r q fills => ensues_of_fills fills q) fun result _ =>
          leads_letGo file result

/-- A load uses the file that it has opened, and no other. -/
theorem fillFrom_uses {file h : Handle} {name : String} {arguments : List String} (other : h ≠ file) :
    (fillFrom file name arguments).Only (fun r : DeviceRequest => r.uses h = false)
      fun result => ∀ p, result = .ok p → p.executable = file := by
  refine fills_fillFrom.mono (fun r fills => ?_) fun _ => id
  cases r with
  | read | seek | length =>
    rw [of_decide_eq_true fills]
    exact decide_eq_false (Ne.symm other)
  | _ => rfl

end Loader

namespace Kernel

open DeviceRequest

variable {k : Kernel} {start : NewProcess} {α β : Type}

/-- A file that is allowed is closed next. -/
def ClosesNext (a : Action) (q : ThreadProgram α) : Prop :=
  ∀ file, a = .device (allow file) → ∃ next, q = Program.ask (Action.device (close file)) next

theorem ClosesNext.bind {a : Action} {q : ThreadProgram α} (closes : ClosesNext a q)
    (f : α → ThreadProgram β) : ClosesNext a (q >>= f) := by
  intro file same
  obtain ⟨next, rfl⟩ := closes file same
  exact ⟨_, rfl⟩

/-- What a child does, while it loads its program, after a request that has to do with a denial. -/
structure Ensues (a : Action) (q : ThreadProgram (Except LoadError LoadedProgram)) : Prop where
  /-- If a program is loaded, the file that was denied is its executable. -/
  denied : ∀ file, a = Action.device (deny file) →
    q.Only (fun _ => True) fun result => ∀ p, result = .ok p → p.executable = file
  /-- A file that is allowed is closed. -/
  allowed : ClosesNext a q
  /-- When it is closed the load has failed, and nothing more is asked for. -/
  closed : ∀ file, a = Action.device (close file) →
    q.Only (fun a' : Action => ∀ r, a' ≠ .device r) fun result => ∃ e, result = .error e

theorem leads_loading : (loading k start).Leads Ensues := by
  refine fun _ => ⟨⟨nofun, nofun, nofun⟩, leads_withLock (Loader.leads_load _) (fun r q ensues => ?_)
    fun a q other => ⟨fun file same => absurd same (other _), fun file same => absurd same (other _),
      fun file same => absurd same (other _)⟩⟩
  constructor
  · rintro file ⟨⟩
    refine ((only_ofRoutine q).2 (ensues.denied file rfl)).bind fun result so => ?_
    exact (only_unlock volumeLock fun _ _ => trivial).bind fun _ _ => so
  · rintro file ⟨⟩
    obtain ⟨next, rfl⟩ := ensues.allowed file rfl
    exact ⟨_, rfl⟩
  · rintro file ⟨⟩
    obtain ⟨e, rfl⟩ := ensues.closed file rfl
    exact (only_unlock volumeLock fun _ other => other).bind fun _ _ => ⟨e, rfl⟩

/-- A file is denied before it is used, and before a program is loaded from it. -/
theorem before_loading (h : Handle) : (loading k start).Before (fun a => a = .device (deny h))
    (fun a => ∃ r : DeviceRequest, a = .device r ∧ r.uses h = true)
    fun result => ∀ p, result = .ok p → p.executable ≠ h := by
  have unused {r : DeviceRequest} (other : r.uses h = false) :
      ¬∃ r' : DeviceRequest, Action.device r = .device r' ∧ r'.uses h = true := by
    rintro ⟨r', ⟨⟩, uses⟩
    cases other.symm.trans uses
  have freed {result : Except LoadError LoadedProgram} (so : ∀ p, result = .ok p → p.executable ≠ h) :
      (unlock volumeLock >>= fun _ => pure result : ThreadProgram _).Only
        (fun a : Action => ¬∃ r : DeviceRequest, a = .device r ∧ r.uses h = true)
        fun result => ∀ p, result = .ok p → p.executable ≠ h := by
    refine (only_unlock volumeLock fun a other => ?_).bind fun _ _ => so
    rintro ⟨r, same, -⟩
    exact other r same
  refine ⟨unused rfl, .inr fun _ => ⟨?_, .inr fun _ => ?_⟩⟩
  · rintro ⟨r, ⟨⟩, -⟩
  generalize (Words.ofString start.command).take k.settings.maxArguments = arguments
  cases arguments with
  | nil => exact .of_only (freed nofun)
  | cons name rest =>
    rw [Loader.load_eq]
    refine ⟨unused rfl, .inr fun opened => ?_⟩
    cases opened with
    | none => exact .of_only (freed nofun)
    | some file =>
      refine ⟨unused rfl, ?_⟩
      by_cases same : h = file
      · exact .inl (same ▸ rfl)
      refine .inr fun _ => .of_only (Only.bind ((only_ofRoutine _).2 ?_) fun result so => freed so)
      change (Loader.fillFrom file name (name :: rest) >>= Loader.letGo file).Only _ _
      refine ((Loader.fillFrom_uses same).mono (fun _ => unused) fun _ => id).bind fun result so => ?_
      cases result with
      | ok p =>
        rintro p' ⟨⟩
        exact (so p rfl).trans_ne (Ne.symm same)
      | error e => exact ⟨unused rfl, fun _ => ⟨unused rfl, fun _ => nofun⟩⟩

/-! ## Exits -/

theorem leads_closeFiles (executable : Option Handle) (files : List Handle) :
    (closeFiles executable files).Leads ClosesNext := by
  have closed : (closeAll files).Only (fun r : DeviceRequest => ∃ h, r = close h) fun _ => True :=
    .forM (fun h _ => ⟨⟨h, rfl⟩, fun _ => trivial⟩) trivial
  have closes : (closeAll files).Leads fun r (q : Routine Unit) => ∀ file, r = allow file →
      ∃ next, q = Program.ask (close file) next := by
    refine .of_only closed fun r q same file same' => ?_
    obtain ⟨h, rfl⟩ := same
    cases same'
  refine leads_withLock (S := fun r q => ∀ file, r = allow file → ∃ next, q = Program.ask (close file) next) ?_
    (fun r q closes file same => ?_) fun a q other file same => absurd same (other _)
  · cases executable with
    | none => exact closes
    | some h => exact fun _ => ⟨fun file same => ⟨_, by cases same; rfl⟩, fun _ => ⟨nofun, closes⟩⟩
  · obtain ⟨next, rfl⟩ := closes file (Action.device.inj same)
    exact ⟨_, rfl⟩

theorem leads_leaving {p : Process} {status : Int32} : (leaving p status : ThreadProgram α).Leads ClosesNext := by
  have final {a : Action} (q : ThreadProgram α) (final : a.Final (some status)) : ClosesNext a q := by
    rintro file rfl
    cases final
  have parts : (parting p status).Only (Action.Final (some status)) fun _ => True := finishes_parting
  have departs : (departing : ThreadProgram α).Only (Action.Final (some status)) fun _ => True :=
    finishes_departing
  exact .after_only parts (fun a q => final q) fun _ _ => (leads_closeFiles _ _).bind
    (fun a q closes => closes.bind _) fun _ => .of_only departs fun a q => final q

theorem leads_exitProcess {status : Int32} : (exitProcess status : ThreadProgram α).Leads ClosesNext := by
  obtain ⟨first, opens⟩ : ∃ first, (exitProcess status : ThreadProgram α) =
    Program.ask (Action.device process) first := ⟨_, rfl⟩
  rw [opens]
  refine fun hosted => ⟨nofun, ?_⟩
  cases hosted with
  | none =>
    have vanishes : (vanishing : ThreadProgram α).Only (Action.Final (some status)) fun _ => True :=
      finishes_vanishing
    rw [exitProcess_none opens]
    refine .of_only vanishes fun a q final file same => ?_
    subst same
    cases final
  | some p =>
    rw [exitProcess_some opens]
    refine fun _ => ⟨nofun, ?_⟩
    split
    · exact fun _ => ⟨nofun, leads_leaving⟩
    · exact leads_leaving

end Kernel

end Userland

import Userland.Proofs.SlotTable

/-!
# What follows when memory is given back

A start gives memory back if its load has failed, and then it gets no page tables to run on; when it has got those
of its process it gives nothing back (`Kernel.leads_starting_sequel`). An exit activates the kernel's page tables
with the next request when it has detached the memory of the process, and turns interrupts on then; and when it has
detached the process it turns them on and destroys the process (`Kernel.leads_exitProcess_sequel`).
-/

namespace Userland

open ThreadProgram
open Program (Leads Only)

-- Which words a line has does not matter for what is done with them.
attribute [local irreducible] Words.ofString

/-- The requests that give back the space in hand: its pages, and then the space itself. -/
def DeviceRequest.empties : DeviceRequest → Bool
  | freePage _ | dropSpace => true
  | _ => false

/-- The requests by which a thread gets page tables to run on: memory is installed, and page tables are
    activated. -/
def DeviceRequest.engages : DeviceRequest → Bool
  | installSpace | activate _ => true
  | _ => false

/-- The requests by which a thread detaches its process, or the memory of that. -/
def DeviceRequest.detaches : DeviceRequest → Bool
  | detachSpace | detachProcess => true
  | _ => false

/-- The space in hand is given back. -/
def Action.empties : Action → Bool
  | device r => r.empties
  | _ => false

/-- A thread gets page tables to run on. -/
def Action.engages : Action → Bool
  | device r => r.engages
  | _ => false

/-! ## Loads -/

namespace Loader

open DeviceRequest Routine

/-- A routine that fails, and engages no page tables. -/
abbrev Fails (p : Routine (Except LoadError LoadedProgram)) : Prop :=
  p.Only (fun r : DeviceRequest => r.engages = false) fun result => ∃ e, result = .error e

theorem fails_letGo (file : Handle) (e : LoadError) : Fails (letGo file (.error e)) :=
  ⟨rfl, fun _ => ⟨rfl, fun _ => ⟨e, rfl⟩⟩⟩

/-- When it gives the space back a load fails. -/
theorem leads_load_empties (arguments : List String) :
    (load arguments).Leads fun (r : DeviceRequest) q => r.empties = true → Fails q := by
  cases arguments with
  | nil => trivial
  | cons name rest =>
    rw [load_eq]
    refine fun opened => ⟨Bool.noConfusion, ?_⟩
    cases opened with
    | none => trivial
    | some file =>
      refine fun _ => ⟨Bool.noConfusion, ?_⟩
      have filled : (fillFrom file name (name :: rest)).Leads fun (r : DeviceRequest) q =>
          r.empties = true → Fails q := by
        refine .after_only builds_loadImage (fun (r : DeviceRequest) q builds empties => ?_) fun loaded _ => ?_
        · cases r with
          | freePage | dropSpace => cases builds
          | _ => cases empties
        · rcases loaded with e | ⟨entry, stack⟩
          · -- The image could not be loaded: the space is given back, and the load fails.
            have released : (releaseSpace : Routine Unit).Only (fun r : DeviceRequest => r.engages = false)
                fun _ => True := by
              have fills : Fills file (fun _ => True) releaseSpace := fills_releaseSpace
              refine fills.mono (fun (r : DeviceRequest) fills => ?_) fun _ => id
              cases r <;> first | rfl | cases fills
            have fails : Fails (do
                releaseSpace
                remark name e.message
                return .error e) := released.bind fun _ _ => ⟨rfl, fun _ => ⟨e, rfl⟩⟩
            exact fails.leads.mono fun r q so _ => so.2
          · exact fun _ => ⟨Bool.noConfusion, fun _ => ⟨Bool.noConfusion, trivial⟩⟩
      refine filled.bind (fun (r : DeviceRequest) q fails empties => (fails empties).bind ?_) fun result => ?_
      · rintro _ ⟨e, rfl⟩
        exact fails_letGo file e
      · cases result with
        | ok p => trivial
        | error e => exact (fails_letGo file e).leads.mono fun r q so _ => so.2

end Loader

namespace Kernel

open DeviceRequest

variable {k : Kernel} {start : NewProcess} {α β : Type}

/-! ## Starts -/

/-- What a start does after an action that has to do with page tables. -/
structure StartSequel (a : Action) (q : ThreadProgram α) : Prop where
  /-- When the space in hand is given back, none are engaged any more. -/
  empties : a.empties = true → q.Only (fun a : Action => a.engages = false) fun _ => True
  /-- When some are engaged, no space is given back any more. -/
  engages : a.engages = true → q.Only (fun a : Action => a.empties = false) fun _ => True

theorem leads_of_keeps {p : ThreadProgram α} (keeps : p.Only (fun a : Action => a.empties = false) fun _ => True) :
    p.Leads StartSequel :=
  keeps.leads.mono fun _ _ ⟨keeps, rest⟩ => ⟨fun empties => (nomatch keeps.symm.trans empties), fun _ => rest⟩

theorem leads_of_still {p : ThreadProgram α} (still : p.Only (fun a : Action => a.engages = false) fun _ => True) :
    p.Leads StartSequel :=
  still.leads.mono fun _ _ ⟨still, rest⟩ => ⟨fun _ => rest, fun engages => (nomatch still.symm.trans engages)⟩

/-- When it gives the space back a child does not load its program. -/
theorem leads_loading_empties : (loading k start).Leads fun (a : Action) q => a.empties = true →
    q.Only (fun a : Action => a.engages = false) fun result => ∃ e, result = .error e := by
  refine fun _ => ⟨Bool.noConfusion, leads_withLock (Loader.leads_load_empties _) (fun r q fails empties => ?_)
    fun a q other empties => ?_⟩
  · refine ((only_ofRoutine q).2 (fails empties)).bind fun result so => ?_
    exact (only_unlock volumeLock fun a other => by cases a <;> first | rfl | exact absurd rfl (other _)).bind
      fun _ _ => so
  · cases a <;> first | exact absurd rfl (other _) | cases empties

/-- A child without a program does nothing more in its start but tell that. -/
theorem only_announcing_error {e : LoadError} :
    (announcing start (.error e)).Only (fun a : Action => a.engages = false) fun _ => True := by
  have told : (discard (send start.loaded (.loaded false))).Only (fun a : Action => a.engages = false)
      fun _ => True := only_send fun a other => by cases a <;> first | rfl | exact absurd rfl (other _)
  simp only [announcing]
  cases e.diagnostic? with
  | none => exact told
  | some text => exact ⟨rfl, fun _ => told⟩

theorem leads_starting_sequel : (starting k start).Leads StartSequel := by
  -- A load engages nothing, and when it gives the space back all that is left to do is to tell of the failure.
  refine Leads.bind (leads_loading_empties.and loads_loading.leads) (fun (a : Action) q ⟨fails, loads, _⟩ =>
    ⟨fun empties => (fails empties).bind ?_, fun engages => ?_⟩) fun result => ?_
  · rintro _ ⟨e, rfl⟩
    exact only_announcing_error.bind fun _ _ => trivial
  · cases a with
    | device r => cases r <;> first | (cases engages; done) | cases loads
    | _ => cases engages
  · cases result with
    | ok program =>
      refine leads_of_keeps (Only.bind (R := fun _ => True) ((announces_ok program).mono (fun a announces => ?_)
        fun _ => id) fun _ _ => trivial)
      cases a with
      | device r => cases r <;> first | rfl | cases announces
      | _ => rfl
    | error e => exact leads_of_still (only_announcing_error.bind fun _ _ => trivial)

/-! ## Exits -/

/-- What an exit does after it has detached something. -/
structure ExitSequel (a : Action) (q : ThreadProgram α) : Prop where
  /-- When the memory is detached the kernel's page tables are activated, and interrupts are turned on. -/
  detaches : a = .device detachSpace → ∃ level next,
    q = Program.ask (Action.device (activate none)) fun _ => Program.ask (Action.device (setInterrupts level)) next
  /-- When the process is detached interrupts are turned on, and it is destroyed. -/
  vanishes : a = .device detachProcess → ∃ level next,
    q = Program.ask (Action.device (setInterrupts level)) fun _ => Program.ask (Action.device destroyProcess) next

theorem ExitSequel.bind {a : Action} {q : ThreadProgram α} (sequel : ExitSequel a q) (f : α → ThreadProgram β) :
    ExitSequel a (q >>= f) where
  detaches same := by
    obtain ⟨level, next, rfl⟩ := sequel.detaches same
    exact ⟨level, _, rfl⟩
  vanishes same := by
    obtain ⟨level, next, rfl⟩ := sequel.vanishes same
    exact ⟨level, _, rfl⟩

/-- Anything may come after other actions. -/
theorem exitSequel_of_ne {a : Action} (detaches : a ≠ .device detachSpace) (vanishes : a ≠ .device detachProcess)
    (q : ThreadProgram α) : ExitSequel a q where
  detaches same := absurd same detaches
  vanishes same := absurd same vanishes

theorem exitSequel_apart {p : ThreadProgram α} {next : α → ThreadProgram β} (apart : Apart p)
    (rest : ∀ x, (next x).Leads ExitSequel) : (p >>= next).Leads ExitSequel :=
  .after_only apart (fun a q apart => exitSequel_of_ne (by rintro rfl; cases apart) (by rintro rfl; cases apart) q)
    fun x _ => rest x

theorem exitSequel_ask {r : DeviceRequest} {next : r.Answer → ThreadProgram α} (other : r.detaches = false)
    (rest : ∀ answer, (next answer).Leads ExitSequel) : (ask r >>= next).Leads ExitSequel := fun answer =>
  ⟨exitSequel_of_ne (by rintro ⟨⟩; cases other) (by rintro ⟨⟩; cases other) _, rest answer⟩

theorem leads_vanishing : (vanishing : ThreadProgram α).Leads ExitSequel := by
  obtain ⟨rest, opens, apart⟩ := destroyInHand_opens
  simp only [vanishing, withoutInterrupts, opens, bind_assoc]
  refine exitSequel_ask rfl fun level _ => ⟨⟨fun same => (by cases same), fun _ => ⟨level, _, rfl⟩⟩, ?_⟩
  refine exitSequel_ask rfl fun _ => exitSequel_ask rfl fun left => ?_
  exact exitSequel_apart (apart left) fun _ => .of_only apart_exitThread fun a q apart =>
    exitSequel_of_ne (by rintro rfl; cases apart) (by rintro rfl; cases apart) q

theorem leads_releaseMemory {next : Unit → ThreadProgram α} (rest : ∀ x, (next x).Leads ExitSequel) :
    (releaseMemory >>= next).Leads ExitSequel := by
  simp only [releaseMemory, withoutInterrupts, bind_assoc]
  refine exitSequel_ask rfl fun level detached =>
    ⟨⟨fun _ => ⟨level, _, rfl⟩, fun same => by cases same⟩, ?_⟩
  refine exitSequel_ask rfl fun _ => exitSequel_ask rfl fun _ => ?_
  change ((if detached then (Loader.releaseSpace : ThreadProgram Unit) else pure ()) >>= next).Leads ExitSequel
  refine exitSequel_apart ?_ rest
  split
  · exact apart_releaseSpace
  · trivial

theorem leads_leaving_sequel {p : Process} {status : Int32} :
    (leaving p status : ThreadProgram α).Leads ExitSequel := by
  have rest : (do
      let executable ← ask takeExecutable
      let files ← ask takeFiles
      closeFiles executable files
      departing : ThreadProgram α).Leads ExitSequel :=
    exitSequel_ask rfl fun executable => exitSequel_ask rfl fun files =>
      exitSequel_apart (apart_closeFiles executable files) fun _ =>
        exitSequel_apart (apart_forgetChildren _) fun _ => leads_releaseMemory fun _ => leads_vanishing
  rw [leaving_eq]
  refine exitSequel_ask rfl fun _ => exitSequel_ask rfl fun _ => exitSequel_ask rfl
    fun signal => ?_
  cases signal with
  | none => exact rest
  | some c => exact exitSequel_apart apart_send fun _ => rest

theorem leads_exitProcess_sequel {status : Int32} : (exitProcess status : ThreadProgram α).Leads ExitSequel := by
  rw [exitProcess_eq]
  refine exitSequel_ask rfl fun hosted => ?_
  cases hosted with
  | none => exact leads_vanishing
  | some p =>
    refine exitSequel_ask rfl fun _ => ?_
    split
    · exact exitSequel_ask rfl fun _ => leads_leaving_sequel
    · exact leads_leaving_sequel

end Kernel

end Userland

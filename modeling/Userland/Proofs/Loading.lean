import Mathlib.Tactic.Common
import Userland.Executable.Loader
import Userland.Proofs.Asking

/-!
# What is done in a load

A load opens a file, denies writes to it, and fills a space from it. Only then is the file let go: if the
program is loaded its handle is kept, and if not the denial is taken back and the handle closed at once
(`Loader.load_eq`). In between nothing is asked for but what fills a space or gives one back, and no other
file is used (`Loader.fills_fillFrom`).
-/

namespace Userland

open Program (Only)

/-- The requests that fill a space from a file, or give it back. -/
def DeviceRequest.fills (file : Handle) : DeviceRequest → Bool
  | newSpace | allocate | fill .. | clear _ | freeFrame | mapFrame .. | spacePages | freePage _ | dropSpace
  | log .. => true
  | read h _ | seek h _ | length h => decide (h = file)
  | _ => false

/-- The requests that fill a space from a file. -/
def DeviceRequest.builds (file : Handle) : DeviceRequest → Bool
  | newSpace | allocate | fill .. | clear _ | freeFrame | mapFrame .. => true
  | read h _ | seek h _ | length h => decide (h = file)
  | _ => false

theorem DeviceRequest.fills_of_builds {file : Handle} {r : DeviceRequest} (builds : r.builds file = true) :
    r.fills file = true := by
  cases r <;> first | rfl | exact builds

namespace Loader

open DeviceRequest Routine

variable {file : Handle} {α β : Type}

/-- A routine that fills a space from a file, or gives it back. -/
abbrev Fills (file : Handle) (R : α → Prop) (p : Routine α) : Prop :=
  p.Only (fun r : DeviceRequest => r.fills file = true) R

/-- A routine that fills a space from a file. -/
abbrev Builds (file : Handle) (p : Routine α) : Prop :=
  p.Only (fun r : DeviceRequest => r.builds file = true) fun _ => True

/-- What is done with a file that is open and denied. -/
def fillFrom (file : Handle) (name : String) (arguments : List String) :
    Routine (Except LoadError LoadedProgram) := do
  match ← loadImage file arguments with
  | .ok (entry, stack) =>
    let mapped ← ask spacePages
    remark name ("entry " ++ entry.text ++ ", " ++ toString mapped.length ++ " pages, esp " ++
      stack.text)
    return .ok ⟨entry, stack, file⟩
  | .error e =>
    releaseSpace
    remark name e.message
    return .error e

/-- What becomes of the file afterwards. -/
def letGo (file : Handle) : Except LoadError LoadedProgram → Routine (Except LoadError LoadedProgram)
  | .ok p => return .ok p
  | .error e => do
    ask (allow file)
    ask (close file)
    return .error e

/-- A load opens a file, denies writes to it, fills a space from it, and lets it go. -/
theorem load_eq (name : String) (rest : List String) : load (name :: rest) = (do
    match ← ask (openFile name) with
    | none => return .error .openFailed
    | some file =>
      ask (deny file)
      letGo file (← fillFrom file name (name :: rest))) := by
  unfold load fillFrom
  dsimp only
  refine congrArg (ask (openFile name) >>= ·) (funext fun opened => ?_)
  cases opened with
  | none => rfl
  | some file =>
    simp only [bind_assoc]
    refine congrArg (ask (deny file) >>= ·) (funext fun _ => ?_)
    refine congrArg (loadImage file (name :: rest) >>= ·) (funext fun loaded => ?_)
    rcases loaded with e | ⟨entry, stack⟩
    · simp only [bind_assoc]
      rfl
    · rfl

/-! ## Filling -/

theorem builds_ask {r : DeviceRequest} (builds : r.builds file = true) : Builds file (ask r) :=
  ⟨builds, fun _ => trivial⟩

theorem builds_bind {p : Routine α} {next : α → Routine β} (first : Builds file p)
    (rest : ∀ x, Builds file (next x)) : Builds file (p >>= next) := first.bind fun x _ => rest x

theorem builds_loadPages {writable : Bool} {page readBytes count : Nat} :
    Builds file (loadPages file writable page readBytes count) := by
  induction count generalizing page readBytes with
  | zero => trivial
  | succ count ih =>
    refine builds_bind (builds_ask rfl) fun allocated => ?_
    split
    · refine builds_bind (builds_ask (by simp [DeviceRequest.builds])) fun data => ?_
      split
      · refine builds_bind (builds_ask rfl) fun _ => builds_bind (builds_ask rfl) fun _ =>
          builds_bind (builds_ask rfl) fun mapped => ?_
        split
        · exact ih
        · trivial
      · exact builds_bind (builds_ask rfl) fun _ => trivial
    · trivial

theorem builds_loadSegments {fileLength : UInt32} {offset segments : Nat} :
    Builds file (loadSegments file fileLength offset segments) := by
  have own {r : DeviceRequest} (builds : r.builds file = true) : Builds file (ask r) := builds_ask builds
  induction segments generalizing offset with
  | zero => trivial
  | succ segments ih =>
    unfold loadSegments
    split
    · trivial
    refine builds_bind (own (by simp [DeviceRequest.builds])) fun _ =>
      builds_bind (own (by simp [DeviceRequest.builds])) fun raw => ?_
    split
    · trivial
    split
    · trivial
    split
    · trivial
    split
    · trivial
    split
    · split
      · trivial
      · refine builds_bind (builds_bind (own (by simp [DeviceRequest.builds])) fun _ => builds_loadPages)
          fun loaded => ?_
        split
        · trivial
        · exact ih
    · exact ih

theorem builds_loadStack {arguments : List String} : Builds file (loadStack arguments) := by
  refine builds_bind (builds_ask rfl) fun allocated => ?_
  split
  · split
    · exact builds_bind (builds_ask rfl) fun _ => trivial
    · refine builds_bind (builds_ask rfl) fun _ => builds_bind (builds_ask rfl) fun mapped => ?_
      split <;> trivial
  · trivial

/-- Until the space is filled, or cannot be, no page of it is given back. -/
theorem builds_loadImage {arguments : List String} : Builds file (loadImage file arguments) := by
  refine builds_bind (builds_ask rfl) fun _ =>
    builds_bind (builds_ask (by simp [DeviceRequest.builds])) fun raw => ?_
  split
  · trivial
  split
  · trivial
  refine builds_bind (builds_ask (by simp [DeviceRequest.builds])) fun fileLength =>
    builds_bind builds_loadSegments fun loaded => ?_
  split
  · trivial
  refine builds_bind builds_loadStack fun stack => ?_
  split <;> trivial

theorem fills_request {r : DeviceRequest} (fills : r.fills file = true) :
    Fills file (fun _ => True) (ask r) := ⟨fills, fun _ => trivial⟩

theorem fills_bind {R : β → Prop} {p : Routine α} {next : α → Routine β}
    (first : Fills file (fun _ => True) p) (rest : ∀ x, Fills file R (next x)) :
    Fills file R (p >>= next) := first.bind fun x _ => rest x

theorem fills_releaseSpace : Fills file (fun _ => True) releaseSpace :=
  fills_bind (fills_request rfl) fun _ =>
    fills_bind (.forM (fun _ _ => fills_request rfl) trivial) fun _ =>
      fills_bind (fills_request rfl) fun _ => fills_request rfl

/-- While a space is filled no other file is used, and if a program is loaded the file is its
    executable. -/
theorem fills_fillFrom {name : String} {arguments : List String} :
    Fills file (fun result => ∀ p, result = .ok p → p.executable = file)
      (fillFrom file name arguments) := by
  have filled : Fills file (fun _ => True) (loadImage file arguments) :=
    builds_loadImage.mono (fun _ => fills_of_builds) fun _ => id
  refine fills_bind filled fun loaded => ?_
  rcases loaded with e | ⟨entry, stack⟩
  · exact fills_bind fills_releaseSpace fun _ => fills_bind (fills_request rfl) fun _ => nofun
  · refine fills_bind (fills_request rfl) fun mapped => fills_bind (fills_request rfl) fun _ => ?_
    rintro p ⟨⟩
    rfl

/-- Whatever may be done in a load: a file is opened, denied, used, and let go. -/
theorem only_load {P : DeviceRequest → Prop} {arguments : List String} (opens : ∀ path, P (openFile path))
    (denies : ∀ file, P (deny file)) (fills : ∀ file (r : DeviceRequest), r.fills file = true → P r)
    (allows : ∀ file, P (allow file)) (closes : ∀ file, P (close file)) :
    (load arguments).Only P fun _ => True := by
  cases arguments with
  | nil => trivial
  | cons name rest =>
    rw [load_eq]
    refine ⟨opens name, fun opened => ?_⟩
    cases opened with
    | none => trivial
    | some file =>
      refine ⟨denies file, fun _ => ?_⟩
      change (fillFrom file name (name :: rest) >>= letGo file).Only P _
      refine Only.bind (R := fun _ => True)
        (fills_fillFrom.mono (fun r filling => fills file r filling) fun _ _ => trivial) fun result _ => ?_
      cases result with
      | ok p => trivial
      | error e => exact ⟨allows file, fun _ => ⟨closes file, fun _ => trivial⟩⟩

end Loader

end Userland

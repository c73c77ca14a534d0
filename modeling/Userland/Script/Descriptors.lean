import Userland.Files.DescriptorTable

/-!
# Scripts for a descriptor table

The files of a script are labels with a position. A file that leaves the table is closed, and a
script is told which files each operation closed.
-/

namespace Userland

/-- A file that is no more than a label and a position. -/
structure LabelledFile where
  /-- The label. -/
  label : Nat
  /-- The position. -/
  position : Nat

/-- An operation on a descriptor table. -/
inductive DescriptorOp where
  /-- Open a file. -/
  | insert (label : Nat)
  /-- Look a file up. -/
  | get (fd : Int32)
  /-- Move a position. -/
  | seek (fd : Int32) (position : Nat)
  /-- Close a file. -/
  | remove (fd : Int32)
  /-- Close the first files, or all. -/
  | drain (limit : Option Nat)
  /-- Tell the table as text. -/
  | debugText

/-- The answer to an operation. -/
inductive DescriptorReply where
  /-- The number names no descriptor. -/
  | nothing
  /-- The descriptor of a new file. -/
  | opened (descriptor : Descriptor)
  /-- There is no descriptor for a file. -/
  | full (label : Nat)
  /-- A file. -/
  | file (file : LabelledFile)
  /-- A position. -/
  | position (n : Nat)
  /-- A refusal. -/
  | refused (reason : DescriptorError)
  /-- Labels. -/
  | labels (list : List Nat)
  /-- Text. -/
  | text (text : String)

/-- An answer, with the files closed and the table afterwards. -/
structure DescriptorStep where
  /-- The answer. -/
  reply : DescriptorReply
  /-- The labels of the files that were closed. -/
  closed : List Nat
  /-- The table. -/
  table : DescriptorTable LabelledFile

namespace DescriptorOp

/-- Do something with a descriptor, if the number names one. -/
def withDescriptor (t : DescriptorTable LabelledFile) (fd : Int32)
    (f : Descriptor → Except DescriptorError DescriptorStep) : DescriptorStep :=
  match Descriptor.ofInt? fd with
  | none => ⟨.nothing, [], t⟩
  | some d =>
    match f d with
    | .ok step => step
    | .error e => ⟨.refused e, [], t⟩

/-- What an operation answers, which files it closes, and the table afterwards. -/
def perform (t : DescriptorTable LabelledFile) : DescriptorOp → DescriptorStep
  | insert label =>
    match t.insert ⟨label, 0⟩ with
    | some (d, t) => ⟨.opened d, [], t⟩
    | none => ⟨.full label, [label], t⟩
  | get fd => withDescriptor t fd fun d => (t.get d).map fun file => ⟨.file file, [], t⟩
  | seek fd position => withDescriptor t fd fun d =>
      (t.modify d fun file => { file with position := position }).map fun t =>
        ⟨.position position, [], t⟩
  | remove fd => withDescriptor t fd fun d =>
      (t.remove d).map fun (file, t) => ⟨.file file, [file.label], t⟩
  | drain limit =>
    let (files, t) := t.drain (limit.getD t.size)
    let labels := files.map (·.label)
    ⟨.labels labels, labels, t⟩
  | debugText => ⟨.text t.debugText, [], t⟩

/-- What operations answer, one after the other. -/
def performAll (t : DescriptorTable LabelledFile) : List DescriptorOp → List DescriptorStep
  | [] => []
  | op :: rest =>
    let step := perform t op
    step :: performAll step.table rest

end DescriptorOp

end Userland

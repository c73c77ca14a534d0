/-!
# Programs as trees

What a thread does is a tree: a leaf is a result, and a node asks the machine for one thing and goes
on with the answer. A `Signature` says what can be asked and what kind of answer each request has.
Programs are put together like any monad's (`Program.bind`); the laws hold as equations.
-/

namespace Userland

/-- Requests and the kinds of their answers. -/
structure Signature where
  /-- What can be asked. -/
  Request : Type
  /-- The answers to a request. -/
  Answer : Request → Type

/-- A program with results in `α`. -/
inductive Program (σ : Signature) (α : Type) : Type where
  /-- The program is over. -/
  | pure (result : α)
  /-- The program asks for something and goes on with the answer. -/
  | ask (request : σ.Request) (next : σ.Answer request → Program σ α)

namespace Program

variable {σ : Signature} {α β γ : Type}

/-- Go on with another program. -/
def bind : Program σ α → (α → Program σ β) → Program σ β
  | pure x, f => f x
  | ask r next, f => ask r fun answer => (next answer).bind f

instance : Monad (Program σ) where
  pure := Program.pure
  bind := Program.bind

/-- The program that asks for one thing. -/
def request (r : σ.Request) : Program σ (σ.Answer r) := ask r pure

theorem bind_pure (p : Program σ α) : p.bind pure = p := by
  induction p with
  | pure x => rfl
  | ask r next ih => simp [bind, ih]

theorem bind_assoc (p : Program σ α) (f : α → Program σ β) (g : β → Program σ γ) :
    (p.bind f).bind g = p.bind fun x => (f x).bind g := by
  induction p with
  | pure x => rfl
  | ask r next ih => simp [bind, ih]

instance : LawfulMonad (Program σ) :=
  LawfulMonad.mk' _ bind_pure (fun _ _ => rfl) bind_assoc

end Program

end Userland

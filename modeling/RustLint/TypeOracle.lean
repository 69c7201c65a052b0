import RustLint.Source
import RustLint.Syntax.Ty
import RustLint.Text.Segments

set_option autoImplicit false

/- Questions about types that a single file cannot answer. Whoever answers is an oracle, and any of
its answers may fail. An inquiry is a computation that asks; it records its questions in order and
ends at the first that fails. -/
namespace RustLint

/-- The identity of a trait: its path. -/
structure TraitId where
  path : String
  deriving DecidableEq, Inhabited, Repr

/-- The last segment of the path. -/
def TraitId.name (t : TraitId) : String := Text.lastSegment t.path

/-- A question about types. -/
inductive Query where
  /-- Are the two written types the same? -/
  | sameType (a b : Ty)
  /-- Where is the type defined, if that is known? -/
  | definitionSpan (ty : Ty)
  /-- Which file is it defined in, if that is known? -/
  | definitionSource (ty : Ty)
  /-- Can the type be named outside of its crate? -/
  | isExported (ty : Ty)
  /-- Which trait does the path name? -/
  | resolveTrait (path : String)
  /-- Does the type implement the trait? -/
  | implements (ty : Ty) (trait : TraitId)
  /-- What are the types of the fields, when the type is a struct? -/
  | fields (ty : Ty)

/-- What a question is answered with. -/
@[reducible] def Query.Answer : Query → Type
  | sameType _ _ => Bool
  | definitionSpan _ => Option Span
  | definitionSource _ => Option Source
  | isExported _ => Bool
  | resolveTrait _ => Option TraitId
  | implements _ _ => Bool
  | fields _ => Option (List Ty)

/-- The question was not answered. -/
inductive QueryFailure where
  | noAnswer
  deriving DecidableEq, Inhabited, Repr

/-- Answers questions, or fails to. -/
abbrev TypeOracle := (q : Query) → Except QueryFailure q.Answer

/-- The questions asked, in order, and what came of them. -/
structure Inquiry (α : Type) where
  asked : List Query
  result : Except QueryFailure α

namespace Inquiry

variable {α β : Type}

def andThen (x : Inquiry α) (f : α → Inquiry β) : Inquiry β :=
  match x.result with
  | .ok a =>
    let y := f a
    ⟨x.asked ++ y.asked, y.result⟩
  | .error e => ⟨x.asked, .error e⟩

instance : Monad Inquiry where
  pure a := ⟨[], .ok a⟩
  bind := andThen

@[simp] theorem asked_pure (a : α) : (pure a : Inquiry α).asked = [] := rfl

@[simp] theorem result_pure (a : α) : (pure a : Inquiry α).result = .ok a := rfl

theorem bind_of_ok {x : Inquiry α} {a : α} (h : x.result = .ok a) (f : α → Inquiry β) :
    (x >>= f) = ⟨x.asked ++ (f a).asked, (f a).result⟩ := by
  simp [bind, andThen, h]

theorem bind_of_error {x : Inquiry α} {e : QueryFailure} (h : x.result = .error e)
    (f : α → Inquiry β) : (x >>= f) = ⟨x.asked, .error e⟩ := by
  simp [bind, andThen, h]

/-- What comes to a result has come to one before its last part. -/
theorem exists_of_bind_eq_ok {x : Inquiry α} {f : α → Inquiry β} {b : β}
    (done : (x >>= f).result = .ok b) : ∃ a, x.result = .ok a ∧ (f a).result = .ok b := by
  cases first : x.result with
  | ok a =>
    rw [bind_of_ok first] at done
    exact ⟨a, rfl, done⟩
  | error e =>
    rw [bind_of_error first] at done
    cases done

/-- Asks one question. -/
def ask (oracle : TypeOracle) (q : Query) : Inquiry q.Answer := ⟨[q], oracle q⟩

/-- Do all the types implement the trait? Nothing is asked after the first that does not. -/
def allImplement (oracle : TypeOracle) (trait : TraitId) : List Ty → Inquiry Bool
  | [] => pure true
  | ty :: tys => do
    if ← ask oracle (.implements ty trait) then allImplement oracle trait tys else return false

end Inquiry

end RustLint

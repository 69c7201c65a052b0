set_option autoImplicit false

namespace RustLint

/-- Log levels, the least first. -/
inductive LogLevel where
  | debug
  | info
  | warning
  deriving DecidableEq, Inhabited, Repr

namespace LogLevel

def name : LogLevel → String
  | debug => "DEBUG"
  | info => "INFO"
  | warning => "WARNING"

def rank : LogLevel → Nat
  | debug => 10
  | info => 20
  | warning => 30

end LogLevel

structure LogRecord where
  level : LogLevel
  logger : String
  message : String
  deriving DecidableEq, Inhabited, Repr

/-- A value and the records written on the way to it, the first first. -/
structure Logged (α : Type) where
  value : α
  log : List LogRecord := []
  deriving Inhabited

namespace Logged

variable {α β : Type}

def andThen (x : Logged α) (f : α → Logged β) : Logged β :=
  let y := f x.value
  ⟨y.value, x.log ++ y.log⟩

instance : Monad Logged where
  pure a := ⟨a, []⟩
  bind := andThen

@[simp] theorem value_pure (a : α) : (pure a : Logged α).value = a := rfl

@[simp] theorem log_pure (a : α) : (pure a : Logged α).log = [] := rfl

@[simp] theorem value_bind (x : Logged α) (f : α → Logged β) :
    (x >>= f).value = (f x.value).value := rfl

@[simp] theorem log_bind (x : Logged α) (f : α → Logged β) :
    (x >>= f).log = x.log ++ (f x.value).log := rfl

/-- Writes one record. -/
def write (record : LogRecord) : Logged Unit := ⟨(), [record]⟩

/-- The values of all, and their records one after the other. -/
def each (f : α → Logged β) : List α → Logged (List β)
  | [] => pure []
  | a :: as => do
    let b ← f a
    let bs ← each f as
    return b :: bs

theorem value_each (f : α → Logged β) (as : List α) :
    (each f as).value = as.map fun a => (f a).value := by
  induction as with
  | nil => rfl
  | cons a as ih => simp [each, ih]

end Logged

end RustLint

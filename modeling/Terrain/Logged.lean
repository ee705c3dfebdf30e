import Terrain.Error

/-!
# Results with a log

An operation may leave records behind, also when it fails. Its outcome is the list of its records
in order together with its result; a sequence of operations ends with the first failure and keeps
the records up to it.
-/

namespace Terrain

/-- How much a record matters. -/
inductive Level where
  | debug
  | info
  | warn
  deriving DecidableEq, Repr

/-- One line of a log. -/
structure LogRecord where
  level : Level
  text : String
  deriving DecidableEq, Repr

/-- A result and the records that were left on the way to it. -/
structure Logged (α : Type) where
  log : List LogRecord
  result : Except Error α

namespace Logged

variable {α β : Type}

/-- Goes on with the value of a result, if there is one. -/
def andThen (x : Logged α) (f : α → Logged β) : Logged β :=
  match x.result with
  | .ok a => ⟨x.log ++ (f a).log, (f a).result⟩
  | .error e => ⟨x.log, .error e⟩

instance : Monad Logged where
  pure a := ⟨[], .ok a⟩
  bind := andThen

def ofExcept (r : Except Error α) : Logged α := ⟨[], r⟩

instance : MonadLift (Except Error) Logged := ⟨ofExcept⟩

def note (level : Level) (text : String) : Logged Unit := ⟨[⟨level, text⟩], .ok ()⟩

def noteIf (condition : Bool) (level : Level) (text : String) : Logged Unit :=
  if condition then note level text else pure ()

@[simp] theorem result_pure (a : α) : (pure a : Logged α).result = .ok a := rfl

@[simp] theorem result_ofExcept (r : Except Error α) : (ofExcept r).result = r := rfl

@[simp] theorem result_note (level : Level) (text : String) :
    (note level text).result = .ok () := rfl

@[simp] theorem result_noteIf (condition : Bool) (level : Level) (text : String) :
    (noteIf condition level text).result = .ok () := by
  cases condition <;> rfl

/-- The result of a sequence does not depend on the records. -/
@[simp] theorem result_bind (x : Logged α) (f : α → Logged β) :
    (x >>= f).result = x.result.bind fun a => (f a).result := by
  change (andThen x f).result = _
  unfold andThen
  cases x.result <;> rfl

/-- The records of a sequence are those of its parts, up to the first failure. -/
theorem log_bind (x : Logged α) (f : α → Logged β) :
    (x >>= f).log = x.log ++ match x.result with | .ok a => (f a).log | .error _ => [] := by
  change (andThen x f).log = _
  unfold andThen
  cases x.result <;> simp

end Logged

end Terrain

import Ambient.Text.Quoted

/-!
# Warnings

Some documents say more than a declaration can hold, or contradict themselves.  Such a document is
still declared, in the best way there is, and a warning says what was left out.  `Logged` is a result
together with the warnings on the way to it, in order; with a failure on top of it the warnings
before the failure are kept.
-/

namespace Ambient

/-- What was left out of a declaration, and where. -/
inductive Warning
  /-- A parameter is documented as optional and a required one follows it. -/
  | optionalBeforeRequired (entry : Text) (parameter : Text)
  /-- More than one place of a signature could hold the values of an enumeration. -/
  | severalStringTypes (signature : Text)
  /-- The prose requires a key that the sample lacks. -/
  | missingRequiredKey (interface : Text) (key : Text)
  /-- No place of a signature can hold the name of an interface. -/
  | noPlaceholder (owner signature reference : Text)
  /-- Members are defined for a symbol that the document does not have. -/
  | unknownSymbol (name : Text)
deriving DecidableEq, Repr

/-- The wording of a warning. -/
def Warning.message : Warning → Text
  | .optionalBeforeRequired entry parameter =>
    entry ++ ": parameter " ++ parameter.quoted
      ++ " is documented as optional but a required parameter follows it; keeping it required"
  | .severalStringTypes signature =>
    "Multiple string types are eligible for the enum at " ++ signature ++ "; using the first"
  | .missingRequiredKey interface key =>
    "Interface " ++ interface ++ ": prose requires key " ++ key.quoted
      ++ " which the sample lacks"
  | .noPlaceholder owner signature reference =>
    owner ++ "." ++ signature ++ ": no map or 'any' placeholder to replace with " ++ reference
  | .unknownSymbol name =>
    "!define entry " ++ name.quoted ++ " does not name a known symbol; skipped"

/-- A result and the warnings on the way to it, in order. -/
structure Logged (α : Type) where
  value : α
  warnings : List Warning := []
deriving Repr

namespace Logged

variable {α β : Type}

/-- Goes on from a result, the later warnings behind the earlier ones. -/
def andThen (x : Logged α) (f : α → Logged β) : Logged β :=
  let y := f x.value
  ⟨y.value, x.warnings ++ y.warnings⟩

instance : Monad Logged where
  pure a := ⟨a, []⟩
  bind := andThen

instance : LawfulMonad Logged := LawfulMonad.mk' Logged
  (fun x => by cases x; simp [Functor.map, andThen])
  (fun a f => by simp [pure, bind, andThen])
  (fun x f g => by simp [bind, andThen])

/-- One warning. -/
def warn (w : Warning) : Logged Unit :=
  ⟨(), [w]⟩

@[simp] theorem value_pure (a : α) : (pure a : Logged α).value = a := rfl

@[simp] theorem warnings_pure (a : α) : (pure a : Logged α).warnings = [] := rfl

@[simp] theorem value_bind (x : Logged α) (f : α → Logged β) :
    (x >>= f).value = (f x.value).value := rfl

@[simp] theorem warnings_bind (x : Logged α) (f : α → Logged β) :
    (x >>= f).warnings = x.warnings ++ (f x.value).warnings := rfl

end Logged

end Ambient

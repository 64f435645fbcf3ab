import Ambient.Json.Printer
import Ambient.Signature.Basic
import Ambient.Warning

/-!
# Enumerations

Documentation may list the values that a text can take.  They then stand, as a choice between
literals, in the place of one `string` of the signature: the type of a property, the type of a
parameter, or the return type, whichever comes first.
-/

namespace Ambient

/-- A place in a signature that can hold an enumeration. -/
inductive StringSlot
  | type
  | param (i : Nat)
  | returns
deriving DecidableEq, Repr

namespace Signature

/-- The indices of the parameters of type `string`, counted from `i`. -/
def stringParams (i : Nat) : List TypeParam → List Nat
  | [] => []
  | p :: ps =>
    if p.type.isNamed "string" then i :: stringParams (i + 1) ps else stringParams (i + 1) ps

/-- The places of a signature that hold `string`, in the order of the declaration.  The parts of a
function type count only where the form shows them. -/
def stringSlots (s : Signature) : List StringSlot :=
  match s.hasParameterList, s.type with
  | true, .function params returns _ =>
    (stringParams 0 params).map .param
      ++ (if returns.elim false (TypeExpr.isNamed "string") then [.returns] else [])
  | _, t => if t.isNamed "string" then [.type] else []

/-- The choice between the given texts as literals. -/
def enumUnion (values : List Text) : TypeExpr :=
  .union (values.map fun v => .literal (Json.printedText true v))

/-- The signature with another type in one of its places. -/
def withSlot (s : Signature) (slot : StringSlot) (t : TypeExpr) : Signature :=
  match slot, s.type with
  | .param i, .function params returns arrow =>
    { s with type := .function (params.modify i fun p => { p with type := t }) returns arrow }
  | .returns, .function params _ arrow => { s with type := .function params (some t) arrow }
  | _, _ => { s with type := t }

/-- The signature with the given values in the first place that can hold them. -/
def applyEnum (s : Signature) (values : List Text) : Logged Signature :=
  if values.isEmpty then pure s
  else
    match s.stringSlots with
    | [] => pure s
    | slot :: others => do
      if !others.isEmpty then Logged.warn (.severalStringTypes s.name)
      return s.withSlot slot (enumUnion values)

end Signature

end Ambient

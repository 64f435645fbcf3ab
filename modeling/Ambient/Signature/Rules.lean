import Ambient.Signature.Basic

/-!
# Rules

Nine rules turn the type that a document gives for a member into the signature that declares it.
Each one is a function on signatures that may look at the circumstances of the member; they are
applied in the order of `Rule.all`, and each one relies on those before it.
-/

namespace Ambient

/-- The members whose return type is left open unless others are named. -/
def defaultOpenReturns : List Text := ["constructor", "importModule"]

/-- The members known to return text unless others are named. -/
def defaultTextReturns : List Text := ["Pasteboard.paste", "Pasteboard.pasteString"]

/-- The circumstances of a member. -/
structure Circumstances where
  name : Text
  owner : Option Text := none
  isStatic : Bool := false
  mayBeConstructor : Bool := false
  /-- Members whose return type is left open when none is documented.  An entry is `name`,
  `Owner.name`, `*` or `Owner.*`. -/
  openReturns : List Text := defaultOpenReturns
  /-- Members that return text although no return type is documented. -/
  textReturns : List Text := defaultTextReturns
deriving Repr

namespace Circumstances

/-- Whether an entry of `openReturns` names the member. -/
def named (c : Circumstances) (entry : Text) : Bool :=
  match Text.cutAt '.' entry with
  | (owner, some member) => c.owner = some owner && (member = "*" || member = c.name)
  | (member, none) => member = "*" || member = c.name

/-- Whether the return type of the member is left open when none is documented. -/
def leavesReturnOpen (c : Circumstances) : Bool :=
  c.openReturns.any c.named

/-- The owner, if it has a name. -/
def ownerName? (c : Circumstances) : Option Text :=
  match c.owner with
  | some (d :: ds) => some (d :: ds)
  | _ => none

/-- The name of the member behind that of its owner. -/
def qualifiedName (c : Circumstances) : Text :=
  match c.ownerName? with
  | some owner => owner ++ "." ++ c.name
  | none => c.name

end Circumstances

namespace TypeExpr

/-! ### Rules on one node -/

/-- An instance reference becomes the name it refers to. -/
def unmarked : TypeExpr → TypeExpr
  | .reference name => .atom name
  | t => t

/-- A function type that leaves its return type open returns nothing. -/
def returningVoid : TypeExpr → TypeExpr
  | .function params none arrow => .function params (some (.atom "void")) arrow
  | t => t

/-- Parameters with the names `arg0`, `arg1`, … where they have none, counted from `i`. -/
def nameParams (i : Nat) : List TypeParam → List TypeParam
  | [] => []
  | p :: ps =>
    { p with name := some (p.name.getD ("arg" ++ Text.ofNat i)) } :: nameParams (i + 1) ps

/-- A function type has names for all its parameters. -/
def withNamedParams : TypeExpr → TypeExpr
  | .function params returns arrow => .function (nameParams 0 params) returns arrow
  | t => t

/-- A function type is an arrow function. -/
def arrowed : TypeExpr → TypeExpr
  | .function params returns _ => .function params returns true
  | t => t

/-- `bool` and `?` have names of their own in declarations, and a bare promise promises nothing. -/
def withKeywords : TypeExpr → TypeExpr
  | .atom name =>
    if name = "bool" then .atom "boolean"
    else if name = "?" then .atom "any"
    else .atom name
  | .promise none => .promise (some (.atom "void"))
  | t => t

/-- Parameters with `f` applied to every node of their types. -/
def overParams (f : TypeExpr → TypeExpr) (params : List TypeParam) : List TypeParam :=
  params.map fun p => { p with type := p.type.rebuild f }

end TypeExpr

/-! ### Rules on signatures -/

/-- A rule for the signatures of a declaration file. -/
inductive Rule
  | instanceMarkers
  | propertyForm
  | voidReturns
  | parameterNames
  | arrowCallbacks
  | callForm
  | constructorReturn
  | keywords
  | textReturns
deriving DecidableEq, Repr

namespace Rule

/-- The rules in their order. -/
def all : List Rule := [
  .instanceMarkers, .propertyForm, .voidReturns, .parameterNames, .arrowCallbacks, .callForm,
  .constructorReturn, .keywords, .textReturns]

/-- What is no function type and has no form is a property. -/
def applyPropertyForm (s : Signature) : Signature :=
  if s.form.isNone && !s.type.isFunction then { s with form := some .property } else s

/-- Callbacks in the parameters that leave their return type open return nothing, and so does the
function itself unless it is a constructor, a property or a member that leaves it open. -/
def applyVoidReturns (c : Circumstances) (s : Signature) : Signature :=
  match s.type with
  | .function params returns arrow =>
    let params := TypeExpr.overParams .returningVoid params
    let fills :=
      returns.isNone && (s.form.isNone || s.form = some .method) && !c.leavesReturnOpen
    { s with
      type := .function params (if fills then some (.atom "void") else returns) arrow
      inferredReturn := s.inferredReturn || fills }
  | _ => s

/-- Function types inside the type are arrow functions, and so is the type of a property itself. -/
def applyArrowCallbacks (s : Signature) : Signature :=
  match s.type with
  | .function params returns arrow =>
    { s with
      type := .function (TypeExpr.overParams .arrowed params)
        (returns.map (TypeExpr.rebuild .arrowed)) (arrow || s.form = some .property) }
  | t => { s with type := t.rebuild .arrowed }

/-- A function without a form is a constructor if it may be one and returns its owner, or nothing
that was documented; otherwise it is a method. -/
def applyCallForm (c : Circumstances) (s : Signature) : Signature :=
  match s.form, s.type with
  | none, .function _ returns _ =>
    let returnsOwner := returns.elim false (TypeExpr.isNamed (c.ownerName?.getD c.name))
    if c.mayBeConstructor && (returnsOwner || s.inferredReturn) then
      { s with form := some .constructor, isStatic := false }
    else { s with form := some .method, isStatic := s.isStatic || c.isStatic }
  | _, _ => s

/-- A constructor has no return type. -/
def applyConstructorReturn (s : Signature) : Signature :=
  match s.form, s.type with
  | some .constructor, .function params _ arrow => { s with type := .function params none arrow }
  | _, _ => s

/-- A method known to return text does so where no return type was documented. -/
def applyTextReturns (c : Circumstances) (s : Signature) : Signature :=
  match s.form, s.type with
  | some .method, .function params _ arrow =>
    if s.inferredReturn && c.textReturns.contains c.qualifiedName then
      { s with type := .function params (some (.atom "string")) arrow }
    else s
  | _, _ => s

/-- A rule applied to a signature. -/
def apply (c : Circumstances) (s : Signature) : Rule → Signature
  | .instanceMarkers => { s with type := s.type.rebuild .unmarked }
  | .propertyForm => applyPropertyForm s
  | .voidReturns => applyVoidReturns c s
  | .parameterNames => { s with type := s.type.rebuild .withNamedParams }
  | .arrowCallbacks => applyArrowCallbacks s
  | .callForm => applyCallForm c s
  | .constructorReturn => applyConstructorReturn s
  | .keywords => { s with type := s.type.rebuild .withKeywords }
  | .textReturns => applyTextReturns c s

/-- Several rules applied one after another. -/
def applyAll (c : Circumstances) (rules : List Rule) (s : Signature) : Signature :=
  rules.foldl (apply c) s

end Rule

/-! ### From a type to a signature -/

namespace Signature

/-- The signature of a type text before any rule: the one it declares, under the name of the member,
or the type it writes. -/
def ofSource (c : Circumstances) (t : Text) : Signature :=
  match ofDeclaration? t with
  | some s => { s with name := c.name, isStatic := s.isStatic || c.isStatic }
  | none => { name := c.name, type := .parse t, isStatic := c.isStatic }

/-- The signature of a member with the given type text. -/
def translate (c : Circumstances) (t : Text) : Signature :=
  Rule.applyAll c Rule.all (ofSource c t)

/-- The signatures on the way from a type: before any rule, and after each one. -/
def translateSteps (c : Circumstances) (rules : List Rule) (t : Text) : List Signature :=
  (List.range (rules.length + 1)).map fun n => Rule.applyAll c (rules.take n) (ofSource c t)

end Signature

end Ambient

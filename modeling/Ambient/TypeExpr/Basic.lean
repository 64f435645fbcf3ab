import Ambient.Text.Basic

/-!
# Type expressions

The tree of a type as documents and declarations write it.  A tree tells apart what the two notations
spell differently: an instance reference `+Name` and the name itself, a function with a return arrow
and an arrow function, a bare string-keyed map and one with an index signature.  Rendering gives each
of them its own spelling, so a rule that turns one into the other shows in the text.

Three recursions over trees serve the rules: `rebuild` applies a function to every node from the
leaves up, `nodes` lists the subtrees from the root down, and `replaceFirst?` exchanges the first
subtree of that list with a given property.
-/

namespace Ambient

/-- A parameter of a function or a field of an object: a type, with a name unless it has none, and
whether it may be left out. -/
structure Param (α : Type) where
  name : Option Text
  type : α
  optional : Bool := false
deriving DecidableEq, Repr

/-- A type expression. -/
inductive TypeExpr
  /-- A named type. -/
  | atom (name : Text)
  /-- An instance of a documented symbol. -/
  | reference (name : Text)
  /-- A text as a type, with its quotation marks. -/
  | literal (text : Text)
  /-- A function type, with an arrow or in source notation; the return type may be left open. -/
  | function (params : List (Param TypeExpr)) (returns : Option TypeExpr) (arrow : Bool)
  /-- An array. -/
  | array (element : TypeExpr)
  /-- A promise; what it promises may be left open. -/
  | promise (result : Option TypeExpr)
  /-- A named type with arguments. -/
  | generic (name : Text) (args : List TypeExpr)
  /-- A map with string keys, bare or with an index signature. -/
  | map (value : TypeExpr) (indexed : Bool)
  /-- An object with fields. -/
  | object (fields : List (Param TypeExpr))
  /-- A choice between types. -/
  | union (members : List TypeExpr)
  /-- Text that is no type expression. -/
  | raw (text : Text)
deriving Repr, Inhabited

/-- A parameter whose type is an expression. -/
abbrev TypeParam := Param TypeExpr

namespace TypeExpr

/-! ### Rendering -/

/-- Whether an expression needs parentheses as the element of an array. -/
def isCompound : TypeExpr → Bool
  | .union _ => true
  | .function .. => true
  | _ => false

/-- A text in parentheses if `b`. -/
def parenthesizedIf (b : Bool) (t : Text) : Text :=
  if b then '(' :: t ++ [')'] else t

/-- A rendered type after its name, if it has one. -/
def namedText (name : Option Text) (optional : Bool) (type : Text) : Text :=
  match name with
  | none => type
  | some name => name ++ (if optional then "?: " else ": ") ++ type

mutual

/-- The text of an expression. -/
def render : TypeExpr → Text
  | .atom name => name
  | .reference name => '+' :: name
  | .literal text => text
  | .function params returns arrow =>
    let inner := Text.joinWith ", " (renderParams params)
    match renderOption returns with
    | none => if arrow then '(' :: inner ++ ") => void" else "fn(" ++ inner ++ ")"
    | some result =>
      if arrow then '(' :: inner ++ ") => " ++ result else "fn(" ++ inner ++ ") -> " ++ result
  | .array element => parenthesizedIf element.isCompound (render element) ++ "[]"
  | .promise result =>
    match renderOption result with
    | none => "Promise"
    | some result => "Promise<" ++ result ++ ">"
  | .generic name args => name ++ "<" ++ Text.joinWith ", " (renderList args) ++ ">"
  | .map value indexed =>
    (if indexed then '{' :: "[key: string]: " else '{' :: "string: ") ++ render value ++ ['}']
  | .object fields => '{' :: Text.joinWith ", " (renderParams fields) ++ ['}']
  | .union members => Text.joinWith " | " (renderList members)
  | .raw text => text

/-- The texts of several expressions. -/
def renderList : List TypeExpr → List Text
  | [] => []
  | t :: ts => render t :: renderList ts

/-- The text of an expression that may be missing. -/
def renderOption : Option TypeExpr → Option Text
  | none => none
  | some t => some (render t)

/-- The texts of several parameters. -/
def renderParams : List (Param TypeExpr) → List Text
  | [] => []
  | p :: ps => renderParam p :: renderParams ps

/-- The text of a parameter. -/
def renderParam : Param TypeExpr → Text
  | ⟨name, type, optional⟩ => namedText name optional (render type)

end

/-- The text of a parameter list, without its parentheses. -/
def paramListText (params : List TypeParam) : Text :=
  Text.joinWith ", " (renderParams params)

theorem renderList_eq_map (ts : List TypeExpr) : renderList ts = ts.map render := by
  induction ts with
  | nil => rfl
  | cons t ts ih => simp [renderList, ih]

theorem renderParams_eq_map (ps : List TypeParam) :
    renderParams ps = ps.map fun p => namedText p.name p.optional p.type.render := by
  induction ps with
  | nil => rfl
  | cons p ps ih =>
    obtain ⟨name, type, optional⟩ := p
    simp [renderParams, renderParam, ih]

/-! ### Rebuilding from the leaves -/

mutual

/-- The expression with `f` applied to every node, to each one after its parts. -/
def rebuild (f : TypeExpr → TypeExpr) : TypeExpr → TypeExpr
  | .function params returns arrow =>
    f (.function (rebuildParams f params) (rebuildOption f returns) arrow)
  | .array element => f (.array (rebuild f element))
  | .promise result => f (.promise (rebuildOption f result))
  | .generic name args => f (.generic name (rebuildList f args))
  | .map value indexed => f (.map (rebuild f value) indexed)
  | .object fields => f (.object (rebuildParams f fields))
  | .union members => f (.union (rebuildList f members))
  | .atom name => f (.atom name)
  | .reference name => f (.reference name)
  | .literal text => f (.literal text)
  | .raw text => f (.raw text)

/-- Several expressions rebuilt. -/
def rebuildList (f : TypeExpr → TypeExpr) : List TypeExpr → List TypeExpr
  | [] => []
  | t :: ts => rebuild f t :: rebuildList f ts

/-- An expression that may be missing, rebuilt. -/
def rebuildOption (f : TypeExpr → TypeExpr) : Option TypeExpr → Option TypeExpr
  | none => none
  | some t => some (rebuild f t)

/-- Several parameters with their types rebuilt. -/
def rebuildParams (f : TypeExpr → TypeExpr) : List (Param TypeExpr) → List (Param TypeExpr)
  | [] => []
  | p :: ps => rebuildParam f p :: rebuildParams f ps

/-- A parameter with its type rebuilt. -/
def rebuildParam (f : TypeExpr → TypeExpr) : Param TypeExpr → Param TypeExpr
  | ⟨name, type, optional⟩ => ⟨name, rebuild f type, optional⟩

end

theorem rebuildList_eq_map (f : TypeExpr → TypeExpr) (ts : List TypeExpr) :
    rebuildList f ts = ts.map (rebuild f) := by
  induction ts with
  | nil => rfl
  | cons t ts ih => simp [rebuildList, ih]

theorem rebuildOption_eq_map (f : TypeExpr → TypeExpr) (t : Option TypeExpr) :
    rebuildOption f t = t.map (rebuild f) := by
  cases t <;> rfl

theorem rebuildParams_eq_map (f : TypeExpr → TypeExpr) (ps : List TypeParam) :
    rebuildParams f ps = ps.map fun p => { p with type := p.type.rebuild f } := by
  induction ps with
  | nil => rfl
  | cons p ps ih =>
    obtain ⟨name, type, optional⟩ := p
    simp [rebuildParams, rebuildParam, ih]

/-! ### Subtrees from the root -/

mutual

/-- The subtrees of an expression, each one before its parts. -/
def nodes : TypeExpr → List TypeExpr
  | .function params returns arrow =>
    .function params returns arrow :: (nodesOfParams params ++ nodesOfOption returns)
  | .array element => .array element :: nodes element
  | .promise result => .promise result :: nodesOfOption result
  | .generic name args => .generic name args :: nodesOfList args
  | .map value indexed => .map value indexed :: nodes value
  | .object fields => .object fields :: nodesOfParams fields
  | .union members => .union members :: nodesOfList members
  | .atom name => [.atom name]
  | .reference name => [.reference name]
  | .literal text => [.literal text]
  | .raw text => [.raw text]

/-- The subtrees of several expressions. -/
def nodesOfList : List TypeExpr → List TypeExpr
  | [] => []
  | t :: ts => nodes t ++ nodesOfList ts

/-- The subtrees of an expression that may be missing. -/
def nodesOfOption : Option TypeExpr → List TypeExpr
  | none => []
  | some t => nodes t

/-- The subtrees of the types of several parameters. -/
def nodesOfParams : List (Param TypeExpr) → List TypeExpr
  | [] => []
  | p :: ps => nodesOfParam p ++ nodesOfParams ps

/-- The subtrees of the type of a parameter. -/
def nodesOfParam : Param TypeExpr → List TypeExpr
  | ⟨_, type, _⟩ => nodes type

end

/-! ### Replacing the first subtree -/

mutual

/-- The expression with `new` in the place of the first of its `nodes` that `p` holds of, if there
is one. -/
def replaceFirst? (p : TypeExpr → Bool) (t new : TypeExpr) : Option TypeExpr :=
  if p t then some new
  else
    match t with
    | .function params returns arrow =>
      match replaceInParams? p new params with
      | some params => some (.function params returns arrow)
      | none => (replaceInOption? p new returns).map fun r => .function params (some r) arrow
    | .array element => (replaceFirst? p element new).map .array
    | .promise result => (replaceInOption? p new result).map fun r => .promise (some r)
    | .generic name args => (replaceInList? p new args).map (.generic name)
    | .map value indexed => (replaceFirst? p value new).map fun v => .map v indexed
    | .object fields => (replaceInParams? p new fields).map .object
    | .union members => (replaceInList? p new members).map .union
    | .atom _ | .reference _ | .literal _ | .raw _ => none

/-- A list of expressions with the first subtree replaced, if there is one. -/
def replaceInList? (p : TypeExpr → Bool) (new : TypeExpr) :
    List TypeExpr → Option (List TypeExpr)
  | [] => none
  | t :: ts =>
    match replaceFirst? p t new with
    | some t => some (t :: ts)
    | none => (replaceInList? p new ts).map (t :: ·)

/-- An expression that may be missing with the first subtree replaced, if there is one. -/
def replaceInOption? (p : TypeExpr → Bool) (new : TypeExpr) : Option TypeExpr → Option TypeExpr
  | none => none
  | some t => replaceFirst? p t new

/-- A list of parameters with the first subtree of their types replaced, if there is one. -/
def replaceInParams? (p : TypeExpr → Bool) (new : TypeExpr) :
    List (Param TypeExpr) → Option (List (Param TypeExpr))
  | [] => none
  | q :: qs =>
    match replaceInParam? p new q with
    | some q => some (q :: qs)
    | none => (replaceInParams? p new qs).map (q :: ·)

/-- A parameter with the first subtree of its type replaced, if there is one. -/
def replaceInParam? (p : TypeExpr → Bool) (new : TypeExpr) :
    Param TypeExpr → Option (Param TypeExpr)
  | ⟨name, type, optional⟩ => (replaceFirst? p type new).map fun t => ⟨name, t, optional⟩

end

/-! ### Shapes -/

/-- Whether an expression is the type `name`. -/
def isNamed (name : Text) : TypeExpr → Bool
  | .atom n => n = name
  | _ => false

/-- Whether an expression is a map. -/
def isMap : TypeExpr → Bool
  | .map .. => true
  | _ => false

/-- Whether an expression is a choice. -/
def isUnion : TypeExpr → Bool
  | .union _ => true
  | _ => false

/-- Whether an expression is a function type. -/
def isFunction : TypeExpr → Bool
  | .function .. => true
  | _ => false

end TypeExpr

end Ambient

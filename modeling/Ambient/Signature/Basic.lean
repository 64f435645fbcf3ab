import Ambient.TypeExpr.Parser

/-!
# Signatures

A signature declares one member: its name, its type, and the form it takes, which is a property, a
method or a constructor.  A signature without a form has not been classified yet; its text is that
of a property.

Besides its rendering this module reads a text that already is a declaration, such as
`name: T`, `static name(a: T): R` or `constructor(a: T)`.
-/

namespace Ambient

/-- The form of a declared member. -/
inductive SignatureForm
  | property
  | method
  | constructor
deriving DecidableEq, Repr

/-- A member as it is declared. -/
structure Signature where
  name : Text
  type : TypeExpr
  form : Option SignatureForm := none
  isStatic : Bool := false
  /-- The return type was not documented and has been filled in. -/
  inferredReturn : Bool := false
deriving Repr, Inhabited

namespace Signature

/-! ### Rendering -/

/-- Whether the form shows a list of parameters. -/
def hasParameterList (s : Signature) : Bool :=
  s.form = some .method || s.form = some .constructor

/-- The return type after a list of parameters, if there is one. -/
def returnsText : Option TypeExpr → Text
  | none => []
  | some t => ": " ++ t.render

/-- The text of a signature with `lead` before its name. -/
def renderAfter (lead : Text) (s : Signature) : Text :=
  match s.form, s.type with
  | some .constructor, .function params _ _ =>
    "constructor(" ++ TypeExpr.paramListText params ++ ")"
  | some .method, .function params returns _ =>
    lead ++ s.name ++ "(" ++ TypeExpr.paramListText params ++ ")" ++ returnsText returns
  | _, _ => lead ++ s.name ++ ": " ++ s.type.render

/-- The text of a signature; a static member says so. -/
def render (s : Signature) : Text :=
  s.renderAfter (if s.isStatic then "static " else "")

/-! ### Declared text -/

/-- What separates the name of a declaration from what it declares. -/
inductive Separator
  | parenthesis
  | colon
deriving DecidableEq, Repr

/-- The separator at the start of `cs`, and the rest; a question mark may precede a colon. -/
def separator? : Text → Option (Separator × Text)
  | '(' :: cs => some (.parenthesis, cs)
  | ':' :: cs => some (.colon, cs)
  | '?' :: ':' :: cs => some (.colon, cs)
  | _ => none

/-- A name and a separator at the start of `cs`, white space between them, and the rest. -/
def nameHead? (cs : Text) : Option (Text × Separator × Text) :=
  match cs with
  | c :: ds =>
    if isNameStart c then
      (separator? (Text.trimStart (ds.dropWhile isNameRest))).map fun head =>
        (c :: ds.takeWhile isNameRest, head.1, head.2)
    else none
  | [] => none

/-- What follows the word `static` with white space behind it. -/
def afterStatic? (cs : Text) : Option Text :=
  match Text.after? "static" cs with
  | some (c :: ds) => if isBlank c then some (Text.trimStart ds) else none
  | _ => none

/-- The head of a declaration: whether it is static, its name, its separator, and the rest. -/
def declarationHead? (cs : Text) : Option (Bool × Text × Separator × Text) :=
  match (afterStatic? cs).bind nameHead? with
  | some head => some (true, head)
  | none => (nameHead? cs).map (false, ·)

/-- The parameters and the return type that a list of tokens behind an opening parenthesis
declares, if it declares nothing else. -/
def callOfTokens? (ts : List Token) : Option (List TypeParam × Option TypeExpr) :=
  match TypeExpr.parseParams ")" ts with
  | .error _ => none
  | .ok (params, ⟨rest, _⟩) =>
    match TypeExpr.after? ":" rest with
    | none => if rest.isEmpty then some (params, none) else none
    | some ⟨rest, _⟩ =>
      match TypeExpr.parseType rest with
      | .error _ => none
      | .ok (returns, ⟨rest, _⟩) => if rest.isEmpty then some (params, some returns) else none

/-- The parameters and the return type that a text behind an opening parenthesis declares. -/
def callOfText? (cs : Text) : Option (List TypeParam × Option TypeExpr) :=
  match Token.tokens cs with
  | .error _ => none
  | .ok ts => callOfTokens? ts

/-- The signature that a text declares, if it is a declaration.  Function types have a head like that
of a declaration of `fn`, so this name is never declared. -/
def ofDeclaration? (t : Text) : Option Signature :=
  match declarationHead? t.trim with
  | none => none
  | some (isStatic, name, sep, rest) =>
    if name = "fn" then none
    else
      match sep with
      | .colon =>
        some { name, type := .parse rest, form := some .property, isStatic }
      | .parenthesis =>
        (callOfText? rest).map fun call =>
          { name
            type := .function call.1 call.2 false
            form := some (if name = "constructor" then .constructor else .method)
            isStatic }

/-- Whether a declaration says what it returns; a property always says its type. -/
def saysReturn (s : Signature) : Bool :=
  match s.form, s.type with
  | some .property, _ => true
  | _, .function _ returns _ => returns.isSome
  | _, _ => true

end Signature

end Ambient

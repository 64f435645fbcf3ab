import Ambient.Json.Value
import Ambient.Signature.Basic
import Ambient.Synthesis.Interface

/-!
# Symbols

A document describes symbols, and each symbol has members.  Both are entries: a name with its
documentation, its type as the document writes it, and the signature made of that.  A member is a
property or a function according to how its type is written; a static member is kept apart from the
other member of the same name.
-/

namespace Ambient

/-- How a symbol is declared. -/
inductive SymbolKind
  | classKind
  | varKind
  | functionKind
  | namespaceKind
deriving DecidableEq, Repr

/-- The word for a kind. -/
def SymbolKind.word : SymbolKind → Text
  | .classKind => "class"
  | .varKind => "var"
  | .functionKind => "function"
  | .namespaceKind => "namespace"

/-- A documented parameter. -/
structure ParameterDoc where
  name : Text
  doc : Text
deriving DecidableEq, Repr

/-- What symbols and members have in common. -/
structure Entry where
  name : Text
  shortDoc : Text := []
  /-- The long documentation, which is markup. -/
  longDoc : Text := []
  /-- The type as the document writes it. -/
  sourceType : Text := []
  /-- The web address of the documentation; a value that says nothing is kept as it is. -/
  url : Json := .null
  parameters : List ParameterDoc := []
  returnsDoc : Text := []
  enumValues : List Text := []
  signature : Option Signature := none
deriving Repr

namespace Entry

/-- The text of the signature, if there is one. -/
def signatureText (e : Entry) : Text :=
  e.signature.elim [] Signature.render

/-- Whether the type is written as a function type. -/
def isFunction (e : Entry) : Bool :=
  Text.startsWith "fn(" e.sourceType.trim

/-- The text that shows the type: the signature or else the type as it is written. -/
def typeText (e : Entry) : Text :=
  e.signature.elim e.sourceType Signature.render

end Entry

/-- A member of a symbol. -/
structure Member extends Entry where
  isStatic : Bool := false
  interface : Option Interface := none
deriving Repr

/-- The key under which a member is kept. -/
def Member.key (m : Member) : Text :=
  if m.isStatic then "static." ++ m.name else m.name

/-- A symbol of a document. -/
structure Symbol extends Entry where
  kind : SymbolKind := .varKind
  properties : Table Member := []
  functions : Table Member := []
deriving Repr

namespace Symbol

/-- The members with their keys: the properties, then the functions. -/
def keyedMembers (s : Symbol) : List (Text × Member) :=
  s.properties ++ s.functions

/-- The members: the properties, then the functions. -/
def members (s : Symbol) : List Member :=
  s.keyedMembers.map Prod.snd

/-- The symbol with one more member, which takes the place of the one with its key. -/
def addMember (s : Symbol) (m : Member) : Symbol :=
  if m.isFunction then { s with functions := Table.insert s.functions m.key m }
  else { s with properties := Table.insert s.properties m.key m }

/-- The symbol with other members in the places of its first ones. -/
def withMembers (s : Symbol) (ms : List Member) : Symbol :=
  { s with
    properties := replaced s.properties ms
    functions := replaced s.functions (ms.drop s.properties.length) }
where
  /-- A table with other values in the places of its first ones. -/
  replaced (t : Table Member) : List Member → Table Member
    | [] => t
    | m :: ms =>
      match t with
      | [] => []
      | (key, _) :: t => (key, m) :: replaced t ms

/-- The kind of a symbol, once its members are known.  A symbol that can be called is a function; a
class with static members only, all of which mention it, is a namespace. -/
def classified (s : Symbol) : SymbolKind :=
  if s.signature.elim false (·.form = some .method) then .functionKind
  else if s.kind = .classKind && !s.members.isEmpty
      && s.members.all (·.isStatic)
      && s.members.all fun m => Text.hasBounded s.name m.typeText then .namespaceKind
  else s.kind

end Symbol

end Ambient

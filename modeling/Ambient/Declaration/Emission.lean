import Ambient.Declaration.Basic

/-!
# Declaring symbols

The declaration of a symbol is laid out by its kind.  A class holds its properties, its constructor
and its functions; a variable has an object type of its members; a function and a namespace declare
their members in a namespace beside them.  The interfaces of the samples of all members stand in that
namespace.

Describing the members of a symbol changes their signatures, and a symbol keeps what was changed even
if a later member fails.
-/

namespace Ambient

namespace Declaration

/-! ### Layout -/

/-- A declaration with its body between braces, the parts of the body apart by an empty line. -/
def block (opening : Text) (body : List Text) : Text :=
  opening ++ ' ' :: '{' ::
    (if body.isEmpty then ['}']
    else '\n' :: Text.indent "\t" (Text.joinWith "\n\n" body) ++ ['\n', '}'])

/-- The namespace of a declaration, with or without its members. -/
def namespaceText (d : Declaration) (withMembers : Bool) : Text :=
  let members :=
    if withMembers then (Table.values d.members).map fun m =>
      Comment.before m.comment (m.word ++ m.signature.renderAfter [])
    else []
  block ("declare namespace " ++ d.name) (members ++ d.interfaces.map Interface.shown)

/-- The text of a declaration with the namespace of its interfaces, if it has any. -/
def withInterfaces (d : Declaration) (t : Text) : Text :=
  if d.interfaces.isEmpty then t else t ++ "\n\n" ++ d.namespaceText false

/-- The text of a function, with its members and interfaces in a namespace. -/
def functionText (d : Declaration) : Except Failure Text :=
  match d.signature with
  | none => .error .noSignature
  | some s =>
    let call := Comment.before d.comment ("declare function " ++ s.renderAfter [])
    if d.members.isEmpty && d.interfaces.isEmpty then .ok call
    else .ok (call ++ "\n\n" ++ d.namespaceText true)

/-- The text of a variable: its own type if it has no members, and an object type otherwise. -/
def varText (d : Declaration) : Text :=
  let asObject := block ("declare var " ++ d.name ++ [':'])
    ((Table.values d.members).map DeclaredMember.plainText)
  let declared :=
    match d.signature with
    | some s =>
      if d.members.isEmpty && s.form = some .property then "declare var " ++ s.renderAfter []
      else asObject
    | none => asObject
  Comment.before d.comment declared

/-- The text of a class: the members before the constructor, the constructor, and those behind. -/
def classText (d : Declaration) (before constructor behind : List Text) : Text :=
  Comment.before d.comment (block ("declare class " ++ d.name) (before ++ constructor ++ behind))

/-- The texts of the members of a class, the properties and the functions. -/
def memberTexts (d : Declaration) (functions : Table Member) : List Text × List Text :=
  let (behind, before) := d.members.partition fun m => Table.hasKey functions m.1
  (before.map fun m => m.2.text, behind.map fun m => m.2.text)

/-- The constructor of a class, if its signature declares one. -/
def constructorText (settings : Settings) (s : Symbol) (signature : Option Signature) :
    Run (List Text) :=
  match signature with
  | none => return []
  | some sig =>
    if sig.form = some .constructor then do
      let e : Entry :=
        { name := "constructor", parameters := s.parameters, signature := some sig }
      let d ← Description.ofEntry settings s.name e false true
      return [Comment.before d.comment (d.signature.elim [] Signature.render)]
    else return []

/-- The text of a declaration, given the symbol it declares. -/
def textOf (settings : Settings) (s : Symbol) (d : Declaration) : Run Text :=
  match d.kind with
  | .functionKind => ExceptT.mk (pure d.functionText)
  | .varKind => return d.withInterfaces d.varText
  | .classKind => do
    let constructor ← constructorText settings s d.signature
    let (before, behind) := d.memberTexts s.functions
    return d.withInterfaces (d.classText before constructor behind)
  | .namespaceKind => do
    let constructor ← constructorText settings s d.signature
    return d.classText [] constructor [] ++ "\n\n" ++ d.namespaceText true

/-! ### Members -/

/-- A member with its key and its description. -/
structure DescribedMember where
  key : Text
  member : Member
  description : Description

namespace DescribedMember

/-- The member with the signature and the interface of its description. -/
def revised (m : DescribedMember) : Member :=
  { m.member with signature := m.description.signature, interface := m.description.interface }

/-- The member as it is declared, with its key. -/
def declared? (m : DescribedMember) : Option (Text × DeclaredMember) :=
  m.description.signature.map fun s =>
    (m.key, { name := m.member.name, comment := m.description.comment, signature := s })

end DescribedMember

/-- The members of `owner` with their descriptions, up to the first one that fails. -/
def describeMembers (settings : Settings) (owner : Text) :
    List (Text × Member) → Logged (List DescribedMember × Option Failure)
  | [] => pure ([], none)
  | (key, m) :: rest => do
    match ← (Description.ofEntry settings owner m.toEntry true true).run with
    | .error failure => return ([], some failure)
    | .ok d =>
      let (others, failure) ← describeMembers settings owner rest
      return ({ key, member := m, description := d } :: others, failure)

/-- The declaration of a symbol without its text. -/
def ofParts (s : Symbol) (header : Description) (members : List DescribedMember) : Declaration :=
  { name := s.name
    kind := s.kind
    text := []
    comment := header.comment
    signature := header.signature
    members := Table.ofPairs (members.filterMap DescribedMember.declared?)
    interfaces := members.filterMap (·.description.interface) }

/-- The declaration of a symbol, and the symbol with its members as they were described. -/
def ofSymbol (settings : Settings) (s : Symbol) : Logged (Except Failure Declaration × Symbol) := do
  let isFunction := s.kind = .functionKind
  match ← (Description.ofEntry settings s.name s.toEntry false isFunction).run with
  | .error failure => return (.error failure, s)
  | .ok header =>
    let (described, failure) ← describeMembers settings s.name s.keyedMembers
    let s := s.withMembers (described.map DescribedMember.revised)
    match failure with
    | some failure => return (.error failure, s)
    | none =>
      let d := ofParts s header described
      let text ← (textOf settings s d).run
      return (text.map fun text => { d with text }, s)

/-- The declarations of several symbols, and the symbols as they were described, up to the first one
that fails. -/
def ofSymbols (settings : Settings) :
    List (Text × Symbol) → Logged (Except Failure (List Declaration) × Table Symbol)
  | [] => pure (.ok [], [])
  | (name, s) :: rest => do
    match ← ofSymbol settings s with
    | (.error failure, s) => return (.error failure, (name, s) :: rest)
    | (.ok d, s) =>
      let (ds, symbols) ← ofSymbols settings rest
      return (ds.map (d :: ·), (name, s) :: symbols)

end Declaration

end Ambient

import Ambient.Declaration.Basic
import Ambient.Symbol.Document

/-!
# Globals

A global is declared besides the symbols of a document.  It is another name for something declared,
which is a member or a whole declaration, or it says itself what it is.
-/

namespace Ambient

namespace Declaration

/-! ### Other names -/

/-- A member declared on its own under another name. -/
def ofMember (name : Text) (m : DeclaredMember) : Declaration :=
  let s := { m.signature with name, isStatic := false }
  { name
    kind := if m.isFunction then .functionKind else .varKind
    text := Comment.before m.comment ("declare " ++ m.word ++ s.renderAfter [])
    comment := m.comment
    signature := some s }

/-- A text that begins with a declaration of the function or variable `old`, with the name `new` in its
place. -/
def renameHead? (old new t : Text) : Option Text :=
  let renamed (head : Text) : Option Text :=
    (Text.after? (head ++ old) t).bind fun rest =>
      if Text.atBoundary (old.getLast?.or (some ' ')) rest then some (head ++ new ++ rest) else none
  (renamed "declare function ").or (renamed "declare var ")

/-- A text with `new` in the place of the name that the first declaration of `old` at the start of a line
declares; `atStart` says whether the text itself starts a line. -/
def renameFirst? (old new : Text) (atStart : Bool) : Text → Option Text
  | [] => none
  | c :: t =>
    match if atStart then renameHead? old new (c :: t) else none with
    | some renamed => some renamed
    | none => (renameFirst? old new (c = '\n') t).map (c :: ·)

/-- A whole declaration under another name. -/
def renamed? (d : Declaration) (name : Text) : Option Declaration :=
  (renameFirst? d.name name true d.text).map fun text =>
    { name
      kind := d.kind
      text
      comment := d.comment
      signature := d.signature.map fun s => { s with name } }

/-- The last declaration with a name. -/
def named? (ds : List Declaration) (name : Text) : Option Declaration :=
  ds.reverse.find? fun d => d.name = name

/-- Whether the members of a declaration can be declared on their own. -/
def opensMembers : SymbolKind → Bool
  | .classKind | .varKind | .namespaceKind => true
  | .functionKind => false

/-- Whether a declaration can be declared again under another name. -/
def canRename : SymbolKind → Bool
  | .functionKind | .varKind => true
  | .classKind | .namespaceKind => false

/-- The declaration that a target names, under another name.  What follows the first point of the
target names a member. -/
def aliasTo (ds : List Declaration) (name target : Text) : Except AliasFault Declaration :=
  let (ownerName, member) := Text.cutAt '.' target
  match named? ds ownerName, member.getD [] with
  | none, _ => .error (.noDeclaration ownerName)
  | some owner, [] =>
    if canRename owner.kind then (owner.renamed? name).elim (.error .noHeader) .ok
    else .error (.fixedName owner.kind)
  | some owner, memberName =>
    if opensMembers owner.kind then
      match owner.findMember? memberName with
      | some m => .ok (ofMember name m)
      | none => .error (.noMember ownerName memberName)
    else .error (.closedOwner owner.kind)

/-- The declaration that a target names, under another name, or a failure that says what was wanted. -/
def resolveAlias (ds : List Declaration) (name target : Text) : Except Failure Declaration :=
  (aliasTo ds name target).mapError (.aliasing name target)

/-! ### Definitions -/

/-- The text of a member of an object, if the object has it. -/
def textMember (data : Table Json) (key : Text) : Except Failure Text :=
  match Table.get? data key with
  | none => .ok []
  | some (.text t) => .ok t
  | some _ => .error .misplaced

/-- The value of a member as it is shown, or `default` without the member. -/
def shown (data : Table Json) (key default : Text) : Text :=
  ((Table.get? data key).map Json.display).getD default

/-- The line about a parameter of a definition. -/
def definedParameter (v : Json) : Except Failure Text :=
  match v with
  | .object data =>
    match Table.get? data "name" with
    | none => .error .nameless
    | some name =>
      .ok (Text.trimEnd ("@param " ++ '{' :: shown data "type" "any" ++ '}' :: ' ' :: name.display
        ++ " - " ++ shown data "description" []))
  | _ => .error .misplaced

/-- The lines about the result of a definition. -/
def definedResult (v : Json) : Except Failure (List Text) :=
  match v with
  | .object data =>
    if ((Table.get? data "type").getD .null).isPresent then
      .ok [Text.trimEnd ("@returns " ++ '{' :: shown data "type" [] ++ '}' :: ' '
        :: shown data "description" [])]
    else .ok []
  | v => if v.isPresent then .error .misplaced else .ok []

/-- A global that says what it is. -/
def ofDefinition (name : Text) (data : Table Json) : Except Failure Declaration := do
  let definition := (← textMember data "definition").trim
  if definition.isEmpty then throw (.settings (.emptyGlobal name))
  let description ← textMember data "description"
  let parameters ← Document.items ((Table.get? data "parameters").getD .null)
  let parameters ← parameters.mapM definedParameter
  let result ← definedResult ((Table.get? data "returns").getD .null)
  let comment := Comment.ofLines (description.lines ++ parameters ++ result)
  return {
    name
    kind := if Text.startsWith "function " definition then .functionKind else .varKind
    text := Comment.before comment ("declare " ++ definition)
    comment }

/-! ### Tables of globals -/

/-- The declaration of a global. -/
def ofGlobal (ds : List Declaration) (name : Text) (v : Json) : Except Failure Declaration :=
  match v with
  | .object data =>
    match Table.get? data "aliasFor" with
    | some (.text target) => resolveAlias ds name target
    | some _ => .error .misplaced
    | none => ofDefinition name data
  | .list items => if items.any isAliasKey then .error .unlisted else .error .misplaced
  | .text t => if Text.has "aliasFor" t then .error .unlisted else .error .misplaced
  | _ => .error .unlisted
where
  /-- Whether a value is the key that names a target. -/
  isAliasKey : Json → Bool
    | .text t => t = "aliasFor"
    | _ => false

/-- The declarations of a table of globals, in its order. -/
def ofGlobals (ds : List Declaration) (table : Table Json) : Except Failure (List Declaration) :=
  table.mapM fun entry => ofGlobal ds entry.1 entry.2

end Declaration

end Ambient

import Ambient.Link.Address
import Ambient.Settings

/-!
# The symbols of a document

A document is an object whose members describe symbols, those apart that describe the document
itself.  The members of a symbol's object describe its members unless they begin with an exclamation
mark, in which case they document the symbol.  An overlay adds members to symbols.

Where text is expected any value will do, and where a list is expected whatever has items.  A link
has to be text.
-/

namespace Ambient

namespace Document

/-! ### Values -/

/-- The items of a value that says something: those of a list, the characters of a text and the keys
of an object. -/
def items : Json → Except Failure (List Json)
  | .list items => .ok items
  | .text t => .ok (t.map fun c => .text [c])
  | .object members => .ok (members.map fun m => .text m.1)
  | v => if v.isPresent then .error .unlisted else .ok []

/-- The members of a value that may say nothing. -/
def membersOf (v : Json) : Except Failure (Table Json) :=
  match v with
  | .object members => .ok members
  | v => if v.isPresent then .error .misplaced else .ok []

/-- The value under a key that may stand for nothing. -/
def valueAt (data : Table Json) (key : Option Text) : Json :=
  (key.bind (Table.get? data)).getD .null

/-- The text under a key that may stand for nothing. -/
def textAt (data : Table Json) (key : Option Text) : Text :=
  Json.displayOrEmpty (key.bind (Table.get? data))

/-- The documentation of a parameter; one without a name is passed over. -/
def parameterDoc? : Json → Option ParameterDoc
  | .object data =>
    if (valueAt data (some "name")).isPresent then
      let doc := (Table.get? data "doc").or (Table.get? data "description")
      some { name := textAt data (some "name"), doc := Json.displayOrEmpty doc }
    else none
  | _ => none

/-! ### Entries -/

/-- The entry that an object describes. -/
def entry (settings : Settings) (name : Text) (data : Table Json) : Except Failure Entry := do
  let url ← Address.webLink settings.baseUrl (valueAt data (some "!url"))
  let parameters ← items (valueAt data settings.parametersKey)
  let values ← items (valueAt data settings.enumKey)
  return {
    name
    shortDoc := textAt data (some "!doc")
    longDoc := textAt data settings.longDocKey
    sourceType := textAt data (some "!type")
    url
    parameters := parameters.filterMap parameterDoc?
    returnsDoc := textAt data settings.returnsKey
    enumValues := values.map Json.display }

/-- Whether a key belongs to the documentation of a symbol and not to a member. -/
def isReserved (key : Text) : Bool :=
  key.head? = some '!'

/-- The name of a member with this key, and whether the key says that it is static. -/
def memberName (key : Text) : Text × Bool :=
  match Text.after? "static " key with
  | some name => (name.trim, true)
  | none => (key, false)

/-- The symbol with the member that a value describes; only an object describes one. -/
def attach (settings : Settings) (s : Symbol) (key : Text) (v : Json) : Except Failure Symbol :=
  match v with
  | .object data => do
    let (name, isStatic) := memberName key
    let e ← entry settings name data
    let isStatic := isStatic || (valueAt data (some "!static")).isPresent
    return s.addMember { toEntry := e, isStatic }
  | _ => return s

/-- The symbol with the members that an object describes. -/
def attachAll (settings : Settings) (s : Symbol) (data : Table Json) : Except Failure Symbol :=
  (data.filter fun m => !isReserved m.1).foldlM (fun s m => attach settings s m.1 m.2) s

/-! ### Signatures -/

/-- The symbol with the signature that its own type declares.  Only a class has constructors. -/
def translateOwn (settings : Settings) (s : Symbol) : Symbol :=
  if s.sourceType.isEmpty then s
  else
    let c := settings.circumstances s.name s.name
    let c := { c with mayBeConstructor := s.kind = .classKind }
    { s with signature := some (Signature.translate c s.sourceType) }

/-- The member with the signature that its type declares. -/
def translateMember (settings : Settings) (owner : Text) (m : Member) : Member :=
  let c := settings.circumstances m.name owner
  { m with signature := some (Signature.translate { c with isStatic := m.isStatic } m.sourceType) }

/-- The symbol with the signatures of its members, and with its kind. -/
def finish (settings : Settings) (s : Symbol) : Symbol :=
  let translate (m : Text × Member) : Text × Member :=
    (m.1, translateMember settings s.name m.2)
  let s := { s with
    properties := s.properties.map translate
    functions := s.functions.map translate }
  { s with kind := s.classified }

/-! ### Symbols -/

/-- The symbol that an object describes, its members not yet translated. -/
def symbol (settings : Settings) (name : Text) (data : Table Json) : Except Failure Symbol := do
  let e ← entry settings name data
  let kind := if name.startsCapital then .classKind else .varKind
  let s ← attachAll settings { toEntry := e, kind } data
  return translateOwn settings s

/-- The members of a document that describe the document itself. -/
def documentKeys : List Text := ["define", "details", "indexEntries"]

/-- The members of a document that describe symbols. -/
def symbolData (document : Table Json) : List (Text × Table Json) :=
  document.filterMap fun m =>
    if isReserved m.1 || documentKeys.contains m.1 then none
    else m.2.members?.map fun data => (m.1, data)

/-- The symbols with the members that an overlay adds. -/
def overlaid (settings : Settings) (symbols : Table Symbol) : Table Json → Run (Table Symbol)
  | [] => return symbols
  | (name, v) :: rest =>
    match Table.get? symbols name, v with
    | none, _ => do
      Run.warn (.unknownSymbol name)
      overlaid settings symbols rest
    | some s, .object data => do
      let s ← ExceptT.mk (pure (attachAll settings s data))
      overlaid settings (Table.insert symbols name s) rest
    | some _, _ => throw .misplaced

/-- The overlay of a document: the one given or else its own. -/
def overlayOf (document : Table Json) (given : Option Json) : Except Failure (Table Json) :=
  match given with
  | some (.object overlay) => .ok overlay
  | some _ => .error .misplaced
  | none => membersOf (valueAt document (some "!define"))

/-- The symbols of a document, by name, with the members of an overlay. -/
def symbols (settings : Settings) (document : Table Json) (overlay : Option Json) :
    Run (Table Symbol) := do
  let described ← ExceptT.mk (pure ((symbolData document).mapM fun d =>
    (symbol settings d.1 d.2).map fun s => (d.1, s)))
  let overlay ← ExceptT.mk (pure (overlayOf document overlay))
  let all ← overlaid settings described overlay
  return all.map fun s => (s.1, finish settings s.2)

end Document

end Ambient

import Ambient.Failure
import Ambient.Signature.Rules
import Ambient.Text.Order

/-!
# Settings

The settings of a run, each with a default.  An object overrides some of them and may have no other
member.  A key that is null stands for nothing, and a list of members that is null for the default
one.
-/

namespace Ambient

/-! ### Defaults -/

/-- A global that is another name for `target`. -/
def aliasEntry (target : Text) : Json :=
  .object [("aliasFor", .text target)]

/-- A global that turns one text into another. -/
def coderEntry (description definition parameter result : Text) : Json :=
  .object [
    ("description", .text description),
    ("definition", .text definition),
    ("parameters", .list [
      .object [("name", .text "str"), ("type", .text "string"), ("description", .text parameter)]]),
    ("returns", .object [("type", .text "string"), ("description", .text result)])]

/-- The globals that are declared unless others are given. -/
def defaultGlobals : Table Json := [
  ("log", aliasEntry "console.log"),
  ("logWarning", aliasEntry "console.warn"),
  ("logError", aliasEntry "console.error"),
  ("atob", coderEntry "Decodes base64 into a binary string (\"ASCII to binary\")"
    "function atob(str: string): string" "The string to decode" "The decoded binary string"),
  ("btoa", coderEntry "Encodes a binary string as base64 (\"binary to ASCII\")"
    "function btoa(str: string): string" "The string to encode" "The base64 encoded string")]

/-- The settings of a run. -/
structure Settings where
  /-- What relative addresses and links into the documentation start from. -/
  baseUrl : Option Text := some "https://docs.scriptable.app/"
  /-- Where the document is, unless a run names another place. -/
  source : Text := "scriptable.json"
  /-- How many seconds to wait for a page, if not for ever. -/
  timeout : Option Number := some (.real (.finite false 15 0))
  /-- The text in front of all declarations. -/
  header : Text :=
    "// Type definitions for iOS-Scriptable\n// Project: https://scriptable.app/\n"
  /-- The width at which documentation is wrapped. -/
  wrapColumn : Int := 180
  longDocKey : Option Text := some "!scriptable.description"
  parametersKey : Option Text := some "!scriptable.parameters"
  returnsKey : Option Text := some "!scriptable.returns"
  enumKey : Option Text := some "!scriptable.enum"
  /-- What marks a property whose value is a function, at the start of its documentation. -/
  functionMarker : Option Text := some "(property)"
  openReturns : Option (List Text) := some defaultOpenReturns
  textReturns : Option (List Text) := some defaultTextReturns
  /-- The globals besides the symbols of the document. -/
  globals : Table Json := defaultGlobals
  /-- The names that are reserved whatever is declared. -/
  reserved : List Text := ["await"]
deriving Repr

namespace Settings

/-! ### Overriding -/

/-- The names of the settings in a file. -/
def keys : List Text := [
  "base_url", "source", "timeout", "header", "wrap_column", "long_doc_key", "parameters_key",
  "returns_key", "enum_key", "property_function_marker", "ignore_void_return",
  "string_return_overrides", "globals", "reserved_identifiers"]

/-- The setting under a key, read by `read?`, or else the default. -/
def override {α : Type} (given : Table Json) (key : Text) (default : α)
    (read? : Json → Option α) : Except Failure α :=
  match Table.get? given key with
  | none => .ok default
  | some v => (read? v).elim (.error .misplaced) .ok

/-- Reads a setting that may be null. -/
def orNull {α : Type} (read? : Json → Option α) : Json → Option (Option α)
  | .null => some none
  | v => (read? v).map some

/-- The number that a value is. -/
def number? : Json → Option Number
  | .number n => some n
  | _ => none

/-- The settings that override the defaults with the given ones. -/
def ofTable (given : Table Json) : Except Failure Settings := do
  let unknown := (Table.keys given).filter fun key => !keys.contains key
  if !unknown.isEmpty then throw (.settings (.unknownKeys (Text.sorted unknown)))
  let d : Settings := {}
  let text := orNull Json.text?
  let texts := orNull Json.texts?
  return {
    baseUrl := ← override given "base_url" d.baseUrl text
    source := ← override given "source" d.source Json.text?
    timeout := ← override given "timeout" d.timeout (orNull number?)
    header := ← override given "header" d.header Json.text?
    wrapColumn := ← override given "wrap_column" d.wrapColumn Json.whole?
    longDocKey := ← override given "long_doc_key" d.longDocKey text
    parametersKey := ← override given "parameters_key" d.parametersKey text
    returnsKey := ← override given "returns_key" d.returnsKey text
    enumKey := ← override given "enum_key" d.enumKey text
    functionMarker := ← override given "property_function_marker" d.functionMarker text
    openReturns := ← override given "ignore_void_return" d.openReturns texts
    textReturns := ← override given "string_return_overrides" d.textReturns texts
    globals := ← override given "globals" d.globals Json.members?
    reserved := ← override given "reserved_identifiers" d.reserved Json.texts? }

/-! ### Use -/

/-- The circumstances of a member under these settings. -/
def circumstances (s : Settings) (name owner : Text) : Circumstances :=
  { name
    owner := some owner
    openReturns := s.openReturns.getD defaultOpenReturns
    textReturns := s.textReturns.getD defaultTextReturns }

end Settings

end Ambient

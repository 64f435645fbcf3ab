import Ambient.Json.Value
import Ambient.Signature.Basic
import Ambient.Synthesis.Hint
import Ambient.Text.Case
import Ambient.Text.Order
import Ambient.Warning

/-!
# Interfaces

Documentation may show the object that a member takes or returns as a JSON sample.  The sample gives
an interface with one field for each key; the signature of the member then refers to it in the place
of a map if all values of the sample have one type, and in the place of an unknown type otherwise.

Keys are kept as they are read, in points, and so is the text of an interface.
-/

namespace Ambient

/-! ### Types of sample values -/

/-- The type of a value in a sample. -/
inductive SampleType
  | null
  | boolean
  | number
  | string
  | booleans
  | numbers
  | strings
  | list
  | object
deriving DecidableEq, Repr

namespace SampleType

variable {τ : Type}

/-- The spelling of a type; null has a name of its own. -/
def text : SampleType → Text
  | .null => "null"
  | .boolean => "boolean"
  | .number => "number"
  | .string => "string"
  | .booleans => "boolean[]"
  | .numbers => "number[]"
  | .strings => "string[]"
  | .list => "any[]"
  | .object => '{' :: "[key: string]: any" ++ ['}']

/-- The spelling of a type as the type of a field, where null says nothing. -/
def fieldText (s : SampleType) : Text :=
  if s = .null then "any" else s.text

/-- The type of a list whose items all have one type. -/
def listOf : SampleType → SampleType
  | .boolean => .booleans
  | .number => .numbers
  | .string => .strings
  | _ => .list

mutual

/-- The type of a value. -/
def of : Json τ → SampleType
  | .null => .null
  | .bool _ => .boolean
  | .number _ => .number
  | .text _ => .string
  | .list items =>
    match ofItems items with
    | [] => .list
    | s :: ss => if ss.all (· = s) then listOf s else .list
  | .object _ => .object

/-- The types of several values. -/
def ofItems : List (Json τ) → List SampleType
  | [] => []
  | v :: vs => of v :: ofItems vs

end

end SampleType

/-- The object that a sample shows: the sample itself or the first object in it. -/
def Json.sampleObject? {τ : Type} : Json τ → Option (Table (Json τ) τ)
  | .object members => some members
  | .list items => items.findSome? members?
  | _ => none

/-! ### Interfaces -/

/-- A field of an interface. -/
structure InterfaceField where
  key : Points
  type : SampleType
  optional : Bool := false
deriving DecidableEq, Repr

/-- The shape of an object. -/
structure Interface where
  name : Text
  fields : List InterfaceField
  /-- The fields have more than one type. -/
  isMixed : Bool
deriving DecidableEq, Repr

namespace Interface

/-- What stands behind the key of a field: the mark that closes it and the type. -/
def ending (optional : Bool) (type : SampleType) : Text :=
  '"' :: (if optional then "?: " else ": ") ++ type.fieldText

/-- A field on a line of its own. -/
def fieldLine (f : InterfaceField) : Points :=
  Text.points "\t\"" ++ f.key ++ Text.points (ending f.optional f.type)

/-- The line of a mixed interface that admits any key. -/
def indexLine : Text :=
  "\t[key: string]: any"

/-- The lines between the braces. -/
def bodyLines (i : Interface) : List Points :=
  i.fields.map fieldLine ++ (if i.isMixed then [Text.points indexLine] else [])

/-- The text of an interface. -/
def render (i : Interface) : Points :=
  Text.points ("interface " ++ i.name ++ [' ', '{'])
    ++ (if i.bodyLines.isEmpty then []
      else Text.points ['\n'] ++ (Text.points ",\n").intercalate i.bodyLines ++ Text.points ['\n'])
    ++ Text.points ['}']

/-- The text of an interface as a declaration shows it. -/
def shown (i : Interface) : Text :=
  i.render.shown

/-- Whether each key may be left out, by key. -/
def optionality (i : Interface) : Table Bool Points :=
  (Points.sorted (i.fields.map (·.key))).filterMap fun key =>
    (i.fields.find? (·.key = key)).map fun f => (key, f.optional)

/-- A field with what the hints say about it. -/
def hinted (required : Option Text) (optional : List Text) (f : InterfaceField) : InterfaceField :=
  { f with
    optional := required.elim f.optional (f.key ≠ Text.points ·)
      || (optional.map Text.points).contains f.key }

/-- The interface with what prose says about its keys. -/
def withHints (i : Interface) (prose : Text) : Logged Interface := do
  let optional := Hint.optional prose
  match Hint.required? prose with
  | none => return { i with fields := i.fields.map (hinted none optional) }
  | some key =>
    if i.fields.any (·.key = Text.points key) then
      return { i with fields := i.fields.map (hinted (some key) optional) }
    else
      Logged.warn (.missingRequiredKey i.name key)
      return { i with fields := i.fields.map (hinted none optional) }

/-- The interface of a sample, named for the member it documents. -/
def ofSample {τ : Type} [ToPoints τ] (member : Text) (sample : Table (Json τ) τ) : Interface :=
  let fields := sample.map fun m =>
    { key := toPoints m.1, type := SampleType.of m.2 : InterfaceField }
  { name := member.capitalize
    fields
    isMixed :=
      match fields with
      | [] => false
      | f :: fs => fs.any (·.type ≠ f.type) }

/-- The interface of a sample with what prose says about its keys. -/
def infer {τ : Type} [ToPoints τ] (member : Text) (sample : Table (Json τ) τ) (prose : Text) :
    Logged Interface :=
  (ofSample member sample).withHints prose

/-- The name of the interface behind that of its owner. -/
def qualifiedName (owner : Text) (i : Interface) : Text :=
  owner ++ "." ++ i.name

end Interface

namespace Signature

/-- The signature with a reference to the interface in the place of its first map or unknown type.
A mixed interface looks for an unknown type first, any other one for a map. -/
def applyInterface (s : Signature) (owner : Text) (i : Interface) : Logged Signature :=
  let reference : TypeExpr := .atom (i.qualifiedName owner)
  let maps := s.type.replaceFirst? TypeExpr.isMap reference
  let unknowns := s.type.replaceFirst? (TypeExpr.isNamed "any") reference
  match if i.isMixed then unknowns.or maps else maps.or unknowns with
  | some type => return { s with type }
  | none => do
    Logged.warn (.noPlaceholder owner s.name (i.qualifiedName owner))
    return s

/-- The signature with an index signature in every map. -/
def expandMaps (s : Signature) : Signature :=
  { s with
    type := s.type.rebuild fun
      | .map value _ => .map value true
      | t => t }

end Signature

end Ambient

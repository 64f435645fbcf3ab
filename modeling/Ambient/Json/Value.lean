import Ambient.Number.Basic
import Ambient.Table
import Ambient.Text.Point
import Ambient.Text.Quoted

/-!
# JSON values

A value of a document.  The members of an object keep their order and have distinct keys: the reader
keeps the first place of a repeated key and its last value.

The texts of a value that is read are texts of points, so no two of them are taken for one.  The texts
of a document are shown in characters (`shown`).

`display` is the text that stands for a value where a document holds something else in the place of
text: a text stands for itself, and any other value is spelt out with its texts in quotes.
-/

namespace Ambient

/-- A JSON value with texts of type `τ`, which are texts of characters unless something else is
said. -/
inductive Json (τ : Type := Text)
  | null
  | bool (b : Bool)
  | number (n : Number)
  | text (t : τ)
  | list (items : List (Json τ))
  | object (members : List (τ × Json τ))
deriving Repr, Inhabited

namespace Json

variable {τ : Type}

/-! ### Looking into a value -/

/-- The member of an object under a key. -/
def member? (key : Text) : Json → Option Json
  | .object members => Table.get? members key
  | _ => none

/-- The text that a value is. -/
def text? : Json → Option Text
  | .text t => some t
  | _ => none

/-- The truth value that a value is. -/
def bool? : Json → Option Bool
  | .bool b => some b
  | _ => none

/-- The whole number that a value is. -/
def whole? : Json → Option Int
  | .number (.whole n) => some n
  | _ => none

/-- The items of a list. -/
def items? : Json τ → Option (List (Json τ))
  | .list items => some items
  | _ => none

/-- The members of an object. -/
def members? : Json τ → Option (Table (Json τ) τ)
  | .object members => some members
  | _ => none

/-- The texts of a list that holds nothing else. -/
def texts? : Json → Option (List Text)
  | .list items => items.mapM text?
  | _ => none

/-- Whether a value says something: neither null nor false nor zero, and not empty. -/
def isPresent : Json → Bool
  | .null => false
  | .bool b => b
  | .number n => !n.isZero
  | .text t => !t.isEmpty
  | .list items => !items.isEmpty
  | .object members => !members.isEmpty

/-! ### Points -/

mutual

/-- A value with its texts and keys shown in characters. -/
def shown : Json Points → Json
  | .null => .null
  | .bool b => .bool b
  | .number n => .number n
  | .text t => .text (Points.shown t)
  | .list items => .list (shownItems items)
  | .object members => .object (Table.ofPairs (shownMembers members))

/-- The items of a list, each shown in characters. -/
def shownItems : List (Json Points) → List Json
  | [] => []
  | v :: vs => shown v :: shownItems vs

/-- The members of an object, each shown in characters. -/
def shownMembers : List (Points × Json Points) → List (Text × Json)
  | [] => []
  | m :: ms => shownMember m :: shownMembers ms

/-- A key and its value shown in characters. -/
def shownMember : Points × Json Points → Text × Json
  | (key, v) => (Points.shown key, shown v)

end

/-- Where a value of a document is expected, a value that is read is shown. -/
instance : Coe (Json Points) Json := ⟨shown⟩

/-! ### Display -/

mutual

/-- A value spelt out, its texts between quotes. -/
def spelled : Json → Text
  | .null => "None"
  | .bool true => "True"
  | .bool false => "False"
  | .number n => n.text "inf" "nan"
  | .text t => t.quoted
  | .list items => '[' :: Text.joinWith ", " (spelledItems items) ++ [']']
  | .object members => '{' :: Text.joinWith ", " (spelledMembers members) ++ ['}']

/-- The items of a list, each spelt out. -/
def spelledItems : List Json → List Text
  | [] => []
  | v :: vs => spelled v :: spelledItems vs

/-- The members of an object, each spelt out after its key. -/
def spelledMembers : List (Text × Json) → List Text
  | [] => []
  | m :: ms => spelledMember m :: spelledMembers ms

/-- A key and its value spelt out. -/
def spelledMember : Text × Json → Text
  | (key, v) => key.quoted ++ ": " ++ spelled v

end

/-- The text that stands for a value. -/
def display : Json → Text
  | .text t => t
  | v => v.spelled

/-- The text that stands for a value that may be absent; absent and null values are empty. -/
def displayOrEmpty : Option Json → Text
  | none => []
  | some .null => []
  | some v => v.display

/-! ### Agreement -/

mutual

/-- Whether two values are the same.  An undefined number is never the same as another number. -/
def agrees : Json → Json → Bool
  | .null, .null => true
  | .bool a, .bool b => a = b
  | .number (.real .undefined), .number _ => false
  | .number a, .number b => a = b
  | .text a, .text b => a = b
  | .list as, .list bs => agreesItems as bs
  | .object as, .object bs => agreesMembers as bs
  | _, _ => false

/-- Whether two lists of values are the same item by item. -/
def agreesItems : List Json → List Json → Bool
  | [], [] => true
  | a :: as, b :: bs => agrees a b && agreesItems as bs
  | _, _ => false

/-- Whether two lists of members are the same member by member. -/
def agreesMembers : List (Text × Json) → List (Text × Json) → Bool
  | [], [] => true
  | a :: as, b :: bs => agreesMember a b && agreesMembers as bs
  | _, _ => false

/-- Whether two members have the same key and the same value. -/
def agreesMember : Text × Json → Text × Json → Bool
  | (k, a), (l, b) => k = l && agrees a b

end

end Json

end Ambient

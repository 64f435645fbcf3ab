import Ambient.Json.Value

/-!
# Writing JSON

A value is written on one line or with one item a line, each level of nesting indented further.
Texts are written in visible ASCII with every other character escaped by its number in UTF-16, or
with only the quotation mark, the backslash and the control characters escaped.
-/

namespace Ambient

namespace Json

/-! ### Texts -/

/-- A UTF-16 unit as an escape. -/
def unitEscape (n : Nat) : Text :=
  ['\\', 'u'] ++ Text.hex 4 n

/-- The escape of a character outside visible ASCII; beyond 65535 it takes two units. -/
def numberEscape (c : Char) : Text :=
  let n := c.toNat
  if n < 0x10000 then unitEscape n
  else
    let m := n - 0x10000
    unitEscape (0xD800 + m / 0x400) ++ unitEscape (0xDC00 + m % 0x400)

/-- The escape that a character needs in every text, if it needs one. -/
def shortEscape? (c : Char) : Option Text :=
  match c with
  | '"' => some ['\\', '"']
  | '\\' => some ['\\', '\\']
  | '\n' => some ['\\', 'n']
  | '\r' => some ['\\', 'r']
  | '\t' => some ['\\', 't']
  | '\x08' => some ['\\', 'b']
  | '\x0c' => some ['\\', 'f']
  | c => if c.toNat < 32 then some (unitEscape c.toNat) else none

/-- A character of a text; with `ascii` every character outside visible ASCII is escaped. -/
def printedChar (ascii : Bool) (c : Char) : Text :=
  match shortEscape? c with
  | some e => e
  | none => if ascii && 126 < c.toNat then numberEscape c else [c]

/-- A text between quotation marks. -/
def printedText (ascii : Bool) (t : Text) : Text :=
  '"' :: t.flatMap (printedChar ascii) ++ ['"']

/-! ### One line -/

mutual

/-- A value on one line. -/
def printed (ascii : Bool) : Json → Text
  | .null => "null"
  | .bool true => "true"
  | .bool false => "false"
  | .number n => n.text "Infinity" "NaN"
  | .text t => printedText ascii t
  | .list items => '[' :: Text.joinWith ", " (printedItems ascii items) ++ [']']
  | .object members => '{' :: Text.joinWith ", " (printedMembers ascii members) ++ ['}']

/-- The items of a list, each on one line. -/
def printedItems (ascii : Bool) : List Json → List Text
  | [] => []
  | v :: vs => printed ascii v :: printedItems ascii vs

/-- The members of an object, each on one line. -/
def printedMembers (ascii : Bool) : List (Text × Json) → List Text
  | [] => []
  | m :: ms => printedMember ascii m :: printedMembers ascii ms

/-- A key and its value on one line. -/
def printedMember (ascii : Bool) : Text × Json → Text
  | (key, v) => printedText ascii key ++ ": " ++ printed ascii v

end

/-! ### One item a line -/

/-- The items of a list or an object between its brackets, one a line at indentation `inner`. -/
def bracketed (opening closing : Char) (inner outer : Text) (items : List Text) : Text :=
  opening :: inner ++ Text.joinWith (',' :: inner) items ++ outer ++ [closing]

mutual

/-- A value with one item a line; `outer` is the line break and indentation of the value itself and
`step` what each level adds. -/
def laidOutAt (step outer : Text) : Json → Text
  | .null => "null"
  | .bool true => "true"
  | .bool false => "false"
  | .number n => n.text "Infinity" "NaN"
  | .text t => printedText false t
  | .list items =>
    if items.isEmpty then ['[', ']']
    else bracketed '[' ']' (outer ++ step) outer (laidOutItems step (outer ++ step) items)
  | .object members =>
    if members.isEmpty then ['{', '}']
    else bracketed '{' '}' (outer ++ step) outer (laidOutMembers step (outer ++ step) members)

/-- The items of a list at the indentation `inner`. -/
def laidOutItems (step inner : Text) : List Json → List Text
  | [] => []
  | v :: vs => laidOutAt step inner v :: laidOutItems step inner vs

/-- The members of an object at the indentation `inner`. -/
def laidOutMembers (step inner : Text) : List (Text × Json) → List Text
  | [] => []
  | m :: ms => laidOutMember step inner m :: laidOutMembers step inner ms

/-- A key and its value at the indentation `inner`. -/
def laidOutMember (step inner : Text) : Text × Json → Text
  | (key, v) => printedText false key ++ ": " ++ laidOutAt step inner v

end

/-- The content of a file that holds a value: one item a line with `step` added at each level, or all
on one line when there is none. -/
def fileText (step : Option Text) (v : Json) : Text :=
  match step with
  | some step => laidOutAt step ['\n'] v ++ ['\n']
  | none => printed false v ++ ['\n']

end Json

end Ambient

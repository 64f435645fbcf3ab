import Ambient.Text.Blank
import Ambient.Text.Fold
import Ambient.Text.Word

/-!
# Hints about keys

Prose next to a sample may say which keys of it are optional.  Two phrasings are understood: "each
value … must have the "key" key … the others are optional", which leaves one key required, and
"the "key" key is optional".  Between the parts of the first phrasing no sentence may end, except
directly before "the others" or "the other keys".
-/

namespace Ambient

namespace Hint

/-- The marks that may stand around a key. -/
def isKeyQuote (c : Char) : Bool :=
  c == '"' || c == '\u201C' || c == '\u201D' || c == '\''

/-- The characters of a key. -/
def isKeyChar (c : Char) : Bool :=
  isWord c || c == '$'

/-- A key between its marks at the start of the text, and the rest. -/
def quotedKey? : Text → Option (Text × Text)
  | [] => none
  | c :: t =>
    if isKeyQuote c then
      match t.takeWhile isKeyChar, t.dropWhile isKeyChar with
      | [], _ => none
      | _, [] => none
      | key, d :: rest => if isKeyQuote d then some (key, rest) else none
    else none

/-- A phrase in any case that begins a word, when `before` is the character in front of it. -/
def afterWord? (phrase : Text) (before : Option Char) (t : Text) : Option Text :=
  if Text.atBoundary before t then Text.afterFolded? phrase t else none

/-- The rest behind "the others are optional" or "the other keys are optional", if the text starts
with it. -/
def othersOptional (before : Option Char) (t : Text) : Bool :=
  match afterWord? "the other" before t with
  | none => false
  | some t =>
    (Text.afterFolded? "s are optional" t).isSome
      || (match t with
        | c :: t =>
          isBlank c && (Text.afterFolded? "keys are optional" (Text.trimStart t)).isSome
        | [] => false)

/-- The last character of `t` in front of its end `rest`, or `before` if `rest` is all of it. -/
def charBefore (before : Option Char) (t rest : Text) : Option Char :=
  ((t.take (t.length - rest.length)).getLast?).or before

/-- Whether the others are said to be optional further on in the sentence or directly behind it. -/
def othersFollow (before : Option Char) (t : Text) : Bool :=
  othersOptional before t
    || (match t with
      | [] => false
      | c :: rest =>
        if c = '.' then
          let next := Text.trimStart rest
          othersOptional (charBefore (some c) rest next) next
        else othersFollow (some c) rest)

/-- The key that "must have the … key" names further on in the sentence, where the others are said to
be optional behind it. -/
def requiredAfter? (before : Option Char) (t : Text) : Option Text :=
  let here : Option Text := do
    let rest ← afterWord? "must have the " before t
    let (key, rest) ← quotedKey? rest
    let after ← Text.afterFolded? " key" rest
    if othersFollow (charBefore none rest after) after then some key else none
  match here, t with
  | some key, _ => some key
  | none, [] => none
  | none, c :: rest => if c = '.' then none else requiredAfter? (some c) rest

/-- The only key that the prose requires. -/
def required? : Text → Option Text
  | [] => none
  | c :: t =>
    let here : Option Text := do
      let rest ← Text.afterFolded? "each value" (c :: t)
      let before := charBefore none (c :: t) rest
      if Text.atBoundary before rest then requiredAfter? before rest else none
    here.or (required? t)

/-- The keys that the prose calls optional, in their order, when `before` is the character in front
of it. -/
def optionalFrom (before : Option Char) : Text → List Text
  | [] => []
  | c :: t =>
    let here : Option Text := do
      let rest ← afterWord? "the " before (c :: t)
      let (key, rest) ← quotedKey? rest
      let _ ← Text.afterFolded? " key is optional" rest
      return key
    here.toList ++ optionalFrom (some c) t

/-- The keys that the prose calls optional. -/
def optional (prose : Text) : List Text :=
  optionalFrom none prose

end Hint

end Ambient

import Ambient.Html.Reference
import Ambient.Table
import Ambient.Text.Case

/-!
# Markup events

A text with markup is read as a sequence of events: start tags with their attributes, end tags,
pieces of text, and remarks, which show nothing.  The names of tags and attributes are in small
letters and character references are resolved.

Reading never fails.  A tag that is not complete is text as far as the next closing bracket.  One
reference by number may be malformed; behind a second one, or behind a reference that the text breaks
off in, all that follows is text, markup included.  The content of scripts and style sheets is text
up to their end tag, and is dropped where that tag is missing.
-/

namespace Ambient

namespace Html

/-- A piece of markup. -/
inductive Event
  /-- A start tag; a slash before its closing bracket closes the element at once. -/
  | start (name : Text) (attributes : Table Text) (closed : Bool)
  | finish (name : Text)
  | text (t : Text)
  /-- A comment or a document type. -/
  | remark
  /-- Text that is a node of its own. -/
  | aside (t : Text)
deriving Repr

/-! ### Attributes -/

/-- A letter that may begin the name of a tag. -/
def isTagStart (c : Char) : Bool :=
  c.isAlpha

/-- The characters of the name of a tag. -/
def isTagChar (c : Char) : Bool :=
  !(c == '\t' || c == '\n' || c == '\r' || c == '\x0c' || c == ' ' || c == '/' || c == '>'
    || c.toNat == 0)

/-- The text without white space and slashes at its start, except a slash before a closing
bracket. -/
def skipBetween : Text → Text
  | [] => []
  | '/' :: '>' :: cs => '/' :: '>' :: cs
  | c :: cs => if isBlank c || c = '/' then skipBetween cs else c :: cs

/-- A value between the marks `q` at the start of `cs`, behind the opening one, and the rest. -/
def quotedValue? (q : Char) (cs : Text) : Option (Text × Text) :=
  match Text.cutAt q cs with
  | (value, some rest) => some (value, rest)
  | (_, none) => none

/-- A value without marks at the start of `cs`, and the rest. -/
def bareValue (cs : Text) : Text × Text :=
  let isBare (c : Char) : Bool := !(isBlank c || c == '>')
  (cs.takeWhile isBare, cs.dropWhile isBare)

/-- The value of an attribute at the start of `cs`, behind its name, and the rest.  A mark that is
never closed ends an empty value before the white space in front of it. -/
def value? (cs : Text) : Option (Text × Text) :=
  let signs := cs.dropWhile isBlank
  let count := (signs.takeWhile (· = '=')).length
  let after := signs.drop count
  if count = 0 then none
  else
    match after.dropWhile isBlank with
    | q :: ds =>
      if q = '"' || q = '\'' then
        match quotedValue? q ds with
        | some found => some found
        | none =>
          if after.head?.elim false isBlank then some ([], ' ' :: q :: ds)
          else if 2 ≤ count then some (bareValue ('=' :: q :: ds))
          else none
      else some (bareValue (q :: ds))
    | [] => some ([], [])

/-- The characters of the name of an attribute behind its first. -/
def isAttributeChar (c : Char) : Bool :=
  !(isBlank c || c == '/' || c == '=' || c == '>')

/-- Whether the name of an attribute may follow a character. -/
def mayPrecedeAttribute (c : Char) : Bool :=
  isBlank c || c == '/' || c == '"' || c == '\''

/-- The attributes at the start of `cs`, and the rest, looking at no more than `n` of them; `before`
is the character in front of `cs`. -/
def attributesFrom (n : Nat) (before : Char) (cs : Text) : List (Text × Text) × Text :=
  match n, cs with
  | n + 1, c :: ds =>
    if mayPrecedeAttribute before && !(isBlank c || c = '/' || c = '>') then
      let name := c :: ds.takeWhile isAttributeChar
      let rest := ds.dropWhile isAttributeChar
      let (value, rest) := (value? rest).getD ([], rest)
      let next := skipBetween rest
      let consumed := (c :: ds).take ((c :: ds).length - next.length)
      let (more, rest) := attributesFrom n (consumed.getLast?.getD c) next
      ((Text.toSmall name, resolveValue value) :: more, rest)
    else ([], cs)
  | _, cs => ([], cs)

/-! ### Tags -/

/-- How much of a tag is there. -/
inductive TagReading
  | whole (event : Event) (rest : Text)
  /-- The tag breaks off. -/
  | partly
  /-- The tag cannot go on as it does; what was read of it is text. -/
  | spoilt (t : Text) (rest : Text)

/-- The start tag whose name begins with the letter `c` in front of `cs`. -/
def startTag (c : Char) (cs : Text) : TagReading :=
  let name := Text.toSmall (c :: cs.takeWhile isTagChar)
  let rest := cs.dropWhile isTagChar
  let between := skipBetween rest
  let before :=
    ((rest.take (rest.length - between.length)).getLast?).getD ((c :: cs.takeWhile isTagChar).getLastD c)
  let (attributes, rest) := attributesFrom (between.length + 1) before between
  match rest with
  | '>' :: rest => .whole (.start name (Table.ofPairs attributes) false) rest
  | '/' :: '>' :: rest => .whole (.start name (Table.ofPairs attributes) true) rest
  | [] => .partly
  | d :: _ =>
    if d.isAlpha || d = '=' || d = '/' then .partly
    else .spoilt ('<' :: (c :: cs).take ((c :: cs).length - rest.length)) rest

/-- The characters of the name of an end tag behind its first. -/
def isEndNameChar (c : Char) : Bool :=
  c.isAlphanum || c == '-' || c == '.' || c == ':' || c == '_'

/-- The rest behind the next closing bracket. -/
def afterBracket (cs : Text) : Text :=
  (cs.dropWhile (· ≠ '>')).drop 1

/-- The end tag of a well-formed name at the start of `cs`, behind its slash. -/
def plainEndTag? (cs : Text) : Option (Text × Text) :=
  match Text.trimStart cs with
  | c :: ds =>
    if c.isAlpha then
      match Text.trimStart (ds.dropWhile isEndNameChar) with
      | '>' :: rest => some (Text.toSmall (c :: ds.takeWhile isEndNameChar), rest)
      | _ => none
    else none
  | [] => none

/-- The end tag at the start of `cs`, behind its slash. -/
def endTag (cs : Text) : TagReading :=
  if !cs.contains '>' then .partly
  else
    match plainEndTag? cs with
    | some (name, rest) => .whole (.finish name) rest
    | none =>
      match cs with
      | [] => .partly
      | c :: ds =>
        if isTagStart c then
          .whole (.finish (Text.toSmall (c :: ds.takeWhile isTagChar)))
            (afterBracket (ds.dropWhile isTagChar))
        else if c = '>' then .whole (.text []) ds
        else .whole .remark (afterBracket cs)

/-- The rest behind the end of a comment: two hyphens and a bracket, white space between them. -/
def afterComment? : Text → Option Text
  | [] => none
  | c :: cs =>
    match (Text.after? "--" (c :: cs)).map Text.trimStart with
    | some ('>' :: rest) => some rest
    | _ => afterComment? cs

/-- Markup that begins with an exclamation or a question mark, at the start of `cs`, behind the
opening bracket. -/
def declaration (cs : Text) : TagReading :=
  match Text.after? "!--" cs with
  | some rest =>
    match afterComment? rest with
    | some rest => .whole .remark rest
    | none => .partly
  | none =>
    match Text.after? "![" cs with
    | some rest =>
      match Text.cut? "]]>" rest with
      | some (inner, rest) => .whole (.aside ((Text.after? "CDATA[" inner).getD inner)) rest
      | none => .partly
    | none =>
      match Text.cutAt '>' (cs.drop 1) with
      | (_, none) => .partly
      | (inner, some rest) =>
        .whole (if cs.head? = some '?' then .aside inner else .remark) rest

/-- The tag at the start of `cs`, behind the opening bracket, if one stands there. -/
def tag? (cs : Text) : Option TagReading :=
  match cs with
  | '/' :: ds => some (endTag ds)
  | c :: ds =>
    if isTagStart c then some (startTag c ds)
    else if c = '!' || c = '?' then some (declaration cs)
    else none
  | [] => none

/-! ### References in running text -/

/-- What an ampersand begins. -/
inductive ReferenceReading
  | whole (t : Text) (rest : Text)
  /-- A reference by number that is none; the text goes on behind its mark. -/
  | malformed (rest : Text)
  /-- The text breaks off in the reference. -/
  | unfinished

/-- The characters of the name of a reference behind its first. -/
def isReferenceChar (c : Char) : Bool :=
  c.isAlphanum || c == '-' || c == '.'

/-- The name of a reference at the start of `cs` and the rest, which may not be empty: a hyphen or a
dot ends the name where the text breaks off behind it. -/
def referenceName? (cs : Text) : Option (Text × Text) :=
  let name := cs.takeWhile isReferenceChar
  let rest := cs.dropWhile isReferenceChar
  if !rest.isEmpty then some (name, rest)
  else
    let tail := Text.takeEndWhile Char.isAlphanum name
    let head := Text.dropEndWhile Char.isAlphanum name
    if head.isEmpty then none else some (head.dropLast, head.getLast?.toList ++ tail)

/-- The reference at the start of `cs`, behind the ampersand. -/
def reference (cs : Text) : ReferenceReading :=
  match cs with
  | '#' :: ds =>
    match number? ds with
    | some (n, c :: rest) =>
      if (Text.hexDigit? c).isSome then
        if ds.contains ';' then .malformed ds else .unfinished
      else .whole (numberText n) (skipSemicolon (c :: rest))
    | _ => if ds.contains ';' then .malformed ds else .unfinished
  | c :: _ =>
    if c.isAlpha then
      match referenceName? cs with
      | some (name, rest) => .whole ((named? name).getD ('&' :: name)) (skipSemicolon rest)
      | none => .unfinished
    else .whole ['&'] cs
  | [] => .unfinished

/-! ### Events -/

/-- The rest of a text in which a reference breaks off, when `cs` follows the ampersand. -/
def unfinishedText (cs : Text) : Text :=
  match cs with
  | [c] => if c = '#' then ['&', c] else [c]
  | cs => '&' :: cs

/-- A tag that is not complete, as text: what follows the opening bracket up to the next closing one,
or up to the next opening one, or nothing; and the rest. -/
def brokenTag (cs : Text) : Text × Text :=
  match Text.cutAt '>' cs with
  | (inner, some rest) => ('<' :: inner ++ ['>'], rest)
  | (_, none) =>
    if cs.contains '<' then ('<' :: cs.takeWhile (· ≠ '<'), cs.dropWhile (· ≠ '<'))
    else (['<'], cs)

/-- The content of a script or a style sheet up to its end tag, and the rest from there. -/
def untilEndTag? (name : Text) : Text → Option (Text × Text)
  | [] => none
  | c :: cs =>
    let here : Option (Text × Text) := do
      let rest ← Text.after? "</" (c :: cs)
      let (found, _) ← plainEndTag? rest
      if found = name then some ([], c :: cs) else none
    here.or ((untilEndTag? name cs).map fun parts => (c :: parts.1, parts.2))

/-- Whether the content of an element is text, markup included. -/
def holdsRawText (name : Text) : Bool :=
  name = "script" || name = "style"

/-- The events of a text; with `strict` a malformed reference ends the markup.  No more than `n`
steps are taken, each of which reads at least one character. -/
def eventsFrom : Nat → Bool → Text → List Event
  | 0, _, _ => []
  | n + 1, strict, cs =>
    match cs with
    | [] => []
    | '<' :: ds =>
      match tag? ds with
      | some (.whole (.start name attributes closed) rest) =>
        if holdsRawText name && !closed then
          match untilEndTag? name rest with
          | some (inner, rest) =>
            .start name attributes closed :: .text inner :: eventsFrom n strict rest
          | none => [.start name attributes closed]
        else .start name attributes closed :: eventsFrom n strict rest
      | some (.whole event rest) => event :: eventsFrom n strict rest
      | some (.spoilt t rest) => .text t :: eventsFrom n strict rest
      | some .partly => .text (brokenTag ds).1 :: eventsFrom n true (brokenTag ds).2
      | none => .text ['<'] :: eventsFrom n strict ds
    | '&' :: ds =>
      match reference ds with
      | .whole t rest => .text t :: eventsFrom n strict rest
      | .malformed rest =>
        if strict then [.text ('&' :: '#' :: rest)] else .text ['&', '#'] :: eventsFrom n true rest
      | .unfinished => [.text (unfinishedText ds)]
    | c :: ds =>
      let isPlain (d : Char) : Bool := !(d == '<' || d == '&')
      .text (c :: ds.takeWhile isPlain) :: eventsFrom n strict (ds.dropWhile isPlain)

/-- The events of a text. -/
def events (cs : Text) : List Event :=
  eventsFrom cs.length false cs

end Html

end Ambient

import Ambient.Text.Blank
import Ambient.Text.Digit

/-!
# Blocks of Markdown

Markdown falls into blocks: paragraphs and lists, which end at a blank line, and fenced code, which
goes from one fence to the next whatever its lines are.  A fence that is never closed runs to the end.

The items of a bullet list may spell out the values that a text can take.
-/

namespace Ambient

namespace Prose

/-- A paragraph, a list or a piece of fenced code. -/
structure Block where
  text : Text
  isCode : Bool
deriving DecidableEq, Repr

/-! ### Cutting text into blocks -/

/-- Whether a line opens or closes fenced code. -/
def isFence (line : Text) : Bool :=
  Text.startsWith "```" line.trim

namespace Block

/-- The block of some lines, if there are any. -/
def ofLines (isCode : Bool) (lines : List Text) : List Block :=
  if lines.isEmpty then [] else [⟨Text.unlines lines, isCode⟩]

/-- The blocks of lines that follow the lines `current` of a block. -/
def goOn (isCode : Bool) (current : List Text) : List Text → List Block
  | [] => ofLines isCode current
  | line :: rest =>
    if isFence line then
      if isCode then ofLines true (current ++ [line]) ++ goOn false [] rest
      else ofLines false current ++ goOn true [line] rest
    else if !isCode && line.blank then ofLines false current ++ goOn false [] rest
    else goOn isCode (current ++ [line]) rest

/-- The blocks of a text. -/
def split (t : Text) : List Block :=
  goOn false [] t.lines

/-- The text of some blocks, with a blank line between two of them. -/
def join (blocks : List Block) : Text :=
  Text.joinWith "\n\n" (blocks.map Block.text)

/-- The lines of a block of code without its fences. -/
def codeLines (b : Block) : List Text :=
  let inner :=
    match b.text.lines with
    | [] => []
    | line :: rest => if isFence line then rest else line :: rest
  match inner.getLast? with
  | some line => if isFence line then inner.dropLast else inner
  | none => inner

/-- The content of a block of code. -/
def code (b : Block) : Text :=
  Text.unlines b.codeLines

end Block

/-! ### Lists -/

/-- Whether a character marks an item of a bullet list. -/
def isBullet (c : Char) : Bool :=
  c == '*' || c == '+' || c == '-'

/-- The item on a line that starts with a bullet. -/
def bulletItem? (line : Text) : Option Text :=
  match line with
  | c :: d :: rest =>
    if isBullet c && isBlank d && !rest.isEmpty then some (Text.trim rest) else none
  | _ => none

/-- Whether a line continues with an item: a bullet or a number, and white space. -/
def startsItem (line : Text) : Bool :=
  match line.dropWhile isDecimalDigit with
  | c :: d :: _ =>
    isBlank d &&
      (if line.head?.elim false isDecimalDigit then c == '.' || c == ')' else isBullet c)
  | _ => false

/-- Whether a line is an item of a list inside another one. -/
def isNestedItem (line : Text) : Bool :=
  line.head?.elim false isBlank && startsItem line.trimStart

/-- The bullet lists on some lines, behind the items `current` of a list that goes on, if there is
one.  Items of inner lists are passed over; any other line ends a list. -/
def listsFrom (current : Option (List Text)) : List Text → List (List Text)
  | [] => current.toList
  | line :: rest =>
    match bulletItem? line, current with
    | some item, _ => listsFrom (some (current.getD [] ++ [item])) rest
    | none, some items =>
      if isNestedItem line then listsFrom (some items) rest
      else items :: listsFrom none rest
    | none, none => listsFrom none rest

/-- The bullet lists of some blocks. -/
def bulletLists (blocks : List Block) : List (List Text) :=
  blocks.flatMap fun b => if b.isCode then [] else listsFrom none b.text.lines

/-! ### Values of an enumeration -/

/-- The code span at the start of an item. -/
def codeItem? (item : Text) : Option Text :=
  match item with
  | '`' :: rest =>
    match Text.cutAt '`' rest with
    | (c :: cs, some _) => some (c :: cs)
    | _ => none
  | _ => none

/-- The value that an item spells out: a code span it starts with, or the one word it holds. -/
def itemValue? (item : Text) : Option Text :=
  match codeItem? item with
  | some code => some code.trim
  | none =>
    let word := Text.trimBy (fun c => c == '"' || c == '\'') item.trim
    if word.isEmpty || word.any isBlank then none else some word

/-- The values that a list spells out, each of them once, if every item spells one out. -/
def enumValues? (items : List Text) : Option (List Text) :=
  match items.mapM itemValue? with
  | some (v :: vs) => some (v :: vs).eraseDups
  | _ => none

end Prose

end Ambient

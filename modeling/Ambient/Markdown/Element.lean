import Ambient.Html.Tree
import Ambient.Text.Digit
import Ambient.Text.Word

/-!
# From elements to Markdown

Each element is converted after its children: the converted children are put together, and the rule
of the element's name is applied to the result.  A rule may look at the element's surroundings, which
are its ancestors and its siblings.

White space in running text collapses, and is dropped where it touches the border of a block.  Where
two converted children meet with line feeds on both sides, the larger number of them stays, at most
two.
-/

namespace Ambient

namespace Markdown

open Html

/-! ### Surroundings -/

/-- What an element stands in, another element or the document: its name, attributes and children, and
whether no element precedes it among its siblings. -/
structure Ancestor where
  name : Text
  attributes : Table Text
  children : List Node
  isFirst : Bool

/-- The number in the name of a heading. -/
def headingLevel? (name : Text) : Option Nat :=
  match name with
  | 'h' :: ds => Text.decimalValue? (ds.takeWhile isDecimalDigit)
  | _ => none

/-- The elements that are blocks, headings apart. -/
def blockNames : List Text := [
  "p", "blockquote", "article", "div", "section", "ol", "ul", "li", "dl", "dt", "dd", "table",
  "thead", "tbody", "tfoot", "tr", "td", "th"]

/-- Whether white space at the borders of an element is dropped inside of it. -/
def isBlock (name : Text) : Bool :=
  (headingLevel? name).isSome || blockNames.contains name

/-- Whether white space around a node is dropped. -/
def stripsOutside (node : Option Node) : Bool :=
  match node.bind Node.name? with
  | some name => isBlock name || name = "pre"
  | none => false

/-- Whether an element lies on the way from the root to a node. -/
def isInside (name : Text) (ancestors : List Ancestor) : Bool :=
  ancestors.any (·.name = name)

/-- Whether a node has to stay on one line, being in a heading or in a cell of a table. -/
def isInline (ancestors : List Ancestor) : Bool :=
  ancestors.any fun a => (headingLevel? a.name).isSome || a.name = "td" || a.name = "th"

/-- The elements whose content is code. -/
def isCodeName (name : Text) : Bool :=
  name = "pre" || name = "code" || name = "kbd" || name = "samp"

/-- Whether a node is part of code, where nothing is marked up. -/
def isInCode (ancestors : List Ancestor) : Bool :=
  ancestors.any fun a => isCodeName a.name

/-! ### Text -/

/-- The white space that collapses. -/
def isCollapsing (c : Char) : Bool :=
  c == ' ' || c == '\t' || c == '\r' || c == '\n'

/-- The text with every run of white space a line feed if it holds a line break, and a space
otherwise. -/
def collapse : Text → Text
  | [] => []
  | c :: cs =>
    if isCollapsing c then
      match collapse cs with
      | [] => [if c = '\n' || c = '\r' then '\n' else ' ']
      | d :: ds =>
        if cs.head?.elim false isCollapsing then
          (if c = '\n' || c = '\r' then '\n' else d) :: ds
        else (if c = '\n' || c = '\r' then '\n' else ' ') :: d :: ds
    else c :: collapse cs

/-- The text with every run of white space a single space. -/
def onOneLine (t : Text) : Text :=
  (collapse t).map fun c => if c = '\n' then ' ' else c

/-- A text node between its siblings, inside its innermost ancestor. -/
def textNode (ancestors : List Ancestor) (before after : Option Node) (t : Text) : Text :=
  let t := if isInside "pre" ancestors then t else collapse t
  let inBlock := ancestors.head?.elim false (isBlock ·.name)
  let t :=
    if stripsOutside before || (inBlock && before.isNone) then t.dropWhile isCollapsing else t
  if stripsOutside after || (inBlock && after.isNone) then Text.trimEnd t else t

/-- Whether a node shows nothing where it stands. -/
def isSilent (inBlock : Bool) (before after : Option Node) : Node → Bool
  | .element .. => false
  | .remark => true
  | .text t =>
    Text.blank t
      && ((inBlock && (before.isNone || after.isNone)) || stripsOutside before
        || stripsOutside after)

/-! ### Putting children together -/

/-- A text without the line feeds at its ends, and their numbers.  A text of line feeds alone has
them all at its start. -/
def cutFeeds (t : Text) : Nat × Text × Nat :=
  let rest := t.dropWhile (· = '\n')
  ((t.takeWhile (· = '\n')).length, Text.dropEndWhile (· = '\n') rest,
    (Text.takeEndWhile (· = '\n') rest).length)

/-- The texts put together behind `feeds` line feeds that end the text before them. -/
def mergeFrom (feeds : Nat) : List Text → Text
  | [] => List.replicate feeds '\n'
  | t :: ts =>
    let (leading, inner, trailing) := cutFeeds t
    let count := if feeds = 0 || leading = 0 then feeds + leading else min 2 (max feeds leading)
    List.replicate count '\n' ++ inner ++ mergeFrom trailing ts

/-- The converted children of an element put together. -/
def merge (keepFeeds : Bool) (ts : List Text) : Text :=
  let ts := ts.filter fun t => !t.isEmpty
  if keepFeeds then ts.flatten else mergeFrom 0 ts

/-! ### Rules for text in a line -/

/-- The text without white space around it, and a space on each side on which it had one. -/
def chomp (t : Text) : Text × Text × Text :=
  (if t.head? = some ' ' then [' '] else [], Text.trim t,
    if t.getLast? = some ' ' then [' '] else [])

/-- The text between two marks. -/
def marked (mark : Text) (inCode : Bool) (t : Text) : Text :=
  if inCode then t
  else
    let (lead, inner, trail) := chomp t
    if inner.isEmpty then [] else lead ++ mark ++ inner ++ mark ++ trail

/-- The length of the longest run of backticks, the current one being of length `n`. -/
def longestTicks (n : Nat) : Text → Nat
  | [] => n
  | c :: cs => if c = '`' then longestTicks (n + 1) cs else max n (longestTicks 0 cs)

/-- The text as a code span, between more backticks than it holds in a row. -/
def codeSpan (inCode : Bool) (t : Text) : Text :=
  if inCode then t
  else
    let (lead, inner, trail) := chomp t
    let ticks := longestTicks 0 inner
    let mark := List.replicate (ticks + 1) '`'
    let inner' := if ticks = 0 then inner else ' ' :: inner ++ [' ']
    if inner.isEmpty then [] else lead ++ mark ++ inner' ++ mark ++ trail

/-- An attribute, empty if it is missing. -/
def attr (attributes : Table Text) (key : Text) : Text :=
  (Table.get? attributes key).getD []

/-- The title of a link or an image, if there is one. -/
def titleText (title : Text) : Text :=
  if title.isEmpty then [] else " \"" ++ Text.replaceChar '"' "\\\"" title ++ "\""

/-- The text without the backslash in front of each underscore. -/
def unescapeUnderscores : Text → Text
  | [] => []
  | '\\' :: '_' :: cs => '_' :: unescapeUnderscores cs
  | c :: cs => c :: unescapeUnderscores cs

/-- The text as a link. -/
def link (attributes : Table Text) (inCode : Bool) (t : Text) : Text :=
  let (lead, inner, trail) := chomp t
  let title := attr attributes "title"
  if inCode then t
  else if inner.isEmpty then []
  else
    match Table.get? attributes "href" with
    | none => inner
    | some href =>
      if unescapeUnderscores inner = href && title.isEmpty then '<' :: href ++ ['>']
      else if href.isEmpty then inner
      else lead ++ "[" ++ inner ++ "](" ++ href ++ titleText title ++ ")" ++ trail

/-- An image. -/
def image (attributes : Table Text) (inLine : Bool) : Text :=
  let alt := attr attributes "alt"
  if inLine then alt
  else
    "![" ++ alt ++ "](" ++ attr attributes "src" ++ titleText (attr attributes "title")
      ++ ")"

/-- The address of a video, which is its own or else that of the first source in it that has one. -/
def videoSource (attributes : Table Text) (children : List Node) : Text :=
  let own := attr attributes "src"
  if own.isEmpty then
    let sources := (Node.elementsOf children).filter fun e : Text × _ => e.1 = "source"
    (sources.findSome? fun e => Table.get? e.2 "src").getD []
  else own

/-- A video: a link to it, shown as its poster if it has one. -/
def video (attributes : Table Text) (children : List Node) (inLine : Bool) (t : Text) : Text :=
  let source := videoSource attributes children
  let poster := attr attributes "poster"
  let shown := if poster.isEmpty then t else "![" ++ t ++ "](" ++ poster ++ ")"
  if inLine then t
  else if source.isEmpty then shown
  else "[" ++ shown ++ "](" ++ source ++ ")"

/-- The text struck out. -/
def struck (t : Text) : Text :=
  let t := Text.trim t
  if t.isEmpty then [] else '~' :: t ++ ['~']

/-! ### Rules for blocks -/

/-- A text between blank lines, unless it is empty. -/
def paragraph (t : Text) : Text :=
  if t.isEmpty then [] else "\n\n" ++ t ++ "\n\n"

/-- Each line of a text with `lead` before it, or with `emptyLead` alone where it is empty. -/
def leadLines (lead emptyLead : Text) (t : Text) : Text :=
  Text.joinWith ['\n']
    ((Text.splitAt '\n' t).map fun l => if l.isEmpty then emptyLead else lead ++ l)

/-- A heading. -/
def heading (level : Nat) (inLine : Bool) (t : Text) : Text :=
  if inLine then t
  else
    "\n\n" ++ List.replicate (max 1 (min 6 level)) '#' ++ " " ++ onOneLine (Text.trim t) ++ "\n\n"

/-- The text without line feeds and spaces at its end, and without the lines at its start that hold
nothing but spaces. -/
def trimCode (t : Text) : Text :=
  let isFiller (c : Char) : Bool := c == ' ' || c == '\n'
  let filler := t.takeWhile isFiller
  let lead := Text.takeEndWhile (· ≠ '\n') filler
  Text.dropEndWhile isFiller
    (if filler.contains '\n' then lead ++ t.dropWhile isFiller else t)

/-- A block of code. -/
def codeBlock (t : Text) : Text :=
  if t.isEmpty then [] else "\n\n```\n" ++ trimCode t ++ "\n```\n\n"

/-- A quotation. -/
def blockquote (inLine : Bool) (t : Text) : Text :=
  let t := Text.trimBy isCollapsing t
  if inLine then ' ' :: t ++ [' ']
  else if t.isEmpty then ['\n']
  else '\n' :: leadLines "> " ">" t ++ "\n\n"

/-- Whether a node is an element or shows text. -/
def isContent : Node → Bool
  | .element .. => true
  | .remark => false
  | .text t => !Text.blank t

/-- A list; in an item of another list it follows on the next line. -/
def listBlock (inItem : Bool) (after : List Node) (t : Text) : Text :=
  if inItem then '\n' :: Text.trimEnd t
  else
    let spaced :=
      match after.find? isContent with
      | some node => node.name? ≠ some ("ul" : Text) && node.name? ≠ some ("ol" : Text)
      | none => false
    "\n\n" ++ t ++ (if spaced then ['\n'] else [])

/-- The number of the first item of a numbered list. -/
def startNumber (attributes : Table Text) : Nat :=
  (Text.decimalValue? (attr attributes "start")).getD 1

/-- The mark of an item of a list.  Bullets differ by the depth of the list. -/
def bullet (ancestors : List Ancestor) (before : List Node) : Text :=
  let isItem (n : Node) : Bool := n.name? = some ("li" : Text)
  match ancestors.head?.filter fun a : Ancestor => a.name = "ol" with
  | some list => Text.ofNat (startNumber list.attributes + before.countP isItem) ++ "."
  | none =>
    match (ancestors.countP fun a : Ancestor => a.name = "ul") % 3 with
    | 0 => "-"
    | 1 => "*"
    | _ => "+"

/-- An item of a list, its further lines indented by the width of its mark. -/
def listItem (mark : Text) (t : Text) : Text :=
  let t := Text.trim t
  let mark := mark ++ [' ']
  if t.isEmpty then ['\n']
  else
    mark ++ (leadLines (List.replicate mark.length ' ') [] t).drop mark.length ++ ['\n']

/-- A term of a list of definitions. -/
def term (inLine : Bool) (t : Text) : Text :=
  let t := onOneLine (Text.trim t)
  if inLine then ' ' :: t ++ [' ']
  else if t.isEmpty then ['\n']
  else "\n\n" ++ t ++ "\n"

/-- A definition. -/
def definition (inLine : Bool) (t : Text) : Text :=
  let t := Text.trim t
  if inLine then ' ' :: t ++ [' ']
  else if t.isEmpty then ['\n']
  else ':' :: (leadLines "    " [] t).drop 1 ++ ['\n']

/-! ### Rules for tables -/

/-- The number of columns of a cell. -/
def columns (attributes : Table Text) : Nat :=
  match (Table.get? attributes "colspan").bind Text.decimalValue? with
  | some n => max 1 (min 1000 n)
  | none => 1

/-- A cell of a table. -/
def cell (attributes : Table Text) (t : Text) : Text :=
  ' ' :: Text.replaceChar '\n' [' '] (Text.trim t) ++ Text.repeated (columns attributes) " |"

/-- A row of `n` equal cells. -/
def evenRow (n : Nat) (content : Text) : Text :=
  "| " ++ Text.joinWith " | " (List.replicate n content) ++ " |\n"

/-- A row of a table.  The first row has a line below it if it is a header, and an empty header above
it otherwise where a header is missing. -/
def tableRow (ancestors : List Ancestor) (before children : List Node) (t : Text) : Text :=
  let cells := (Node.elementsOf children).filter fun e : Text × _ => e.1 = "td" || e.1 = "th"
  let width := cells.foldl (fun n e => n + columns e.2) 0
  let isFirst := !before.any Node.isElement
  let parentName := (ancestors.head?.map (·.name)).getD []
  let parentIsFirst := ancestors.head?.elim true (·.isFirst)
  let count (name : Text) (a : Option Ancestor) : Nat :=
    a.elim 0 fun a => ((Node.elementsOf a.children).filter (·.1 = name)).length
  let isHead :=
    (cells.all fun e : Text × _ => e.1 = "th") || (parentName = "thead" && count "tr" ancestors.head? = 1)
  let headMissing :=
    isFirst && (parentName ≠ "tbody" || count "thead" (ancestors.drop 1).head? = 0)
  let row := '|' :: t ++ ['\n']
  if isHead && isFirst then row ++ evenRow width "---"
  else if headMissing
      || (isFirst && (parentName = "table" || (parentName = "tbody" && parentIsFirst))) then
    evenRow width [] ++ evenRow width "---" ++ row
  else row

/-! ### The rules by name -/

/-- The rule of an element's name applied to its converted children. -/
def applyRule (ancestors : List Ancestor) (before after : List Node) (name : Text)
    (attributes : Table Text) (children : List Node) (t : Text) : Text :=
  let inLine := isInline ancestors
  let inCode := isInCode ancestors
  let is (names : List Text) : Bool := names.contains name
  if is ["b", "strong"] then marked "**" inCode t
  else if is ["em", "i"] then marked "*" inCode t
  else if is ["sub", "sup"] then marked [] inCode t
  else if is ["del", "s", "strike"] then struck t
  else if is ["button", "script", "style"] then []
  else if is ["q"] then '"' :: t ++ ['"']
  else if is ["code", "kbd", "samp"] then codeSpan inCode t
  else if is ["a"] then link attributes inCode t
  else if is ["img"] then image attributes inLine
  else if is ["video"] then video attributes children inLine t
  else if is ["br"] then (if inLine then t ++ [' '] else "  \n" ++ t)
  else if is ["hr"] then "\n\n---\n\n"
  else if is ["p"] then
    let t := Text.trimBy isCollapsing t
    if inLine then ' ' :: t ++ [' '] else paragraph t
  else if is ["div", "article", "section", "dl"] then
    let t := Text.trim t
    if inLine then ' ' :: t ++ [' '] else paragraph t
  else if is ["pre"] then codeBlock t
  else if is ["blockquote"] then blockquote inLine t
  else if is ["ul", "ol"] then listBlock (isInside "li" ancestors) after t
  else if is ["li"] then listItem (bullet ancestors before) t
  else if is ["dt"] then term inLine t
  else if is ["dd"] then definition inLine t
  else if is ["table", "figcaption"] then "\n\n" ++ Text.trim t ++ "\n\n"
  else if is ["caption"] then Text.trim t ++ "\n\n"
  else if is ["td", "th"] then cell attributes t
  else if is ["tr"] then tableRow ancestors before children t
  else
    match headingLevel? name with
    | some level => heading level inLine t
    | none => t

mutual

/-- The Markdown of a node between its siblings, those before it in reverse. -/
def ofNode (ancestors : List Ancestor) (before after : List Node) : Node → Text
  | .text t => textNode ancestors before.head? after.head? t
  | .remark => []
  | .element name attributes children =>
    let here : Ancestor := ⟨name, attributes, children, !before.any Node.isElement⟩
    let inside := here :: ancestors
    applyRule ancestors before after name attributes children
      (merge (isInside "pre" inside) (ofNodes inside [] children))

/-- The Markdown of those of several siblings that show something. -/
def ofNodes (ancestors : List Ancestor) (before : List Node) : List Node → List Text
  | [] => []
  | n :: ns =>
    let more := ofNodes ancestors (n :: before) ns
    if isSilent (ancestors.head?.elim false (isBlock ·.name)) before.head? ns.head? n then more
    else ofNode ancestors before ns n :: more

end

/-- The document that a forest makes, which is the outermost ancestor and has no name. -/
def document (nodes : List Node) : Ancestor :=
  { name := [], attributes := [], children := nodes, isFirst := true }

/-- The Markdown of a forest. -/
def ofForest (nodes : List Node) : Text :=
  Text.trimBy (· = '\n') (merge false (ofNodes [document nodes] [] nodes))

end Markdown

end Ambient

import Ambient.Html.Event

/-!
# Element trees

The events of a text give a forest of nodes.  Elements close only by their end tag, or at once if
they can have no content; an end tag closes the innermost open element of its name with everything
open inside it, and closes nothing if there is none.

An end tag also ends the text before it, so that the text behind it is another node.  Only the end
tag of an element that its start tag has closed already leaves the text whole.

Text that holds only white space is a single line feed or a single space, outside of elements that
keep their white space.
-/

namespace Ambient

namespace Html

/-- A node of a document. -/
inductive Node
  | text (t : Text)
  /-- A comment or a document type, which shows nothing but is there. -/
  | remark
  | element (name : Text) (attributes : Table Text) (children : List Node)
deriving Repr, Inhabited

/-- The elements that can have no content. -/
def voidElements : List Text := [
  "area", "base", "br", "col", "embed", "hr", "img", "input", "link", "meta", "param", "source",
  "track", "wbr"]

/-- The elements that keep the white space in them. -/
def keepsSpace (name : Text) : Bool :=
  name = "pre" || name = "textarea"

/-- White space of markup. -/
def isMarkupBlank (c : Char) : Bool :=
  c == ' ' || c == '\n' || c == '\t' || c == '\x0c' || c == '\r'

/-- An open element with the nodes in it so far, the last one first. -/
structure OpenElement where
  name : Text
  attributes : Table Text
  nodes : List Node

/-- A forest under construction: the open elements, innermost first, the nodes outside of them, the
last one first, the text since the last node, the last piece first, and the names of the elements
that were closed by their start tag and have not met an end tag. -/
structure Construction where
  stack : List OpenElement := []
  roots : List Node := []
  pending : List Text := []
  awaited : List Text := []

namespace Construction

/-- One more node in the innermost open element. -/
def addNode (c : Construction) (node : Node) : Construction :=
  match c.stack with
  | [] => { c with roots := node :: c.roots }
  | e :: es => { c with stack := { e with nodes := node :: e.nodes } :: es }

/-- The text of a node, given the names of the open elements. -/
def nodeText (openNames : List Text) (t : Text) : Text :=
  if t.all isMarkupBlank && !openNames.any keepsSpace then
    if t.contains '\n' then ['\n'] else [' ']
  else t

/-- One more text node. -/
def addText (c : Construction) (t : Text) : Construction :=
  c.addNode (.text (nodeText (c.stack.map (·.name)) t))

/-- The text since the last node made a node, if there is any. -/
def flush (c : Construction) : Construction :=
  let t := c.pending.reverse.flatten
  let c := { c with pending := [] }
  if t.isEmpty then c else c.addText t

/-- The innermost open element closed. -/
def closeInnermost (c : Construction) : Construction :=
  match c.stack with
  | [] => c
  | e :: es =>
    addNode { c with stack := es } (.element e.name e.attributes e.nodes.reverse)

/-- The `n` innermost open elements closed. -/
def close : Nat → Construction → Construction
  | 0, c => c
  | n + 1, c => close n c.closeInnermost

/-- The innermost open element of a name closed with all that is open inside it. -/
def closeNamed (c : Construction) (name : Text) : Construction :=
  match c.stack.findIdx? (·.name = name) with
  | some n => close (n + 1) c
  | none => c

/-- An end tag, which counts for nothing if it is that of an element that was closed by its start
tag. -/
def finish (c : Construction) (name : Text) : Construction :=
  if c.awaited.contains name then { c with awaited := c.awaited.erase name }
  else c.flush.closeNamed name

/-- A start tag. -/
def start (c : Construction) (name : Text) (attributes : Table Text) (closed : Bool) :
    Construction :=
  let c := c.flush
  let opened := { c with stack := ⟨name, attributes, []⟩ :: c.stack }
  if closed then opened.closeInnermost
  else if voidElements.contains name then
    { opened.closeInnermost with awaited := name :: c.awaited }
  else opened

/-- The construction after one more event. -/
def step (c : Construction) : Event → Construction
  | .text t => if t.isEmpty then c else { c with pending := t :: c.pending }
  | .aside t => c.flush.addText t
  | .remark => c.flush.addNode .remark
  | .start name attributes closed => c.start name attributes closed
  | .finish name => c.finish name

/-- The finished forest. -/
def forest (c : Construction) : List Node :=
  let c := c.flush
  (close c.stack.length c).roots.reverse

end Construction

/-- The forest of a text. -/
def parse (t : Text) : List Node :=
  ((events t).foldl Construction.step {}).forest

/-! ### Looking into nodes -/

namespace Node

/-- The name of an element. -/
def name? : Node → Option Text
  | .element name _ _ => some name
  | _ => none

/-- Whether a node is an element. -/
def isElement : Node → Bool
  | .element .. => true
  | _ => false

mutual

/-- The elements in a node, itself included, with their names and attributes, from the root. -/
def elements : Node → List (Text × Table Text)
  | .element name attributes children => (name, attributes) :: elementsOf children
  | .text _ => []
  | .remark => []

/-- The elements in several nodes. -/
def elementsOf : List Node → List (Text × Table Text)
  | [] => []
  | n :: ns => elements n ++ elementsOf ns

end

end Node

end Html

end Ambient

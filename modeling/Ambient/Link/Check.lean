import Ambient.Html.Tree
import Ambient.Link.Page
import Ambient.Text.Order

/-!
# Checking links

Every link of a document leads to a page and may name an anchor on it.  A page is fetched once, and
an anchor is missing unless exactly one element of the page has its name.  A link that is no web
address cannot be followed.
-/

namespace Ambient

namespace Link

/-! ### Collecting -/

mutual

/-- The links of a value: its own, and then those of its members. -/
def ofValue : Json → List Text
  | .object members =>
    (match Table.get? members "!url" with
      | some v => if v.isPresent then [v.display] else []
      | none => [])
      ++ ofMembers members
  | _ => []

/-- The links of the members of an object, its own link apart. -/
def ofMembers : List (Text × Json) → List Text
  | [] => []
  | m :: ms => ofMember m ++ ofMembers ms

/-- The links of a member of an object, unless it is the link of the object. -/
def ofMember : Text × Json → List Text
  | (key, v) => if key = "!url" then [] else ofValue v

end

/-- The pages so far with those of one more link: the page, and the anchor on it if there is one. -/
def addTo (pages : Table (List Text)) (link : Text) : Table (List Text) :=
  let (page, anchor) := Text.cutAt '#' link
  let anchor := anchor.getD []
  let anchors := (Table.get? pages page).getD []
  Table.insert pages page
    (if anchor.isEmpty || anchors.contains anchor then anchors else anchors ++ [anchor])

/-- The pages that links lead to, each with the anchors that are named on it, in the order of the
links. -/
def pages (links : List Text) : Table (List Text) :=
  (Text.sorted links).foldl addTo []

/-! ### Checking -/

/-- The anchors that do not name exactly one element of a page. -/
def missingAnchors (html : Text) (anchors : List Text) : List Text :=
  let names := (Html.Node.elementsOf (Html.parse html)).filterMap fun e => Table.get? e.2 "id"
  anchors.filter fun a => names.count a ≠ 1

/-- What is wrong with the links to a page. -/
structure Report where
  page : Text
  missing : List Text := []
  /-- The page is at no web address. -/
  isUnreachable : Bool := false
deriving DecidableEq, Repr

namespace Report

/-- Whether nothing is wrong. -/
def isValid (r : Report) : Bool :=
  !r.isUnreachable && r.missing.isEmpty

/-- The links that lead nowhere. -/
def invalidLinks (r : Report) : List Text :=
  if r.isUnreachable then [r.page] else r.missing.map fun a => r.page ++ '#' :: a

end Report

/-- Whether a page has to be fetched: only a page with anchors has. -/
def needsFetch (page : Text) (anchors : List Text) : Bool :=
  Address.isWeb page && !anchors.isEmpty

/-- The report on one page. -/
def checkPage (web : Table Page) (page : Text) (anchors : List Text) : Except Failure Report :=
  if !Address.isWeb page then return { page, isUnreachable := true }
  else if anchors.isEmpty then return { page }
  else return { page, missing := missingAnchors (← Page.fetchText web none page) anchors }

/-- The reports on all pages that a document links to. -/
def check (web : Table Page) (document : Json) : Except Failure (List Report) :=
  (pages (ofValue document)).mapM fun p => checkPage web p.1 p.2

/-- The pages that a check fetches, in order. -/
def fetched (document : Json) : List Text :=
  ((pages (ofValue document)).filter fun p => needsFetch p.1 p.2).map Prod.fst

end Link

end Ambient

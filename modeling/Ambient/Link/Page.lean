import Ambient.Link.Address
import Ambient.Settings

/-!
# Pages and files

Where documents and documentation come from.  A page is what a server answers under an address, and
a file is text under a path.  A file with the marks of another system at its line ends is read as if
it had line feeds.
-/

namespace Ambient

/-! ### Pages -/

/-- What a server answers. -/
structure Page where
  status : Nat := 200
  reason : Text := "OK"
  body : Text
  /-- Why the body cannot be decoded, if it cannot. -/
  complaint : Option Text := none
deriving Repr

namespace Page

/-- The address of a page that is named at `base`. -/
def address (base : Option Text) (url : Text) : Except Failure Text :=
  match base with
  | none => .ok url
  | some base => (Address.join base url).mapError .address

/-- The page under an address, unless the answer means failure. -/
def get (pages : Table Page) (url : Text) : Except FetchFault Page :=
  match Table.get? pages url with
  | none => .error (.unreachable url)
  | some page =>
    if 400 ≤ page.status && page.status < 600 then
      .error (.refused url page.status page.reason)
    else .ok page

/-- The text of a page. -/
def fetchText (pages : Table Page) (base : Option Text) (url : Text) : Except Failure Text := do
  let url ← address base url
  let page ← (get pages url).mapError Failure.fetch
  return page.body

/-- The JSON value that a page holds. -/
def json (url : Text) (page : Page) : Except FetchFault Json :=
  match page.complaint with
  | some complaint => .error (.undecodable url complaint)
  | none => (Json.readDocument page.body).mapError (.noJson url)

/-- The JSON value of a page. -/
def fetchJson (pages : Table Page) (base : Option Text) (url : Text) : Except Failure Json := do
  let url ← address base url
  ((get pages url).bind (json url)).mapError Failure.fetch

end Page

/-! ### Files -/

namespace File

/-- A path without the segments that lead nowhere. -/
def plainPath (path : Text) : Text :=
  let segments := (Text.splitAt '/' path).filter fun s => !s.isEmpty && s ≠ ['.']
  (if path.head? = some '/' then ['/'] else []) ++ Text.joinWith ['/'] segments

/-- The text of a file. -/
def read? (files : Table Text) (path : Text) : Option Text :=
  (Table.get? files (plainPath path)).map Text.unifyBreaks

/-- Whether a path leads to a directory, which is the one all paths start from or holds a file. -/
def isDirectory (files : Table Text) (path : Text) : Bool :=
  let directory := plainPath path
  !path.isEmpty
    && (directory.isEmpty || (Table.keys files).any (Text.startsWith (directory ++ ['/'])))

/-- Whether there is something under a path. -/
def isPresent (files : Table Text) (path : Text) : Bool :=
  (read? files path).isSome || isDirectory files path

end File

/-! ### Settings and documents -/

namespace Settings

/-- The settings that a file gives. -/
def load (files : Table Text) (path : Text) : Except Failure Settings :=
  match File.read? files path with
  | none =>
    if File.isDirectory files path then .error (.settings (.directory path))
    else .error (.settings (.noFile path))
  | some content =>
    match Json.readDocument content with
    | .error fault => .error (.settings (.noJson path fault))
    | .ok (.object given) => ofTable given
    | .ok _ => .error (.settings (.noObject path))

/-- The settings of a run: those of a file if there is one, and the defaults otherwise. -/
def loadOrDefault (files : Table Text) (path : Option Text) : Except Failure Settings :=
  match path with
  | none => .ok {}
  | some path => load files path

/-- Where a run finds its document: at the place it names, and otherwise at the usual one. -/
def sourceOf (s : Settings) (given : Option Text) : Text :=
  match given with
  | none | some [] => s.source
  | some place => place

end Settings

namespace Document

/-- The address that a document is fetched from, unless it is a file. -/
def remoteAddress? (settings : Settings) (files : Table Text) (source : Text) :
    Except Failure (Option Text) :=
  if !Address.isWeb source && File.isPresent files source then .ok none
  else (Page.address settings.baseUrl source).map some

/-- The document at a place: the page of a web address, or else a file, or else the page under the
base address. -/
def load (settings : Settings) (files : Table Text) (pages : Table Page) (given : Option Text) :
    Except Failure (Table Json) := do
  let source := settings.sourceOf given
  let v ← match if Address.isWeb source then none else File.read? files source with
    | some content => (Json.readDocument content).mapError Failure.file
    | none =>
      if !Address.isWeb source && File.isDirectory files source then throw .directory
      else Page.fetchJson pages settings.baseUrl source
  match v with
  | .object document => return document
  | _ => throw (.fetch (.noObject source))

end Document

end Ambient

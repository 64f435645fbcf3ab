import Ambient.Link.Host
import Ambient.Text.Utf8

/-!
# Addresses

A web address has a scheme, a host, a path with parameters, a query and a fragment.  An address that
leaves out its first parts takes them from a base address, and the segments `.` and `..` of its path
are resolved.

The query is a list of named values, in which a plus sign is a space and other characters may be
written by their bytes.
-/

namespace Ambient

/-- An address in its parts; a part that is missing is empty. -/
structure Address where
  scheme : Text
  host : Text
  path : Text
  parameters : Text := []
  query : Text
  fragment : Text
deriving DecidableEq, Repr

namespace Address

/-! ### Splitting -/

/-- Whether a character may stand in a scheme. -/
def isSchemeChar (c : Char) : Bool :=
  c.isAlphanum || c == '+' || c == '-' || c == '.'

/-- An address without what no address holds: controls and spaces at its start, tabs and line
breaks. -/
def cleaned (t : Text) : Text :=
  (t.dropWhile fun c => c.toNat ≤ 32).filter fun c => c ≠ '\t' && c ≠ '\r' && c ≠ '\n'

/-- The scheme of an address, if it has one, and the rest. -/
def scheme? (t : Text) : Option (Text × Text) :=
  match Text.cutAt ':' t with
  | (c :: scheme, some rest) =>
    if c.isAlpha && scheme.all isSchemeChar then some ((c :: scheme).map Char.toLower, rest) else none
  | _ => none

/-- The host of an address without its scheme, if it has one, and the rest. -/
def hostAndRest (t : Text) : Text × Text :=
  match t with
  | '/' :: '/' :: t =>
    let isEnd (c : Char) : Bool := c == '/' || c == '?' || c == '#'
    (t.takeWhile fun c => !isEnd c, t.dropWhile fun c => !isEnd c)
  | _ => ([], t)

/-- The parts of an address, its parameters still in its path. -/
def split (defaultScheme t : Text) : Except AddressFault Address :=
  let (scheme, t) := (scheme? (cleaned t)).getD (defaultScheme, cleaned t)
  let (host, t) := hostAndRest t
  let (t, fragment) := Text.cutAt '#' t
  let (path, query) := Text.cutAt '?' t
  match (Host.bracketsFault? host).or (Host.characterFault? host) with
  | some fault => .error fault
  | none =>
    .ok { scheme, host, path, query := query.getD [], fragment := fragment.getD [] }

/-- The schemes whose addresses have a host and may be relative. -/
def hostSchemes : List Text := [
  "", "ftp", "http", "gopher", "nntp", "imap", "wais", "file", "https", "shttp", "mms", "prospero",
  "rtsp", "rtsps", "rtspu", "sftp", "svn", "svn+ssh", "ws", "wss"]

/-- The schemes whose paths have parameters. -/
def parameterSchemes : List Text := [
  "", "ftp", "hdl", "prospero", "http", "imap", "https", "shttp", "rtsp", "rtsps", "rtspu", "sip",
  "sips", "mms", "sftp", "tel"]

/-- The last segment of a path behind the rest of it. -/
def lastSegment (path : Text) : Text × Text :=
  (Text.dropEndWhile (· ≠ '/') path, Text.takeEndWhile (· ≠ '/') path)

/-- The address with the parameters of its last segment apart. -/
def withParameters (a : Address) : Address :=
  if parameterSchemes.contains a.scheme then
    let (before, last) := lastSegment a.path
    let (last, parameters) := Text.cutAt ';' last
    { a with path := before ++ last, parameters := parameters.getD [] }
  else a

/-! ### Joining -/

/-- A part of an address behind its mark, if it is there. -/
def marked (mark : Char) (t : Text) : Text :=
  if t.isEmpty then [] else mark :: t

/-- The text of an address. -/
def text (a : Address) : Text :=
  let path := a.path ++ marked ';' a.parameters
  let hasHost := !a.host.isEmpty || Text.startsWith "//" path
    || (!a.scheme.isEmpty && hostSchemes.contains a.scheme)
  let path := if hasHost && !path.isEmpty && path.head? ≠ some '/' then '/' :: path else path
  (if a.scheme.isEmpty then [] else a.scheme ++ [':'])
    ++ (if hasHost then "//" ++ a.host else []) ++ path
    ++ marked '?' a.query ++ marked '#' a.fragment

/-- The segments of a path that is relative to a directory, without empty ones in between. -/
def relativeSegments (directory segments : List Text) : List Text :=
  let all := directory ++ segments
  match all with
  | [] => []
  | first :: rest =>
    first :: ((rest.dropLast.filter fun s => !s.isEmpty) ++ rest.getLast?.toList)

/-- Segments behind those already resolved, the last one first: a single dot is left out, and two
dots take the segment before them away. -/
def resolveOnto (done : List Text) : List Text → List Text
  | [] => done.reverse
  | s :: segments =>
    if s = ['.', '.'] then resolveOnto done.tail segments
    else if s = ['.'] then resolveOnto done segments
    else resolveOnto (s :: done) segments

/-- The path of some segments.  Behind dots at the end it is a directory. -/
def resolvedPath (segments : List Text) : Text :=
  let resolved := resolveOnto [] segments
  let isDirectory := match segments.getLast? with
    | some s => s = ['.'] || s = ['.', '.']
    | none => false
  let path := Text.joinWith ['/'] (if isDirectory then resolved ++ [[]] else resolved)
  if path.isEmpty then ['/'] else path

/-- The path `path` seen from the path `base`. -/
def joinedPath (base path : Text) : Text :=
  let segments := Text.splitAt '/' path
  if path.head? = some '/' then resolvedPath segments
  else
    let directory := Text.splitAt '/' base
    let directory :=
      if directory.getLast?.elim false (fun s => s.isEmpty) then directory else directory.dropLast
    resolvedPath (relativeSegments directory segments)

/-- The address that `t` means when it is found at `base`. -/
def join (base t : Text) : Except AddressFault Text :=
  if base.isEmpty then .ok t
  else if t.isEmpty then .ok base
  else do
    let b := (← split [] base).withParameters
    let a := (← split b.scheme t).withParameters
    if a.scheme ≠ b.scheme || !hostSchemes.contains a.scheme then return t
    if !a.host.isEmpty then return a.text
    if a.path.isEmpty && a.parameters.isEmpty then
      let query := if a.query.isEmpty then b.query else a.query
      return { a with host := b.host, path := b.path, parameters := b.parameters, query }.text
    return { a with host := b.host, path := joinedPath b.path a.path }.text

/-! ### Queries -/

/-- The bytes of text below 128; a percent sign with two hexadecimal digits writes one byte. -/
def unescapedBytes : Text → List Nat
  | [] => []
  | '%' :: c :: d :: t =>
    match Text.hexDigit? c, Text.hexDigit? d with
    | some m, some n => (16 * m + n) :: unescapedBytes t
    | _, _ => '%'.toNat :: unescapedBytes (c :: d :: t)
  | c :: t => c.toNat :: unescapedBytes t

/-- A value of a query as it is meant, when `run` holds the characters below 128 directly in front,
the last one first. -/
def unescapedFrom (run : Text) : Text → Text
  | [] => Utf8.decode (unescapedBytes run.reverse)
  | c :: t =>
    if c.toNat < 128 then unescapedFrom (c :: run) t
    else Utf8.decode (unescapedBytes run.reverse) ++ c :: unescapedFrom [] t

/-- A name or a value of a query as it is meant. -/
def unescaped (t : Text) : Text :=
  unescapedFrom [] (t.map fun c => if c = '+' then ' ' else c)

/-- The named values of a query, those without a value apart. -/
def queryValues (query : Text) : List (Text × Text) :=
  (Text.splitAt '&' query).filterMap fun field =>
    match Text.cutAt '=' field with
    | (name, some (c :: value)) => some (unescaped name, unescaped (c :: value))
    | _ => none

/-- The first value of a query under a name. -/
def queryValue (query name : Text) : Text :=
  ((queryValues query).lookup name).getD []

/-! ### Links of documents -/

/-- Whether an address is one of the web. -/
def isWeb (t : Text) : Bool :=
  Text.startsWith "http://" t || Text.startsWith "https://" t

/-- The web address of a page of the documentation, and of one method on it. -/
def docsPage (base bridge method : Text) : Text :=
  Text.dropEndWhile (· = '/') base ++ '/' :: bridge ++ '/' :: marked '#' method

/-- The web address of a link; a link into the documentation of the application names the page and
the method in its query, and any other link is a web address already. -/
def webAddress (base link : Text) : Except AddressFault Text :=
  if Text.startsWith "scriptable://docs" link then do
    let a ← split [] link
    return docsPage base (queryValue a.query "bridgeName") (queryValue a.query "methodName")
  else return link

/-- The web address of a link in a document; what says nothing stays as it is.  Without a base no
link into the documentation has a web address. -/
def webLink (base : Option Text) (link : Json) : Except Failure Json :=
  match link, base with
  | .text t, some base => ((webAddress base t).map Json.text).mapError Failure.address
  | .text t, none =>
    if Text.startsWith "scriptable://docs" t then .error .misplaced else .ok (.text t)
  | v, _ => if v.isPresent then .error .misplaced else .ok v

end Address

end Ambient

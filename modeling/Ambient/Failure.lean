import Ambient.Json.Reader
import Ambient.Symbol.Basic
import Ambient.Warning

/-!
# Failures

What stops a run.  Everything that does not is done in the best way there is, with a warning at most.

`Run` is a result or a failure, together with the warnings on the way to it.
-/

namespace Ambient

/-! ### Causes -/

/-- Why an announced sample gives no interface. -/
inductive SampleFault
  /-- No code follows. -/
  | noCode
  /-- The code that follows is no JSON. -/
  | noJson (fault : Json.Fault)
  /-- The sample has no object in it. -/
  | noObject

/-- The wording of a fault. -/
def SampleFault.message : SampleFault → Text
  | .noCode => "no code block follows"
  | .noJson fault => "the code block is not valid JSON (" ++ fault.message ++ ")"
  | .noObject => "the sample holds no JSON object"

/-- Why a global cannot be another name for something declared. -/
inductive AliasFault
  | noDeclaration (owner : Text)
  /-- The members of the owner cannot be declared on their own. -/
  | closedOwner (kind : SymbolKind)
  | noMember (owner member : Text)
  /-- The owner cannot be declared under another name. -/
  | fixedName (kind : SymbolKind)
  /-- The declaration of the owner has no line that names it. -/
  | noHeader

/-- The wording of a fault. -/
def AliasFault.message : AliasFault → Text
  | .noDeclaration owner => "no declaration named '" ++ owner ++ "'"
  | .closedOwner kind => "members of a " ++ kind.word ++ " cannot be extracted"
  | .noMember owner member => "'" ++ owner ++ "' has no member '" ++ member ++ "'"
  | .fixedName kind => "a " ++ kind.word ++ " cannot be declared under another name"
  | .noHeader => "the declaration has no header to rename"

/-- Why settings cannot be used. -/
inductive SettingsFault
  | unknownKeys (keys : List Text)
  | noFile (path : Text)
  /-- A directory is named instead of a file. -/
  | directory (path : Text)
  | noJson (path : Text) (fault : Json.Fault)
  /-- The file holds something else than an object. -/
  | noObject (path : Text)
  /-- A global says neither what it is nor what it is another name for. -/
  | emptyGlobal (name : Text)

/-- The wording of a fault. -/
def SettingsFault.message : SettingsFault → Text
  | .unknownKeys keys => "Unknown configuration keys: " ++ Text.joinWith ", " keys
  | .noFile path =>
    "Failed to read " ++ path ++ ": [Errno 2] No such file or directory: " ++ path.quoted
  | .directory path => "Failed to read " ++ path ++ ": [Errno 21] Is a directory: " ++ path.quoted
  | .noJson path fault => "Failed to read " ++ path ++ ": " ++ fault.message
  | .noObject path => path ++ " must contain a mapping at the root"
  | .emptyGlobal name => "Global '" ++ name ++ "' has neither 'aliasFor' nor 'definition'"

/-- Why a page or a document cannot be had. -/
inductive FetchFault
  | unreachable (url : Text)
  /-- The server answers with a status that means failure. -/
  | refused (url : Text) (status : Nat) (reason : Text)
  | noJson (url : Text) (fault : Json.Fault)
  /-- The answer cannot be decoded at all. -/
  | undecodable (url : Text) (complaint : Text)
  /-- The document is something else than an object. -/
  | noObject (source : Text)

/-- The wording of a fault. -/
def FetchFault.message : FetchFault → Text
  | .unreachable url => "Failed to fetch " ++ url ++ ": unreachable: " ++ url
  | .refused url status reason =>
    "Failed to fetch " ++ url ++ ": " ++ Text.ofNat status
      ++ (if status < 500 then " Client Error: " else " Server Error: ") ++ reason
      ++ " for url: " ++ url
  | .noJson url fault => "Failed to fetch " ++ url ++ ": " ++ fault.message
  | .undecodable url complaint => url ++ " did not return valid JSON: " ++ complaint
  | .noObject source => source ++ " does not hold a JSON object"

/-- Why an address has no parts. -/
inductive AddressFault
  /-- A bracket of the host has no counterpart. -/
  | unbalanced
  /-- The brackets of the host enclose no address. -/
  | noAddress (host : Text)
  /-- The brackets of the host enclose an address that has none. -/
  | bracketed
  /-- The brackets of the host enclose a malformed address of a later version. -/
  | badVersion
  /-- The host has a character that stands for a delimiter. -/
  | hiddenDelimiter (host : Text)

/-- The wording of a fault. -/
def AddressFault.message : AddressFault → Text
  | .unbalanced => "Invalid IPv6 URL"
  | .noAddress host => host.quoted ++ " does not appear to be an IPv4 or IPv6 address"
  | .bracketed => "An IPv4 address cannot be in brackets"
  | .badVersion => "IPvFuture address is invalid"
  | .hiddenDelimiter host =>
    "netloc '" ++ host ++ "' contains invalid characters under NFKC normalization"

/-! ### Failures -/

/-- What stops a run. -/
inductive Failure
  /-- An announced sample gives no interface. -/
  | sample (owner member : Text) (fault : SampleFault)
  /-- A global cannot be another name for its target. -/
  | aliasing (name target : Text) (fault : AliasFault)
  | settings (fault : SettingsFault)
  | fetch (fault : FetchFault)
  | address (fault : AddressFault)
  /-- Lines cannot be wrapped at this width. -/
  | width (n : Int)
  /-- A file holds no JSON. -/
  | file (fault : Json.Fault)
  /-- The document is a directory. -/
  | directory
  /-- A value of another kind stands where text or an object is needed. -/
  | misplaced
  /-- A value without items stands where items are needed. -/
  | unlisted
  /-- A value without members is looked into. -/
  | nameless
  /-- What has no signature is declared as a function. -/
  | noSignature

/-- The wording of a failure; a value of the wrong kind has none. -/
def Failure.message? : Failure → Option Text
  | .sample owner member fault =>
    some (owner ++ "." ++ member
      ++ ": documentation announces a sample on the following form, but " ++ fault.message)
  | .aliasing name target fault =>
    some ("Cannot alias '" ++ name ++ "' to '" ++ target ++ "': " ++ fault.message)
  | .settings fault => some fault.message
  | .fetch fault => some fault.message
  | .address fault => some fault.message
  | .width n => some ("invalid width " ++ Text.ofInt n ++ " (must be > 0)")
  | .file fault => some fault.message
  | .directory | .misplaced | .unlisted | .nameless | .noSignature => none

/-! ### Runs -/

/-- A result or a failure, and the warnings on the way to it. -/
abbrev Run (α : Type) := ExceptT Failure Logged α

namespace Run

/-- One warning. -/
def warn (w : Warning) : Run Unit :=
  ExceptT.lift (Logged.warn w)

/-- A result with its warnings. -/
def ofLogged {α : Type} (x : Logged α) : Run α :=
  ExceptT.lift x

end Run

end Ambient

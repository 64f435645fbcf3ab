import Ambient.Comment
import Ambient.Markdown.Basic
import Ambient.Prose.Block
import Ambient.Prose.CodeSpan
import Ambient.Prose.Phrase
import Ambient.Prose.Wrap
import Ambient.Settings
import Ambient.Synthesis.Enumeration

/-!
# Descriptions

The documentation of an entry becomes a comment.  On the way it changes the signature of the entry:
values that a list spells out stand in the place of a text, the interface of an announced sample in
the place of a map or an unknown type, and documented parameters at the end of the list may be left
out.
-/

namespace Ambient

namespace Signature

/-! ### What documentation does to a signature -/

/-- A method as a property whose value is a function. -/
def asProperty (s : Signature) : Signature :=
  match s.form, s.type with
  | some .method, .function params returns _ =>
    { s with
      form := some .property
      type := .function params (some (returns.getD (.atom "void"))) true }
  | _, _ => s

/-- Whether a parameter has one of the given names. -/
def isAmong (names : List Text) (p : TypeParam) : Bool :=
  p.name.elim false names.contains

/-- Parameters with those of the given names optional that no required one follows, and whether all
of them are optional then. -/
def markParams (entry : Text) (names : List Text) : List TypeParam → Logged (List TypeParam × Bool)
  | [] => pure ([], true)
  | p :: ps => do
    let (ps, trailing) ← markParams entry names ps
    if isAmong names p then
      if trailing then return ({ p with optional := true } :: ps, true)
      else
        Logged.warn (.optionalBeforeRequired entry (p.name.getD []))
        return (p :: ps, false)
    else return (p :: ps, trailing && p.optional)

/-- The names that are documented as optional. -/
def optionalNames (docs : List ParameterDoc) : List Text :=
  (docs.filter fun d => Prose.saysOptional d.doc).map (·.name)

/-- The signature of an entry with its documented optional parameters marked. -/
def markOptional (s : Signature) (entry : Text) (docs : List ParameterDoc) : Logged Signature :=
  match s.type with
  | .function params returns arrow => do
    if (optionalNames docs).isEmpty then return s
    let (params, _) ← markParams entry (optionalNames docs) params
    return { s with type := .function params returns arrow }
  | _ => pure s

end Signature

/-- Documentation as it is declared. -/
structure Description where
  comment : Text
  signature : Option Signature
  interface : Option Interface
  enumValues : List Text
deriving Repr

namespace Description

open Prose (Block)

/-! ### Blocks -/

/-- The blocks of a summary and a body.  The summary is emphasised if there is a body, hidden
addresses are shown, and code spans outside code are widened. -/
def blocks (shortDoc longDoc : Text) : List Block :=
  let summary := Markdown.inline shortDoc
  let body := Markdown.ofHtml longDoc
  let text :=
    if summary.isEmpty || body.isEmpty then summary ++ body
    else '_' :: summary ++ "_\n\n" ++ body
  (Block.split (Prose.showAddresses text)).map fun b =>
    if b.isCode then b else { b with text := Prose.widenSpans b.text }

/-- The values that the only list of the blocks spells out. -/
def listedValues (blocks : List Block) : List Text :=
  match Prose.bulletLists blocks with
  | [items] => (Prose.enumValues? items).getD []
  | _ => []

/-- The text of the blocks that are no code. -/
def proseText (blocks : List Block) : Text :=
  Text.unlines ((blocks.filter fun b => !b.isCode).map Block.text)

/-- The interface of a sample in code. -/
def interfaceOfCode (owner entry code prose : Text) : Run Interface :=
  match Json.read code with
  | .error fault => throw (.sample owner entry (.noJson fault))
  | .ok sample =>
    match sample.sampleObject? with
    | none => throw (.sample owner entry .noObject)
    | some object => Run.ofLogged (Interface.infer entry object prose)

/-- The interface of the sample that is announced, if one is. -/
def announcedInterface (owner entry : Text) (blocks : List Block) : Run (Option Interface) :=
  match blocks.dropWhile fun b => b.isCode || !Prose.announcesSample b.text with
  | [] => return none
  | [_] => throw (.sample owner entry .noCode)
  | _ :: next :: _ =>
    if next.isCode then return some (← interfaceOfCode owner entry next.code (proseText blocks))
    else throw (.sample owner entry .noCode)

/-! ### Lines -/

/-- A line wrapped at a width. -/
def wrapLine (width : Int) (line : Text) : Except Failure (List Text) :=
  match Prose.softWrap? width line with
  | some lines => .ok lines
  | none => .error (.width width)

/-- Lines wrapped at a width. -/
def wrapLines (width : Int) (lines : List Text) : Except Failure (List Text) :=
  return (← lines.mapM (wrapLine width)).flatten

/-- The lines of a block that is no code behind `lead`. -/
def blockLines (width : Int) (lead : Text) (b : Block) : Except Failure (List Text) :=
  if b.isCode then return b.text.lines
  else wrapLines width (lead ++ b.text).lines

/-- Whether a block says that something is deprecated. -/
def isDeprecation (b : Block) : Bool :=
  !b.isCode && Prose.saysDeprecated b.text

/-- The lines of the blocks, those about deprecation last, with an empty line between two blocks. -/
def bodyLines (width : Int) (blocks : List Block) : Except Failure (List Text) := do
  let prose ← (blocks.filter fun b => !isDeprecation b).mapM (blockLines width [])
  let deprecations ← (blocks.filter isDeprecation).mapM (blockLines width "@deprecated ")
  return separated (prose ++ deprecations)
where
  /-- The lines of several groups with an empty line in front of each one but the first. -/
  separated : List (List Text) → List Text
    | [] => []
    | [g] => g
    | g :: gs => g ++ [] :: separated gs

/-- The line about a parameter. -/
def parameterTag (params : List TypeParam) (d : ParameterDoc) : Text :=
  let type : Text :=
    match params.reverse.find? fun p => p.name = some d.name with
    | some p => p.type.render
    | none => "any"
  Text.trimEnd ("@param " ++ '{' :: type ++ '}' :: ' ' :: d.name ++ " - " ++ Markdown.inline d.doc)

/-- The line about what is returned. -/
def returnsTag (type : TypeExpr) (doc : Text) : Text :=
  Text.trimEnd ("@returns " ++ '{' :: type.render ++ '}' :: ' ' :: Markdown.inline doc)

/-- The lines about the parameters and the result of a signature. -/
def signatureTags (e : Entry) (s : Signature) : List Text :=
  match s.type with
  | .function params returns _ =>
    e.parameters.map (parameterTag params) ++
      (match returns with
        | some type =>
          if s.form = some .constructor || type.isNamed "void" then []
          else [returnsTag type e.returnsDoc]
        | none => [])
  | _ => []

/-- The lines behind the documentation proper. -/
def tags (e : Entry) (s : Option Signature) (withSignature : Bool) : List Text :=
  (if withSignature then s.elim [] (signatureTags e) else [])
    ++ (if e.url.isPresent then ["@see " ++ e.url.display] else [])

/-! ### The description of an entry -/

/-- The documentation of an entry in short without the mark of a property whose value is a function,
and whether it has that mark. -/
def unmarkedDoc (marker : Option Text) (shortDoc : Text) : Text × Bool :=
  match marker with
  | none | some [] => (shortDoc.trim, false)
  | some marker =>
    match Text.after? marker shortDoc.trim with
    | some rest => (rest.trimStart, true)
    | none => (shortDoc.trim, false)

/-- A signature as the documentation of its entry makes it, and the interface of its sample. -/
def revise (settings : Settings) (owner : Text) (e : Entry) (blocks : List Block)
    (values : List Text) (withSample : Bool) (s : Signature) : Run (Signature × Option Interface) := do
  let (_, isMarked) := unmarkedDoc settings.functionMarker e.shortDoc
  let s := if isMarked then s.asProperty else s
  let s ← Run.ofLogged (s.applyEnum values)
  let interface ← if withSample then announcedInterface owner e.name blocks else pure none
  let s ← match interface with
    | some i => Run.ofLogged (s.applyInterface owner i)
    | none => pure s
  let s ← Run.ofLogged (s.expandMaps.markOptional e.name e.parameters)
  return (s, interface)

/-- The description of an entry of `owner`. -/
def ofEntry (settings : Settings) (owner : Text) (e : Entry) (withSample withSignature : Bool) :
    Run Description := do
  let (shortDoc, _) := unmarkedDoc settings.functionMarker e.shortDoc
  let blocks := blocks shortDoc e.longDoc
  let values := if e.enumValues.isEmpty then listedValues blocks else e.enumValues
  let (signature, interface) ← match e.signature with
    | none => pure (none, none)
    | some s => do
      let (s, interface) ← revise settings owner e blocks values withSample s
      pure (some s, interface)
  let body ← ExceptT.mk (pure (bodyLines settings.wrapColumn blocks))
  let tags ← ExceptT.mk (pure (wrapLines settings.wrapColumn (tags e signature withSignature)))
  return { comment := Comment.ofLines (body ++ tags), signature, interface, enumValues := values }

end Description

end Ambient

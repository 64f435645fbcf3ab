import Ambient.Declaration.Emission
import Ambient.Declaration.Global
import Ambient.Symbol.Document

/-!
# The declaration file

A run declares the symbols of a document and the globals, and puts the texts together behind a
header.  Beside the text it gives the names for a linter, each of them once.
-/

namespace Ambient

/-! ### Text -/

/-- The text of a declaration file: the header and the texts that say something, two empty lines
between two of them. -/
def assemble (header : Text) (texts : List Text) : Text :=
  let said := texts.filter fun t => !t.blank
  let body := Text.joinWith "\n\n\n" (said.map fun t => Text.trimBy (· = '\n') t)
  let header := Text.dropEndWhile (· = '\n') header
  (if header.isEmpty then body else header ++ "\n\n" ++ body) ++ ['\n']

/-- The names that a linter has to know, each once: those declared, then those reserved. -/
def lintNames (names reserved : List Text) : List Text :=
  (names ++ reserved).eraseDups

/-- The configuration of a linter: every name is a global that is only read. -/
def lintConfiguration (names reserved : List Text) : Json :=
  .object [("globals", .object ((lintNames names reserved).map fun n => (n, .text "readonly")))]

/-! ### Runs -/

/-- What a run gives. -/
structure Output where
  text : Text
  symbols : Table Symbol
  declarations : List Declaration
  globals : List Declaration

namespace Output

/-- The declared names, in order. -/
def names (o : Output) : List Text :=
  (o.declarations ++ o.globals).map (·.name)

/-- The output of declarations and globals. -/
def ofDeclarations (settings : Settings) (symbols : Table Symbol)
    (declarations globals : List Declaration) : Output :=
  { text := assemble settings.header ((declarations ++ globals).map (·.text))
    symbols, declarations, globals }

/-- Declares everything in a document. -/
def ofDocument (settings : Settings) (document : Table Json) : Run Output := do
  let symbols ← Document.symbols settings document none
  let (declarations, symbols) ← Run.ofLogged (Declaration.ofSymbols settings symbols)
  let declarations ← ExceptT.mk (pure declarations)
  let globals ← ExceptT.mk (pure (Declaration.ofGlobals declarations settings.globals))
  return ofDeclarations settings symbols declarations globals

end Output

end Ambient

import Ambient.Text.Blank
import Ambient.Text.Fold
import Ambient.Text.Word

/-!
# Phrases

A few phrases of documentation carry a meaning: a parameter that may be left out, a sample that is
about to follow, a deprecation.  The address of a mailbox that a web page hides is shown as an
address again.
-/

namespace Ambient

namespace Text

/-- Whether the phrase `piece`, given in small letters, occurs in any case with a boundary on either
side, when `before` is the character in front of the text. -/
def hasFolded (piece : Text) (before : Option Char) : Text → Bool
  | [] => false
  | c :: t =>
    (match afterFolded? piece (c :: t) with
      | some rest => atBoundary before (c :: t) && !rest.head?.elim false isWord
      | none => false)
    || hasFolded piece (some c) t

end Text

namespace Prose

/-- Whether the documentation of a parameter says that it may be left out. -/
def saysOptional (doc : Text) : Bool :=
  Text.startsWith "Optional" doc.trim || Text.hasFolded "defaults to" none doc.trim

/-- Whether a paragraph announces a sample. -/
def announcesSample (t : Text) : Bool :=
  Text.has "on the following form:" t

/-- Whether a paragraph says that something is deprecated. -/
def saysDeprecated (t : Text) : Bool :=
  Text.has "Deprecated in version" t || Text.has "DeprecatedVersion " t

/-! ### Hidden addresses -/

/-- What follows a hidden address at the start of the text. -/
def afterHiddenAddress? (t : Text) : Option Text :=
  (Text.after? "[email" t).bind fun rest => Text.after? "protected]" rest.trimStart

/-- The text with an address in the place of every hidden one; the first `skip` characters belong to
one that is shown already. -/
def showAddressesFrom (skip : Nat) : Text → Text
  | [] => []
  | c :: t =>
    match skip with
    | n + 1 => showAddressesFrom n t
    | 0 =>
      match afterHiddenAddress? (c :: t) with
      | some rest => "my@example.com" ++ showAddressesFrom (t.length - rest.length) t
      | none => c :: showAddressesFrom 0 t

/-- The text with an address in the place of every hidden one. -/
def showAddresses (t : Text) : Text :=
  showAddressesFrom 0 t

end Prose

end Ambient

import Ambient.Text.Blank
import Ambient.Text.Quoted
import Ambient.Text.Word

/-!
# Tokens of type expressions

A type text is a sequence of tokens with white space between them: the two arrows, texts between
quotation marks or apostrophes, names, and single marks.  A name starts with an ASCII letter, a
digit, an underscore or a dollar sign, goes on with word characters of any script and dollar signs,
and may have further names after dots, which start with no digit.
-/

namespace Ambient

/-! ### Faults -/

/-- Why a text is no type expression. -/
inductive SyntaxFault
  /-- No token starts with this character. -/
  | unexpectedCharacter (character : Text)
  /-- The text ends where a token is needed. -/
  | unexpectedEnd
  /-- One token stands where another is needed. -/
  | expected (wanted found : Text)
  /-- A list of parameters goes on with neither a comma nor its closing mark. -/
  | expectedSeparator (close found : Text)
  /-- An instance mark stands before something other than a name. -/
  | expectedName
  /-- No type starts with this token. -/
  | unexpectedToken (found : Text)
  /-- A complete type has this token after it. -/
  | trailing (found : Text)
deriving DecidableEq, Repr

/-- The wording of a fault. -/
def SyntaxFault.message : SyntaxFault → Text
  | .unexpectedCharacter c => "Unexpected character " ++ c.quoted
  | .unexpectedEnd => "Unexpected end of type expression"
  | .expected wanted found => "Expected " ++ wanted.quoted ++ ", found " ++ found.quoted
  | .expectedSeparator close found =>
    "Expected ',' or " ++ close.quoted ++ ", found " ++ found.quoted
  | .expectedName => "Expected a name after '+'"
  | .unexpectedToken found => "Unexpected token " ++ found.quoted
  | .trailing found => "Trailing input at " ++ found.quoted

/-! ### Tokens -/

/-- The kinds of token. -/
inductive TokenKind
  | arrow
  | text
  | name
  | mark
deriving DecidableEq, Repr

/-- A token: its kind and its characters, quotation marks included. -/
structure Token where
  kind : TokenKind
  text : Text
deriving DecidableEq, Repr

/-- A character that may start a name, digits apart. -/
def isNameStart (c : Char) : Bool :=
  c.isAlpha || c == '_' || c == '$'

/-- A character that may stand inside a name. -/
def isNameRest (c : Char) : Bool :=
  isWord c || c == '$'

/-- The marks. -/
def marks : Text :=
  "()[]\x7b\x7d<>,:|?+=."

namespace Token

/-- The further names after dots at the start of `cs`, with their dots, and the rest. -/
def dottedNames (cs : Text) : Text × Text :=
  match cs with
  | '.' :: c :: ds =>
    if isNameStart c then
      have : (ds.dropWhile isNameRest).length ≤ ds.length :=
        (List.dropWhile_suffix isNameRest).length_le
      let more := dottedNames (ds.dropWhile isNameRest)
      ('.' :: c :: ds.takeWhile isNameRest ++ more.1, more.2)
    else ([], cs)
  | cs => ([], cs)
termination_by cs.length
decreasing_by
  simp only [List.length_cons]
  omega

/-- The token that starts with the character `c` in front of `cs`, and the rest. -/
def first? (c : Char) (cs : Text) : Option (Token × Text) :=
  if (c = '-' || c = '=') && cs.head? = some '>' then
    some (⟨.arrow, [c, '>']⟩, cs.drop 1)
  else if c = '"' || c = '\'' then
    match Text.cutAt c cs with
    | (_, none) => none
    | (inner, some rest) => some (⟨.text, c :: inner ++ [c]⟩, rest)
  else if isNameStart c || c.isDigit then
    let more := dottedNames (cs.dropWhile isNameRest)
    some (⟨.name, c :: cs.takeWhile isNameRest ++ more.1⟩, more.2)
  else if marks.contains c then some (⟨.mark, [c]⟩, cs)
  else none

/-- Further names leave no more than there was. -/
theorem length_dottedNames_le (cs : Text) : (dottedNames cs).2.length ≤ cs.length := by
  fun_induction dottedNames cs with
  | case1 c ds _ hr more ih =>
    simp only [more, List.length_cons] at ih ⊢
    omega
  | case2 => simp
  | case3 => simp

/-- What stands behind a cut is no longer than the text. -/
theorem length_cutAt_le {c : Char} {cs inner rest : Text}
    (h : Text.cutAt c cs = (inner, some rest)) : rest.length ≤ cs.length := by
  unfold Text.cutAt at h
  have hs := (List.dropWhile_suffix (· ≠ c) (l := cs)).length_le
  split at h
  · simp at h
  · next d ds hd =>
    simp only [Prod.mk.injEq, Option.some.injEq] at h
    rw [hd, List.length_cons] at hs
    rw [← h.2]
    omega

/-- The first token takes its first character at least. -/
theorem length_le_of_first? {c : Char} {cs rest : Text} {token : Token}
    (h : first? c cs = some (token, rest)) : rest.length ≤ cs.length := by
  unfold first? at h
  split at h
  · obtain ⟨-, rfl⟩ := Prod.mk.inj (Option.some.inj h)
    simp
  · split at h
    · split at h
      · simp at h
      · next inner r hr =>
        obtain ⟨-, rfl⟩ := Prod.mk.inj (Option.some.inj h)
        exact length_cutAt_le hr
    · split at h
      · obtain ⟨-, rfl⟩ := Prod.mk.inj (Option.some.inj h)
        have := (List.dropWhile_suffix isNameRest (l := cs)).length_le
        have := length_dottedNames_le (cs.dropWhile isNameRest)
        omega
      · split at h
        · obtain ⟨-, rfl⟩ := Prod.mk.inj (Option.some.inj h)
          exact Nat.le_refl _
        · simp at h

/-- The tokens of a text without white space at its end. -/
def scan (cs : Text) : Except SyntaxFault (List Token) :=
  match h : cs.dropWhile isBlank with
  | [] => .ok []
  | c :: ds =>
    match ht : first? c ds with
    | none => .error (.unexpectedCharacter [c])
    | some (token, rest) =>
      have : rest.length < cs.length := by
        have h₁ := (List.dropWhile_suffix isBlank (l := cs)).length_le
        have h₂ := length_le_of_first? ht
        rw [h, List.length_cons] at h₁
        omega
      match scan rest with
      | .error e => .error e
      | .ok tokens => .ok (token :: tokens)
termination_by cs.length

/-- The tokens of a text. -/
def tokens (t : Text) : Except SyntaxFault (List Token) :=
  scan t.trimEnd

end Token

end Ambient

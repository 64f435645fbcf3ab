import Ambient.Json.Value

/-!
# Reading JSON

Every reading function takes the text that is left and answers a value with the text after it,
which is shorter; that is what makes the recursion end.  A fault carries its cause and how much text
was left where it arose, so that its place in the whole text can be told at the end.

The language is that of JSON with three more words for numbers (`NaN`, `Infinity` and `-Infinity`).
Space, tab, line feed and carriage return separate.  In a text between quotation marks every
character below 32 is refused.  Two escapes that write the two units of a character are read as that
character, and the escape of a unit that stands alone is read as that half of a pair.
-/

namespace Ambient

namespace Json

/-! ### Faults -/

/-- Why a text is no JSON value. -/
inductive FaultCause
  | noValue
  | noPropertyName
  | noColon
  | noComma
  | unclosedText
  | controlCharacter
  | badEscape
  | badUnitEscape
  | extraText
  | byteOrderMark
deriving DecidableEq, Repr

/-- The wording of a cause. -/
def FaultCause.message : FaultCause → Text
  | .noValue => "Expecting value"
  | .noPropertyName => "Expecting property name enclosed in double quotes"
  | .noColon => "Expecting ':' delimiter"
  | .noComma => "Expecting ',' delimiter"
  | .unclosedText => "Unterminated string starting at"
  | .controlCharacter => "Invalid control character at"
  | .badEscape => "Invalid \\escape"
  | .badUnitEscape => "Invalid \\uXXXX escape"
  | .extraText => "Extra data"
  | .byteOrderMark => "Unexpected UTF-8 BOM (decode using utf-8-sig)"

/-- A cause and the length of the text left where it arose. -/
structure Stop where
  cause : FaultCause
  left : Nat
deriving DecidableEq, Repr

/-- A cause and the number of characters in front of the place where it arose, with the line and the
column of that place, both counted from one. -/
structure Fault where
  cause : FaultCause
  line : Nat
  column : Nat
  position : Nat
deriving DecidableEq, Repr

/-- The wording of a fault. -/
def Fault.message (f : Fault) : Text :=
  f.cause.message ++ ": line " ++ Text.ofNat f.line ++ " column " ++ Text.ofNat f.column
    ++ " (char " ++ Text.ofNat f.position ++ ")"

/-- The fault of a stop in `t`. -/
def Stop.toFault (t : Text) (s : Stop) : Fault :=
  let before := t.take (t.length - s.left)
  { cause := s.cause
    line := before.count '\n' + 1
    column := (Text.takeEndWhile (· ≠ '\n') before).length + 1
    position := before.length }

/-- What is read of `cs`: a value and the rest, which is shorter. -/
abbrev Reading (α : Type) (cs : Text) := Except Stop (α × { rest : Text // rest.length < cs.length })

/-! ### Separators -/

/-- The characters that separate. -/
def isSeparator (c : Char) : Bool :=
  c == ' ' || c == '\t' || c == '\n' || c == '\r'

/-- The text without separators at its start. -/
def skip (cs : Text) : Text :=
  cs.dropWhile isSeparator

/-- Skipping separators leaves no more than there was. -/
theorem length_skip_le (cs : Text) : (skip cs).length ≤ cs.length :=
  (List.dropWhile_suffix isSeparator).length_le

/-- What follows the mark `c` when it is the first character that does not separate. -/
def expect? (c : Char) (cs : Text) : Option { rest : Text // rest.length < cs.length } :=
  match h : skip cs with
  | [] => none
  | d :: rest =>
    if d = c then
      some ⟨rest, by
        have := length_skip_le cs
        rw [h, List.length_cons] at this
        omega⟩
    else none

/-! ### Texts -/

/-- The character of a one-letter escape. -/
def escaped? : Char → Option Char
  | '"' => some '"'
  | '\\' => some '\\'
  | '/' => some '/'
  | 'b' => some '\x08'
  | 'f' => some '\x0c'
  | 'n' => some '\n'
  | 'r' => some '\r'
  | 't' => some '\t'
  | _ => none

/-- The unit that four hexadecimal digits write, if there are four and further text follows. -/
def unit? : Text → Option (Nat × Text)
  | a :: b :: c :: d :: e :: rest => (Text.hexValue? [a, b, c, d]).map fun n => (n, e :: rest)
  | _ => none

/-- A unit takes something of the text. -/
theorem length_of_unit? {cs rest : Text} {n : Nat} (h : unit? cs = some (n, rest)) :
    rest.length < cs.length := by
  unfold unit? at h
  split at h
  · next a b c d e r =>
    obtain ⟨m, -, hm⟩ := Option.map_eq_some_iff.1 h
    obtain ⟨-, rfl⟩ : m = n ∧ e :: r = rest := by simpa using hm
    simp only [List.length_cons]
    omega
  · simp at h

/-- The second unit of a pair, which must follow as an escape of its own with further text behind
it: `none` if no escape follows and the unit stands alone. -/
def secondUnit? : Text → Option (Except Stop (Nat × Text))
  | '\\' :: 'u' :: cs =>
    if cs.length < 5 then none
    else
      match unit? cs with
      | some found => some (.ok found)
      | none => some (.error ⟨.badUnitEscape, cs.length + 1⟩)
  | _ => none

/-- Whether a unit is the first of a pair. -/
def isHighUnit (n : Nat) : Bool :=
  0xD800 ≤ n && n ≤ 0xDBFF

/-- Whether a unit is the second of a pair. -/
def isLowUnit (n : Nat) : Bool :=
  0xDC00 ≤ n && n ≤ 0xDFFF

/-- The character of a pair of units. -/
def pairChar (high low : Nat) : Char :=
  Char.ofNat (0x10000 + (high - 0xD800) * 0x400 + (low - 0xDC00))

/-- A second unit takes something of the text. -/
theorem length_of_secondUnit? {cs rest : Text} {n : Nat}
    (h : secondUnit? cs = some (.ok (n, rest))) : rest.length < cs.length := by
  unfold secondUnit? at h
  split at h
  · next ds =>
    split at h
    · simp at h
    · split at h
      · next found hf =>
        obtain rfl : found = (n, rest) := by simpa using h
        have := length_of_unit? hf
        simp only [List.length_cons]
        omega
      · simp at h
  · simp at h

/-- The point of an escape whose four digits begin `cs`: the character of a pair where a second unit
follows, and otherwise the point of the unit itself. -/
def unitEscape? (cs : Text) : Reading Point cs :=
  match h : unit? cs with
  | none => .error ⟨.badUnitEscape, cs.length + 1⟩
  | some (high, rest) =>
    have hr : rest.length < cs.length := length_of_unit? h
    if isHighUnit high then
      match h₂ : secondUnit? rest with
      | some (.error stop) => .error stop
      | some (.ok (low, rest₂)) =>
        have hr₂ : rest₂.length < rest.length := length_of_secondUnit? h₂
        if isLowUnit low then .ok (.char (pairChar high low), ⟨rest₂, by omega⟩)
        else .ok (Point.ofCode high, ⟨rest, hr⟩)
      | none => .ok (Point.ofCode high, ⟨rest, hr⟩)
    else .ok (Point.ofCode high, ⟨rest, hr⟩)

/-- The rest of a text between quotation marks, up to and with the closing mark.  `opened` is the
length of the text that began with the opening mark. -/
def textBody (opened : Nat) (cs : Text) : Reading Points cs :=
  match cs with
  | [] => .error ⟨.unclosedText, opened⟩
  | '"' :: rest => .ok ([], ⟨rest, by simp⟩)
  | '\\' :: [] => .error ⟨.unclosedText, opened⟩
  | '\\' :: 'u' :: ds =>
    match unitEscape? ds with
    | .error stop => .error stop
    | .ok (p, ⟨rest, hr⟩) =>
      match textBody opened rest with
      | .error stop => .error stop
      | .ok (t, ⟨rest₂, hr₂⟩) => .ok (p :: t, ⟨rest₂, by simp only [List.length_cons]; omega⟩)
  | '\\' :: d :: ds =>
    match escaped? d with
    | none => .error ⟨.badEscape, ds.length + 2⟩
    | some c =>
      match textBody opened ds with
      | .error stop => .error stop
      | .ok (t, ⟨rest, hr⟩) => .ok (.char c :: t, ⟨rest, by simp only [List.length_cons]; omega⟩)
  | c :: ds =>
    if c.toNat < 32 then .error ⟨.controlCharacter, ds.length + 1⟩
    else
      match textBody opened ds with
      | .error stop => .error stop
      | .ok (t, ⟨rest, hr⟩) => .ok (.char c :: t, ⟨rest, by simp only [List.length_cons]; omega⟩)
termination_by cs.length
decreasing_by
  all_goals simp only [List.length_cons]; omega

/-! ### Numbers -/

/-- The digits at the start of a text, and the rest. -/
def digits (cs : Text) : Text × Text :=
  (cs.takeWhile Char.isDigit, cs.dropWhile Char.isDigit)

/-- The digits of a whole number: a zero alone, or digits that begin with none. -/
def wholeDigits? : Text → Option (Text × Text)
  | '0' :: cs => some (['0'], cs)
  | c :: cs => if c.isDigit then some (c :: (digits cs).1, (digits cs).2) else none
  | [] => none

/-- The digits after a point, if there is a point with a digit behind it. -/
def fraction? : Text → Option (Text × Text)
  | '.' :: cs => if (digits cs).1.isEmpty then none else some (digits cs)
  | _ => none

/-- The sign at the start of a text, minus being true. -/
def sign : Text → Bool × Text
  | '-' :: cs => (true, cs)
  | '+' :: cs => (false, cs)
  | cs => (false, cs)

/-- The power of ten after its mark, if the mark has a digit behind it. -/
def power? : Text → Option (Int × Text)
  | c :: cs =>
    if c = 'e' || c = 'E' then
      let (negative, cs) := sign cs
      let (ds, rest) := digits cs
      if ds.isEmpty then none
      else
        let n : Int := Text.digitsValue ds
        some (if negative then -n else n, rest)
    else none
  | [] => none

/-- A number without its sign, and the rest. -/
def unsigned? (negative : Bool) (cs : Text) : Option (Number × Text) := do
  let (whole, rest) ← wholeDigits? cs
  let (tenths, rest) := (fraction? rest).elim ([], rest) id
  let power := power? rest
  let rest := power.elim rest Prod.snd
  if tenths.isEmpty && power.isNone then
    let n : Int := Text.digitsValue whole
    return (.whole (if negative then -n else n), rest)
  else
    let e := power.elim 0 Prod.fst - tenths.length
    return (.real (Double.ofDecimal negative (Text.digitsValue (whole ++ tenths)) e), rest)

/-- The words that are values, with what they stand for. -/
def words : List (Text × Json Points) := [
  ("null", .null), ("true", .bool true), ("false", .bool false),
  ("NaN", .number (.real .undefined)),
  ("Infinity", .number (.real (.infinite false))),
  ("-Infinity", .number (.real (.infinite true)))]

/-- The word at the start of a text, and the rest. -/
def word? (cs : Text) : Option (Json Points × Text) :=
  words.findSome? fun entry => (Text.after? entry.1 cs).map fun rest => (entry.2, rest)

/-- A word or a number at the start of a text. -/
def scalar (cs : Text) : Reading (Json Points) cs :=
  let found :=
    (word? cs).or <|
      match cs with
      | '-' :: ds => (unsigned? true ds).map fun x => (.number x.1, x.2)
      | ds => (unsigned? false ds).map fun x => (.number x.1, x.2)
  match found with
  | some (v, rest) =>
    if h : rest.length < cs.length then .ok (v, ⟨rest, h⟩) else .error ⟨.noValue, cs.length⟩
  | none => .error ⟨.noValue, cs.length⟩

/-! ### Values -/

mutual

/-- A value at the start of a text. -/
def value (cs : Text) : Reading (Json Points) cs :=
  match cs with
  | '"' :: ds =>
    match textBody (ds.length + 1) ds with
    | .error stop => .error stop
    | .ok (t, ⟨rest, h⟩) => .ok (.text t, ⟨rest, by simp only [List.length_cons]; omega⟩)
  | '{' :: ds =>
    match expect? '}' ds with
    | some ⟨rest, h⟩ => .ok (.object [], ⟨rest, by simp only [List.length_cons]; omega⟩)
    | none =>
      have hs := length_skip_le ds
      match members (skip ds) with
      | .error stop => .error stop
      | .ok (ms, ⟨rest, h⟩) =>
        .ok (.object (Table.ofPairs ms), ⟨rest, by simp only [List.length_cons]; omega⟩)
  | '[' :: ds =>
    match expect? ']' ds with
    | some ⟨rest, h⟩ => .ok (.list [], ⟨rest, by simp only [List.length_cons]; omega⟩)
    | none =>
      have hs := length_skip_le ds
      match items (skip ds) with
      | .error stop => .error stop
      | .ok (vs, ⟨rest, h⟩) => .ok (.list vs, ⟨rest, by simp only [List.length_cons]; omega⟩)
  | cs => scalar cs
termination_by 2 * cs.length
decreasing_by
  all_goals simp only [List.length_cons]; omega

/-- The members of an object, up to and with the closing brace. -/
def members (cs : Text) : Reading (List (Points × Json Points)) cs :=
  match cs with
  | '"' :: ds =>
    match textBody (ds.length + 1) ds with
    | .error stop => .error stop
    | .ok (key, ⟨afterKey, h₁⟩) =>
      match expect? ':' afterKey with
      | none => .error ⟨.noColon, (skip afterKey).length⟩
      | some ⟨afterColon, h₂⟩ =>
        have h₃ := length_skip_le afterColon
        match value (skip afterColon) with
        | .error stop => .error stop
        | .ok (v, ⟨afterValue, h₄⟩) =>
          match expect? '}' afterValue with
          | some ⟨rest, h₅⟩ => .ok ([(key, v)], ⟨rest, by simp only [List.length_cons]; omega⟩)
          | none =>
            match expect? ',' afterValue with
            | none => .error ⟨.noComma, (skip afterValue).length⟩
            | some ⟨afterComma, h₅⟩ =>
              have h₆ := length_skip_le afterComma
              match members (skip afterComma) with
              | .error stop => .error stop
              | .ok (ms, ⟨rest, h₇⟩) =>
                .ok ((key, v) :: ms, ⟨rest, by simp only [List.length_cons]; omega⟩)
  | cs => .error ⟨.noPropertyName, cs.length⟩
termination_by 2 * cs.length
decreasing_by
  all_goals simp only [List.length_cons]; omega

/-- The items of a list, up to and with the closing bracket. -/
def items (cs : Text) : Reading (List (Json Points)) cs :=
  match value cs with
  | .error stop => .error stop
  | .ok (v, ⟨afterValue, h₁⟩) =>
    match expect? ']' afterValue with
    | some ⟨rest, h₂⟩ => .ok ([v], ⟨rest, by omega⟩)
    | none =>
      match expect? ',' afterValue with
      | none => .error ⟨.noComma, (skip afterValue).length⟩
      | some ⟨afterComma, h₂⟩ =>
        have h₃ := length_skip_le afterComma
        match items (skip afterComma) with
        | .error stop => .error stop
        | .ok (vs, ⟨rest, h₄⟩) => .ok (v :: vs, ⟨rest, by omega⟩)
termination_by 2 * cs.length + 1
decreasing_by
  all_goals omega

end

/-- The value that a whole text writes. -/
def read (t : Text) : Except Fault (Json Points) :=
  let outcome : Except Stop (Json Points) :=
    match t with
    | '\uFEFF' :: _ => .error ⟨.byteOrderMark, t.length⟩
    | _ =>
      match value (skip t) with
      | .error stop => .error stop
      | .ok (v, ⟨rest, _⟩) =>
        if (skip rest).isEmpty then .ok v else .error ⟨.extraText, (skip rest).length⟩
  outcome.mapError (·.toFault t)

/-- The document that a whole text writes. -/
def readDocument (t : Text) : Except Fault Json :=
  (read t).map shown

end Json

end Ambient

import Ambient.TypeExpr.Basic
import Ambient.TypeExpr.Token

/-!
# Reading type expressions

The reader accepts the notation of documents (`fn(a: number) -> +Color`, `[string]`,
`Promise[:t=T]`, a bare string-keyed map, `?`) and that of declarations (`(a: T) => R`, `T[]`,
`Promise<T>`, a map with an index signature).

Every function takes the tokens that are left and answers what it read with the tokens after it, of
which there are fewer.  An opening parenthesis is first tried as the start of an arrow function; if
no arrow function stands there, the same tokens are read as a type in parentheses.
-/

namespace Ambient

namespace TypeExpr

/-- What is read of `ts`: a value and the tokens after it, of which there are fewer. -/
abbrev Parse (α : Type) (ts : List Token) :=
  Except SyntaxFault (α × { rest : List Token // rest.length < ts.length })

/-! ### Single tokens -/

/-- Whether the first of `ts` is the token `text`. -/
def startsWith (text : Text) (ts : List Token) : Bool :=
  match ts with
  | [] => false
  | t :: _ => t.text = text

/-- Any one token. -/
def next (ts : List Token) : Parse Token ts :=
  match ts with
  | [] => .error .unexpectedEnd
  | t :: rest => .ok (t, ⟨rest, by simp⟩)

/-- The token `text`. -/
def expect (text : Text) (ts : List Token) : Parse Unit ts :=
  match ts with
  | [] => .error .unexpectedEnd
  | t :: rest =>
    if t.text = text then .ok ((), ⟨rest, by simp⟩) else .error (.expected text t.text)

/-- The tokens after `text`, if it is the first of `ts`. -/
def after? (text : Text) (ts : List Token) :
    Option { rest : List Token // rest.length < ts.length } :=
  match ts with
  | [] => none
  | t :: rest => if t.text = text then some ⟨rest, by simp⟩ else none

/-- The tokens after `first` and `second`, if `ts` starts with the two. -/
def afterBoth? (first second : Text) (ts : List Token) :
    Option { rest : List Token // rest.length < ts.length } :=
  match ts with
  | a :: b :: rest =>
    if a.text = first && b.text = second then some ⟨rest, by simp only [List.length_cons]; omega⟩
    else none
  | _ => none

/-! ### Heads -/

/-- A name without the quotation marks or apostrophes around it. -/
def unquote (t : Text) : Text :=
  match t with
  | c :: d :: ds =>
    if (c = '"' || c = '\'') && (d :: ds).getLast? = some c then (d :: ds).dropLast else t
  | t => t

/-- The name of a parameter with its separator, if `ts` starts with one; the truth value says that
the parameter may be left out. -/
def paramHead? (ts : List Token) :
    Option (Text × Bool × { rest : List Token // rest.length < ts.length }) :=
  match ts with
  | t :: ts' =>
    if t.kind = .name || t.kind = .text then
      match after? ":" ts' with
      | some ⟨rest, h⟩ => some (unquote t.text, false, ⟨rest, by simp only [List.length_cons]; omega⟩)
      | none =>
        match afterBoth? "?" ":" ts' with
        | some ⟨rest, h⟩ =>
          some (unquote t.text, true, ⟨rest, by simp only [List.length_cons]; omega⟩)
        | none => none
    else none
  | [] => none

/-- The rest of an index signature up to its colon, behind the opening bracket: any two tokens with
a colon between them, the closing bracket and a colon. -/
def indexHead (ts : List Token) : Parse Unit ts :=
  match next ts with
  | .error e => .error e
  | .ok (_, ⟨ts₁, h₁⟩) =>
    match expect ":" ts₁ with
    | .error e => .error e
    | .ok (_, ⟨ts₂, h₂⟩) =>
      match next ts₂ with
      | .error e => .error e
      | .ok (_, ⟨ts₃, h₃⟩) =>
        match expect "]" ts₃ with
        | .error e => .error e
        | .ok (_, ⟨ts₄, h₄⟩) =>
          match expect ":" ts₄ with
          | .error e => .error e
          | .ok (_, ⟨ts₅, h₅⟩) => .ok ((), ⟨ts₅, by omega⟩)

/-- The name of a type variable with the equals sign behind it. -/
def variableHead (ts : List Token) : Parse Unit ts :=
  match next ts with
  | .error e => .error e
  | .ok (_, ⟨ts₁, h₁⟩) =>
    match expect "=" ts₁ with
    | .error e => .error e
    | .ok (_, ⟨ts₂, h₂⟩) => .ok ((), ⟨ts₂, by omega⟩)

/-- The array suffixes at the start of `ts` put on an expression, and the rest. -/
def arraySuffixes (t : TypeExpr) (ts : List Token) :
    TypeExpr × { rest : List Token // rest.length ≤ ts.length } :=
  match afterBoth? "[" "]" ts with
  | some ⟨rest, h⟩ =>
    match arraySuffixes (.array t) rest with
    | (t, ⟨rest₂, h₂⟩) => (t, ⟨rest₂, by omega⟩)
  | none => (t, ⟨ts, Nat.le_refl _⟩)
termination_by ts.length

/-! ### Shapes of what was read -/

/-- One type, or a choice between several. -/
def ofMembers : List TypeExpr → TypeExpr
  | [t] => t
  | ts => .union ts

/-- A named type with arguments; a promise has one. -/
def ofArguments (name : Text) : List TypeExpr → TypeExpr
  | [t] => if name = "Promise" then .promise (some t) else .generic name [t]
  | ts => .generic name ts

/-- A name alone. -/
def ofName (name : Text) : TypeExpr :=
  if name = "Promise" then .promise none else .atom name

/-- An object with the given fields; a single field `string` that may not be left out makes a bare
map. -/
def ofFields : List TypeParam → TypeExpr
  | [⟨some name, type, false⟩] =>
    if name = "string" then .map type false else .object [⟨some name, type, false⟩]
  | fields => .object fields

/-! ### The grammar -/

mutual

/-- A type: one or several postfix types with bars between them. -/
def parseType (ts : List Token) : Parse TypeExpr ts :=
  match parseMembers ts with
  | .error e => .error e
  | .ok (members, rest) => .ok (ofMembers members, rest)
termination_by 8 * ts.length + 3

/-- Postfix types with bars between them. -/
def parseMembers (ts : List Token) : Parse (List TypeExpr) ts :=
  match parsePostfix ts with
  | .error e => .error e
  | .ok (t, ⟨ts₁, h₁⟩) =>
    match after? "|" ts₁ with
    | none => .ok ([t], ⟨ts₁, h₁⟩)
    | some ⟨ts₂, h₂⟩ =>
      match parseMembers ts₂ with
      | .error e => .error e
      | .ok (members, ⟨ts₃, h₃⟩) => .ok (t :: members, ⟨ts₃, by omega⟩)
termination_by 8 * ts.length + 2

/-- A primary type with array suffixes. -/
def parsePostfix (ts : List Token) : Parse TypeExpr ts :=
  match parsePrimary ts with
  | .error e => .error e
  | .ok (t, ⟨ts₁, h₁⟩) =>
    match arraySuffixes t ts₁ with
    | (t, ⟨ts₂, h₂⟩) => .ok (t, ⟨ts₂, by omega⟩)
termination_by 8 * ts.length + 1

/-- A type that starts with its own mark or name. -/
def parsePrimary (ts : List Token) : Parse TypeExpr ts :=
  match ts with
  | [] => .error .unexpectedEnd
  | t :: ts =>
    if t.kind = .name && t.text = "fn" && startsWith "(" ts then
      match parseFunction ts with
      | .error e => .error e
      | .ok (f, ⟨rest, h⟩) => .ok (f, ⟨rest, by simp only [List.length_cons]; omega⟩)
    else if t.text = "(" then
      match parseArrow? ts with
      | some (f, ⟨rest, h⟩) => .ok (f, ⟨rest, by simp only [List.length_cons]; omega⟩)
      | none =>
        match parseType ts with
        | .error e => .error e
        | .ok (inner, ⟨ts₁, h₁⟩) =>
          match expect ")" ts₁ with
          | .error e => .error e
          | .ok (_, ⟨rest, h⟩) => .ok (inner, ⟨rest, by simp only [List.length_cons]; omega⟩)
    else if t.text = "[" then
      match parseType ts with
      | .error e => .error e
      | .ok (element, ⟨ts₁, h₁⟩) =>
        match expect "]" ts₁ with
        | .error e => .error e
        | .ok (_, ⟨rest, h⟩) =>
          .ok (.array element, ⟨rest, by simp only [List.length_cons]; omega⟩)
    else if t.text = ['{'] then
      match parseBraces ts with
      | .error e => .error e
      | .ok (t, ⟨rest, h⟩) => .ok (t, ⟨rest, by simp only [List.length_cons]; omega⟩)
    else if t.text = "+" then
      match next ts with
      | .error e => .error e
      | .ok (name, ⟨rest, h⟩) =>
        if name.kind = .name then
          .ok (.reference name.text, ⟨rest, by simp only [List.length_cons]; omega⟩)
        else .error .expectedName
    else if t.text = "?" then .ok (.atom "?", ⟨ts, by simp⟩)
    else if t.kind = .text then
      .ok (.literal ('"' :: (t.text.drop 1).dropLast ++ ['"']), ⟨ts, by simp⟩)
    else if t.kind = .name then parseNamed t ts
    else .error (.unexpectedToken t.text)
termination_by 8 * ts.length

/-- A function in source notation, behind its keyword. -/
def parseFunction (ts : List Token) : Parse TypeExpr ts :=
  match next ts with
  | .error e => .error e
  | .ok (_, ⟨ts₁, h₁⟩) =>
    match parseParams ")" ts₁ with
    | .error e => .error e
    | .ok (params, ⟨ts₂, h₂⟩) =>
      match after? "->" ts₂ with
      | none => .ok (.function params none false, ⟨ts₂, by omega⟩)
      | some ⟨ts₃, h₃⟩ =>
        match parseType ts₃ with
        | .error e => .error e
        | .ok (returns, ⟨ts₄, h₄⟩) => .ok (.function params (some returns) false, ⟨ts₄, by omega⟩)
termination_by 8 * ts.length

/-- An arrow function, behind its opening parenthesis, if one stands there. -/
def parseArrow? (ts : List Token) :
    Option (TypeExpr × { rest : List Token // rest.length < ts.length }) :=
  match parseParams ")" ts with
  | .error _ => none
  | .ok (params, ⟨ts₁, h₁⟩) =>
    match after? "=>" ts₁ with
    | none => none
    | some ⟨ts₂, h₂⟩ =>
      match parseType ts₂ with
      | .error _ => none
      | .ok (returns, ⟨ts₃, h₃⟩) => some (.function params (some returns) true, ⟨ts₃, by omega⟩)
termination_by 8 * ts.length + 7

/-- A named type with its arguments, in front of `ts` its name `t`. -/
def parseNamed (t : Token) (ts : List Token) : Parse TypeExpr (t :: ts) :=
  match afterBoth? "[" ":" ts with
  | some ⟨ts₁, h₁⟩ =>
    match variableHead ts₁ with
    | .error e => .error e
    | .ok (_, ⟨ts₂, h₂⟩) =>
      match parseType ts₂ with
      | .error e => .error e
      | .ok (arg, ⟨ts₃, h₃⟩) =>
        match expect "]" ts₃ with
        | .error e => .error e
        | .ok (_, ⟨rest, h⟩) =>
          .ok (ofArguments t.text [arg], ⟨rest, by simp only [List.length_cons]; omega⟩)
  | none =>
    match after? "<" ts with
    | some ⟨ts₁, h₁⟩ =>
      match parseArguments ts₁ with
      | .error e => .error e
      | .ok (args, ⟨ts₂, h₂⟩) =>
        match expect ">" ts₂ with
        | .error e => .error e
        | .ok (_, ⟨rest, h⟩) =>
          .ok (ofArguments t.text args, ⟨rest, by simp only [List.length_cons]; omega⟩)
    | none => .ok (ofName t.text, ⟨ts, by simp⟩)
termination_by 8 * ts.length + 7

/-- Types with commas between them. -/
def parseArguments (ts : List Token) : Parse (List TypeExpr) ts :=
  match parseType ts with
  | .error e => .error e
  | .ok (t, ⟨ts₁, h₁⟩) =>
    match after? "," ts₁ with
    | none => .ok ([t], ⟨ts₁, h₁⟩)
    | some ⟨ts₂, h₂⟩ =>
      match parseArguments ts₂ with
      | .error e => .error e
      | .ok (args, ⟨ts₃, h₃⟩) => .ok (t :: args, ⟨ts₃, by omega⟩)
termination_by 8 * ts.length + 4

/-- A map with an index signature or an object, behind the opening brace. -/
def parseBraces (ts : List Token) : Parse TypeExpr ts :=
  match after? "[" ts with
  | some ⟨ts₁, h₁⟩ =>
    match indexHead ts₁ with
    | .error e => .error e
    | .ok (_, ⟨ts₂, h₂⟩) =>
      match parseType ts₂ with
      | .error e => .error e
      | .ok (value, ⟨ts₃, h₃⟩) =>
        match expect ['}'] ts₃ with
        | .error e => .error e
        | .ok (_, ⟨rest, h⟩) => .ok (.map value true, ⟨rest, by omega⟩)
  | none =>
    match parseParams ['}'] ts with
    | .error e => .error e
    | .ok (fields, rest) => .ok (ofFields fields, rest)
termination_by 8 * ts.length + 7

/-- Parameters with commas between them, up to and with the mark `close`. -/
def parseParams (close : Text) (ts : List Token) : Parse (List TypeParam) ts :=
  match after? close ts with
  | some rest => .ok ([], rest)
  | none => parseSomeParams close ts
termination_by 8 * ts.length + 6

/-- One or several parameters with commas between them, up to and with the mark `close`. -/
def parseSomeParams (close : Text) (ts : List Token) : Parse (List TypeParam) ts :=
  match parseParam ts with
  | .error e => .error e
  | .ok (p, ⟨ts₁, h₁⟩) =>
    match next ts₁ with
    | .error e => .error e
    | .ok (t, ⟨ts₂, h₂⟩) =>
      if t.text = close then .ok ([p], ⟨ts₂, by omega⟩)
      else if t.text = "," then
        match parseSomeParams close ts₂ with
        | .error e => .error e
        | .ok (ps, ⟨ts₃, h₃⟩) => .ok (p :: ps, ⟨ts₃, by omega⟩)
      else .error (.expectedSeparator close t.text)
termination_by 8 * ts.length + 5

/-- A parameter: a type, with a name and a separator before it if it has a name. -/
def parseParam (ts : List Token) : Parse TypeParam ts :=
  match paramHead? ts with
  | some (name, optional, ⟨ts₁, h₁⟩) =>
    match parseType ts₁ with
    | .error e => .error e
    | .ok (type, ⟨ts₂, h₂⟩) => .ok (⟨some name, type, optional⟩, ⟨ts₂, by omega⟩)
  | none =>
    match parseType ts with
    | .error e => .error e
    | .ok (type, rest) => .ok (⟨none, type, false⟩, rest)
termination_by 8 * ts.length + 4

end

/-! ### Whole texts -/

/-- The expression that a list of tokens is; no tokens at all stand for an unknown type. -/
def ofTokens (ts : List Token) : Except SyntaxFault TypeExpr :=
  if ts.isEmpty then .ok (.atom "?")
  else
    match parseType ts with
    | .error e => .error e
    | .ok (t, ⟨[], _⟩) => .ok t
    | .ok (_, ⟨token :: _, _⟩) => .error (.trailing token.text)

/-- The expression that a text writes. -/
def parseStrict (t : Text) : Except SyntaxFault TypeExpr :=
  match Token.tokens t with
  | .error e => .error e
  | .ok ts => ofTokens ts

/-- The expression that a text writes, or the text itself without white space around it. -/
def parse (t : Text) : TypeExpr :=
  match parseStrict t with
  | .ok e => e
  | .error _ => .raw t.trim

end TypeExpr

end Ambient

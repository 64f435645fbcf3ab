import Mathlib
import Ambient.TypeExpr.Parser

/-!
# Reading with a position

The reader takes the tokens that are left and never goes back: what an attempt at an arrow function
has read is dropped with the attempt.  A `Cursor` is a reader of the same grammar over one list of
tokens with a position in it.  The position stays where it is when a fault is raised, and an attempt
at an arrow function has to set it back.  Nothing in the definitions makes it go forward, so whether
they end at all is a question: a reading is given the depth to which its calls may be nested, loops
included, and `none` is the answer where that is not enough.

`Follows` relates what a cursor does to what the reader answers of the tokens from its position on.
One lemma says that it goes through from one step to the next (`Follows.bind`), and each function has
one lemma that rests on the functions it calls.  `agrees` puts them together by induction on the
depth.  Nine calls may be nested before a token is gone over, and each cursor has its place among
them, so a depth that is enough is linear in the number of the tokens that are left (`callDepth`).
That a cursor ends further on is a consequence.
-/

namespace Ambient.TypeExpr

/-! ### Cursors -/

/-- A reading of tokens from a position: it answers or raises a fault and leaves a position, or it is
given up because its calls are nested too deeply. -/
abbrev Cursor (α : Type) :=
  ExceptT SyntaxFault (StateT ℕ Option) α

namespace Cursor

/-- The reading that is given up at once. -/
def tooDeep {α : Type} : Cursor α :=
  fun _ => none

section

variable (ts : List Token)

/-- Whether the token `text` stands `offset` tokens behind the position. -/
def stands (text : Text) (offset : ℕ) : Cursor Bool := do
  return ts[(← get) + offset]?.any (·.text = text)

/-- The token at the position, if it is of one of the kinds of a parameter's name. -/
def peekName : Cursor (Option Token) := do
  return ts[← get]?.filter fun t => t.kind = .name || t.kind = .text

/-- Goes over `count` tokens. -/
def advance (count : ℕ) : Cursor Unit :=
  modify (· + count)

/-- Reads any one token. -/
def readAny : Cursor Token := do
  match ts[← get]? with
  | none => throw .unexpectedEnd
  | some t =>
    advance 1
    return t

/-- Reads the token `text`. -/
def readMark (text : Text) : Cursor Unit := do
  let t ← readAny ts
  if t.text = text then return () else throw (.expected text t.text)

/-- Reads the rest of an index signature up to its colon. -/
def readIndex : Cursor Unit := do
  let _ ← readAny ts
  readMark ts ":"
  let _ ← readAny ts
  readMark ts "]"
  readMark ts ":"

/-- Reads the name of a type variable with the equals sign behind it. -/
def readVariable : Cursor Unit := do
  let _ ← readAny ts
  readMark ts "="

/-- Reads the name of a parameter with its separator, if one stands at the position. -/
def readName? : Cursor (Option (Text × Bool)) := do
  match ← peekName ts with
  | none => return none
  | some t =>
    if ← stands ts ":" 1 then
      advance 2
      return some (unquote t.text, false)
    else if (← stands ts "?" 1) && (← stands ts ":" 2) then
      advance 3
      return some (unquote t.text, true)
    else return none

/-- Reads array suffixes. -/
def readSuffixes (t : TypeExpr) : ℕ → Cursor TypeExpr
  | 0 => tooDeep
  | depth + 1 => do
    if (← stands ts "[" 0) && (← stands ts "]" 1) then
      advance 2
      readSuffixes (.array t) depth
    else return t

mutual

/-- Reads a type. -/
def readType : ℕ → Cursor TypeExpr
  | 0 => tooDeep
  | depth + 1 => do
    return ofMembers (← readMembers depth)

/-- Reads postfix types with bars between them. -/
def readMembers : ℕ → Cursor (List TypeExpr)
  | 0 => tooDeep
  | depth + 1 => do
    let t ← readPostfix depth
    if ← stands ts "|" 0 then
      advance 1
      return t :: (← readMembers depth)
    else return [t]

/-- Reads a primary type with array suffixes. -/
def readPostfix : ℕ → Cursor TypeExpr
  | 0 => tooDeep
  | depth + 1 => do
    readSuffixes ts (← readPrimary depth) depth

/-- Reads a type that starts with its own mark or name. -/
def readPrimary : ℕ → Cursor TypeExpr
  | 0 => tooDeep
  | depth + 1 => do
    let t ← readAny ts
    if t.kind = .name && t.text = "fn" && (← stands ts "(" 0) then
      readFunction depth
    else if t.text = "(" then
      match ← readArrow? depth with
      | some f => return f
      | none =>
        let inner ← readType depth
        readMark ts ")"
        return inner
    else if t.text = "[" then
      let element ← readType depth
      readMark ts "]"
      return .array element
    else if t.text = ['{'] then readBraces depth
    else if t.text = "+" then
      let name ← readAny ts
      if name.kind = .name then return .reference name.text else throw .expectedName
    else if t.text = "?" then return .atom "?"
    else if t.kind = .text then return .literal ('"' :: (t.text.drop 1).dropLast ++ ['"'])
    else if t.kind = .name then readNamed t depth
    else throw (.unexpectedToken t.text)

/-- Reads a function in source notation, behind its keyword. -/
def readFunction : ℕ → Cursor TypeExpr
  | 0 => tooDeep
  | depth + 1 => do
    let _ ← readAny ts
    let params ← readParams ")" depth
    if ← stands ts "->" 0 then
      advance 1
      return .function params (some (← readType depth)) false
    else return .function params none false

/-- Tries to read an arrow function behind its opening parenthesis.  If none stands there, the
position is set back to where the attempt began. -/
def readArrow? : ℕ → Cursor (Option TypeExpr)
  | 0 => tooDeep
  | depth + 1 => fun start => do
    match ← readArrow depth start with
    | (.ok (some f), q) => return (.ok (some f), q)
    | _ => return (.ok none, start)

/-- Reads an arrow function behind its opening parenthesis, if parameters and an arrow stand there. -/
def readArrow : ℕ → Cursor (Option TypeExpr)
  | 0 => tooDeep
  | depth + 1 => do
    let params ← readParams ")" depth
    if ← stands ts "=>" 0 then
      advance 1
      return some (.function params (some (← readType depth)) true)
    else return none

/-- Reads the arguments of a named type, behind its name `t`. -/
def readNamed (t : Token) : ℕ → Cursor TypeExpr
  | 0 => tooDeep
  | depth + 1 => do
    if (← stands ts "[" 0) && (← stands ts ":" 1) then
      advance 2
      readVariable ts
      let arg ← readType depth
      readMark ts "]"
      return ofArguments t.text [arg]
    else if ← stands ts "<" 0 then
      advance 1
      let args ← readArguments depth
      readMark ts ">"
      return ofArguments t.text args
    else return ofName t.text

/-- Reads types with commas between them. -/
def readArguments : ℕ → Cursor (List TypeExpr)
  | 0 => tooDeep
  | depth + 1 => do
    let t ← readType depth
    if ← stands ts "," 0 then
      advance 1
      return t :: (← readArguments depth)
    else return [t]

/-- Reads a map with an index signature or an object, behind the opening brace. -/
def readBraces : ℕ → Cursor TypeExpr
  | 0 => tooDeep
  | depth + 1 => do
    if ← stands ts "[" 0 then
      advance 1
      readIndex ts
      let value ← readType depth
      readMark ts ['}']
      return .map value true
    else return ofFields (← readParams ['}'] depth)

/-- Reads parameters up to and with the mark `close`. -/
def readParams (close : Text) : ℕ → Cursor (List TypeParam)
  | 0 => tooDeep
  | depth + 1 => do
    if ← stands ts close 0 then
      advance 1
      return []
    else readSomeParams close depth

/-- Reads one or several parameters up to and with the mark `close`. -/
def readSomeParams (close : Text) : ℕ → Cursor (List TypeParam)
  | 0 => tooDeep
  | depth + 1 => do
    let p ← readParam depth
    let t ← readAny ts
    if t.text = close then return [p]
    else if t.text = "," then return p :: (← readSomeParams close depth)
    else throw (.expectedSeparator close t.text)

/-- Reads a parameter. -/
def readParam : ℕ → Cursor TypeParam
  | 0 => tooDeep
  | depth + 1 => do
    match ← readName? ts with
    | some (name, optional) => return ⟨some name, ← readType depth, optional⟩
    | none => return ⟨none, ← readType depth, false⟩

end

end

/-! ### What a cursor does and what the reader answers -/

section

variable {α β : Type} {ts us vs : List Token} {p q : ℕ} {m : Cursor α}

/-- The cursor raises the fault that the reader answers, or answers the same and stands in front of
the tokens that the reader leaves. -/
inductive Follows (ts : List Token) : Option (Except SyntaxFault α × ℕ) → Parse α us → Prop
  | fault (e : SyntaxFault) (q : ℕ) : Follows ts (some (.error e, q)) (.error e)
  | answer (a : α) (q : ℕ) (h : (ts.drop q).length < us.length) : q ≤ ts.length →
      Follows ts (some (.ok a, q)) (.ok (a, ⟨ts.drop q, h⟩))

/-- A cursor that follows the reader raises its fault, or answers the same within the tokens. -/
lemma Follows.cases {r : Option (Except SyntaxFault α × ℕ)} {x : Parse α us} (h : Follows ts r x) :
    (∃ e q, r = some (.error e, q) ∧ x = .error e) ∨
      ∃ a q h, r = some (.ok a, q) ∧ x = .ok (a, ⟨ts.drop q, h⟩) ∧ q ≤ ts.length := by
  cases h with
  | fault e q => exact Or.inl ⟨e, q, rfl, rfl⟩
  | answer a q h hq => exact Or.inr ⟨a, q, h, rfl, rfl, hq⟩

/-- An answer is handed on with its position. -/
lemma bind_of_ok {k : α → Cursor β} {a : α} (h : m p = some (.ok a, q)) : (m >>= k) p = k a q := by
  simp [bind, ExceptT.bind, ExceptT.mk, StateT.bind, ExceptT.bindCont, h]

/-- A fault ends the reading where it is raised. -/
lemma bind_of_error {k : α → Cursor β} {e : SyntaxFault} (h : m p = some (.error e, q)) :
    (m >>= k) p = some (.error e, q) := by
  simp [bind, ExceptT.bind, ExceptT.mk, StateT.bind, ExceptT.bindCont, pure, StateT.pure, h]

/-- A cursor that goes on with what another one answers follows a reader that does so. -/
lemma Follows.bind {k : α → Cursor β} {x : Parse α us} {y : Parse β vs} (h : Follows ts (m p) x)
    (hfault : ∀ e, x = .error e → y = .error e)
    (hanswer : ∀ a q h, q ≤ ts.length → x = .ok (a, ⟨ts.drop q, h⟩) → Follows ts (k a q) y) :
    Follows ts ((m >>= k) p) y := by
  generalize hm : m p = r at h
  cases h with
  | fault e q =>
    rw [bind_of_error hm, hfault e rfl]
    exact .fault e q
  | answer a q h hq =>
    rw [bind_of_ok hm]
    exact hanswer a q h hq rfl

/-- A shorter rest begins at a later position. -/
lemma lt_of_length_drop_lt (h : (ts.drop q).length < (ts.drop p).length) : p < q := by
  simp only [List.length_drop] at h
  omega

/-- A cursor that ends with another one follows a reader that does so. -/
lemma Follows.last {r : Option (Except SyntaxFault α × ℕ)} {x : Parse α us} {y : Parse α vs}
    (h : Follows ts r x) (hfault : ∀ e, x = .error e → y = .error e)
    (hanswer : ∀ a q h, q ≤ ts.length → x = .ok (a, ⟨ts.drop q, h⟩) →
      ∃ h', y = .ok (a, ⟨ts.drop q, h'⟩)) :
    Follows ts r y := by
  cases h with
  | fault e q =>
    rw [hfault e rfl]
    exact .fault e q
  | answer a q h hq =>
    obtain ⟨h', hy⟩ := hanswer a q h hq rfl
    rw [hy]
    exact .answer a q h' hq

/-- A cursor that goes one of two ways follows a reader that does so. -/
lemma Follows.ite {c : Prop} [Decidable c] {m n : Cursor β} {x y : Parse β vs}
    (hpos : c → Follows ts (m p) x) (hneg : ¬ c → Follows ts (n p) y) :
    Follows ts ((if c then m else n) p) (if c then x else y) := by
  split
  · exact hpos ‹_›
  · exact hneg ‹_›

/-! ### Single tokens -/

lemma bind_stands (text : Text) (offset : ℕ) (k : Bool → Cursor β) :
    (stands ts text offset >>= k) p = k ((ts.drop p)[offset]?.any (·.text = text)) p := by
  rw [List.getElem?_drop]
  exact bind_of_ok rfl

lemma bind_advance (count : ℕ) (k : Unit → Cursor β) : (advance count >>= k) p = k () (p + count) :=
  bind_of_ok rfl

/-- The reader looks at the same token as the cursor does. -/
lemma startsWith_eq (text : Text) (us : List Token) :
    startsWith text us = us[0]?.any (·.text = text) := by
  cases us <;> simp [startsWith]

/-- The token at a position is `text` and the reader goes over it, or neither. -/
lemma after?_drop (text : Text) (ts : List Token) (p : ℕ) :
    ((ts.drop p)[0]?.any (·.text = text) = true ∧ p + 1 ≤ ts.length ∧
      ∃ h, after? text (ts.drop p) = some ⟨ts.drop (p + 1), h⟩) ∨
    (ts.drop p)[0]?.any (·.text = text) = false ∧ after? text (ts.drop p) = none := by
  have hlength := List.length_drop (i := p) (l := ts)
  have hrest : ts.drop (p + 1) = (ts.drop p).drop 1 := by rw [List.drop_drop]
  generalize ts.drop p = us at *
  rw [hrest]
  cases us with
  | nil => simp [after?]
  | cons t us =>
    rw [List.length_cons] at hlength
    by_cases htext : t.text = text
    · exact Or.inl ⟨by simp [htext], by omega, by simp, by simp [after?, htext]⟩
    · simp [after?, htext]

/-- The tokens at a position are `first` and `second` and the reader goes over them, or neither. -/
lemma afterBoth?_drop (first second : Text) (ts : List Token) (p : ℕ) :
    (((ts.drop p)[0]?.any (·.text = first) && (ts.drop p)[1]?.any (·.text = second)) = true ∧
      p + 2 ≤ ts.length ∧
      ∃ h, afterBoth? first second (ts.drop p) = some ⟨ts.drop (p + 2), h⟩) ∨
    ((ts.drop p)[0]?.any (·.text = first) && (ts.drop p)[1]?.any (·.text = second)) = false ∧
      afterBoth? first second (ts.drop p) = none := by
  have hlength := List.length_drop (i := p) (l := ts)
  have hrest : ts.drop (p + 2) = (ts.drop p).drop 2 := by rw [List.drop_drop]
  generalize ts.drop p = us at *
  rw [hrest]
  match us with
  | [] => simp [afterBoth?]
  | [t] => simp [afterBoth?]
  | t :: t' :: us =>
    rw [List.length_cons, List.length_cons] at hlength
    by_cases htext : t.text = first ∧ t'.text = second
    · exact Or.inl ⟨by simp [htext], by omega, by simp, by simp [afterBoth?, htext]⟩
    · have hboth : (decide (t.text = first) && decide (t'.text = second)) = false := by
        simpa using htext
      simp [afterBoth?, hboth]

/-- A cursor that looks for the next token and goes over it follows a reader that does so. -/
lemma Follows.after {text : Text} {y : Parse β vs} {m n : Cursor β}
    (hsome : ∀ h, p + 1 ≤ ts.length → after? text (ts.drop p) = some ⟨ts.drop (p + 1), h⟩ →
      Follows ts (m (p + 1)) y)
    (hnone : after? text (ts.drop p) = none → Follows ts (n p) y) :
    Follows ts ((do if ← stands ts text 0 then advance 1; m else n) p) y := by
  rw [bind_stands]
  rcases after?_drop text ts p with ⟨hstands, hp, h, hafter⟩ | ⟨hno, hafter⟩
  · rw [if_pos hstands, bind_advance]
    exact hsome h hp hafter
  · rw [hno, if_neg (by simp)]
    exact hnone hafter

/-- A cursor that looks for the next two tokens and goes over them follows a reader that does so. -/
lemma Follows.afterBoth {first second : Text} {y : Parse β vs} {m n : Cursor β}
    (hsome : ∀ h, p + 2 ≤ ts.length → afterBoth? first second (ts.drop p) = some ⟨ts.drop (p + 2), h⟩ →
      Follows ts (m (p + 2)) y)
    (hnone : afterBoth? first second (ts.drop p) = none → Follows ts (n p) y) :
    Follows ts ((do if (← stands ts first 0) && (← stands ts second 1) then advance 2; m else n) p)
      y := by
  rw [bind_stands, bind_stands]
  rcases afterBoth?_drop first second ts p with ⟨hstands, hp, h, hafter⟩ | ⟨hno, hafter⟩
  · rw [if_pos hstands, bind_advance]
    exact hsome h hp hafter
  · rw [hno, if_neg (by simp)]
    exact hnone hafter

lemma bind_get (k : ℕ → Cursor β) : ((get : Cursor ℕ) >>= k) p = k p p :=
  rfl

/-- The token at the position is read, or there is none. -/
lemma readAny_cases (ts : List Token) (p : ℕ) :
    (∃ t, ts.drop p = t :: ts.drop (p + 1) ∧ p + 1 ≤ ts.length ∧
      readAny ts p = some (.ok t, p + 1)) ∨
    ts.drop p = [] ∧ readAny ts p = some (.error .unexpectedEnd, p) := by
  rw [readAny, bind_get]
  rcases Nat.lt_or_ge p ts.length with hp | hp
  · rw [List.getElem?_eq_getElem hp]
    exact Or.inl ⟨ts[p], List.drop_eq_getElem_cons hp, hp, rfl⟩
  · rw [List.getElem?_eq_none hp]
    exact Or.inr ⟨List.drop_eq_nil_of_le hp, rfl⟩

/-- Any one token: the cursor goes over it and the reader takes it. -/
lemma follows_readAny (ts : List Token) (p : ℕ) : Follows ts (readAny ts p) (next (ts.drop p)) := by
  rcases readAny_cases ts p with ⟨t, hdrop, hp, hread⟩ | ⟨hdrop, hread⟩
  · rw [hread, hdrop]
    exact .answer t (p + 1) _ hp
  · rw [hread, hdrop]
    exact .fault _ p

/-- An expected token: both compare its text. -/
lemma follows_readMark (text : Text) (ts : List Token) (p : ℕ) :
    Follows ts (readMark ts text p) (expect text (ts.drop p)) := by
  rw [readMark]
  rcases readAny_cases ts p with ⟨t, hdrop, hp, hread⟩ | ⟨hdrop, hread⟩
  · rw [bind_of_ok hread, hdrop, expect]
    exact .ite (fun _ => .answer () (p + 1) _ hp) fun _ => .fault _ (p + 1)
  · rw [bind_of_error hread, hdrop]
    exact .fault _ p

/-- The head of a type variable: both go over two tokens. -/
lemma follows_readVariable (ts : List Token) (p : ℕ) :
    Follows ts (readVariable ts p) (variableHead (ts.drop p)) := by
  rw [readVariable, variableHead]
  refine (follows_readAny ts p).bind (fun e he => by simp only [he]) fun t q hq _ hnext => ?_
  simp only [hnext]
  refine (follows_readMark _ ts q).last (fun e he => by simp only [he]) fun _ r hr _ hmark => ?_
  exact ⟨hr.trans hq, by simp only [hmark]⟩

/-- The head of an index signature: both go over five tokens. -/
lemma follows_readIndex (ts : List Token) (p : ℕ) :
    Follows ts (readIndex ts p) (indexHead (ts.drop p)) := by
  rw [readIndex, indexHead]
  refine (follows_readAny ts p).bind (fun e he => by simp only [he]) fun _ q hq _ hnext => ?_
  simp only [hnext]
  refine (follows_readMark _ ts q).bind (fun e he => by simp only [he]) fun _ q₂ hq₂ _ hcolon => ?_
  simp only [hcolon]
  refine (follows_readAny ts q₂).bind (fun e he => by simp only [he]) fun _ q₃ hq₃ _ hnext₂ => ?_
  simp only [hnext₂]
  refine (follows_readMark _ ts q₃).bind (fun e he => by simp only [he]) fun _ q₄ hq₄ _ hbracket => ?_
  simp only [hbracket]
  refine (follows_readMark _ ts q₄).last (fun e he => by simp only [he]) fun _ q₅ hq₅ _ hlast => ?_
  exact ⟨by omega, by simp only [hlast]⟩

lemma bind_peekName (k : Option Token → Cursor β) :
    (peekName ts >>= k) p =
      k ((ts.drop p)[0]?.filter fun t => t.kind = .name || t.kind = .text) p := by
  rw [List.getElem?_drop]
  exact bind_of_ok rfl

section

variable {t : Token} {rest : List Token} (hkind : (t.kind = .name || t.kind = .text) = true)

include hkind

/-- A colon behind a name makes it a required parameter. -/
lemma paramHead?_of_after {h : rest.length < us.length} (hafter : after? ":" us = some ⟨rest, h⟩) :
    ∃ h', paramHead? (t :: us) = some (unquote t.text, false, ⟨rest, h'⟩) := by
  rw [paramHead?, if_pos hkind, hafter]
  exact ⟨_, rfl⟩

/-- A question mark and a colon behind a name make it an optional parameter. -/
lemma paramHead?_of_afterBoth {h : rest.length < us.length} (hafter : after? ":" us = none)
    (hboth : afterBoth? "?" ":" us = some ⟨rest, h⟩) :
    ∃ h', paramHead? (t :: us) = some (unquote t.text, true, ⟨rest, h'⟩) := by
  rw [paramHead?, if_pos hkind, hafter]
  simp only [hboth]
  exact ⟨by simp; omega, trivial⟩

/-- With neither behind it a name begins the type of a parameter. -/
lemma paramHead?_eq_none (hafter : after? ":" us = none) (hboth : afterBoth? "?" ":" us = none) :
    paramHead? (t :: us) = none := by
  rw [paramHead?, if_pos hkind, hafter]
  simp only [hboth]

end

/-- The name of a parameter is read with its separator, or the position stays where it is. -/
lemma readName?_cases (ts : List Token) (p : ℕ) :
    (∃ name optional q h, readName? ts p = some (.ok (some (name, optional)), q) ∧
      q ≤ ts.length ∧ paramHead? (ts.drop p) = some (name, optional, ⟨ts.drop q, h⟩)) ∨
    readName? ts p = some (.ok none, p) ∧ paramHead? (ts.drop p) = none := by
  rw [readName?, bind_peekName]
  rcases readAny_cases ts p with ⟨t, hdrop, hp, -⟩ | ⟨hdrop, -⟩
  swap
  · rw [hdrop]
    exact Or.inr ⟨rfl, rfl⟩
  have hbehind : ∀ i, (ts.drop p)[i + 1]? = (ts.drop (p + 1))[i]? := fun i => by
    rw [hdrop, List.getElem?_cons_succ]
  by_cases hkind : (t.kind = .name || t.kind = .text) = true
  swap
  · have hpeek : (ts.drop p)[0]?.filter (fun t => t.kind = .name || t.kind = .text) = none := by
      simpa [hdrop] using hkind
    rw [hpeek, hdrop, paramHead?, if_neg hkind]
    exact Or.inr ⟨rfl, rfl⟩
  have hpeek : (ts.drop p)[0]?.filter (fun t => t.kind = .name || t.kind = .text) = some t := by
    simp [hdrop, hkind]
  simp only [hpeek, bind_stands, hbehind 0]
  rcases after?_drop ":" ts (p + 1) with ⟨hcolon, hle, h, hafter⟩ | ⟨hcolon, hafter⟩
  · rw [if_pos hcolon, bind_advance, hdrop]
    obtain ⟨h', hhead⟩ := paramHead?_of_after hkind hafter
    exact Or.inl ⟨_, _, p + 2, h', rfl, hle, hhead⟩
  rw [hcolon, if_neg (by simp), bind_stands, bind_stands, hbehind 0, hbehind 1]
  rcases afterBoth?_drop "?" ":" ts (p + 1) with ⟨hboth, hle, h, hafter'⟩ | ⟨hboth, hafter'⟩
  · rw [if_pos hboth, bind_advance, hdrop]
    obtain ⟨h', hhead⟩ := paramHead?_of_afterBoth hkind hafter hafter'
    exact Or.inl ⟨_, _, p + 3, h', rfl, hle, hhead⟩
  · rw [hboth, if_neg (by simp), hdrop]
    exact Or.inr ⟨rfl, paramHead?_eq_none hkind hafter hafter'⟩

/-- The array suffixes at a position, and the position behind them. -/
lemma readSuffixes_eq (t : TypeExpr) (ts : List Token) (p depth : ℕ)
    (hdepth : ts.length - p < depth) :
    ∃ t' q h, readSuffixes ts t depth p = some (.ok t', q) ∧
      arraySuffixes t (ts.drop p) = (t', ⟨ts.drop q, h⟩) ∧ (p ≤ ts.length → q ≤ ts.length) := by
  induction depth generalizing t p with
  | zero => omega
  | succ depth ih =>
    rw [readSuffixes, arraySuffixes, bind_stands, bind_stands]
    rcases afterBoth?_drop "[" "]" ts p with ⟨hstands, hle, h, hafter⟩ | ⟨hno, hafter⟩
    · obtain ⟨t', q, h', hread, hsuffixes, hq⟩ := ih (.array t) (p + 2) (by omega)
      rw [if_pos hstands, bind_advance, hread, hafter]
      simp only [hsuffixes]
      exact ⟨t', q, by omega, rfl, rfl, fun _ => hq hle⟩
    · rw [hno, if_neg (by simp), hafter]
      exact ⟨t, p, _, rfl, rfl, id⟩

end

/-! ### The grammar -/

/-- What the reading of an arrow function does and what the reader answers: both read the same, or the
cursor finds none or raises a fault, at any position. -/
inductive Attempts (ts : List Token) {us : List Token} :
    Option (Except SyntaxFault (Option TypeExpr) × ℕ) →
      Option (TypeExpr × { rest : List Token // rest.length < us.length }) → Prop
  | found (f : TypeExpr) (q : ℕ) (h : (ts.drop q).length < us.length) : q ≤ ts.length →
      Attempts ts (some (.ok (some f), q)) (some (f, ⟨ts.drop q, h⟩))
  | none (q : ℕ) : Attempts ts (some (.ok none, q)) none
  | fault (e : SyntaxFault) (q : ℕ) : Attempts ts (some (.error e, q)) none

/-- What an attempt does and what the reader answers: both read the same, or the position is back
where the attempt began. -/
inductive Tries (ts : List Token) (p : ℕ) {us : List Token} :
    Option (Except SyntaxFault (Option TypeExpr) × ℕ) →
      Option (TypeExpr × { rest : List Token // rest.length < us.length }) → Prop
  | found (f : TypeExpr) (q : ℕ) (h : (ts.drop q).length < us.length) : q ≤ ts.length →
      Tries ts p (some (.ok (some f), q)) (some (f, ⟨ts.drop q, h⟩))
  | missed : Tries ts p (some (.ok none, p)) none

/-- Each cursor with this depth follows the reader of the tokens from its position on, if the depth is
enough: nine nested calls for each of the tokens, and further ones by the order in which the cursors
call each other before they go over a token. -/
structure Agrees (ts : List Token) (depth : ℕ) : Prop where
  primary : ∀ p, 9 * (ts.length - p) + 1 ≤ depth →
    Follows ts (readPrimary ts depth p) (parsePrimary (ts.drop p))
  suffixed : ∀ p, 9 * (ts.length - p) + 2 ≤ depth →
    Follows ts (readPostfix ts depth p) (parsePostfix (ts.drop p))
  members : ∀ p, 9 * (ts.length - p) + 3 ≤ depth →
    Follows ts (readMembers ts depth p) (parseMembers (ts.drop p))
  type : ∀ p, 9 * (ts.length - p) + 4 ≤ depth →
    Follows ts (readType ts depth p) (parseType (ts.drop p))
  arguments : ∀ p, 9 * (ts.length - p) + 5 ≤ depth →
    Follows ts (readArguments ts depth p) (parseArguments (ts.drop p))
  param : ∀ p, 9 * (ts.length - p) + 5 ≤ depth →
    Follows ts (readParam ts depth p) (parseParam (ts.drop p))
  someParams : ∀ close p, 9 * (ts.length - p) + 6 ≤ depth →
    Follows ts (readSomeParams ts close depth p) (parseSomeParams close (ts.drop p))
  params : ∀ close p, 9 * (ts.length - p) + 7 ≤ depth →
    Follows ts (readParams ts close depth p) (parseParams close (ts.drop p))
  braces : ∀ p, 9 * (ts.length - p) + 8 ≤ depth →
    Follows ts (readBraces ts depth p) (parseBraces (ts.drop p))
  arrow : ∀ p, 9 * (ts.length - p) + 8 ≤ depth →
    Attempts ts (readArrow ts depth p) (parseArrow? (ts.drop p))
  arrow? : ∀ p, 9 * (ts.length - p) + 9 ≤ depth →
    Tries ts p (readArrow? ts depth p) (parseArrow? (ts.drop p))
  function : ∀ p, 9 * (ts.length - p) + 1 ≤ depth →
    Follows ts (readFunction ts depth p) (parseFunction (ts.drop p))
  named : ∀ t p, p ≤ ts.length → 9 * (ts.length - p) + 1 ≤ depth →
    Follows ts (readNamed ts t depth p) (parseNamed t (ts.drop p))

section

variable {ts : List Token} {depth p : ℕ} (ih : Agrees ts depth)

include ih

/-- A type is handed on to its members. -/
lemma follows_readType (hdepth : 9 * (ts.length - p) + 4 ≤ depth + 1) :
    Follows ts (readType ts (depth + 1) p) (parseType (ts.drop p)) := by
  rw [readType, parseType]
  refine (ih.members p (by omega)).bind (fun e he => by simp only [he]) fun members q h hq hx => ?_
  simp only [hx]
  exact .answer _ q h hq

/-- A postfix type is a primary one, over which the suffixes go. -/
lemma follows_readPostfix (hdepth : 9 * (ts.length - p) + 2 ≤ depth + 1) :
    Follows ts (readPostfix ts (depth + 1) p) (parsePostfix (ts.drop p)) := by
  rw [readPostfix, parsePostfix]
  refine (ih.primary p (by omega)).bind (fun e he => by simp only [he]) fun t q h hq hx => ?_
  simp only [hx]
  have hpq := lt_of_length_drop_lt h
  obtain ⟨t', r, h', hread, hsuffixes, hr⟩ := readSuffixes_eq t ts q depth (by omega)
  simp only [hsuffixes, hread]
  exact .answer t' r (by omega) (hr hq)

/-- Parameters are closed at once or handed on. -/
lemma follows_readParams (close : Text) (hdepth : 9 * (ts.length - p) + 7 ≤ depth + 1) :
    Follows ts (readParams ts close (depth + 1) p) (parseParams close (ts.drop p)) := by
  rw [readParams, parseParams]
  refine .after (fun h hq hafter => ?_) fun hafter => ?_
  · rw [hafter]
    exact .answer _ (p + 1) h hq
  · rw [hafter]
    exact ih.someParams close p (by omega)

/-- Members go on behind each bar, where fewer tokens are left. -/
lemma follows_readMembers (hdepth : 9 * (ts.length - p) + 3 ≤ depth + 1) :
    Follows ts (readMembers ts (depth + 1) p) (parseMembers (ts.drop p)) := by
  rw [readMembers, parseMembers]
  refine (ih.suffixed p (by omega)).bind (fun e he => by simp only [he]) fun t q h hq hx => ?_
  simp only [hx]
  have hpq := lt_of_length_drop_lt h
  refine .after (fun h' hq' hafter => ?_) fun hafter => ?_
  · simp only [hafter]
    refine (ih.members (q + 1) (by omega)).bind (fun e he => by simp only [he])
      fun members r h'' hr hx' => ?_
    simp only [hx']
    exact .answer _ r (by omega) hr
  · simp only [hafter]
    exact .answer _ q h hq

/-- A function goes over its parameters and perhaps over an arrow and a result. -/
lemma follows_readFunction (hdepth : 9 * (ts.length - p) + 1 ≤ depth + 1) :
    Follows ts (readFunction ts (depth + 1) p) (parseFunction (ts.drop p)) := by
  rw [readFunction, parseFunction]
  refine (follows_readAny ts p).bind (fun e he => by simp only [he]) fun _ q h hq hnext => ?_
  simp only [hnext]
  have hpq := lt_of_length_drop_lt h
  refine (ih.params ")" q (by omega)).bind (fun e he => by simp only [he]) fun params q₂ h₂ hq₂ hx => ?_
  have hpq₂ := lt_of_length_drop_lt h₂
  simp only [hx]
  refine .after (fun h₃ hq₃ hafter => ?_) fun hafter => ?_
  · simp only [hafter]
    refine (ih.type (q₂ + 1) (by omega)).bind (fun e he => by simp only [he]) fun t r h₄ hr ht => ?_
    simp only [ht]
    exact .answer _ r (by omega) hr
  · simp only [hafter]
    exact .answer _ q₂ (by omega) hq₂

/-- A parameter goes over its name, if it has one, and its type. -/
lemma follows_readParam (hdepth : 9 * (ts.length - p) + 5 ≤ depth + 1) :
    Follows ts (readParam ts (depth + 1) p) (parseParam (ts.drop p)) := by
  rw [readParam, parseParam]
  rcases readName?_cases ts p with ⟨name, optional, q, h, hread, hq, hhead⟩ | ⟨hread, hhead⟩
  · rw [bind_of_ok hread]
    simp only [hhead]
    have hpq := lt_of_length_drop_lt h
    refine (ih.type q (by omega)).bind (fun e he => by simp only [he]) fun t r h' hr ht => ?_
    simp only [ht]
    exact .answer _ r (by omega) hr
  · rw [bind_of_ok hread]
    simp only [hhead]
    refine (ih.type p (by omega)).bind (fun e he => by simp only [he]) fun t r h' hr ht => ?_
    simp only [ht]
    exact .answer _ r h' hr

/-- Parameters go on behind each comma, where fewer tokens are left. -/
lemma follows_readSomeParams (close : Text) (hdepth : 9 * (ts.length - p) + 6 ≤ depth + 1) :
    Follows ts (readSomeParams ts close (depth + 1) p) (parseSomeParams close (ts.drop p)) := by
  rw [readSomeParams, parseSomeParams]
  refine (ih.param p (by omega)).bind (fun e he => by simp only [he]) fun x q h hq hx => ?_
  simp only [hx]
  have hpq := lt_of_length_drop_lt h
  refine (follows_readAny ts q).bind (fun e he => by simp only [he]) fun t q₂ h₂ hq₂ hnext => ?_
  simp only [hnext]
  have hpq₂ := lt_of_length_drop_lt h₂
  refine .ite (fun _ => .answer _ q₂ (by omega) hq₂) fun _ => ?_
  refine .ite (fun _ => ?_) fun _ => .fault _ q₂
  refine (ih.someParams close q₂ (by omega)).bind (fun e he => by simp only [he])
    fun ps r h₃ hr hps => ?_
  simp only [hps]
  exact .answer _ r (by omega) hr

/-- Arguments go on behind each comma, where fewer tokens are left. -/
lemma follows_readArguments (hdepth : 9 * (ts.length - p) + 5 ≤ depth + 1) :
    Follows ts (readArguments ts (depth + 1) p) (parseArguments (ts.drop p)) := by
  rw [readArguments, parseArguments]
  refine (ih.type p (by omega)).bind (fun e he => by simp only [he]) fun t q h hq hx => ?_
  simp only [hx]
  have hpq := lt_of_length_drop_lt h
  refine .after (fun h' hq' hafter => ?_) fun hafter => ?_
  · simp only [hafter]
    refine (ih.arguments (q + 1) (by omega)).bind (fun e he => by simp only [he])
      fun args r h'' hr hx' => ?_
    simp only [hx']
    exact .answer _ r (by omega) hr
  · simp only [hafter]
    exact .answer _ q h hq

/-- A brace begins an index signature where a bracket follows, and fields otherwise. -/
lemma follows_readBraces (hdepth : 9 * (ts.length - p) + 8 ≤ depth + 1) :
    Follows ts (readBraces ts (depth + 1) p) (parseBraces (ts.drop p)) := by
  rw [readBraces, parseBraces]
  refine .after (fun h hq hafter => ?_) fun hafter => ?_
  · simp only [hafter]
    refine (follows_readIndex ts (p + 1)).bind (fun e he => by simp only [he]) fun _ q h₂ hq₂ hx => ?_
    simp only [hx]
    have hpq := lt_of_length_drop_lt h₂
    refine (ih.type q (by omega)).bind (fun e he => by simp only [he]) fun t q₃ h₃ hq₃ ht => ?_
    simp only [ht]
    refine (follows_readMark _ ts q₃).bind (fun e he => by simp only [he]) fun _ r h₄ hr hmark => ?_
    simp only [hmark]
    exact .answer _ r (by omega) hr
  · simp only [hafter]
    refine (ih.params _ p (by omega)).bind (fun e he => by simp only [he]) fun fields q h₂ hq₂ hx => ?_
    simp only [hx]
    exact .answer _ q h₂ hq₂

/-- The two tokens behind a name decide what is read of it. -/
lemma follows_readNamed (t : Token) (hp : p ≤ ts.length)
    (hdepth : 9 * (ts.length - p) + 1 ≤ depth + 1) :
    Follows ts (readNamed ts t (depth + 1) p) (parseNamed t (ts.drop p)) := by
  rw [readNamed, parseNamed]
  refine .afterBoth (fun h hq hboth => ?_) fun hboth => ?_
  · simp only [hboth]
    refine (follows_readVariable ts (p + 2)).bind (fun e he => by simp only [he])
      fun _ q h₂ hq₂ hx => ?_
    simp only [hx]
    have hpq := lt_of_length_drop_lt h₂
    refine (ih.type q (by omega)).bind (fun e he => by simp only [he]) fun t q₃ h₃ hq₃ ht => ?_
    simp only [ht]
    refine (follows_readMark _ ts q₃).bind (fun e he => by simp only [he]) fun _ r h₄ hr hmark => ?_
    simp only [hmark]
    exact .answer _ r _ hr
  · simp only [hboth]
    refine .after (fun h hq hafter => ?_) fun hafter => ?_
    · simp only [hafter]
      refine (ih.arguments (p + 1) (by omega)).bind (fun e he => by simp only [he])
        fun args q h₂ hq₂ hx => ?_
      simp only [hx]
      refine (follows_readMark _ ts q).bind (fun e he => by simp only [he]) fun _ r h₃ hr hmark => ?_
      simp only [hmark]
      exact .answer _ r _ hr
    · simp only [hafter]
      exact .answer _ p _ hp

/-- An arrow function is looked for like the reader does; only where the search ends without one is
the position free. -/
lemma attempts_readArrow (hdepth : 9 * (ts.length - p) + 8 ≤ depth + 1) :
    Attempts ts (readArrow ts (depth + 1) p) (parseArrow? (ts.drop p)) := by
  rw [readArrow, parseArrow?]
  rcases (ih.params ")" p (by omega)).cases with ⟨e, q, hread, hx⟩ | ⟨params, q, h, hread, hx, hq⟩
  · rw [bind_of_error hread]
    simp only [hx]
    exact .fault e q
  have hpq := lt_of_length_drop_lt h
  rw [bind_of_ok hread, bind_stands]
  simp only [hx]
  rcases after?_drop "=>" ts q with ⟨harrow, hq₂, h₂, hafter⟩ | ⟨harrow, hafter⟩
  swap
  · rw [harrow, if_neg (by simp)]
    simp only [hafter]
    exact .none q
  rw [if_pos harrow, bind_advance]
  simp only [hafter]
  rcases (ih.type (q + 1) (by omega)).cases with ⟨e, q₃, hread₃, hx₃⟩ | ⟨t, q₃, h₃, hread₃, hx₃, hq₃⟩
  · rw [bind_of_error hread₃]
    simp only [hx₃]
    exact .fault e q₃
  · rw [bind_of_ok hread₃]
    simp only [hx₃]
    exact .found _ q₃ (by omega) hq₃

/-- Where no arrow function is found the position is set back, so the reader and the cursor go on
from the same token. -/
lemma tries_readArrow? (hdepth : 9 * (ts.length - p) + 9 ≤ depth + 1) :
    Tries ts p (readArrow? ts (depth + 1) p) (parseArrow? (ts.drop p)) := by
  have harrow := ih.arrow p (by omega)
  rw [readArrow?]
  beta_reduce
  generalize readArrow ts depth p = r at harrow
  generalize parseArrow? (ts.drop p) = x at harrow
  cases harrow with
  | found f q h hq => exact .found f q h hq
  | none q => exact .missed
  | fault e q => exact .missed

/-- The first token decides on a primary type, in the same order for both. -/
lemma follows_readPrimary (hdepth : 9 * (ts.length - p) + 1 ≤ depth + 1) :
    Follows ts (readPrimary ts (depth + 1) p) (parsePrimary (ts.drop p)) := by
  rw [readPrimary]
  rcases readAny_cases ts p with ⟨t, hdrop, hp, hread⟩ | ⟨hdrop, hread⟩
  swap
  · rw [bind_of_error hread, hdrop, parsePrimary]
    exact .fault _ p
  rw [bind_of_ok hread, bind_stands, hdrop, parsePrimary, startsWith_eq]
  refine .ite (fun _ => ?_) fun _ => ?_
  · exact (ih.function (p + 1) (by omega)).last (fun e he => by simp only [he]) fun f q h hq hx =>
      ⟨h.trans (Nat.lt_succ_self _), by simp only [hx]⟩
  refine .ite (fun _ => ?_) fun _ => ?_
  · have harrow := ih.arrow? (p + 1) (by omega)
    generalize hread₂ : readArrow? ts depth (p + 1) = r at harrow
    generalize parseArrow? (ts.drop (p + 1)) = x at harrow
    cases harrow with
    | found f q h hq =>
      rw [bind_of_ok hread₂]
      exact .answer f q _ hq
    | missed =>
      rw [bind_of_ok hread₂]
      refine (ih.type (p + 1) (by omega)).bind (fun e he => by simp only [he]) fun u q h hq hx => ?_
      simp only [hx]
      refine (follows_readMark _ ts q).bind (fun e he => by simp only [he])
        fun _ r h₂ hr hmark => ?_
      simp only [hmark]
      exact .answer _ r _ hr
  refine .ite (fun _ => ?_) fun _ => ?_
  · refine (ih.type (p + 1) (by omega)).bind (fun e he => by simp only [he]) fun u q h hq hx => ?_
    simp only [hx]
    refine (follows_readMark _ ts q).bind (fun e he => by simp only [he]) fun _ r h₂ hr hmark => ?_
    simp only [hmark]
    exact .answer _ r _ hr
  refine .ite (fun _ => ?_) fun _ => ?_
  · exact (ih.braces (p + 1) (by omega)).last (fun e he => by simp only [he]) fun f q h hq hx =>
      ⟨h.trans (Nat.lt_succ_self _), by simp only [hx]⟩
  refine .ite (fun _ => ?_) fun _ => ?_
  · refine (follows_readAny ts (p + 1)).bind (fun e he => by simp only [he]) fun name q h hq hx => ?_
    simp only [hx]
    exact .ite (fun _ => .answer _ q _ hq) fun _ => .fault _ q
  refine .ite (fun _ => .answer _ (p + 1) _ hp) fun _ => ?_
  refine .ite (fun _ => .answer _ (p + 1) _ hp) fun _ => ?_
  exact .ite (fun _ => ih.named t (p + 1) hp (by omega)) fun _ => .fault _ (p + 1)

end

/-- Where the depth is enough, each cursor follows the reader. -/
theorem agrees (ts : List Token) (depth : ℕ) : Agrees ts depth := by
  induction depth with
  | zero => constructor <;> intros <;> omega
  | succ depth ih =>
    exact
      { primary := fun _ => follows_readPrimary ih
        suffixed := fun _ => follows_readPostfix ih
        members := fun _ => follows_readMembers ih
        type := fun _ => follows_readType ih
        arguments := fun _ => follows_readArguments ih
        param := fun _ => follows_readParam ih
        someParams := fun close _ => follows_readSomeParams ih close
        params := fun close _ => follows_readParams ih close
        braces := fun _ => follows_readBraces ih
        arrow := fun _ => attempts_readArrow ih
        arrow? := fun _ => tries_readArrow? ih
        function := fun _ => follows_readFunction ih
        named := fun t _ => follows_readNamed ih t }

/-! ### Progress -/

/-- The reading ends, and it raises the fault that the reader answers of the tokens from `p` on, or
answers the same at a position behind `p` and within the tokens. -/
def EndsAhead {α : Type} (ts : List Token) (p : ℕ) (m : Cursor α) (x : Parse α (ts.drop p)) : Prop :=
  (∃ fault q, m p = some (.error fault, q) ∧ x = .error fault) ∨
    ∃ a q h, m p = some (.ok a, q) ∧ p < q ∧ q ≤ ts.length ∧ x = .ok (a, ⟨ts.drop q, h⟩)

/-- A cursor that follows the reader goes ahead, for the reader leaves fewer tokens. -/
lemma Follows.endsAhead {α : Type} {ts : List Token} {p : ℕ} {m : Cursor α}
    {x : Parse α (ts.drop p)} (h : Follows ts (m p) x) : EndsAhead ts p m x := by
  rcases h.cases with ⟨fault, q, hread, hx⟩ | ⟨a, q, h, hread, hx, hq⟩
  · exact Or.inl ⟨fault, q, hread, hx⟩
  · exact Or.inr ⟨a, q, h, hread, lt_of_length_drop_lt h, hq, hx⟩

/-- A depth that is enough for the nested calls of a reading from `p`. -/
def callDepth (ts : List Token) (p : ℕ) : ℕ :=
  9 * (ts.length - p) + 9

/-- From every position, reading a type, a postfix type, a primary type and parameters ends, with a
fault or further on, and an attempt at an arrow function that reads none ends where it began. -/
theorem reading_endsAhead (ts : List Token) (p depth : ℕ) (close : Text)
    (hdepth : callDepth ts p ≤ depth) :
    EndsAhead ts p (readType ts depth) (parseType (ts.drop p)) ∧
      EndsAhead ts p (readPostfix ts depth) (parsePostfix (ts.drop p)) ∧
      EndsAhead ts p (readPrimary ts depth) (parsePrimary (ts.drop p)) ∧
      EndsAhead ts p (readParams ts close depth) (parseParams close (ts.drop p)) ∧
      ((readArrow? ts depth p = some (.ok none, p) ∧ parseArrow? (ts.drop p) = none) ∨
        ∃ f q h, readArrow? ts depth p = some (.ok (some f), q) ∧ p < q ∧ q ≤ ts.length ∧
          parseArrow? (ts.drop p) = some (f, ⟨ts.drop q, h⟩)) := by
  have h := agrees ts depth
  rw [callDepth] at hdepth
  refine ⟨(h.type p (by omega)).endsAhead, (h.suffixed p (by omega)).endsAhead,
    (h.primary p (by omega)).endsAhead, (h.params close p (by omega)).endsAhead, ?_⟩
  have harrow := h.arrow? p hdepth
  generalize readArrow? ts depth p = r at harrow
  generalize parseArrow? (ts.drop p) = x at harrow
  cases harrow with
  | found f q h hq => exact Or.inr ⟨f, q, h, rfl, lt_of_length_drop_lt h, hq, rfl⟩
  | missed => exact Or.inl ⟨rfl, rfl⟩

/-- The tokens of a type with a parenthesis around its first member. -/
def parenthesised : List Token :=
  [⟨.mark, "("⟩, ⟨.name, "a"⟩, ⟨.mark, ")"⟩, ⟨.mark, "|"⟩, ⟨.name, "b"⟩]

/-- Behind the opening parenthesis an arrow function is tried in vain: the attempt goes over the
closing one and ends where it began. -/
theorem reading_endsAhead_parenthesised :
    Token.tokens "(a) | b" = .ok parenthesised ∧ callDepth parenthesised 1 ≤ 45 ∧
      readArrow? parenthesised 45 1 = some (.ok none, 1) ∧
      EndsAhead parenthesised 1 (readType parenthesised 45) (parseType (parenthesised.drop 1)) ∧
      EndsAhead parenthesised 1 (readPostfix parenthesised 45)
        (parsePostfix (parenthesised.drop 1)) ∧
      EndsAhead parenthesised 1 (readPrimary parenthesised 45)
        (parsePrimary (parenthesised.drop 1)) ∧
      EndsAhead parenthesised 1 (readParams parenthesised ")" 45)
        (parseParams ")" (parenthesised.drop 1)) := by
  have hdepth : callDepth parenthesised 1 ≤ 45 := by decide
  have hmissed : readArrow? parenthesised 45 1 = some (.ok none, 1) := rfl
  obtain ⟨htype, hsuffixed, hprimary, hparams, -⟩ := reading_endsAhead parenthesised 1 45 ")" hdepth
  exact ⟨by decide +kernel, hdepth, hmissed, htype, hsuffixed, hprimary, hparams⟩

end Cursor

end Ambient.TypeExpr

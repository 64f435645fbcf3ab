import Mathlib
import Ambient.Proofs.TypeExpr.Lexical
import Ambient.Proofs.TypeExpr.Tree

/-!
# The tokens of a rendered expression

`spelling t` is the list of tokens of the text of an expression, one by one as the text is put
together.  An expression is *legible* if its names and its literals are tokens and its lists have the
members that their notation needs; the text of such an expression spells exactly these tokens
(`tokens_render`).

A piece of text is followed by others, and a name at its end must not run into them.  `Writes us v`
therefore speaks of what comes next: in front of any text that goes on with no name, the text `v`
adds the tokens `us`.
-/

namespace Ambient

namespace Token

/-! ### Single tokens -/

/-- The token of a mark. -/
def mark (c : Char) : Token :=
  ⟨.mark, [c]⟩

/-- The token of a name. -/
def word (s : Text) : Token :=
  ⟨.name, s⟩

/-- The token of a text with its quotation marks. -/
def quoted (s : Text) : Token :=
  ⟨.text, s⟩

/-- The arrow of an arrow function. -/
def fatArrow : Token :=
  ⟨.arrow, "=>"⟩

/-- The arrow in front of a return type in source notation. -/
def thinArrow : Token :=
  ⟨.arrow, "->"⟩

/-- A text that is one name token. -/
def IsName (s : Text) : Prop :=
  (word s).Lexical

section

variable {c : Char} {s v w : Text} {ts us : List Token}

/-- A word that starts with no digit and has no dots. -/
def IsIdentifier : Text → Prop
  | [] => False
  | c :: cs => isNameStart c = true ∧ cs.all isNameRest = true

instance : DecidablePred IsIdentifier
  | [] => inferInstanceAs (Decidable False)
  | c :: cs => inferInstanceAs (Decidable (isNameStart c = true ∧ cs.all isNameRest = true))

/-- An identifier is a name without dots. -/
lemma IsIdentifier.isName (h : IsIdentifier s) : IsName s := by
  cases s with
  | nil => exact absurd h id
  | cons c s => exact .name (Or.inl h.1) (isNameTail_of_all (List.all_eq_true.mp h.2))

lemma endsName_nil : EndsName [] :=
  ⟨by simp, by simp⟩

/-- A name ends in front of a character that no name has. -/
lemma endsName_cons (h : isNameRest c = false) (hdot : c ≠ '.') : EndsName (c :: w) := by
  refine ⟨fun d hd => ?_, fun d ds heq => ?_⟩
  · obtain rfl : c = d := by simpa using hd
    exact h
  · exact absurd (List.cons.inj heq).1 hdot

lemma isNameRest_of_mem_marks (hc : c ∈ marks) : isNameRest c = false := by
  have hall : (marks.all fun d => !isNameRest d) = true := by decide
  simpa using List.all_eq_true.mp hall c hc

/-- A mark in front of a text is a token in front of its tokens. -/
lemma Spells.mark (hc : c ∈ marks) (hne : c ≠ '=') (h : Spells ts w) :
    Spells (.mark c :: ts) (c :: w) := by
  have hends : Ends (.mark c) w :=
    ⟨fun hkind => absurd hkind (by simp [Token.mark]), fun htext =>
      absurd (List.cons.inj htext).1 hne⟩
  exact .token (.mark hc) hends h

/-- A name in front of a text that ends it is a token in front of its tokens. -/
lemma Spells.word (hs : IsName s) (hw : EndsName w) (h : Spells ts w) :
    Spells (.word s :: ts) (s ++ w) := by
  have hends : Ends (.word s) w := by
    refine ⟨fun _ => hw, fun htext => ?_⟩
    exact absurd (htext ▸ hs.proper (Or.inl rfl)) (by decide)
  exact .token hs hends h

/-- A quoted text is a token in front of the tokens of what follows. -/
lemma Spells.quoted (hs : '"' ∉ s) (h : Spells ts w) :
    Spells (.quoted ('"' :: s ++ ['"']) :: ts) ('"' :: s ++ '"' :: w) := by
  have hends : Ends (.quoted ('"' :: s ++ ['"'])) w :=
    ⟨fun hkind => absurd hkind (by simp [Token.quoted]), fun htext => by simp [Token.quoted] at htext⟩
  simpa [Token.quoted] using Spells.token (.text (Or.inl rfl) hs) hends h

/-- The arrow of declarations is a token of its own. -/
lemma Spells.fatArrow (h : Spells ts w) : Spells (.fatArrow :: ts) ('=' :: '>' :: w) :=
  .token (.arrow (Or.inr rfl)) ⟨by simp [Token.fatArrow], by simp [Token.fatArrow]⟩ h

lemma Spells.thinArrow (h : Spells ts w) : Spells (.thinArrow :: ts) ('-' :: '>' :: w) :=
  .token (.arrow (Or.inl rfl)) ⟨by simp [Token.thinArrow], by simp [Token.thinArrow]⟩ h

/-! ### Pieces of text -/

/-- In front of a text that goes on with no name, `v` adds the tokens `us`. -/
def Writes (us : List Token) (v : Text) : Prop :=
  ∀ ts w, EndsName w → Spells ts w → Spells (us ++ ts) (v ++ w)

/-- What is written in front of any text is also written alone. -/
lemma Writes.spells (h : Writes us v) : Spells us v := by
  simpa using h [] [] endsName_nil .nil

/-- A name is written by its token. -/
lemma writes_word (hs : IsName s) : Writes [.word s] s :=
  fun _ _ hw h => h.word hs hw

end

/-- Lists of tokens one after another with `separator` between them. -/
def joinWith (separator : Token) : List (List Token) → List Token
  | [] => []
  | [us] => us
  | us :: vs :: more => us ++ separator :: joinWith separator (vs :: more)

/-- Pieces with separators between them. -/
lemma writes_joinWith {α : Type} {f : α → List Token} {g : α → Text} {separator : Token}
    {between : Text}
    (hbetween : ∀ ts w, Spells ts w → EndsName (between ++ w) ∧
      Spells (separator :: ts) (between ++ w))
    {xs : List α} (hxs : ∀ x ∈ xs, Writes (f x) (g x)) :
    Writes (joinWith separator (xs.map f)) (Text.joinWith between (xs.map g)) := by
  intro ts w hw h
  induction xs with
  | nil => exact h
  | cons x xs ih =>
    have hx := hxs x (List.mem_cons_self ..)
    cases xs with
    | nil => exact hx ts w hw h
    | cons y ys =>
      have hrest := ih fun z hz => hxs z (List.mem_cons_of_mem x hz)
      obtain ⟨hends, hspells⟩ := hbetween _ _ hrest
      have := hx _ _ hends hspells
      simpa [joinWith, Text.joinWith] using this

end Token

namespace TypeExpr

open Token (mark word quoted fatArrow thinArrow IsName Spells Writes EndsName)

/-! ### The tokens of an expression -/

/-- Tokens between parentheses if `b`. -/
def parenthesesIf (b : Bool) (us : List Token) : List Token :=
  if b then mark '(' :: us ++ [mark ')'] else us

/-- The tokens of a type after those of its name, if it has one. -/
def namedSpelling (name : Option Text) (optional : Bool) (us : List Token) : List Token :=
  match name with
  | none => us
  | some name => word name :: (if optional then [mark '?', mark ':'] else [mark ':']) ++ us

mutual

/-- The tokens of the text of an expression. -/
def spelling : TypeExpr → List Token
  | .atom name => if name = "?" then [mark '?'] else [word name]
  | .reference name => [mark '+', word name]
  | .literal text => [quoted text]
  | .function params returns arrow =>
    let inner := Token.joinWith (mark ',') (spellingOfParams params)
    match spellingOfOption returns with
    | none =>
      if arrow then mark '(' :: inner ++ [mark ')', fatArrow, word "void"]
      else word "fn" :: mark '(' :: inner ++ [mark ')']
    | some result =>
      if arrow then mark '(' :: inner ++ mark ')' :: fatArrow :: result
      else word "fn" :: mark '(' :: inner ++ mark ')' :: thinArrow :: result
  | .array element =>
    parenthesesIf element.isCompound (spelling element) ++ [mark '[', mark ']']
  | .promise result =>
    match spellingOfOption result with
    | none => [word "Promise"]
    | some result => word "Promise" :: mark '<' :: result ++ [mark '>']
  | .generic name args =>
    word name :: mark '<' :: Token.joinWith (mark ',') (spellingOfList args) ++ [mark '>']
  | .map value indexed =>
    mark '{' :: (if indexed then
      [mark '[', word "key", mark ':', word "string", mark ']', mark ':']
      else [word "string", mark ':']) ++ spelling value ++ [mark '}']
  | .object fields => mark '{' :: Token.joinWith (mark ',') (spellingOfParams fields) ++ [mark '}']
  | .union members => Token.joinWith (mark '|') (spellingOfList members)
  | .raw _ => []

/-- The tokens of each of several expressions. -/
def spellingOfList : List TypeExpr → List (List Token)
  | [] => []
  | t :: ts => spelling t :: spellingOfList ts

/-- The tokens of an expression that may be missing. -/
def spellingOfOption : Option TypeExpr → Option (List Token)
  | none => none
  | some t => some (spelling t)

/-- The tokens of each of several parameters. -/
def spellingOfParams : List (Param TypeExpr) → List (List Token)
  | [] => []
  | p :: ps => spellingOfParam p :: spellingOfParams ps

/-- The tokens of a parameter. -/
def spellingOfParam : Param TypeExpr → List Token
  | ⟨name, type, optional⟩ => namedSpelling name optional (spelling type)

end

lemma spellingOfList_eq_map (ts : List TypeExpr) : spellingOfList ts = ts.map spelling := by
  induction ts with
  | nil => rfl
  | cons t ts ih => simp [spellingOfList, ih]

lemma spellingOfParams_eq_map (ps : List TypeParam) :
    spellingOfParams ps = ps.map fun p => namedSpelling p.name p.optional p.type.spelling := by
  induction ps with
  | nil => rfl
  | cons p ps ih =>
    obtain ⟨name, type, optional⟩ := p
    simp [spellingOfParams, spellingOfParam, ih]

/-! ### Legible expressions -/

/-- The names of the parameters that have one are names. -/
def NamesLegible (ps : List TypeParam) : Prop :=
  ∀ p ∈ ps, ∀ name ∈ p.name, IsName name

/-- What a node says by itself is spelt with tokens: its names and its literals are tokens, and a
list has as many members as its notation needs. -/
def Legible : TypeExpr → Prop
  | .atom name => name = "?" ∨ IsName name
  | .reference name => IsName name
  | .literal text => ∃ inner, '"' ∉ inner ∧ text = '"' :: inner ++ ['"']
  | .function params _ _ => NamesLegible params
  | .generic name args => IsName name ∧ args ≠ []
  | .object fields => NamesLegible fields
  | .union members => 2 ≤ members.length
  | .raw _ => False
  | .array _ | .promise _ | .map .. => True

section

variable {t : TypeExpr} {us : List Token} {v : Text}

/-- A comma and a blank stand between two pieces. -/
lemma spells_comma (ts : List Token) (w : Text) (h : Spells ts w) :
    EndsName (", " ++ w) ∧ Spells (mark ',' :: ts) (", " ++ w) :=
  ⟨Token.endsName_cons (by decide) (by decide),
    .mark (by decide) (by decide) (.blank (by decide) h)⟩

/-- A bar with a blank on either side stands between two pieces. -/
lemma spells_bar (ts : List Token) (w : Text) (h : Spells ts w) :
    EndsName (" | " ++ w) ∧ Spells (mark '|' :: ts) (" | " ++ w) :=
  ⟨Token.endsName_cons (by decide) (by decide),
    .blank (by decide) (.mark (by decide) (by decide) (.blank (by decide) h))⟩

/-- A type behind a name is written by the tokens of both. -/
lemma writes_named {name : Option Text} {optional : Bool} (hname : ∀ n ∈ name, IsName n)
    (h : Writes us v) : Writes (namedSpelling name optional us) (namedText name optional v) := by
  cases name with
  | none => exact h
  | some name =>
    intro ts w hw hts
    have htype := h ts w hw hts
    have hn := hname name rfl
    have hcolon : Spells (mark ':' :: (us ++ ts)) (':' :: ' ' :: (v ++ w)) :=
      .mark (by decide) (by decide) (.blank (by decide) htype)
    cases optional with
    | false =>
      simpa [namedSpelling, namedText] using
        Spells.word hn (Token.endsName_cons (by decide) (by decide)) hcolon
    | true =>
      have hquestion := hcolon.mark (c := '?') (by decide) (by decide)
      simpa [namedSpelling, namedText] using
        Spells.word hn (Token.endsName_cons (by decide) (by decide)) hquestion

/-- Parameters are written by their tokens, with commas between them. -/
lemma writes_params {ps : List TypeParam} (hnames : NamesLegible ps)
    (h : ∀ p ∈ ps, Writes p.type.spelling p.type.render) :
    Writes (Token.joinWith (mark ',') (spellingOfParams ps)) (paramListText ps) := by
  rw [paramListText, renderParams_eq_map, spellingOfParams_eq_map]
  exact Token.writes_joinWith spells_comma fun p hp => writes_named (hnames p hp) (h p hp)

lemma isName_fn : IsName "fn" :=
  Token.IsIdentifier.isName (by decide)

lemma isName_void : IsName "void" :=
  Token.IsIdentifier.isName (by decide)

lemma isName_promise : IsName "Promise" :=
  Token.IsIdentifier.isName (by decide)

lemma isName_key : IsName "key" :=
  Token.IsIdentifier.isName (by decide)

lemma isName_string : IsName "string" :=
  Token.IsIdentifier.isName (by decide)

/-- A piece between two marks. -/
lemma writes_between {a b : Char} (ha : a ∈ marks) (hne : a ≠ '=') (hb : b ∈ marks)
    (hne' : b ≠ '=') (hdot : b ≠ '.') (h : Writes us v) :
    Writes (mark a :: us ++ [mark b]) (a :: v ++ [b]) := by
  intro ts w _ hw
  have hclose : Spells (mark b :: ts) (b :: w) := hw.mark hb hne'
  have hends : EndsName (b :: w) := Token.endsName_cons (Token.isNameRest_of_mem_marks hb) hdot
  simpa using (h _ _ hends hclose).mark ha hne

/-- A function is written by its tokens if its parameters and its return type are. -/
lemma writes_function {params : List TypeParam} (hnames : NamesLegible params)
    (hparams : ∀ p ∈ params, Writes p.type.spelling p.type.render) {returns : Option TypeExpr}
    (hreturns : ∀ r ∈ returns, Writes r.spelling r.render) (arrow : Bool) :
    Writes (spelling (.function params returns arrow)) (render (.function params returns arrow)) := by
  have hinner := writes_params hnames hparams
  rw [paramListText] at hinner
  intro ts w hw hts
  have hopen : ∀ us v, Spells (mark ')' :: us) (')' :: v) →
      Spells (mark '(' :: (Token.joinWith (mark ',') (spellingOfParams params) ++ mark ')' :: us))
        ('(' :: (Text.joinWith ", " (renderParams params) ++ ')' :: v)) := by
    intro us v h
    exact (hinner _ _ (Token.endsName_cons (by decide) (by decide)) h).mark (by decide) (by decide)
  have hfn : ∀ us v, Spells (mark '(' :: us) ('(' :: v) →
      Spells (word "fn" :: mark '(' :: us) ('f' :: 'n' :: '(' :: v) := by
    intro us v h
    exact Spells.word isName_fn (Token.endsName_cons (by decide) (by decide)) h
  cases returns with
  | none =>
    cases arrow with
    | false =>
      have hclose : Spells (mark ')' :: ts) (')' :: w) := hts.mark (by decide) (by decide)
      simpa [spelling, render, spellingOfOption, renderOption] using hfn _ _ (hopen _ _ hclose)
    | true =>
      have hvoid : Spells (mark ')' :: fatArrow :: word "void" :: ts)
          (')' :: ' ' :: '=' :: '>' :: ' ' :: ("void" ++ w)) :=
        .mark (by decide) (by decide) (.blank (by decide)
          (.fatArrow (.blank (by decide) (.word isName_void hw hts))))
      simpa [spelling, render, spellingOfOption, renderOption] using hopen _ _ hvoid
  | some r =>
    have hr := hreturns r rfl ts w hw hts
    cases arrow with
    | false =>
      have hresult : Spells (mark ')' :: thinArrow :: (r.spelling ++ ts))
          (')' :: ' ' :: '-' :: '>' :: ' ' :: (r.render ++ w)) :=
        .mark (by decide) (by decide) (.blank (by decide) (.thinArrow (.blank (by decide) hr)))
      simpa [spelling, render, spellingOfOption, renderOption] using hfn _ _ (hopen _ _ hresult)
    | true =>
      have hresult : Spells (mark ')' :: fatArrow :: (r.spelling ++ ts))
          (')' :: ' ' :: '=' :: '>' :: ' ' :: (r.render ++ w)) :=
        .mark (by decide) (by decide) (.blank (by decide) (.fatArrow (.blank (by decide) hr)))
      simpa [spelling, render, spellingOfOption, renderOption] using hopen _ _ hresult

/-- The text of a legible expression adds its tokens. -/
lemma writes_render (h : Everywhere Legible t) : Writes t.spelling t.render := by
  induction t with
  | atom name =>
    rw [everywhere_atom] at h
    by_cases hq : name = "?"
    · subst hq
      intro ts w _ hw
      simpa [spelling, render] using hw.mark (c := '?') (by decide) (by decide)
    · have hname : IsName name := h.resolve_left hq
      rw [spelling, if_neg hq]
      exact Token.writes_word hname
  | reference name =>
    rw [everywhere_reference] at h
    intro ts w hw hts
    exact (hts.word h hw).mark (by decide) (by decide)
  | literal text =>
    rw [everywhere_literal] at h
    obtain ⟨inner, hinner, rfl⟩ := h
    intro ts w _ hts
    simpa [spelling, render] using hts.quoted hinner
  | raw text => exact absurd ((everywhere_raw text).mp h) id
  | array element ih =>
    intro ts w _ hts
    have hsuffix : Spells (mark '[' :: mark ']' :: ts) ('[' :: ']' :: w) :=
      .mark (by decide) (by decide) (hts.mark (by decide) (by decide))
    have hends : EndsName ('[' :: ']' :: w) := Token.endsName_cons (by decide) (by decide)
    have helement := ih ((everywhere_array element).mp h).2
    rw [spelling, render]
    -- parentheses stand around what would take the brackets to itself
    cases element.isCompound with
    | false => simpa [parenthesesIf, parenthesizedIf] using helement _ _ hends hsuffix
    | true =>
      have hparen := writes_between (a := '(') (b := ')') (by decide) (by decide) (by decide)
        (by decide) (by decide) helement
      simpa [parenthesesIf, parenthesizedIf] using hparen _ _ hends hsuffix
  | map value indexed ih =>
    have hvalue := ih ((everywhere_map value indexed).mp h).2
    intro ts w _ hts
    have hclose : Spells (mark '\x7d' :: ts) ('\x7d' :: w) := hts.mark (by decide) (by decide)
    have hends : EndsName ('\x7d' :: w) := Token.endsName_cons (by decide) (by decide)
    have htype : Spells (mark ':' :: (value.spelling ++ mark '\x7d' :: ts))
        (':' :: ' ' :: (value.render ++ '\x7d' :: w)) :=
      .mark (by decide) (by decide) (.blank (by decide) (hvalue _ _ hends hclose))
    cases indexed with
    | false =>
      have hstring := Spells.word isName_string (Token.endsName_cons (by decide) (by decide)) htype
      simpa [spelling, render] using hstring.mark (c := '\x7b') (by decide) (by decide)
    | true =>
      have hbracket := htype.mark (c := ']') (by decide) (by decide)
      have hstring := Spells.word isName_string (Token.endsName_cons (by decide) (by decide))
        hbracket
      have hcolon := (Spells.blank (c := ' ') (by decide) hstring).mark (c := ':') (by decide)
        (by decide)
      have hkey := Spells.word isName_key (Token.endsName_cons (by decide) (by decide)) hcolon
      have hopen := hkey.mark (c := '[') (by decide) (by decide)
      simpa [spelling, render] using hopen.mark (c := '\x7b') (by decide) (by decide)
  | function params returns arrow ihp ihr =>
    obtain ⟨hnames, hp, hr⟩ := (everywhere_function ..).mp h
    exact writes_function hnames (fun p hm => ihp p hm (hp p hm)) (fun r hm => ihr r hm (hr r hm)) arrow
  | promise result ih =>
    cases result with
    | none => exact Token.writes_word isName_promise
    | some r =>
      have hr := ih r rfl (((everywhere_promise _).mp h).2 r rfl)
      have hangle := writes_between (a := '<') (b := '>') (by decide) (by decide) (by decide)
        (by decide) (by decide) hr
      intro ts w hw hts
      have hpromise := Spells.word isName_promise (Token.endsName_cons (by decide) (by decide))
        (hangle ts w hw hts)
      simpa [spelling, render, spellingOfOption, renderOption] using hpromise
  | generic name args ih =>
    obtain ⟨⟨hname, -⟩, ha⟩ := (everywhere_generic name args).mp h
    have hargs := Token.writes_joinWith spells_comma fun a hm => ih a hm (ha a hm)
    have hangle := writes_between (a := '<') (b := '>') (by decide) (by decide) (by decide)
      (by decide) (by decide) hargs
    intro ts w hw hts
    have happlied := Spells.word hname (Token.endsName_cons (by decide) (by decide))
      (hangle ts w hw hts)
    simpa [spelling, render, spellingOfList_eq_map, renderList_eq_map] using happlied
  | object fields ih =>
    obtain ⟨hnames, hp⟩ := (everywhere_object fields).mp h
    have hinner := writes_params hnames fun p hm => ih p hm (hp p hm)
    exact writes_between (by decide) (by decide) (by decide) (by decide) (by decide) hinner
  | union members ih =>
    rw [spelling, render, spellingOfList_eq_map, renderList_eq_map]
    exact Token.writes_joinWith spells_bar fun m hm => ih m hm (((everywhere_union members).mp h).2 m hm)

/-- The scanner reads the tokens of a legible expression of its text. -/
theorem tokens_render (h : Everywhere Legible t) : Token.tokens t.render = .ok t.spelling :=
  Token.tokens_eq_ok_iff.mpr (writes_render h).spells

end

end TypeExpr

end Ambient

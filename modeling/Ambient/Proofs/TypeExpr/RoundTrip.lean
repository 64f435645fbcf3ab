import Mathlib
import Ambient.Proofs.TypeExpr.Completeness
import Ambient.Proofs.TypeExpr.Spelling

/-!
# Reading a rendered expression

`reread t` is the expression that the reader makes of the text of a legible expression `t`
(`parseStrict_render`).  The two differ where the notation cannot tell expressions apart: the members
of a choice inside a choice become members of the outer one, an arrow function without a return type
returns nothing, and a function with a return type takes the members of a choice that stand behind
it into its return type.

So what an expression reads as depends on what follows it.  `rereadMembers t more` are the members of
the choice that is read of the text of `t` when the members `more` follow behind a bar.
-/

namespace Ambient

namespace TypeExpr

open Token (mark word quoted fatArrow thinArrow IsName)

/-! ### What the text of an expression reads as -/

mutual

/-- The members read of the text of an expression with the members `more` behind it. -/
def rereadMembers : TypeExpr → List TypeExpr → List TypeExpr
  | .function params returns arrow, more =>
    match rereadMembersOfOption returns more with
    | some members => [.function (rereadParams params) (some (ofMembers members)) arrow]
    | none =>
      if arrow then [.function (rereadParams params) (some (ofMembers (.atom "void" :: more))) true]
      else .function (rereadParams params) none false :: more
  | .union members, more => rereadMembersOfList members more
  | .atom name, more => ofName name :: more
  | .reference name, more => .reference name :: more
  | .literal text, more => .literal text :: more
  | .array element, more => .array (ofMembers (rereadMembers element [])) :: more
  | .promise result, more => .promise (rereadOption result) :: more
  | .generic name args, more => ofArguments name (rereadList args) :: more
  | .map value indexed, more => .map (ofMembers (rereadMembers value [])) indexed :: more
  | .object fields, more => ofFields (rereadParams fields) :: more
  | .raw text, more => .raw text :: more

/-- The members read of the texts of several expressions with bars between them. -/
def rereadMembersOfList : List TypeExpr → List TypeExpr → List TypeExpr
  | [], more => more
  | t :: ts, more => rereadMembers t (rereadMembersOfList ts more)

/-- The members read of the text of an expression that may be missing. -/
def rereadMembersOfOption : Option TypeExpr → List TypeExpr → Option (List TypeExpr)
  | none, _ => none
  | some t, more => some (rereadMembers t more)

/-- What the texts of several expressions read as. -/
def rereadList : List TypeExpr → List TypeExpr
  | [] => []
  | t :: ts => ofMembers (rereadMembers t []) :: rereadList ts

/-- What the text of an expression that may be missing reads as. -/
def rereadOption : Option TypeExpr → Option TypeExpr
  | none => none
  | some t => some (ofMembers (rereadMembers t []))

/-- What the texts of several parameters read as. -/
def rereadParams : List (Param TypeExpr) → List (Param TypeExpr)
  | [] => []
  | p :: ps => rereadParam p :: rereadParams ps

/-- What the text of a parameter reads as; without a name it does not say that it may be left
out. -/
def rereadParam : Param TypeExpr → Param TypeExpr
  | ⟨name, type, optional⟩ => ⟨name, ofMembers (rereadMembers type []), name.isSome && optional⟩

end

/-- What the text of an expression reads as. -/
def reread (t : TypeExpr) : TypeExpr :=
  ofMembers (rereadMembers t [])

lemma rereadList_eq_map (ts : List TypeExpr) : rereadList ts = ts.map reread := by
  induction ts with
  | nil => rfl
  | cons t ts ih => simp [rereadList, reread, ih]

lemma rereadOption_eq_map (t : Option TypeExpr) : rereadOption t = t.map reread := by
  cases t <;> rfl

/-- What a parameter reads as has its name, its type as it reads, and its mark if it has a name. -/
lemma rereadParams_eq_map (ps : List TypeParam) :
    rereadParams ps = ps.map fun p => ⟨p.name, p.type.reread, p.name.isSome && p.optional⟩ := by
  induction ps with
  | nil => rfl
  | cons p ps ih =>
    obtain ⟨name, type, optional⟩ := p
    simp [rereadParams, rereadParam, reread, ih]

/-- An expression that needs no parentheses reads as one member, whatever follows it. -/
lemma rereadMembers_of_not_compound {t : TypeExpr} (h : t.isCompound = false)
    (more : List TypeExpr) : rereadMembers t more = t.reread :: more := by
  cases t <;> first | rfl | simp [isCompound] at h

/-! ### What stands behind an expression -/

/-- The tokens `tail` are `rest`, or the members `more` behind a bar and then `rest`, and `rest`
stops a type. -/
def Tail (tail : List Token) (more : List TypeExpr) (rest : List Token) : Prop :=
  Stops rest ∧ ((tail = rest ∧ more = []) ∨
    ∃ (bar : Token) (v : List Token), bar.text = "|" ∧ tail = bar :: v ∧
      Reads (parseMembers v) more rest)

/-- The tokens `tail` do not go on with a name or with the keyword of a function in front of them. -/
def Leaves (tail : List Token) : Prop :=
  startsWith "<" tail = false ∧ startsWith "(" tail = false ∧ ¬ StartsWithBoth "[" ":" tail

section

variable {t e : TypeExpr} {ts tail rest us : List Token} {more : List TypeExpr} {text : Text}

/-- Tokens that stop a type have no members in front of them. -/
lemma tail_nil (h : Stops rest) : Tail rest [] rest :=
  ⟨h, Or.inl ⟨rfl, rfl⟩⟩

/-- A bar and members in front of tokens that stop a type are read as these members. -/
lemma tail_bar {bar : Token} (hbar : bar.text = "|") (h : Stops rest)
    (hmore : Reads (parseMembers ts) more rest) : Tail (bar :: ts) more rest :=
  ⟨h, Or.inr ⟨bar, ts, hbar, rfl, hmore⟩⟩

/-- What stands behind an expression begins with a bar or with a closing mark. -/
lemma Tail.startsWith_eq_false (h : Tail tail more rest) (hclose : text ∉ closers)
    (hbar : text ≠ "|") : startsWith text tail = false := by
  obtain ⟨hstops, ⟨rfl, -⟩ | ⟨bar, v, hbar', rfl, -⟩⟩ := h
  · exact hstops.startsWith_eq_false hclose
  · exact startsWith_of_text (by rw [hbar']; exact hbar.symm)

/-- What stands behind an expression does not go on with a name. -/
lemma Tail.leaves (h : Tail tail more rest) : Leaves tail :=
  ⟨h.startsWith_eq_false (by decide) (by decide), h.startsWith_eq_false (by decide) (by decide),
    not_startsWithBoth (h.startsWith_eq_false (by decide) (by decide))⟩

/-- Behind a primary type the members that follow are read. -/
lemma Tail.reads_parseMembers (h : Tail tail more rest) (he : Reads (parsePostfix ts) e tail) :
    Reads (parseMembers ts) (e :: more) rest := by
  rw [TypeExpr.reads_parseMembers]
  refine ⟨e, tail, he, ?_⟩
  obtain ⟨hstops, ⟨rfl, rfl⟩ | ⟨bar, v, hbar, rfl, hmore⟩⟩ := h
  · exact Or.inl ⟨hstops.startsWith_eq_false (by decide), rfl, rfl⟩
  · exact Or.inr ⟨bar, v, more, hbar, rfl, hmore, rfl⟩

/-- No suffixes stand behind an expression. -/
lemma Tail.reads_parsePostfix (h : Tail tail more rest) (he : Reads (parsePrimary ts) e tail) :
    Reads (parsePostfix ts) e tail := by
  have hno : ¬ StartsWithBoth "[" "]" tail :=
    not_startsWithBoth (h.startsWith_eq_false (by decide) (by decide))
  obtain ⟨hvalue, hrest⟩ := arraySuffixes_of_not_both (e := e) hno
  exact TypeExpr.reads_parsePostfix.mpr ⟨e, tail, he, hvalue, hrest⟩

/-! ### Reading one expression -/

/-- The members of an expression are read of its tokens, with those that follow. -/
def ReadsBack (t : TypeExpr) : Prop :=
  ∀ tail more rest, Tail tail more rest →
    Reads (parseMembers (t.spelling ++ tail)) (rereadMembers t more) rest

/-- A primary type is read of the tokens of an expression, and with the suffixes behind it it is what
the expression reads as. -/
def ReadsAlone (t : TypeExpr) : Prop :=
  ∀ tail, Leaves tail → ∃ e us, Reads (parsePrimary (t.spelling ++ tail)) e us ∧
    (arraySuffixes e us).1 = (arraySuffixes t.reread tail).1 ∧
      (arraySuffixes e us).2.1 = (arraySuffixes t.reread tail).2.1

/-- An expression that is read as a primary type is read alone. -/
lemma readsAlone_of_primary
    (h : ∀ tail, Leaves tail → ∃ ts, t.spelling ++ tail = ts ∧
      Reads (parsePrimary ts) t.reread tail) : ReadsAlone t := by
  intro tail htail
  obtain ⟨ts, rfl, hread⟩ := h tail htail
  exact ⟨t.reread, tail, hread, rfl, rfl⟩

/-- An expression that is read alone is read with the members behind it. -/
lemma ReadsAlone.readsBack (h : ReadsAlone t) (ht : t.isCompound = false) : ReadsBack t := by
  intro tail more rest htail
  obtain ⟨e, us, he, hvalue, hrest⟩ := h tail htail.leaves
  have hno : ¬ StartsWithBoth "[" "]" tail :=
    not_startsWithBoth (htail.startsWith_eq_false (by decide) (by decide))
  obtain ⟨hsame, hsame'⟩ := arraySuffixes_of_not_both (e := t.reread) hno
  have hpostfix : Reads (parsePostfix (t.spelling ++ tail)) t.reread tail :=
    reads_parsePostfix.mpr ⟨e, us, he, hvalue.trans hsame, hrest.trans hsame'⟩
  rw [rereadMembers_of_not_compound ht]
  exact htail.reads_parseMembers hpostfix

/-- Of the tokens of an expression, what it reads as is read as a type. -/
lemma ReadsBack.reads_parseType (h : ReadsBack t) (hrest : Stops rest) :
    Reads (parseType (t.spelling ++ rest)) t.reread rest :=
  TypeExpr.reads_parseType.mpr ⟨_, h rest [] rest (tail_nil hrest), rfl⟩

/-- The tokens of a legible expression are lexical. -/
lemma lexical_spelling (h : Everywhere Legible t) : ∀ u ∈ t.spelling, u.Lexical :=
  (writes_render h).spells.lexical

/-- The tokens of an expression that is read back are a type. -/
lemma ReadsBack.derives (h : ReadsBack t) : Derives .type t.spelling := by
  obtain ⟨u, heq, hu⟩ := spans_of_reads_parseType (h.reads_parseType stops_nil)
  obtain rfl : t.spelling = u := by simpa using heq
  exact hu

/-- The tokens of an expression that is read back start like a type. -/
lemma ReadsBack.opens (h : ReadsBack t) (hl : Everywhere Legible t) : Opens t.spelling :=
  h.derives.opens fun x hx => (lexical_spelling hl x hx).proper

/-! ### Parameters and arguments -/

lemma unquote_of_isName {name : Text} (h : IsName name) : unquote name = name := by
  cases h with
  | @name c w hc hw =>
    have hrest := Token.isNameRest_of_first hc
    have hquote : ¬ (c = '"' ∨ c = '\'') := by
      rintro (rfl | rfl) <;> exact absurd hrest (by decide)
    cases w <;> simp [unquote, hquote]

/-- What is read of the tokens of a parameter. -/
lemma reads_parseParam {p : TypeParam} (hname : ∀ n ∈ p.name, IsName n)
    (hl : Everywhere Legible p.type) (h : ReadsBack p.type) (hrest : Stops rest) :
    Reads (parseParam (spellingOfParam p ++ rest)) (rereadParam p) rest := by
  obtain ⟨name, type, optional⟩ := p
  have htype := h.reads_parseType hrest
  cases name with
  | none =>
    have hhead := (h.opens hl).paramHead?_append hrest
    exact (reads_parseParam_plain hhead).mpr ⟨_, htype, rfl⟩
  | some name =>
    have hunquote := unquote_of_isName (hname name rfl)
    have hmay : MayName (word name) := Or.inl rfl
    cases optional with
    | false =>
      have hcolon : (mark ':').text = ":" := rfl
      refine (reads_parseParam_named (paramHead?_colon hmay hcolon)).mpr ⟨_, htype, ?_⟩
      rw [word, hunquote]
      rfl
    | true =>
      have hquestion : (mark '?').text = "?" := rfl
      have hcolon : (mark ':').text = ":" := rfl
      refine (reads_parseParam_named (paramHead?_question hmay hquestion hcolon)).mpr
        ⟨_, htype, ?_⟩
      rw [word, hunquote]
      rfl

/-- The tokens of a parameter do not start with one that closes something. -/
lemma startsWith_spellingOfParam {p : TypeParam} {close : Text} (hname : ∀ n ∈ p.name, IsName n)
    (hl : Everywhere Legible p.type) (h : ReadsBack p.type) (hclose : close ∈ closers) :
    startsWith close (spellingOfParam p ++ rest) = false := by
  obtain ⟨name, type, optional⟩ := p
  cases name with
  | none =>
    obtain ⟨t, w, heq, ht, -⟩ := h.opens hl
    rw [spellingOfParam, namedSpelling, heq]
    exact startsWith_of_text fun htext => ht (htext ▸ hclose)
  | some name =>
    have hproper := (hname name rfl).proper (Or.inl rfl)
    have hsub : ∀ x ∈ closers, x ∈ Token.signs := by decide
    exact startsWith_of_text fun htext => hproper (htext ▸ hsub _ hclose)

section

variable {ps : List TypeParam} {args : List TypeExpr} {close : Text} {c : Token}

/-- Of the tokens of parameters and a closing mark, what the parameters read as is read. -/
lemma reads_parseSomeParams_spelling (hnames : NamesLegible ps)
    (hl : ∀ p ∈ ps, Everywhere Legible p.type) (h : ∀ p ∈ ps, ReadsBack p.type) (hps : ps ≠ [])
    (hc : c.text = close) (hclose : close ∈ closers) (hcomma : close ≠ ",") :
    Reads (parseSomeParams close
      (Token.joinWith (mark ',') (spellingOfParams ps) ++ c :: us)) (rereadParams ps) us := by
  induction ps with
  | nil => exact absurd rfl hps
  | cons p ps ih =>
    have hp : ∀ rest, Stops rest →
        Reads (parseParam (spellingOfParam p ++ rest)) (rereadParam p) rest :=
      fun rest => reads_parseParam (hnames p (List.mem_cons_self ..))
        (hl p (List.mem_cons_self ..)) (h p (List.mem_cons_self ..))
    rw [reads_parseSomeParams]
    cases ps with
    | nil =>
      exact ⟨_, _, hp (c :: us) (stops_cons (hc ▸ hclose)),
        Or.inl ⟨rfl, reads_expect.mpr ⟨c, hc, rfl⟩⟩⟩
    | cons q qs =>
      have hrest := ih (fun r hr => hnames r (List.mem_cons_of_mem p hr))
        (fun r hr => hl r (List.mem_cons_of_mem p hr)) (fun r hr => h r (List.mem_cons_of_mem p hr))
        (List.cons_ne_nil q qs)
      have heq : Token.joinWith (mark ',') (spellingOfParams (p :: q :: qs)) ++ c :: us =
          spellingOfParam p ++ mark ',' ::
            (Token.joinWith (mark ',') (spellingOfParams (q :: qs)) ++ c :: us) := by
        simp [spellingOfParams, Token.joinWith]
      rw [heq]
      refine ⟨_, _, hp _ (stops_cons (by decide)), Or.inr ⟨?_, _, _,
        reads_expect.mpr ⟨mark ',', rfl, rfl⟩, hrest, rfl⟩⟩
      exact startsWith_of_text hcomma.symm

/-- The tokens of several parameters read as what each of them reads as. -/
lemma reads_parseParams_spelling (hnames : NamesLegible ps)
    (hl : ∀ p ∈ ps, Everywhere Legible p.type) (h : ∀ p ∈ ps, ReadsBack p.type)
    (hc : c.text = close) (hclose : close ∈ closers) (hcomma : close ≠ ",") :
    Reads (parseParams close
      (Token.joinWith (mark ',') (spellingOfParams ps) ++ c :: us)) (rereadParams ps) us := by
  rw [reads_parseParams]
  cases ps with
  | nil => exact Or.inl ⟨rfl, reads_expect.mpr ⟨c, hc, rfl⟩⟩
  | cons p ps =>
    refine Or.inr ⟨?_, reads_parseSomeParams_spelling hnames hl h (List.cons_ne_nil p ps) hc hclose
      hcomma⟩
    have hfirst : ∀ rest, startsWith close (spellingOfParam p ++ rest) = false :=
      fun rest => startsWith_spellingOfParam (hnames p (List.mem_cons_self ..))
        (hl p (List.mem_cons_self ..)) (h p (List.mem_cons_self ..)) hclose
    cases ps with
    | nil => exact hfirst (c :: us)
    | cons q qs =>
      simp only [spellingOfParams, Token.joinWith, List.append_assoc]
      exact hfirst _

/-- The tokens of several arguments read as what each of them reads as. -/
lemma reads_parseArguments_spelling (h : ∀ a ∈ args, ReadsBack a) (hargs : args ≠ []) :
    Reads (parseArguments (Token.joinWith (mark ',') (spellingOfList args) ++ mark '>' :: us))
      (rereadList args) (mark '>' :: us) := by
  induction args with
  | nil => exact absurd rfl hargs
  | cons a args ih =>
    have ha : ∀ rest, Stops rest → Reads (parseType (a.spelling ++ rest)) a.reread rest :=
      fun rest => (h a (List.mem_cons_self ..)).reads_parseType
    rw [reads_parseArguments]
    cases args with
    | nil =>
      exact ⟨_, _, ha (mark '>' :: us) (stops_cons (by decide)),
        Or.inl ⟨startsWith_of_text (by decide), rfl, rfl⟩⟩
    | cons b bs =>
      have hrest := ih (fun r hr => h r (List.mem_cons_of_mem a hr)) (List.cons_ne_nil b bs)
      have heq : Token.joinWith (mark ',') (spellingOfList (a :: b :: bs)) ++ mark '>' :: us =
          a.spelling ++ mark ',' ::
            (Token.joinWith (mark ',') (spellingOfList (b :: bs)) ++ mark '>' :: us) := by
        simp [spellingOfList, Token.joinWith]
      rw [heq]
      exact ⟨_, _, ha _ (stops_cons (by decide)), Or.inr ⟨_, _,
        reads_expect.mpr ⟨mark ',', rfl, rfl⟩, hrest, rfl⟩⟩

end

/-! ### The kinds of expression -/

/-- A name is no mark that a type starts with. -/
lemma not_mem_openers {name : Text} (h : IsName name) : (word name).text ∉ openers := by
  have hsub : ∀ x ∈ openers, x ∈ Token.signs := by decide
  exact fun hopen => h.proper (Or.inl rfl) (hsub _ hopen)

/-- A name that no arguments follow stands alone. -/
lemma reads_name {name : Text} (hname : IsName name) (htail : Leaves tail) :
    Reads (parsePrimary (word name :: tail)) (ofName name) tail :=
  (reads_parsePrimary_name rfl (not_mem_openers hname) (Or.inr htail.2.1)).mpr
    ((reads_parseNamed_alone htail.2.2 htail.1).mpr ⟨rfl, rfl⟩)

/-- A name with its arguments between angle brackets. -/
lemma reads_applied {name : Text} {args : List TypeExpr} (hname : IsName name)
    (h : ∀ a ∈ args, ReadsBack a) (hargs : args ≠ []) :
    Reads (parsePrimary (word name :: mark '<' ::
      (Token.joinWith (mark ',') (spellingOfList args) ++ mark '>' :: tail)))
      (ofArguments name (rereadList args)) tail :=
  (reads_parsePrimary_name rfl (not_mem_openers hname)
    (Or.inr (startsWith_of_text (by decide)))).mpr
      ((reads_parseNamed_applied (by rfl)).mpr
        ⟨_, _, reads_parseArguments_spelling h hargs, reads_expect.mpr ⟨mark '>', rfl, rfl⟩, rfl⟩)

lemma exists_of_two_le_length {α : Type} {as : List α} (h : 2 ≤ as.length) :
    ∃ a b more, as = a :: b :: more := by
  rcases as with _ | ⟨a, _ | ⟨b, more⟩⟩
  · simp at h
  · simp at h
  · exact ⟨a, b, more, rfl⟩

/-- The tokens of no expression start with a bracket. -/
lemma startsWith_bracket_spelling (h : Everywhere Legible t) :
    startsWith "[" (t.spelling ++ ts) = false := by
  have hword : ∀ name, IsName name → ∀ us, startsWith "[" (word name :: us) = false := by
    intro name hname us
    exact startsWith_of_text fun htext => not_mem_openers hname (htext ▸ by decide)
  induction t generalizing ts with
  | atom name =>
    rw [everywhere_atom] at h
    by_cases hq : name = "?"
    · rw [spelling, if_pos hq]
      rfl
    · rw [spelling, if_neg hq]
      exact hword name (h.resolve_left hq) ts
  | reference name => rfl
  | literal text =>
    rw [everywhere_literal] at h
    obtain ⟨inner, -, rfl⟩ := h
    exact startsWith_of_text (by simp [quoted])
  | raw text => exact absurd ((everywhere_raw text).mp h) id
  | array element ih =>
    rw [spelling, List.append_assoc]
    cases element.isCompound with
    | false => exact ih ((everywhere_array element).mp h).2
    | true => rfl
  | map value indexed ih => rfl
  | function params returns arrow ihp ihr =>
    rw [spelling]
    cases returns <;> cases arrow <;> rfl
  | promise result ih => cases result <;> rfl
  | generic name args ih => exact hword name ((everywhere_generic name args).mp h).1.1 _
  | object fields ih => rfl
  | union members ih =>
    obtain ⟨hlen, hm⟩ := (everywhere_union members).mp h
    obtain ⟨m, n, ms, rfl⟩ := exists_of_two_le_length hlen
    simp only [spelling, spellingOfList, Token.joinWith, List.append_assoc]
    exact ih m (List.mem_cons_self ..) (hm m (List.mem_cons_self ..))

/-- Fields between braces. -/
lemma reads_fields {fields : List TypeParam} (hnames : NamesLegible fields)
    (hl : ∀ p ∈ fields, Everywhere Legible p.type) (h : ∀ p ∈ fields, ReadsBack p.type) :
    Reads (parsePrimary (mark '\x7b' ::
      (Token.joinWith (mark ',') (spellingOfParams fields) ++ mark '\x7d' :: tail)))
      (ofFields (rereadParams fields)) tail := by
  have hopen : startsWith "["
      (Token.joinWith (mark ',') (spellingOfParams fields) ++ mark '\x7d' :: tail) = false := by
    have hfield : ∀ p ∈ fields, ∀ us, startsWith "[" (spellingOfParam p ++ us) = false := by
      rintro ⟨_ | name, type, optional⟩ hp us
      · exact startsWith_bracket_spelling (hl _ hp)
      · have hname := hnames _ hp name rfl
        exact startsWith_of_text fun htext => not_mem_openers hname (htext ▸ by decide)
    match fields, hfield with
    | [], _ => rfl
    | [p], hfield => exact hfield p (List.mem_cons_self ..) _
    | p :: q :: ps, hfield =>
      simp only [spellingOfParams, Token.joinWith, List.append_assoc]
      exact hfield p (List.mem_cons_self ..) _
  exact (reads_parsePrimary_brace rfl).mpr ((reads_parseBraces_fields hopen).mpr
    ⟨_, reads_parseParams_spelling hnames hl h rfl (by decide) (by decide), rfl⟩)

/-- A name, or the mark of an unknown type, is read alone. -/
lemma readsAlone_atom {name : Text} (h : name = "?" ∨ IsName name) :
    ReadsAlone (.atom name) := by
  refine readsAlone_of_primary fun tail htail => ?_
  by_cases hq : name = "?"
  · subst hq
    exact ⟨_, rfl, (reads_parsePrimary_question rfl).mpr ⟨rfl, rfl⟩⟩
  · exact ⟨_, by rw [spelling, if_neg hq]; rfl, reads_name (h.resolve_left hq) htail⟩

/-- A literal is read alone, by its one token. -/
lemma readsAlone_literal {inner : Text} (h : '"' ∉ inner) :
    ReadsAlone (.literal ('"' :: inner ++ ['"'])) := by
  refine readsAlone_of_primary fun tail _ => ?_
  have hopen : (quoted ('"' :: inner ++ ['"'])).text ∉ openers := by
    have hlex : (quoted ('"' :: inner ++ ['"'])).Lexical := .text (Or.inl rfl) h
    have hsub : ∀ x ∈ openers, x ∈ Token.signs := by decide
    exact fun hmem => hlex.proper (Or.inr rfl) (hsub _ hmem)
  refine ⟨_, rfl, (reads_parsePrimary_text rfl hopen).mpr ⟨rfl, ?_⟩⟩
  simp [reread, rereadMembers, ofMembers, quoted]

/-- An expression between parentheses and in front of a suffix is read alone. -/
lemma reads_group (hl : Everywhere Legible t) (h : ReadsBack t) :
    Reads (parsePrimary (mark '(' :: (t.spelling ++ mark ')' :: mark '[' :: ts))) t.reread
      (mark '[' :: ts) := by
  have hnone : parseArrow? (t.spelling ++ mark ')' :: mark '[' :: ts) = none :=
    h.derives.parseArrow?_eq_none (fun x hx => (lexical_spelling hl x hx).proper) rfl
      (startsWith_of_text (by decide))
  exact (reads_parsePrimary_parenthesis rfl).mpr (Or.inr ⟨hnone, _,
    h.reads_parseType (stops_cons (by decide)), reads_expect.mpr ⟨mark ')', rfl, rfl⟩⟩)

/-- An array is read alone: its brackets are suffixes, behind parentheses if its element is
compound. -/
lemma readsAlone_array (hl : Everywhere Legible t) (h : ReadsBack t)
    (halone : t.isCompound = false → ReadsAlone t) : ReadsAlone (.array t) := by
  intro tail htail
  have hsuffix : (arraySuffixes t.reread (mark '[' :: mark ']' :: tail)).1 =
        (arraySuffixes (.array t.reread) tail).1 ∧
      (arraySuffixes t.reread (mark '[' :: mark ']' :: tail)).2.1 =
        (arraySuffixes (.array t.reread) tail).2.1 := arraySuffixes_of_both rfl rfl
  have hreread : reread (.array t) = .array t.reread := rfl
  rw [spelling, hreread, ← hsuffix.1, ← hsuffix.2]
  cases hcompound : t.isCompound with
  | true =>
    have heq : parenthesesIf true t.spelling ++ [mark '[', mark ']'] ++ tail =
        mark '(' :: (t.spelling ++ mark ')' :: mark '[' :: mark ']' :: tail) := by
      simp [parenthesesIf]
    rw [heq]
    exact ⟨_, _, reads_group hl h, rfl, rfl⟩
  | false =>
    have hleaves : Leaves (mark '[' :: mark ']' :: tail) := by
      refine ⟨rfl, rfl, ?_⟩
      rintro ⟨a, b, us, -, hb, heq⟩
      obtain ⟨-, htail'⟩ := List.cons.inj heq
      obtain ⟨rfl, -⟩ := List.cons.inj htail'
      exact absurd hb (by decide)
    obtain ⟨e, us, he, hvalue, hrest⟩ := halone hcompound _ hleaves
    have heq : parenthesesIf false t.spelling ++ [mark '[', mark ']'] ++ tail =
        t.spelling ++ mark '[' :: mark ']' :: tail := by
      simp [parenthesesIf]
    rw [heq]
    exact ⟨e, us, he, hvalue, hrest⟩

/-- A promise is read alone, with a result or without one. -/
lemma readsAlone_promise {result : Option TypeExpr} (h : ∀ r ∈ result, ReadsBack r) :
    ReadsAlone (.promise result) := by
  refine readsAlone_of_primary fun tail htail => ?_
  cases result with
  | none => exact ⟨_, rfl, reads_name isName_promise htail⟩
  | some r =>
    have hargs : ∀ a ∈ [r], ReadsBack a := by simpa using h
    refine ⟨_, ?_, reads_applied isName_promise hargs (List.cons_ne_nil r [])⟩
    simp [spelling, spellingOfOption, spellingOfList, Token.joinWith]

lemma readsAlone_generic {name : Text} {args : List TypeExpr} (hname : IsName name)
    (hargs : args ≠ []) (h : ∀ a ∈ args, ReadsBack a) : ReadsAlone (.generic name args) := by
  refine readsAlone_of_primary fun tail _ => ?_
  exact ⟨_, by simp [spelling], reads_applied hname h hargs⟩

/-- A map is read alone, in either of its spellings. -/
lemma readsAlone_map (hl : Everywhere Legible t) (h : ReadsBack t) (indexed : Bool) :
    ReadsAlone (.map t indexed) := by
  refine readsAlone_of_primary fun tail _ => ?_
  cases indexed with
  | false =>
    -- a bare map is written like an object with the one field `string`
    have hname : NamesLegible [⟨some "string", t, false⟩] := by
      simpa [NamesLegible] using isName_string
    refine ⟨_, ?_, reads_fields hname (by simpa using hl) (by simpa using h)⟩
    simp [spelling, spellingOfParams, spellingOfParam, namedSpelling, Token.joinWith]
  | true =>
    have hstop : Stops (mark '\x7d' :: tail) := stops_cons (by decide)
    have hvalue := h.reads_parseType hstop
    have hhead : Reads (indexHead (word "key" :: mark ':' :: word "string" :: mark ']' :: mark ':' ::
        (t.spelling ++ mark '\x7d' :: tail))) () (t.spelling ++ mark '\x7d' :: tail) :=
      reads_indexHead.mpr ⟨_, _, _, _, _, rfl, rfl, rfl, rfl⟩
    have hbraces := (reads_parsePrimary_brace (t := mark '\x7b') rfl).mpr
      ((reads_parseBraces_indexed (a := mark '[') rfl).mpr
        ⟨_, _, _, hhead, hvalue, reads_expect.mpr ⟨mark '\x7d', rfl, rfl⟩, rfl⟩)
    exact ⟨_, by simp [spelling], hbraces⟩

/-- An object is read alone, as fields between braces. -/
lemma readsAlone_object {fields : List TypeParam} (hnames : NamesLegible fields)
    (hl : ∀ p ∈ fields, Everywhere Legible p.type) (h : ∀ p ∈ fields, ReadsBack p.type) :
    ReadsAlone (.object fields) := by
  refine readsAlone_of_primary fun tail _ => ?_
  exact ⟨_, by simp [spelling], reads_fields hnames hl h⟩

/-- A return type takes in the members that follow it. -/
lemma ReadsBack.reads_parseType_tail (h : ReadsBack t) (htail : Tail tail more rest) :
    Reads (parseType (t.spelling ++ tail)) (ofMembers (rereadMembers t more)) rest :=
  TypeExpr.reads_parseType.mpr ⟨_, h tail more rest htail, rfl⟩

/-- A primary type that takes in everything up to the end of a choice is its only member. -/
lemma reads_parseMembers_last (he : Reads (parsePrimary ts) e rest) (hrest : Stops rest) :
    Reads (parseMembers ts) [e] rest :=
  (tail_nil hrest).reads_parseMembers ((tail_nil hrest).reads_parsePostfix he)

section

variable {params : List TypeParam}

/-- A function in source notation without a return type. -/
lemma reads_open (hparams : ∀ us, Reads (parseParams ")"
      (Token.joinWith (mark ',') (spellingOfParams params) ++ mark ')' :: us))
      (rereadParams params) us) (hno : startsWith "->" tail = false) :
    Reads (parsePrimary (word "fn" :: mark '(' ::
      (Token.joinWith (mark ',') (spellingOfParams params) ++ mark ')' :: tail)))
      (.function (rereadParams params) none false) tail :=
  (reads_parsePrimary_fn rfl rfl rfl).mpr (reads_parseFunction.mpr
    ⟨_, _, hparams tail, Or.inl ⟨hno, rfl, rfl⟩⟩)

/-- A function with a return type, in either notation. -/
lemma reads_returning (hparams : ∀ us, Reads (parseParams ")"
      (Token.joinWith (mark ',') (spellingOfParams params) ++ mark ')' :: us))
      (rereadParams params) us) (arrow : Bool) (hresult : Reads (parseType ts) e rest) :
    Reads (parsePrimary ((if arrow then [mark '('] else [word "fn", mark '(']) ++
      (Token.joinWith (mark ',') (spellingOfParams params) ++
        mark ')' :: (if arrow then fatArrow else thinArrow) :: ts)))
      (.function (rereadParams params) (some e) arrow) rest := by
  cases arrow with
  | true =>
    exact (reads_parsePrimary_parenthesis rfl).mpr (Or.inl (readsArrow.mpr
      ⟨_, _, _, _, hparams _, reads_expect.mpr ⟨fatArrow, rfl, rfl⟩, hresult, rfl⟩))
  | false =>
    exact (reads_parsePrimary_fn rfl rfl rfl).mpr (reads_parseFunction.mpr
      ⟨_, _, hparams _, Or.inr ⟨_, _, reads_expect.mpr ⟨thinArrow, rfl, rfl⟩, hresult, rfl⟩⟩)

/-- A function is read back; the members behind a return type are members of this type. -/
lemma readsBack_function (hnames : NamesLegible params)
    (hl : ∀ p ∈ params, Everywhere Legible p.type) (hp : ∀ p ∈ params, ReadsBack p.type)
    {returns : Option TypeExpr} (hr : ∀ r ∈ returns, ReadsBack r) (arrow : Bool) :
    ReadsBack (.function params returns arrow) := by
  intro tail more rest htail
  have hparams : ∀ us, Reads (parseParams ")"
      (Token.joinWith (mark ',') (spellingOfParams params) ++ mark ')' :: us))
      (rereadParams params) us :=
    fun us => reads_parseParams_spelling hnames hl hp rfl (by decide) (by decide)
  cases returns with
  | none =>
    cases arrow with
    | false =>
      have hread := reads_open hparams (htail.startsWith_eq_false (by decide) (by decide))
      have heq : spelling (.function params none false) ++ tail = word "fn" :: mark '(' ::
          (Token.joinWith (mark ',') (spellingOfParams params) ++ mark ')' :: tail) := by
        simp [spelling, spellingOfOption]
      rw [heq]
      exact htail.reads_parseMembers (htail.reads_parsePostfix hread)
    | true =>
      have hvoid : ReadsBack (.atom "void") := (readsAlone_atom (Or.inr isName_void)).readsBack rfl
      have hread := reads_returning hparams true (hvoid.reads_parseType_tail htail)
      have heq : spelling (.function params none true) ++ tail = [mark '('] ++
          (Token.joinWith (mark ',') (spellingOfParams params) ++
            mark ')' :: fatArrow :: (spelling (.atom "void") ++ tail)) := by
        simp [spelling, spellingOfOption]
      rw [heq]
      exact reads_parseMembers_last hread htail.1
  | some r =>
    have hread := reads_returning hparams arrow ((hr r rfl).reads_parseType_tail htail)
    have heq : spelling (.function params (some r) arrow) ++ tail =
        (if arrow then [mark '('] else [word "fn", mark '(']) ++
          (Token.joinWith (mark ',') (spellingOfParams params) ++
            mark ')' :: (if arrow then fatArrow else thinArrow) :: (r.spelling ++ tail)) := by
      cases arrow <;> simp [spelling, spellingOfOption]
    rw [heq]
    exact reads_parseMembers_last hread htail.1

end

/-- A choice is read back member by member. -/
lemma readsBack_union {members : List TypeExpr} (h : ∀ m ∈ members, ReadsBack m)
    (hne : members ≠ []) : ReadsBack (.union members) := by
  intro tail more rest htail
  induction members with
  | nil => exact absurd rfl hne
  | cons m ms ih =>
    have hm := h m (List.mem_cons_self ..)
    cases ms with
    | nil => exact hm tail more rest htail
    | cons n ms =>
      have hrest := ih (fun k hk => h k (List.mem_cons_of_mem m hk)) (List.cons_ne_nil n ms)
      have heq : spelling (.union (m :: n :: ms)) ++ tail =
          m.spelling ++ mark '|' :: (spelling (.union (n :: ms)) ++ tail) := by
        simp [spelling, spellingOfList, Token.joinWith]
      rw [heq]
      exact hm _ _ rest (tail_bar rfl htail.1 hrest)

/-! ### Reading every expression -/

/-- The members of a legible expression are read of its tokens. -/
lemma readsBack_and_readsAlone (h : Everywhere Legible t) :
    ReadsBack t ∧ (t.isCompound = false → ReadsAlone t) := by
  have hboth : ∀ t, t.isCompound = false → ReadsAlone t →
      ReadsBack t ∧ (t.isCompound = false → ReadsAlone t) :=
    fun t hc ha => ⟨ha.readsBack hc, fun _ => ha⟩
  induction t with
  | atom name => exact hboth _ rfl (readsAlone_atom ((everywhere_atom name).mp h))
  | reference name =>
    exact hboth _ rfl (readsAlone_of_primary fun tail _ =>
      ⟨_, rfl, (reads_parsePrimary_plus rfl).mpr ⟨word name, rfl, rfl, rfl⟩⟩)
  | literal text =>
    obtain ⟨inner, hinner, rfl⟩ := (everywhere_literal text).mp h
    exact hboth _ rfl (readsAlone_literal hinner)
  | raw text => exact absurd ((everywhere_raw text).mp h) id
  | array element ih =>
    obtain ⟨-, he⟩ := (everywhere_array element).mp h
    exact hboth _ rfl (readsAlone_array he (ih he).1 (ih he).2)
  | map value indexed ih =>
    obtain ⟨-, hv⟩ := (everywhere_map value indexed).mp h
    exact hboth _ rfl (readsAlone_map hv (ih hv).1 indexed)
  | function params returns arrow ihp ihr =>
    obtain ⟨hnames, hp, hr⟩ := (everywhere_function ..).mp h
    refine ⟨?_, fun hc => absurd hc (by simp [isCompound])⟩
    exact readsBack_function hnames hp (fun p hm => (ihp p hm (hp p hm)).1)
      (fun r hm => (ihr r hm (hr r hm)).1) arrow
  | promise result ih =>
    obtain ⟨-, hr⟩ := (everywhere_promise result).mp h
    exact hboth _ rfl (readsAlone_promise fun r hm => (ih r hm (hr r hm)).1)
  | generic name args ih =>
    obtain ⟨⟨hname, hargs⟩, ha⟩ := (everywhere_generic name args).mp h
    exact hboth _ rfl (readsAlone_generic hname hargs fun a hm => (ih a hm (ha a hm)).1)
  | object fields ih =>
    obtain ⟨hnames, hp⟩ := (everywhere_object fields).mp h
    exact hboth _ rfl (readsAlone_object hnames hp fun p hm => (ih p hm (hp p hm)).1)
  | union members ih =>
    obtain ⟨hlen, hm⟩ := (everywhere_union members).mp h
    refine ⟨readsBack_union (fun m hmem => (ih m hmem (hm m hmem)).1) ?_,
      fun hc => absurd hc (by simp [isCompound])⟩
    rintro rfl
    exact absurd hlen (by simp [Legible])

/-- Every expression with legible nodes throughout is read back. -/
lemma readsBack (h : Everywhere Legible t) : ReadsBack t :=
  (readsBack_and_readsAlone h).1

/-- The text of a legible expression reads as `reread` says. -/
theorem parseStrict_render (h : Everywhere Legible t) : parseStrict t.render = .ok t.reread := by
  have hread := (readsBack h).reads_parseType stops_nil
  have hne : t.spelling ≠ [] := ((readsBack h).opens h).ne_nil
  rw [List.append_nil] at hread
  rw [parseStrict, tokens_render h]
  exact (ofTokens_eq_ok hne).mpr hread

end

end TypeExpr

end Ambient

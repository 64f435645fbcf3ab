import Mathlib
import Ambient.Proofs.TypeExpr.Soundness
import Ambient.Proofs.Signature.Declared
import Ambient.Proofs.Signature.OnePass

/-!
# Types are no declarations

The reader of declarations looks at characters and the reader of types at tokens, and both accept texts
that begin with a name.  What tells them apart is the second token.  The head of a declaration has an
opening parenthesis, a colon or a question mark behind its name, or a further name behind the word
`static` (`tokens_of_declarationHead?`); a type that begins with a name goes on with a bracket, an angle
bracket or a bar, or it is a function type behind its keyword, which is no name of a declaration
(`Derives.second_of_name`).
-/

namespace Ambient

namespace TypeExpr

variable {t u : Token} {us : List Token}

/-! ### The second token of a type -/

/-- What a continuation begins with. -/
lemma Continuation.first (h : Continuation (u :: us)) : u.text = "[" ∨ u.text = "|" := by
  cases h with
  | choice hbar => exact Or.inr hbar
  | suffix ha => exact Or.inl ha

/-- A type whose first token is a name goes on with arguments, array suffixes or a bar, or it is a
function type behind its keyword. -/
lemma Derives.second_of_name (h : Derives .type (t :: u :: us)) (ht : t.Proper)
    (hkind : t.kind = .name) :
    (t.text = "fn" ∧ u.text = "(") ∨ u.text = "[" ∨ u.text = "<" ∨ u.text = "|" := by
  obtain ⟨p, s, hp, hs, heq⟩ := h.exists_primary
  have hsign : t.text ∉ Token.signs := ht (Or.inl hkind)
  -- a name is no sign, so no phrase that begins with a sign is left
  have hno : ∀ {o : Token} {w : List Token} {text : Text}, t :: u :: us = o :: w → o.text = text →
      text ∈ Token.signs → False := by
    intro o w text hcons htext hmem
    obtain ⟨rfl, -⟩ := List.cons.inj hcons
    exact hsign (htext ▸ hmem)
  cases hp with
  | function _ hf ho =>
    obtain ⟨rfl, hrest⟩ := List.cons.inj heq
    obtain ⟨rfl, -⟩ := List.cons.inj hrest
    exact Or.inl ⟨hf, ho⟩
  | functionTo _ hf ho =>
    obtain ⟨rfl, hrest⟩ := List.cons.inj heq
    obtain ⟨rfl, -⟩ := List.cons.inj hrest
    exact Or.inl ⟨hf, ho⟩
  | name =>
    obtain ⟨rfl, rfl⟩ := List.cons.inj heq
    rcases hs.first with hbracket | hbar
    · exact Or.inr (Or.inl hbracket)
    · exact Or.inr (Or.inr (Or.inr hbar))
  | assigned _ ha =>
    obtain ⟨rfl, hrest⟩ := List.cons.inj heq
    obtain ⟨rfl, -⟩ := List.cons.inj hrest
    exact Or.inr (Or.inl ha)
  | applied _ ha =>
    obtain ⟨rfl, hrest⟩ := List.cons.inj heq
    obtain ⟨rfl, -⟩ := List.cons.inj hrest
    exact Or.inr (Or.inr (Or.inl ha))
  | literal htext =>
    obtain ⟨rfl, -⟩ := List.cons.inj heq
    rw [hkind] at htext
    cases htext
  | arrow ho => exact (hno heq ho (by decide)).elim
  | group ho => exact (hno heq ho (by decide)).elim
  | bracketed ho => exact (hno heq ho (by decide)).elim
  | indexed ho => exact (hno heq ho (by decide)).elim
  | fields ho => exact (hno heq ho (by decide)).elim
  | reference ho => exact (hno heq ho (by decide)).elim
  | unknown ho => exact (hno heq ho (by decide)).elim

end TypeExpr

namespace Signature

open Token (mark word)

/-! ### The first tokens of a declaration -/

section

variable {c : Char} {cs rest name : Text} {sep : Separator} {ts : List Token} {isStatic : Bool}

/-- The characters that a separator begins with. -/
def Separates (c : Char) : Prop :=
  c = '(' ∨ c = ':' ∨ c = '?'

/-- A separator begins with one of its characters. -/
lemma exists_mark_of_separator? (h : separator? cs = some (sep, rest)) :
    ∃ d ds, cs = d :: ds ∧ Separates d := by
  unfold separator? at h
  split at h
  · exact ⟨_, _, rfl, Or.inl rfl⟩
  · exact ⟨_, _, rfl, Or.inr (Or.inl rfl)⟩
  · exact ⟨_, _, rfl, Or.inr (Or.inr rfl)⟩
  · cases h

/-- The scanner reads a mark that starts no arrow as one token. -/
lemma first?_mark (hc : Separates c) (cs : Text) : Token.first? c cs = some (mark c, cs) := by
  have hmark : c ∈ marks ∧ c ≠ '=' := by
    rcases hc with rfl | rfl | rfl <;> decide
  obtain ⟨hmark, hne⟩ := hmark
  have hends : Token.Ends (mark c) cs :=
    ⟨fun hkind => absurd hkind (by simp [mark]), fun htext => absurd (List.cons.inj htext).1 hne⟩
  exact Token.first?_eq_some.mpr ⟨.mark hmark, hends, rfl⟩

/-- The tokens of a text whose first token is known. -/
lemma exists_tokens_of_first? {w : Text} {t : Token} (h : Token.scan w = .ok ts)
    (hw : w.dropWhile isBlank = c :: cs) (ht : Token.first? c cs = some (t, rest)) :
    ∃ us, ts = t :: us ∧ Token.scan rest = .ok us := by
  rw [Token.scan_of_token hw ht] at h
  cases hrest : Token.scan rest with
  | error e => rw [hrest] at h; cases h
  | ok us =>
    rw [hrest] at h
    exact ⟨us, (Except.ok.inj h).symm, rfl⟩

/-- A name with a separator behind it is a name token with a mark behind it. -/
lemma tokens_of_nameHead? (hhead : nameHead? cs = some (name, sep, rest))
    (hts : Token.scan cs = .ok ts) :
    ∃ d us, ts = word name :: mark d :: us ∧ Separates d := by
  cases cs with
  | nil => cases hhead
  | cons c ds =>
    rw [nameHead?] at hhead
    split_ifs at hhead with hstart
    obtain ⟨head, hsep, heq⟩ := Option.map_eq_some_iff.mp hhead
    obtain ⟨rfl, -⟩ := Prod.mk.inj heq
    obtain ⟨d, es, htrim, hd⟩ := exists_mark_of_separator? hsep
    -- No further name follows after a dot, since no separator begins with one.
    have hdots : Token.EndsName (ds.dropWhile isNameRest) := by
      refine ⟨fun e he => ?_, fun e es' hdot => ?_⟩
      · have := List.head?_dropWhile_not isNameRest ds
        rw [Option.mem_def.mp he] at this
        simpa using this
      · rw [hdot] at htrim
        obtain rfl : '.' = d := (List.cons.inj htrim).1
        rcases hd with h | h | h <;> exact absurd h (by decide)
    have hall : ∀ e ∈ ds.takeWhile isNameRest, isNameRest e = true := fun e he =>
      List.mem_takeWhile_imp he
    have hfirst : Token.first? c ds =
        some (word (c :: ds.takeWhile isNameRest), ds.dropWhile isNameRest) := by
      have hname : Token.IsName (c :: ds.takeWhile isNameRest) :=
        .name (Or.inl hstart) (Token.isNameTail_of_all hall)
      refine Token.first?_eq_some.mpr ⟨hname, ⟨fun _ => hdots, fun htext => ?_⟩, ?_⟩
      · exact absurd (htext ▸ hname.proper (Or.inl rfl)) (by decide)
      · rw [word, List.cons_append, List.takeWhile_append_dropWhile]
    have hblank : isBlank c = false := by
      cases hb : isBlank c with
      | false => rfl
      | true =>
        have := isNameRest_of_isNameStart hstart
        rw [isNameRest_of_isBlank hb] at this
        cases this
    obtain ⟨us, rfl, hus⟩ :=
      exists_tokens_of_first? hts (List.dropWhile_cons_of_neg (by simp [hblank])) hfirst
    obtain ⟨vs, rfl, -⟩ := exists_tokens_of_first? hus htrim (first?_mark hd es)
    exact ⟨d, vs, rfl, hd⟩

/-- The word `static` with white space behind it is a name token. -/
lemma tokens_of_afterStatic? {ds : Text} (hstatic : afterStatic? cs = some ds)
    (hts : Token.scan cs = .ok ts) :
    ∃ us, ts = word "static" :: us ∧ Token.scan ds = .ok us := by
  unfold afterStatic? at hstatic
  split at hstatic
  · next e es hafter =>
    split_ifs at hstatic with hblank
    obtain rfl := Option.some.inj hstatic
    obtain rfl := Text.after?_eq_some_iff.mp hafter
    have hname : Token.IsName "static" := Token.IsIdentifier.isName (by decide)
    have hends : Token.EndsName (e :: es) := by
      refine Token.endsName_cons (isNameRest_of_isBlank hblank) ?_
      rintro rfl
      exact absurd hblank (by decide)
    have hfirst : Token.first? 's' ("tatic" ++ e :: es) = some (word "static", e :: es) := by
      refine Token.first?_eq_some.mpr ⟨hname, ⟨fun _ => hends, fun htext => ?_⟩, rfl⟩
      exact absurd htext (by decide)
    obtain ⟨us, rfl, hus⟩ := exists_tokens_of_first? hts (by rfl) hfirst
    refine ⟨us, rfl, ?_⟩
    rw [Text.trimStart, Token.scan_dropWhile]
    rwa [Token.scan_blank hblank] at hus
  · cases hstatic

/-- The head of a declaration is its name with a mark behind it, or the word `static` with its name
behind it. -/
lemma tokens_of_declarationHead? (hhead : declarationHead? cs = some (isStatic, name, sep, rest))
    (hts : Token.scan cs = .ok ts) :
    (∃ d us, ts = word name :: mark d :: us ∧ Separates d) ∨
      ∃ us, ts = word "static" :: word name :: us := by
  unfold declarationHead? at hhead
  split at hhead
  · next head hbind =>
    obtain ⟨ds, hstatic, hname⟩ := Option.bind_eq_some_iff.mp hbind
    obtain ⟨-, rfl⟩ := Prod.mk.inj (Option.some.inj hhead)
    obtain ⟨us, rfl, hus⟩ := tokens_of_afterStatic? hstatic hts
    obtain ⟨d, vs, rfl, -⟩ := tokens_of_nameHead? hname hus
    exact Or.inr ⟨_, rfl⟩
  · obtain ⟨head, hname, heq⟩ := Option.map_eq_some_iff.mp hhead
    obtain ⟨-, rfl⟩ := Prod.mk.inj heq
    exact Or.inl (tokens_of_nameHead? hname hts)

end

/-! ### The two readers -/

section

variable {w : Text} {e : TypeExpr} {ts : List Token}

/-- The tokens of an accepted text are a type, unless there are none. -/
lemma derives_of_parseStrict (h : TypeExpr.parseStrict w = .ok e) (hts : Token.tokens w = .ok ts)
    (hne : ts ≠ []) : TypeExpr.Derives .type ts := by
  rw [TypeExpr.parseStrict, hts] at h
  obtain ⟨us, heq, hus⟩ := TypeExpr.spans_of_reads_parseType ((TypeExpr.ofTokens_eq_ok hne).mp h)
  rw [List.append_nil] at heq
  exact heq ▸ hus

/-- An accepted text with the head of a declaration is a function type. -/
lemma name_of_declarationHead? (h : TypeExpr.parseStrict w = .ok e) {name rest : Text}
    {sep : Separator} {isStatic : Bool}
    (hhead : declarationHead? w.trim = some (isStatic, name, sep, rest)) : name = "fn" := by
  cases hts : Token.tokens w with
  | error fault => rw [TypeExpr.parseStrict, hts] at h; cases h
  | ok ts =>
    have hproper : ∀ t ∈ ts, t.Proper := fun t ht =>
      ((Token.tokens_eq_ok_iff.mp hts).lexical t ht).proper
    have hscan : Token.scan w.trim = .ok ts := by
      rw [← hts, ← Token.tokens_trim w, Token.tokens, Text.trim_eq, Text.trimEnd_trimEnd]
    have hderives := derives_of_parseStrict h hts
    rcases tokens_of_declarationHead? hhead hscan with ⟨d, us, rfl, hd⟩ | ⟨us, rfl⟩
    · have hsecond := (hderives (by simp)).second_of_name (hproper _ (List.mem_cons_self ..)) rfl
      have hnone : d ≠ '[' ∧ d ≠ '<' ∧ d ≠ '|' := by
        rcases hd with rfl | rfl | rfl <;> decide
      obtain ⟨hbracket, hangle, hbar⟩ := hnone
      rcases hsecond with ⟨hfn, -⟩ | h | h | h
      · exact hfn
      · exact absurd (List.cons.inj h).1 hbracket
      · exact absurd (List.cons.inj h).1 hangle
      · exact absurd (List.cons.inj h).1 hbar
    · have hsecond := (hderives (by simp)).second_of_name (hproper _ (List.mem_cons_self ..)) rfl
      have hname : name ∉ Token.signs :=
        hproper (word name) (List.mem_cons_of_mem _ (List.mem_cons_self ..)) (Or.inl rfl)
      have hne : ∀ {text : Text}, text ∈ Token.signs → name ≠ text := by
        rintro text hmem rfl
        exact hname hmem
      rcases hsecond with ⟨hfn, -⟩ | h | h | h
      · exact absurd hfn (by decide)
      · exact absurd h (hne (by decide))
      · exact absurd h (hne (by decide))
      · exact absurd h (hne (by decide))

/-- What the strict reader accepts as a type is no declaration. -/
lemma ofDeclaration?_eq_none (h : TypeExpr.parseStrict w = .ok e) : ofDeclaration? w = none := by
  unfold ofDeclaration?
  split
  · rfl
  · next hhead => exact if_pos (name_of_declarationHead? h hhead)

/-- The rules start from the expression that an accepted text writes. -/
lemma ofSource_of_parseStrict (h : TypeExpr.parseStrict w = .ok e) (c : Circumstances) :
    ofSource c w = { name := c.name, type := e, isStatic := c.isStatic } := by
  rw [ofSource, ofDeclaration?_eq_none h, TypeExpr.parse_of_parseStrict h]

/-- A type expression is never mistaken for a declaration: every text that the reader of types accepts
declares nothing, so the rules are applied to the expression that it writes, under the name of the
member. -/
theorem ofDeclaration?_of_parseStrict (h : TypeExpr.parseStrict w = .ok e) :
    ofDeclaration? w = none ∧ ∀ c : Circumstances,
      ofSource c w = { name := c.name, type := e, isStatic := c.isStatic } ∧
        translate c w =
          Rule.applyAll c Rule.all { name := c.name, type := e, isStatic := c.isStatic } ∧
        (translate c w).name = c.name := by
  refine ⟨ofDeclaration?_eq_none h, fun c => ?_⟩
  have hsource := ofSource_of_parseStrict h c
  refine ⟨hsource, ?_, name_translate c w⟩
  rw [translate, hsource]

/-- The text `static[] | constructor<fn>` is a type although it begins like a declaration. -/
theorem ofDeclaration?_static_array :
    let e : TypeExpr := .union [.array (.atom "static"), .generic "constructor" [.atom "fn"]]
    let w : Text := "static[] | constructor<fn>"
    TypeExpr.parseStrict w = .ok e ∧ ofDeclaration? w = none ∧
      ofSource { name := "x", isStatic := true } w = { name := "x", type := e, isStatic := true } := by
  intro e w
  have hstatic : Token.IsName "static" := Token.IsIdentifier.isName (by decide)
  have hconstructor : Token.IsName "constructor" := Token.IsIdentifier.isName (by decide)
  have hfn : Token.IsName "fn" := Token.IsIdentifier.isName (by decide)
  have hplain : ("static" : Text) ≠ "Promise" ∧ ("constructor" : Text) ≠ "Promise" ∧
      ("fn" : Text) ≠ "Promise" := by decide
  have hprint : TypeExpr.Everywhere TypeExpr.Printable e := by
    simp [e, TypeExpr.Printable, TypeExpr.isUnion, TypeExpr.TakesMembers, hstatic, hconstructor, hfn,
      hplain, -String.reduceToList]
  have hparse : TypeExpr.parseStrict w = .ok e := TypeExpr.parseStrict_render_of_printable hprint
  obtain ⟨hnone, hsource⟩ := ofDeclaration?_of_parseStrict hparse
  exact ⟨hparse, hnone, (hsource _).1⟩

end

end Signature

end Ambient

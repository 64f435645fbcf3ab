import Mathlib
import Ambient.Proofs.TypeExpr.RoundTrip

/-!
# The texts of function types

A text is read as a function type if its tokens are those of a function, in the notation of documents
or in that of declarations, or those of such a text in parentheses (`FunctionTokens`).  Every other
text has another type or none: a function that an array suffix or a bar follows is part of an array or
of a choice, and parentheses that close later belong to its last part.
-/

namespace Ambient

namespace TypeExpr

/-- The tokens of a function type. -/
inductive FunctionTokens : List Token → Prop
  | closed {u : List Token} {f o c : Token} : f.kind = .name → f.text = "fn" → o.text = "(" →
      Derives .params u → c.text = ")" → FunctionTokens (f :: o :: u ++ [c])
  | returning {u v : List Token} {f o c a : Token} : f.kind = .name → f.text = "fn" →
      o.text = "(" → Derives .params u → c.text = ")" → a.text = "->" → Derives .type v →
      FunctionTokens (f :: o :: u ++ c :: a :: v)
  | arrow {u v : List Token} {o c a : Token} : o.text = "(" → Derives .params u → c.text = ")" →
      a.text = "=>" → Derives .type v → FunctionTokens (o :: u ++ c :: a :: v)
  | group {u : List Token} {o c : Token} : o.text = "(" → FunctionTokens u → c.text = ")" →
      FunctionTokens (o :: u ++ [c])

/-- A text that spells a function type. -/
def IsFunctionText (w : Text) : Prop :=
  ∃ ts, Token.Spells ts w ∧ FunctionTokens ts

section

variable {ts u rest : List Token} {e : TypeExpr} {w : Text}

/-! ### Function types are read -/

/-- The tokens of a function type are derived as a type. -/
lemma FunctionTokens.derives (h : FunctionTokens u) : Derives .type u := by
  induction h with
  | closed hkind hf ho hu hc => exact .single (.plain (.function hkind hf ho hu hc))
  | returning hkind hf ho hu hc ha hv =>
    exact .single (.plain (.functionTo hkind hf ho hu hc ha hv))
  | arrow ho hu hc ha hv => exact .single (.plain (.arrow ho hu hc ha hv))
  | group ho _ hc ih => exact .single (.plain (.group ho ih hc))

/-- The tokens of a function type are read as one, up to what stops it. -/
lemma FunctionTokens.exists_reads (h : FunctionTokens u) (hu : ∀ t ∈ u, t.Proper)
    (hrest : Stops rest) : ∃ e, Reads (parsePrimary (u ++ rest)) e rest ∧ e.isFunction = true := by
  induction h generalizing rest with
  | @closed u f o c hkind hf ho hd hc =>
    have hno : startsWith "->" rest = false := hrest.startsWith_eq_false (by decide)
    have hproper : ∀ t ∈ u, t.Proper := fun t ht => hu t (by simp [ht])
    have heq : f :: o :: u ++ [c] ++ rest = f :: o :: (u ++ c :: rest) := by simp
    rw [heq]
    exact accepts_function (typesAccepted _) (Nat.lt_succ_self _) hproper hkind hf ho hd hc hno
  | @returning u v f o c a hkind hf ho hd hc ha hv =>
    have hproper : ∀ t ∈ u, t.Proper := fun t ht => hu t (by simp [ht])
    obtain ⟨r, hr⟩ := exists_reads_of_derives hv (fun t ht => hu t (by simp [ht])) hrest
    have heq : f :: o :: u ++ c :: a :: v ++ rest = f :: o :: (u ++ c :: a :: (v ++ rest)) := by
      simp
    rw [heq]
    exact accepts_functionTo (typesAccepted _) (Nat.lt_succ_self _) hproper hkind hf ho hd hc ha hr
  | @arrow u v o c a ho hd hc ha hv =>
    have hproper : ∀ t ∈ u, t.Proper := fun t ht => hu t (by simp [ht])
    obtain ⟨r, hr⟩ := exists_reads_of_derives hv (fun t ht => hu t (by simp [ht])) hrest
    have heq : o :: u ++ c :: a :: v ++ rest = o :: (u ++ c :: a :: (v ++ rest)) := by simp
    rw [heq]
    exact accepts_arrow (typesAccepted _) (Nat.lt_succ_self _) hproper ho hd hc ha hr
  | @group u o c ho hfunction hc ih =>
    have hproper : ∀ t ∈ u, t.Proper := fun t ht => hu t (by simp [ht])
    have hstop : Stops (c :: rest) := stops_cons (by rw [hc]; decide)
    obtain ⟨e, he, hfe⟩ := ih hproper hstop
    have hnone : parseArrow? (u ++ c :: rest) = none :=
      hfunction.derives.parseArrow?_eq_none hproper hc (hrest.startsWith_eq_false (by decide))
    have hinner : Reads (parseType (u ++ c :: rest)) e (c :: rest) :=
      reads_parseType.mpr ⟨[e], reads_parseMembers_last he hstop, rfl⟩
    have heq : o :: u ++ [c] ++ rest = o :: (u ++ c :: rest) := by simp
    rw [heq]
    exact ⟨e, (reads_parsePrimary_parenthesis ho).mpr
      (Or.inr ⟨hnone, c :: rest, hinner, reads_expect.mpr ⟨c, hc, rfl⟩⟩), hfe⟩

/-! ### What is read as a function is one -/

/-- A name is no function. -/
lemma isFunction_ofName (name : Text) : (ofName name).isFunction = false := by
  rcases ofName_cases name with ⟨-, h⟩ | ⟨-, h⟩ <;> rw [h] <;> rfl

/-- A named type with arguments is no function. -/
lemma isFunction_ofArguments (name : Text) (args : List TypeExpr) :
    (ofArguments name args).isFunction = false := by
  rcases ofArguments_cases name args with ⟨result, -, -, h⟩ | ⟨-, h⟩ <;> rw [h] <;> rfl

/-- Braces are no function. -/
lemma isFunction_ofFields (fields : List TypeParam) : (ofFields fields).isFunction = false := by
  rcases ofFields_cases fields with ⟨type, -, h⟩ | ⟨-, h⟩ <;> rw [h] <;> rfl

/-- What is read of a name is no function. -/
lemma isFunction_of_reads_parseNamed {t : Token} (h : Reads (parseNamed t ts) e rest) :
    e.isFunction = false := by
  by_cases hboth : StartsWithBoth "[" ":" ts
  · obtain ⟨a, b, us, ha, hb, rfl⟩ := hboth
    obtain ⟨_, arg, _, -, -, -, rfl⟩ := (reads_parseNamed_variable ha hb).mp h
    exact isFunction_ofArguments t.text [arg]
  · cases hopen : startsWith "<" ts with
    | true =>
      obtain ⟨a, us, ha, rfl⟩ := startsWith_iff.mp hopen
      obtain ⟨args, _, -, -, rfl⟩ := (reads_parseNamed_applied ha).mp h
      exact isFunction_ofArguments t.text args
    | false =>
      obtain ⟨rfl, -⟩ := (reads_parseNamed_alone hboth hopen).mp h
      exact isFunction_ofName t.text

/-- What is read of braces is no function. -/
lemma isFunction_of_reads_parseBraces (h : Reads (parseBraces ts) e rest) :
    e.isFunction = false := by
  cases hopen : startsWith "[" ts with
  | true =>
    obtain ⟨b, us, hb, rfl⟩ := startsWith_iff.mp hopen
    obtain ⟨_, value, _, -, -, -, rfl⟩ := (reads_parseBraces_indexed hb).mp h
    rfl
  | false =>
    obtain ⟨fields, -, rfl⟩ := (reads_parseBraces_fields hopen).mp h
    exact isFunction_ofFields fields

/-- Brackets behind what is no function make none of it. -/
lemma isFunction_arraySuffixes (he : e.isFunction = false) :
    (arraySuffixes e ts).1.isFunction = false := by
  obtain ⟨k, hk⟩ : ∃ k, ts.length = k := ⟨_, rfl⟩
  induction k using Nat.strong_induction_on generalizing e ts with
  | _ k ih =>
  by_cases hboth : StartsWithBoth "[" "]" ts
  · obtain ⟨a, b, vs, ha, hb, rfl⟩ := hboth
    rw [(arraySuffixes_of_both ha hb).1]
    exact ih vs.length (by simp [← hk]) rfl rfl
  · rw [(arraySuffixes_of_not_both hboth).1]
    exact he

/-- What is read as a function has no array suffixes behind it. -/
lemma not_startsWithBoth_of_isFunction (h : (arraySuffixes e ts).1.isFunction = true) :
    ¬ StartsWithBoth "[" "]" ts := by
  rintro ⟨a, b, vs, ha, hb, rfl⟩
  rw [(arraySuffixes_of_both ha hb).1, isFunction_arraySuffixes rfl] at h
  exact absurd h (by decide)

/-- A function that is read as a type is read as a primary type. -/
lemma reads_parsePrimary_of_isFunction (h : Reads (parseType ts) e rest)
    (he : e.isFunction = true) : Reads (parsePrimary ts) e rest := by
  obtain ⟨ms, hms, rfl⟩ := reads_parseType.mp h
  obtain ⟨t, us, hpostfix, ⟨-, rfl, rfl⟩ | ⟨bar, vs, ns, -, -, hns, rfl⟩⟩ := reads_parseMembers.mp hms
  · obtain ⟨p, ws, hprimary, rfl, rfl⟩ := reads_parsePostfix.mp hpostfix
    have hno : ¬ StartsWithBoth "[" "]" ws := not_startsWithBoth_of_isFunction he
    rw [(arraySuffixes_of_not_both hno).1, (arraySuffixes_of_not_both hno).2]
    exact hprimary
  · -- with a second member the type is a choice
    obtain ⟨_, _, -, ⟨-, rfl, -⟩ | ⟨_, _, _, -, -, -, rfl⟩⟩ := reads_parseMembers.mp hns <;>
      exact absurd he (by simp [ofMembers, isFunction])

/-- The tokens that are read as a function are those of a function type. -/
lemma exists_functionTokens (h : Reads (parseType ts) e rest) (he : e.isFunction = true) :
    ∃ u, ts = u ++ rest ∧ FunctionTokens u := by
  induction hk : ts.length using Nat.strong_induction_on generalizing ts rest with
  | _ k ih =>
  have hprimary := reads_parsePrimary_of_isFunction h he
  cases ts with
  | nil => exact absurd hprimary not_reads_parsePrimary_nil
  | cons t ts =>
    rw [reads_parsePrimary] at hprimary
    split_ifs at hprimary with hfn hparen hbracket hbrace hplus hquestion htext hname
    · obtain ⟨o, c, u, ho, hu, hc, rfl | ⟨a, v, ha, hv, rfl⟩⟩ :=
        tokens_of_function (typesDerive _) (Nat.lt_succ_self _) hfn.2.2 hprimary
      · exact ⟨t :: o :: u ++ [c], by simp, .closed hfn.1 hfn.2.1 ho hu hc⟩
      · exact ⟨t :: o :: u ++ c :: a :: v, by simp, .returning hfn.1 hfn.2.1 ho hu hc ha hv⟩
    · rcases hprimary with harrow | ⟨-, us, hinner, hclose⟩
      · obtain ⟨c, a, u, v, hu, hc, ha, hv, rfl⟩ :=
          tokens_of_arrow (typesDerive _) (Nat.lt_succ_self _) harrow
        exact ⟨t :: u ++ c :: a :: v, by simp, .arrow hparen hu hc ha hv⟩
      · obtain ⟨u, rfl, hu⟩ := ih ts.length (by simp [← hk]) hinner rfl
        obtain ⟨c, hc, rfl⟩ := reads_expect.mp hclose
        exact ⟨t :: u ++ [c], by simp, .group hparen hu hc⟩
    · obtain ⟨element, us, -, -, rfl⟩ := hprimary
      exact absurd he (by simp [isFunction])
    · rw [isFunction_of_reads_parseBraces hprimary] at he
      exact absurd he (by decide)
    · obtain ⟨name, -, -, rfl⟩ := hprimary
      exact absurd he (by simp [isFunction])
    · obtain ⟨-, rfl⟩ := hprimary
      exact absurd he (by simp [isFunction])
    · obtain ⟨-, rfl⟩ := hprimary
      exact absurd he (by simp [isFunction])
    · rw [isFunction_of_reads_parseNamed hprimary] at he
      exact absurd he (by decide)

/-! ### Whole texts -/

/-- A function type has tokens. -/
lemma FunctionTokens.ne_nil (h : FunctionTokens u) : u ≠ [] := by
  cases h <;> simp

/-- A list of tokens is read as a function exactly if it is that of a function type. -/
lemma exists_ofTokens_isFunction (hts : ∀ t ∈ ts, t.Proper) :
    (∃ e, ofTokens ts = .ok e ∧ e.isFunction = true) ↔ FunctionTokens ts := by
  constructor
  · rintro ⟨e, he, hfunction⟩
    by_cases hne : ts = []
    · subst hne
      obtain rfl : .atom "?" = e := by simpa [ofTokens] using he
      exact absurd hfunction (by decide)
    · obtain ⟨u, hu, h⟩ := exists_functionTokens ((ofTokens_eq_ok hne).mp he) hfunction
      rw [List.append_nil] at hu
      exact hu ▸ h
  · intro h
    obtain ⟨e, he, hfunction⟩ := h.exists_reads hts stops_nil
    have hread : Reads (parseType (ts ++ [])) e [] :=
      reads_parseType.mpr ⟨[e], reads_parseMembers_last he stops_nil, rfl⟩
    rw [List.append_nil] at hread
    exact ⟨e, (ofTokens_eq_ok h.ne_nil).mpr hread, hfunction⟩

/-- A text is read as a function exactly if it spells a function type. -/
lemma isFunction_parse_iff : (parse w).isFunction = true ↔ IsFunctionText w := by
  rw [parse, parseStrict]
  cases hts : Token.tokens w with
  | error fault =>
    constructor
    · intro h
      exact absurd h (by simp [isFunction])
    · rintro ⟨ts, hspells, -⟩
      cases hts.symm.trans (Token.tokens_eq_ok_iff.mpr hspells)
  | ok ts =>
    have hspells := Token.tokens_eq_ok_iff.mp hts
    have hiff := exists_ofTokens_isFunction fun t ht => (hspells.lexical t ht).proper
    have htext : IsFunctionText w ↔ FunctionTokens ts := by
      constructor
      · rintro ⟨us, hus, h⟩
        obtain rfl := Except.ok.inj (hts.symm.trans (Token.tokens_eq_ok_iff.mpr hus))
        exact h
      · exact fun h => ⟨ts, hspells, h⟩
    rw [htext, ← hiff]
    cases hof : ofTokens ts with
    | ok e => simp [hof]
    | error fault => simp [hof, isFunction]

end

end TypeExpr

end Ambient

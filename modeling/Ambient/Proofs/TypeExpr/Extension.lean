import Mathlib
import Ambient.Proofs.TypeExpr.Completeness

/-!
# Reading in front of more tokens

The reader looks ahead: whether a bar, a suffix, an arrow or the arguments of a name follow decides
what it makes of the tokens before.  So what is read of some tokens may change when more tokens are
put behind them.  It does not if the tokens behind a type stop it: the type is then read as before, and
the new tokens are left with the old ones (`reads_append_of_stops`).

Inside a type the tokens that are left may also go on with a bar or a suffix.  `Continues rest more`
says what may stand behind a primary type so that it stays what it is.  As everywhere, the induction is
on the number of tokens: `TypesExtend n` is the statement for lists with fewer than `n` tokens.
-/

namespace Ambient

namespace TypeExpr

/-- A type read of fewer than `n` tokens is read in front of more tokens as well, if what is left then
stops a type. -/
def TypesExtend (n : ℕ) : Prop :=
  ∀ ts : List Token, ts.length < n → (∀ t ∈ ts, t.Proper) → ∀ e rest more,
    Reads (parseType ts) e rest → Stops (rest ++ more) →
      Reads (parseType (ts ++ more)) e (rest ++ more)

/-- The tokens `rest` go on with a bar or with a suffix, or together with the tokens `more` they stop
a type. -/
def Continues (rest more : List Token) : Prop :=
  Stops (rest ++ more) ∨ startsWith "|" rest = true ∨ StartsWithBoth "[" "]" rest

section

variable {n : ℕ} {u v ts us rest more : List Token} {e : TypeExpr} {close text : Text} {ph : Phrase}

/-- What holds of all tokens of a phrase and behind it holds of those behind it. -/
lemma Spans.forall_mem {P : Token → Prop} (h : Spans ph ts rest) (hts : ∀ t ∈ ts, P t) :
    ∀ t ∈ rest, P t := by
  obtain ⟨u, rfl, -⟩ := h
  exact fun t ht => hts t (List.mem_append_right u ht)

/-- A token is expected whatever stands behind it. -/
lemma append_expect (h : Reads (expect text ts) () rest) (more : List Token) :
    Reads (expect text (ts ++ more)) () (rest ++ more) := by
  obtain ⟨t, ht, rfl⟩ := reads_expect.mp h
  exact reads_expect.mpr ⟨t, ht, rfl⟩

/-! ### What is left of a type -/

/-- The tokens that are left of a type go on with no bar and no suffix. -/
lemma not_startsWith_of_reads_parseType (h : Reads (parseType ts) e rest) :
    startsWith "|" rest = false ∧ ¬ StartsWithBoth "[" "]" rest := by
  have hsuffixes : ∀ (k : ℕ) (e : TypeExpr) (us : List Token), us.length = k →
      ¬ StartsWithBoth "[" "]" (arraySuffixes e us).2.1 := by
    intro k
    induction k using Nat.strong_induction_on with
    | _ k ih =>
    intro e us hk
    by_cases hboth : StartsWithBoth "[" "]" us
    · obtain ⟨a, b, vs, ha, hb, rfl⟩ := hboth
      rw [(arraySuffixes_of_both ha hb).2]
      exact ih vs.length (by simp [← hk]) _ vs rfl
    · rwa [(arraySuffixes_of_not_both hboth).2]
  obtain ⟨ms, hms, -⟩ := reads_parseType.mp h
  induction hk : ts.length using Nat.strong_induction_on generalizing ts e ms with
  | _ k ih =>
  obtain ⟨m, us, hpostfix, ⟨hbar, -, rfl⟩ | ⟨bar, vs, ns, -, rfl, hns, -⟩⟩ :=
    reads_parseMembers.mp hms
  · obtain ⟨p, vs, -, -, rfl⟩ := reads_parsePostfix.mp hpostfix
    exact ⟨hbar, hsuffixes _ p vs rfl⟩
  · have hshort := hpostfix.length_lt
    rw [List.length_cons] at hshort
    exact ih vs.length (by omega) (reads_parseType.mpr ⟨ns, hns, rfl⟩) ns hns rfl

/-- Where a type ends, nothing but tokens that stop it can follow. -/
lemma Continues.stops (h : Continues rest more) (hr : Reads (parseType ts) e rest) :
    Stops (rest ++ more) := by
  obtain ⟨hbar, hboth⟩ := not_startsWith_of_reads_parseType hr
  rcases h with h | h | h
  · exact h
  · rw [h] at hbar
    exact absurd hbar (by decide)
  · exact absurd h hboth

/-- What continues a type starts with none of the tokens that a primary type would take in. -/
lemma Continues.startsWith_eq_false (h : Continues rest more) (hclose : text ∉ closers)
    (hbar : text ≠ "|") (hbracket : text ≠ "[") : startsWith text (rest ++ more) = false := by
  rcases h with h | h | ⟨a, b, us, ha, -, rfl⟩
  · exact h.startsWith_eq_false hclose
  · obtain ⟨t, us, ht, rfl⟩ := startsWith_iff.mp h
    exact startsWith_of_text (by rw [ht]; exact hbar.symm)
  · exact startsWith_of_text (by rw [ha]; exact hbracket.symm)

/-- Tokens that go on with a type begin no type variable behind a name. -/
lemma Continues.not_startsWithBoth (h : Continues rest more) :
    ¬ StartsWithBoth "[" ":" (rest ++ more) := by
  rcases h with h | h | ⟨a, b, us, -, hb, rfl⟩
  · exact TypeExpr.not_startsWithBoth (h.startsWith_eq_false (by decide))
  · obtain ⟨t, us, ht, rfl⟩ := startsWith_iff.mp h
    exact TypeExpr.not_startsWithBoth (startsWith_of_text (by rw [ht]; decide))
  · rintro ⟨a', b', us', -, hb', heq⟩
    obtain ⟨-, htail⟩ := List.cons.inj heq
    obtain ⟨rfl, -⟩ := List.cons.inj htail
    rw [hb] at hb'
    exact absurd hb' (by decide)

/-! ### Parameters and arguments -/

/-- A parameter is read in front of more tokens that stop its type. -/
lemma append_param (H : TypesExtend n) (hlen : ts.length < n) (hts : ∀ t ∈ ts, t.Proper)
    {p : TypeParam} (h : Reads (parseParam ts) p rest) (hstops : Stops (rest ++ more)) :
    Reads (parseParam (ts ++ more)) p (rest ++ more) := by
  cases hhead : paramHead? ts with
  | none =>
    obtain ⟨e, he, rfl⟩ := (reads_parseParam_plain hhead).mp h
    obtain ⟨u, rfl, hu⟩ := spans_of_reads_parseType he
    have hopens := hu.opens fun t ht => hts t (List.mem_append_left rest ht)
    have hnone : paramHead? (u ++ rest ++ more) = none := by
      rw [List.append_assoc]
      exact hopens.paramHead?_append hstops
    exact (reads_parseParam_plain hnone).mpr ⟨e, H _ hlen hts e rest more he hstops, rfl⟩
  | some r =>
    obtain ⟨name, optional, us, hus⟩ := r
    obtain ⟨e, he, rfl⟩ := (reads_parseParam_named hhead).mp h
    obtain ⟨t, hname, rfl, ⟨c, hc, rfl, rfl⟩ | ⟨q, c, hq, hc, rfl, rfl⟩⟩ := eq_of_paramHead? hhead
    · have he' := H us (by omega) (fun x hx => hts x (by simp [hx])) e rest more he hstops
      exact (reads_parseParam_named (paramHead?_colon hname hc)).mpr ⟨e, he', rfl⟩
    · have he' := H us (by omega) (fun x hx => hts x (by simp [hx])) e rest more he hstops
      exact (reads_parseParam_named (paramHead?_question hname hq hc)).mpr ⟨e, he', rfl⟩

/-- Parameters end at their closing mark, so more tokens change nothing. -/
lemma append_someParams (H : TypesExtend n) (hlen : ts.length < n) (hts : ∀ t ∈ ts, t.Proper)
    (hclose : close ∈ closers) {ps : List TypeParam}
    (h : Reads (parseSomeParams close ts) ps rest) (more : List Token) :
    Reads (parseSomeParams close (ts ++ more)) ps (rest ++ more) := by
  induction hk : ts.length using Nat.strong_induction_on generalizing ts ps with
  | _ k ih =>
  obtain ⟨p, us, hp, ⟨rfl, hend⟩ | ⟨hopen, vs, qs, hcomma, hqs, rfl⟩⟩ := reads_parseSomeParams.mp h
  · obtain ⟨c, hc, rfl⟩ := reads_expect.mp hend
    have hstops : Stops (c :: rest ++ more) := stops_cons (hc ▸ hclose)
    exact reads_parseSomeParams.mpr ⟨p, _, append_param H hlen hts hp hstops,
      Or.inl ⟨rfl, append_expect hend more⟩⟩
  · obtain ⟨c, hc, rfl⟩ := reads_expect.mp hcomma
    have hstops : Stops (c :: vs ++ more) := stops_cons (by rw [hc]; decide)
    have hvs := (spans_param (typesDerive n) hlen hp).forall_mem hts
    have hshort := hp.length_lt
    rw [List.length_cons] at hshort
    have hrest := ih vs.length (by omega) (by omega) (List.forall_mem_cons.mp hvs).2 hqs rfl
    exact reads_parseSomeParams.mpr ⟨p, _, append_param H hlen hts hp hstops,
      Or.inr ⟨hopen, _, qs, append_expect hcomma more, hrest, rfl⟩⟩

/-- A list of parameters ends at its closing mark, so more tokens change nothing. -/
lemma append_params (H : TypesExtend n) (hlen : ts.length < n) (hts : ∀ t ∈ ts, t.Proper)
    (hclose : close ∈ closers) {ps : List TypeParam}
    (h : Reads (parseParams close ts) ps rest) (more : List Token) :
    Reads (parseParams close (ts ++ more)) ps (rest ++ more) := by
  rcases reads_parseParams.mp h with ⟨rfl, hend⟩ | ⟨hopen, hsome⟩
  · exact reads_parseParams.mpr (Or.inl ⟨rfl, append_expect hend more⟩)
  · have hne : ts ≠ [] := by
      rintro rfl
      exact absurd hsome.length_lt (Nat.not_lt_zero _)
    refine reads_parseParams.mpr (Or.inr ⟨?_, append_someParams H hlen hts hclose hsome more⟩)
    rwa [startsWith_append_of_ne_nil hne]

/-- Arguments end at their closing bracket, so more tokens change nothing. -/
lemma append_arguments (H : TypesExtend n) (hlen : ts.length < n) (hts : ∀ t ∈ ts, t.Proper)
    {args : List TypeExpr} {c : Token} (hc : c.text = ">")
    (h : Reads (parseArguments ts) args (c :: rest)) (more : List Token) :
    Reads (parseArguments (ts ++ more)) args (c :: (rest ++ more)) := by
  induction hk : ts.length using Nat.strong_induction_on generalizing ts args with
  | _ k ih =>
  obtain ⟨a, us, ha, ⟨-, rfl, rfl⟩ | ⟨vs, as, hcomma, has, rfl⟩⟩ := reads_parseArguments.mp h
  · have hstops : Stops (c :: rest ++ more) := stops_cons (by rw [hc]; decide)
    exact reads_parseArguments.mpr ⟨a, _, H ts hlen hts a _ more ha hstops,
      Or.inl ⟨startsWith_of_text (by rw [hc]; decide), rfl, rfl⟩⟩
  · obtain ⟨d, hd, rfl⟩ := reads_expect.mp hcomma
    have hstops : Stops (d :: vs ++ more) := stops_cons (by rw [hd]; decide)
    have hvs := (spans_of_reads_parseType ha).forall_mem hts
    have hshort := ha.length_lt
    rw [List.length_cons] at hshort
    have hrest := ih vs.length (by omega) (by omega) (List.forall_mem_cons.mp hvs).2 has rfl
    exact reads_parseArguments.mpr ⟨a, _, H ts hlen hts a _ more ha hstops,
      Or.inr ⟨_, as, append_expect hcomma more, hrest, rfl⟩⟩

/-! ### Primary types -/

/-- A function ends with its parameters or with a result that more tokens do not go on with. -/
lemma append_function (H : TypesExtend n) (hlen : ts.length < n) (hts : ∀ t ∈ ts, t.Proper)
    {o : Token} (h : Reads (parseFunction (o :: ts)) e rest) (hcont : Continues rest more) :
    Reads (parseFunction (o :: (ts ++ more))) e (rest ++ more) := by
  obtain ⟨ps, us, hps, hreturn⟩ := reads_parseFunction.mp h
  have hps' := append_params H hlen hts (by decide) hps more
  rcases hreturn with ⟨-, rfl, rfl⟩ | ⟨ws, r, harrow, hr, rfl⟩
  · exact reads_parseFunction.mpr ⟨ps, _, hps', Or.inl
      ⟨hcont.startsWith_eq_false (by decide) (by decide) (by decide), rfl, rfl⟩⟩
  · have hshort := hps.length_lt
    have hws := harrow.length_lt
    obtain ⟨a, -, rfl⟩ := reads_expect.mp harrow
    obtain ⟨c, -, hspan⟩ := spans_params (typesDerive n) hlen hps
    have hus := (List.forall_mem_cons.mp (hspan.forall_mem hts)).2
    have hr' := H ws (by omega) (List.forall_mem_cons.mp hus).2 r rest more hr (hcont.stops hr)
    exact reads_parseFunction.mpr
      ⟨ps, _, hps', Or.inr ⟨_, r, append_expect harrow more, hr', rfl⟩⟩

/-- An arrow function ends with a result that more tokens do not go on with. -/
lemma append_arrow (H : TypesExtend n) (hlen : ts.length < n) (hts : ∀ t ∈ ts, t.Proper)
    (h : ReadsArrow ts e rest) (hcont : Continues rest more) :
    ReadsArrow (ts ++ more) e (rest ++ more) := by
  obtain ⟨ps, us, ws, r, hps, harrow, hr, rfl⟩ := readsArrow.mp h
  have hshort := hps.length_lt
  have hws := harrow.length_lt
  obtain ⟨a, -, rfl⟩ := reads_expect.mp harrow
  obtain ⟨c, -, hspan⟩ := spans_params (typesDerive n) hlen hps
  have hus := (List.forall_mem_cons.mp (hspan.forall_mem hts)).2
  have hr' := H ws (by omega) (List.forall_mem_cons.mp hus).2 r rest more hr (hcont.stops hr)
  exact readsArrow.mpr ⟨ps, _, _, r, append_params H hlen hts (by decide) hps more,
    append_expect harrow more, hr', rfl⟩

/-- Braces end at the closing one, so more tokens change nothing. -/
lemma append_braces (H : TypesExtend n) (hlen : ts.length < n) (hts : ∀ t ∈ ts, t.Proper)
    (h : Reads (parseBraces ts) e rest) (more : List Token) :
    Reads (parseBraces (ts ++ more)) e (rest ++ more) := by
  cases hopen : startsWith "[" ts with
  | true =>
    obtain ⟨b, us, hb, rfl⟩ := startsWith_iff.mp hopen
    obtain ⟨vs, value, ws, hhead, hvalue, hclose, rfl⟩ := (reads_parseBraces_indexed hb).mp h
    obtain ⟨x, d, y, q, g, hd, hq, hg, rfl⟩ := reads_indexHead.mp hhead
    obtain ⟨c, hc, rfl⟩ := reads_expect.mp hclose
    have hvalue' := H vs (by simp only [List.length_cons] at hlen; omega)
      (fun t ht => hts t (by simp [ht])) value _ more hvalue (stops_cons (by rw [hc]; decide))
    exact (reads_parseBraces_indexed hb).mpr ⟨_, value, _,
      reads_indexHead.mpr ⟨x, d, y, q, g, hd, hq, hg, rfl⟩, hvalue', append_expect hclose more, rfl⟩
  | false =>
    obtain ⟨fields, hfields, rfl⟩ := (reads_parseBraces_fields hopen).mp h
    have hne : ts ≠ [] := by
      rintro rfl
      exact absurd hfields.length_lt (Nat.not_lt_zero _)
    have hopen' : startsWith "[" (ts ++ more) = false := by
      rwa [startsWith_append_of_ne_nil hne]
    exact (reads_parseBraces_fields hopen').mpr
      ⟨fields, append_params H hlen hts (by decide) hfields more, rfl⟩

/-- A named type ends at its bracket, or with its name if more tokens begin no arguments. -/
lemma append_named (H : TypesExtend n) (hlen : ts.length < n) (hts : ∀ t ∈ ts, t.Proper) {t : Token}
    (h : Reads (parseNamed t ts) e rest) (hcont : Continues rest more) :
    Reads (parseNamed t (ts ++ more)) e (rest ++ more) := by
  by_cases hboth : StartsWithBoth "[" ":" ts
  · obtain ⟨a, b, us, ha, hb, rfl⟩ := hboth
    obtain ⟨vs, arg, ws, hhead, harg, hclose, rfl⟩ := (reads_parseNamed_variable ha hb).mp h
    obtain ⟨x, q, hq, rfl⟩ := reads_variableHead.mp hhead
    obtain ⟨c, hc, rfl⟩ := reads_expect.mp hclose
    have harg' := H vs (by simp only [List.length_cons] at hlen; omega)
      (fun t ht => hts t (by simp [ht])) arg _ more harg (stops_cons (by rw [hc]; decide))
    exact (reads_parseNamed_variable ha hb).mpr ⟨_, arg, _,
      reads_variableHead.mpr ⟨x, q, hq, rfl⟩, harg', append_expect hclose more, rfl⟩
  · cases hopen : startsWith "<" ts with
    | true =>
      obtain ⟨a, us, ha, rfl⟩ := startsWith_iff.mp hopen
      obtain ⟨args, vs, hargs, hclose, rfl⟩ := (reads_parseNamed_applied ha).mp h
      obtain ⟨c, hc, rfl⟩ := reads_expect.mp hclose
      have hargs' := append_arguments H (by simp only [List.length_cons] at hlen; omega)
        (List.forall_mem_cons.mp hts).2 hc hargs more
      exact (reads_parseNamed_applied ha).mpr ⟨args, _, hargs', append_expect hclose more, rfl⟩
    | false =>
      obtain ⟨rfl, rfl⟩ := (reads_parseNamed_alone hboth hopen).mp h
      have hopen' : startsWith "<" (ts ++ more) = false :=
        hcont.startsWith_eq_false (by decide) (by decide) (by decide)
      exact (reads_parseNamed_alone hcont.not_startsWithBoth hopen').mpr ⟨rfl, rfl⟩

/-- A name is no keyword in front of what continues it. -/
lemma startsWith_append_of_reads_parseNamed {t : Token} (h : Reads (parseNamed t ts) e rest)
    (hopen : startsWith "(" ts = false) (hcont : Continues rest more) :
    startsWith "(" (ts ++ more) = false := by
  cases ts with
  | nil =>
    have hnone : ¬ StartsWithBoth "[" ":" [] := TypeExpr.not_startsWithBoth rfl
    obtain ⟨-, rfl⟩ := (reads_parseNamed_alone hnone rfl).mp h
    exact hcont.startsWith_eq_false (by decide) (by decide) (by decide)
  | cons s ts => exact hopen

/-- A primary type is read in front of more tokens that do not go on with it. -/
lemma append_primary (H : TypesExtend n) (hlen : ts.length ≤ n) (hts : ∀ t ∈ ts, t.Proper)
    (h : Reads (parsePrimary ts) e rest) (hcont : Continues rest more) :
    Reads (parsePrimary (ts ++ more)) e (rest ++ more) := by
  cases ts with
  | nil => exact absurd h not_reads_parsePrimary_nil
  | cons t ts =>
    have hlt : ts.length < n := hlen
    obtain ⟨ht, hts⟩ := List.forall_mem_cons.mp hts
    have hsigns : MayName t → t.text ∉ openers := by
      have hsub : ∀ x ∈ openers, x ∈ Token.signs := by decide
      exact fun hname hopen => ht hname (hsub _ hopen)
    rw [List.cons_append]
    rw [reads_parsePrimary] at h
    split_ifs at h with hfn hparen hbracket hbrace hplus hquestion htext hname
    · obtain ⟨o, us, ho, rfl⟩ := startsWith_iff.mp hfn.2.2
      have hfunction := append_function H (by rw [List.length_cons] at hlt; omega)
        (List.forall_mem_cons.mp hts).2 h hcont
      exact (reads_parsePrimary_fn hfn.1 hfn.2.1 ((startsWith_cons o).mpr ho)).mpr hfunction
    · rw [reads_parsePrimary_parenthesis hparen]
      rcases h with harrow | ⟨-, us, hinner, hclose⟩
      · exact Or.inl (append_arrow H hlt hts harrow hcont)
      · obtain ⟨c, hc, rfl⟩ := reads_expect.mp hclose
        obtain ⟨u, rfl, hu⟩ := spans_of_reads_parseType hinner
        have hno : startsWith "=>" (rest ++ more) = false :=
          hcont.startsWith_eq_false (by decide) (by decide) (by decide)
        have hnone := hu.parseArrow?_eq_none (fun x hx => hts x (List.mem_append_left _ hx)) hc hno
        have hinner' := H _ hlt hts e _ more hinner (stops_cons (by rw [hc]; decide))
        refine Or.inr ⟨?_, _, hinner', append_expect hclose more⟩
        rw [List.append_assoc]
        exact hnone
    · rw [reads_parsePrimary_bracket hbracket]
      obtain ⟨element, us, helement, hclose, rfl⟩ := h
      obtain ⟨c, hc, rfl⟩ := reads_expect.mp hclose
      have helement' := H ts hlt hts element _ more helement (stops_cons (by rw [hc]; decide))
      exact ⟨element, _, helement', append_expect hclose more, rfl⟩
    · rw [reads_parsePrimary_brace hbrace]
      exact append_braces H hlt hts h more
    · rw [reads_parsePrimary_plus hplus]
      obtain ⟨name, rfl, hkind, rfl⟩ := h
      exact ⟨name, rfl, hkind, rfl⟩
    · rw [reads_parsePrimary_question hquestion]
      obtain ⟨rfl, rfl⟩ := h
      exact ⟨rfl, rfl⟩
    · rw [reads_parsePrimary_text htext (hsigns (Or.inr htext))]
      obtain ⟨rfl, rfl⟩ := h
      exact ⟨rfl, rfl⟩
    · have hkeyword : t.text ≠ "fn" ∨ startsWith "(" (ts ++ more) = false := by
        by_cases hf : t.text = "fn"
        · have hopen : startsWith "(" ts = false := by
            simpa [hname, hf] using hfn
          exact Or.inr (startsWith_append_of_reads_parseNamed h hopen hcont)
        · exact Or.inl hf
      rw [reads_parsePrimary_name hname (hsigns (Or.inl hname)) hkeyword]
      exact append_named H hlt hts h hcont

/-! ### Types -/

/-- Suffixes end where no further pair of brackets follows. -/
lemma append_arraySuffixes (hno : ¬ StartsWithBoth "[" "]" ((arraySuffixes e ts).2.1 ++ more)) :
    (arraySuffixes e (ts ++ more)).1 = (arraySuffixes e ts).1 ∧
      (arraySuffixes e (ts ++ more)).2.1 = (arraySuffixes e ts).2.1 ++ more := by
  obtain ⟨k, hk⟩ : ∃ k, ts.length = k := ⟨_, rfl⟩
  induction k using Nat.strong_induction_on generalizing ts e with
  | _ k ih =>
  by_cases hboth : StartsWithBoth "[" "]" ts
  · obtain ⟨a, b, us, ha, hb, rfl⟩ := hboth
    have hsuffix := fun us : List Token => @arraySuffixes_of_both us e a b ha hb
    rw [(hsuffix us).2] at hno
    rw [List.cons_append, List.cons_append, (hsuffix us).1, (hsuffix us).2, (hsuffix _).1,
      (hsuffix _).2]
    exact ih us.length (by simp [← hk]) hno rfl
  · obtain ⟨hvalue, hrest⟩ := arraySuffixes_of_not_both (e := e) hboth
    rw [hrest] at hno
    obtain ⟨hvalue', hrest'⟩ := arraySuffixes_of_not_both (e := e) hno
    rw [hvalue, hrest, hvalue', hrest']
    exact ⟨rfl, rfl⟩

/-- What goes on behind the suffixes of a type goes on behind the type. -/
lemma Continues.of_arraySuffixes (h : Continues (arraySuffixes e ts).2.1 more) :
    Continues ts more := by
  by_cases hboth : StartsWithBoth "[" "]" ts
  · exact Or.inr (Or.inr hboth)
  · rwa [(arraySuffixes_of_not_both hboth).2] at h

/-- What is read as a type with suffixes is derived as one. -/
lemma spans_suffixed (h : Reads (parsePostfix ts) e rest) : Spans .suffixed ts rest := by
  obtain ⟨t, us, ht, -, rfl⟩ := reads_parsePostfix.mp h
  obtain ⟨u, rfl, hu⟩ := spans_primary (typesDerive _) le_rfl ht
  exact spans_arraySuffixes (.plain hu) t us

/-- A type with suffixes is read in front of more tokens that stop it, or in front of a bar. -/
lemma append_suffixed (H : TypesExtend n) (hlen : ts.length ≤ n) (hts : ∀ t ∈ ts, t.Proper)
    (h : Reads (parsePostfix ts) e rest) (hcont : Stops (rest ++ more) ∨ startsWith "|" rest = true) :
    Reads (parsePostfix (ts ++ more)) e (rest ++ more) := by
  obtain ⟨t, us, ht, rfl, rfl⟩ := reads_parsePostfix.mp h
  have hopen : startsWith "[" ((arraySuffixes t us).2.1 ++ more) = false := by
    rcases hcont with hstops | hbar
    · exact hstops.startsWith_eq_false (by decide)
    · obtain ⟨bar, vs, hbar, hvs⟩ := startsWith_iff.mp hbar
      rw [hvs]
      exact startsWith_of_text (by rw [hbar]; decide)
  obtain ⟨hvalue, hrest⟩ := append_arraySuffixes (TypeExpr.not_startsWithBoth hopen)
  have hcont' : Continues (arraySuffixes t us).2.1 more := hcont.imp_right Or.inl
  exact reads_parsePostfix.mpr
    ⟨t, _, append_primary H hlen hts ht hcont'.of_arraySuffixes, hvalue, hrest⟩

/-- Members are read in front of more tokens that stop the last of them. -/
lemma append_members (H : TypesExtend n) (hlen : ts.length ≤ n) (hts : ∀ t ∈ ts, t.Proper)
    {ms : List TypeExpr} (h : Reads (parseMembers ts) ms rest) (hstops : Stops (rest ++ more)) :
    Reads (parseMembers (ts ++ more)) ms (rest ++ more) := by
  induction hk : ts.length using Nat.strong_induction_on generalizing ts ms with
  | _ k ih =>
  obtain ⟨m, us, hpostfix, hend⟩ := reads_parseMembers.mp h
  rcases hend with ⟨-, rfl, rfl⟩ | ⟨bar, vs, ns, hbar, rfl, hns, rfl⟩
  · have hpostfix' := append_suffixed H hlen hts hpostfix (Or.inl hstops)
    exact reads_parseMembers.mpr
      ⟨m, _, hpostfix', Or.inl ⟨hstops.startsWith_eq_false (by decide), rfl, rfl⟩⟩
  · have hpostfix' : Reads (parsePostfix (ts ++ more)) m (bar :: vs ++ more) :=
      append_suffixed H hlen hts hpostfix (Or.inr ((startsWith_cons bar).mpr hbar))
    have hshort := hpostfix.length_lt
    rw [List.length_cons] at hshort
    have hvs := (List.forall_mem_cons.mp ((spans_suffixed hpostfix).forall_mem hts)).2
    have hns' := ih vs.length (by omega) (by omega) hvs hns rfl
    exact reads_parseMembers.mpr ⟨m, _, hpostfix', Or.inr ⟨bar, _, ns, hbar, rfl, hns', rfl⟩⟩

/-- Types of any number of tokens are read in front of more tokens that stop them. -/
lemma typesExtend (n : ℕ) : TypesExtend n := by
  induction n with
  | zero => intro ts hlen; simp at hlen
  | succ n ih =>
    intro ts hlen hts e rest more h hstops
    obtain ⟨ms, hms, rfl⟩ := reads_parseType.mp h
    exact reads_parseType.mpr
      ⟨ms, append_members ih (Nat.lt_succ_iff.mp hlen) hts hms hstops, rfl⟩

/-- A type is read in front of more tokens as it is without them, if what is left then stops it. -/
theorem reads_append_of_stops (hts : ∀ t ∈ ts, t.Proper) (h : Reads (parseType ts) e rest)
    (hstops : Stops (rest ++ more)) : Reads (parseType (ts ++ more)) e (rest ++ more) :=
  typesExtend (ts.length + 1) ts (Nat.lt_succ_self _) hts e rest more h hstops

end

end TypeExpr

end Ambient

import Mathlib
import Ambient.Proofs.TypeExpr.Grammar

/-!
# What the reader accepts is in the grammar

The functions of the reader call each other on shorter and shorter lists of tokens.  The proof is an
induction on the length: `TypesDerive n` says of the lists with fewer than `n` tokens that whatever
is read there as a type is one, and each function of the reader is sound under that hypothesis.
-/

namespace Ambient

namespace TypeExpr

/-- The tokens of `ts` in front of `rest` form a phrase. -/
def Spans (ph : Phrase) (ts rest : List Token) : Prop :=
  ∃ u, ts = u ++ rest ∧ Derives ph u

/-- Whatever is read as a type of fewer than `n` tokens is one. -/
def TypesDerive (n : ℕ) : Prop :=
  ∀ ts : List Token, ts.length < n → ∀ e rest, Reads (parseType ts) e rest → Spans .type ts rest

section

variable {n : ℕ} {ts rest : List Token} {e : TypeExpr} {close : Text}

/-! ### Parameters and arguments -/

lemma spans_param (H : TypesDerive n) (hlen : ts.length < n) {p : TypeParam}
    (h : Reads (parseParam ts) p rest) : Spans .param ts rest := by
  cases hhead : paramHead? ts with
  | none =>
    obtain ⟨t, ht, -⟩ := (reads_parseParam_plain hhead).mp h
    obtain ⟨u, rfl, hu⟩ := H ts hlen t rest ht
    exact ⟨u, rfl, .unnamed hu⟩
  | some r =>
    obtain ⟨name, optional, us, hus⟩ := r
    obtain ⟨t, ht, -⟩ := (reads_parseParam_named hhead).mp h
    obtain ⟨u, rfl, hu⟩ := H us (by omega) t rest ht
    obtain ⟨t, hname, -, ⟨c, hc, rfl, -⟩ | ⟨q, c, hq, hc, rfl, -⟩⟩ := eq_of_paramHead? hhead
    · exact ⟨t :: c :: u, rfl, .named hname hc hu⟩
    · exact ⟨t :: q :: c :: u, rfl, .optional hname hq hc hu⟩

/-- What is read as parameters in front of a closing mark is a list of them. -/
lemma spans_someParams (H : TypesDerive n) (hlen : ts.length < n) {ps : List TypeParam}
    (h : Reads (parseSomeParams close ts) ps rest) :
    ∃ c : Token, c.text = close ∧ Spans .someParams ts (c :: rest) := by
  induction hk : ts.length using Nat.strong_induction_on generalizing ts ps with
  | _ k ih =>
  obtain ⟨p, us, hp, ⟨-, hclose⟩ | ⟨-, vs, more, hcomma, hmore, -⟩⟩ := reads_parseSomeParams.mp h
  · obtain ⟨c, hc, rfl⟩ := reads_expect.mp hclose
    obtain ⟨u, rfl, hu⟩ := spans_param H hlen hp
    exact ⟨c, hc, u, rfl, .oneParam hu⟩
  · have hus := hp.length_lt
    have hvs := hcomma.length_lt
    obtain ⟨c, hc, v, rfl, hv⟩ := ih _ (by omega) (by omega) hmore rfl
    obtain ⟨comma, htext, rfl⟩ := reads_expect.mp hcomma
    obtain ⟨u, rfl, hu⟩ := spans_param H hlen hp
    exact ⟨c, hc, u ++ comma :: v, by simp, .moreParams hu htext hv⟩

/-- What is read in front of a closing mark is a list of parameters that may be empty. -/
lemma spans_params (H : TypesDerive n) (hlen : ts.length < n) {ps : List TypeParam}
    (h : Reads (parseParams close ts) ps rest) :
    ∃ c : Token, c.text = close ∧ Spans .params ts (c :: rest) := by
  rcases reads_parseParams.mp h with ⟨-, hclose⟩ | ⟨-, hsome⟩
  · obtain ⟨c, hc, rfl⟩ := reads_expect.mp hclose
    exact ⟨c, hc, [], rfl, .noParams⟩
  · obtain ⟨c, hc, u, rfl, hu⟩ := spans_someParams H hlen hsome
    exact ⟨c, hc, u, rfl, .ofSome hu⟩

/-- What is read as arguments is a list of types with its closing bracket. -/
lemma spans_arguments (H : TypesDerive n) (hlen : ts.length < n) {args : List TypeExpr}
    (h : Reads (parseArguments ts) args rest) : Spans .arguments ts rest := by
  induction hk : ts.length using Nat.strong_induction_on generalizing ts args with
  | _ k ih =>
  obtain ⟨t, us, ht, ⟨-, -, rfl⟩ | ⟨vs, more, hcomma, hmore, -⟩⟩ := reads_parseArguments.mp h
  · obtain ⟨u, rfl, hu⟩ := H ts hlen t us ht
    exact ⟨u, rfl, .oneArgument hu⟩
  · have hus := ht.length_lt
    have hvs := hcomma.length_lt
    obtain ⟨v, rfl, hv⟩ := ih _ (by omega) (by omega) hmore rfl
    obtain ⟨comma, htext, rfl⟩ := reads_expect.mp hcomma
    obtain ⟨u, rfl, hu⟩ := H ts hlen t _ ht
    exact ⟨u ++ comma :: v, by simp, .moreArguments hu htext hv⟩

/-! ### Primary types -/

/-- The tokens of a function in the notation of documents, behind its keyword. -/
lemma tokens_of_function (H : TypesDerive n) (hlen : ts.length < n)
    (hopen : startsWith "(" ts = true) (h : Reads (parseFunction ts) e rest) :
    ∃ (o c : Token) (u : List Token), o.text = "(" ∧ Derives .params u ∧ c.text = ")" ∧
      (ts = o :: (u ++ c :: rest) ∨ ∃ (a : Token) (v : List Token), a.text = "->" ∧
        Derives .type v ∧ ts = o :: (u ++ c :: a :: (v ++ rest))) := by
  obtain ⟨o, us, ho, rfl⟩ := startsWith_iff.mp hopen
  have hus : us.length < n := by
    rw [List.length_cons] at hlen
    omega
  obtain ⟨ps, vs, hps, hreturn⟩ := reads_parseFunction.mp h
  obtain ⟨c, hc, u, rfl, hu⟩ := spans_params H hus hps
  rcases hreturn with ⟨-, rfl, -⟩ | ⟨ws, r, harrow, hr, -⟩
  · exact ⟨o, c, u, ho, hu, hc, Or.inl rfl⟩
  · obtain ⟨a, ha, rfl⟩ := reads_expect.mp harrow
    have hws : ws.length < n := by
      simp only [List.length_append, List.length_cons] at hus
      omega
    obtain ⟨v, rfl, hv⟩ := H ws hws r rest hr
    exact ⟨o, c, u, ho, hu, hc, Or.inr ⟨a, v, ha, hv, rfl⟩⟩

/-- The tokens of an arrow function, behind its opening parenthesis. -/
lemma tokens_of_arrow (H : TypesDerive n) (hlen : ts.length < n) (h : ReadsArrow ts e rest) :
    ∃ (c a : Token) (u v : List Token), Derives .params u ∧ c.text = ")" ∧ a.text = "=>" ∧
      Derives .type v ∧ ts = u ++ c :: a :: (v ++ rest) := by
  obtain ⟨ps, us, ws, r, hps, harrow, hr, -⟩ := readsArrow.mp h
  obtain ⟨c, hc, u, rfl, hu⟩ := spans_params H hlen hps
  obtain ⟨a, ha, rfl⟩ := reads_expect.mp harrow
  have hws : ws.length < n := by
    simp only [List.length_append, List.length_cons] at hlen
    omega
  obtain ⟨v, rfl, hv⟩ := H ws hws r rest hr
  exact ⟨c, a, u, v, hu, hc, ha, hv, rfl⟩

/-- What is read behind `fn` is a function type. -/
lemma spans_function (H : TypesDerive n) {f : Token} (hlen : ts.length < n)
    (hkind : f.kind = .name) (hf : f.text = "fn") (hopen : startsWith "(" ts = true)
    (h : Reads (parseFunction ts) e rest) : Spans .primary (f :: ts) rest := by
  obtain ⟨o, c, u, ho, hu, hc, rfl | ⟨a, v, ha, hv, rfl⟩⟩ := tokens_of_function H hlen hopen h
  · exact ⟨f :: o :: u ++ [c], by simp, .function hkind hf ho hu hc⟩
  · exact ⟨f :: o :: u ++ c :: a :: v, by simp, .functionTo hkind hf ho hu hc ha hv⟩

/-- What is read as an arrow function, or as a type in parentheses, is one. -/
lemma spans_arrow (H : TypesDerive n) {o : Token} (hlen : ts.length < n) (ho : o.text = "(")
    (h : ReadsArrow ts e rest) : Spans .primary (o :: ts) rest := by
  obtain ⟨c, a, u, v, hu, hc, ha, hv, rfl⟩ := tokens_of_arrow H hlen h
  exact ⟨o :: u ++ c :: a :: v, by simp, .arrow ho hu hc ha hv⟩

lemma spans_braces (H : TypesDerive n) {o : Token} (hlen : ts.length < n) (ho : o.text = ['{'])
    (h : Reads (parseBraces ts) e rest) : Spans .primary (o :: ts) rest := by
  cases hopen : startsWith "[" ts with
  | true =>
    obtain ⟨b, us, hb, rfl⟩ := startsWith_iff.mp hopen
    obtain ⟨vs, value, ws, hhead, hvalue, hclose, -⟩ := (reads_parseBraces_indexed hb).mp h
    obtain ⟨x, d, y, q, g, hd, hq, hg, rfl⟩ := reads_indexHead.mp hhead
    obtain ⟨u, rfl, hu⟩ := H vs (by simp only [List.length_cons] at hlen; omega) value ws hvalue
    obtain ⟨c, hc, rfl⟩ := reads_expect.mp hclose
    exact ⟨o :: b :: x :: d :: y :: q :: g :: u ++ [c], by simp, .indexed ho hb hd hq hg hu hc⟩
  | false =>
    obtain ⟨fields, hfields, -⟩ := (reads_parseBraces_fields hopen).mp h
    obtain ⟨c, hc, u, rfl, hu⟩ := spans_params H hlen hfields
    have hfirst : startsWith "[" (u ++ [c]) = false := by
      cases u with
      | nil => simpa [startsWith] using hopen
      | cons t u => simpa [startsWith] using hopen
    exact ⟨o :: u ++ [c], by simp, .fields ho hu hc hfirst⟩

lemma spans_named (H : TypesDerive n) {t : Token} (hlen : ts.length < n) (ht : t.kind = .name)
    (h : Reads (parseNamed t ts) e rest) : Spans .primary (t :: ts) rest := by
  by_cases hboth : StartsWithBoth "[" ":" ts
  · obtain ⟨a, b, us, ha, hb, rfl⟩ := hboth
    obtain ⟨vs, arg, ws, hhead, harg, hclose, -⟩ := (reads_parseNamed_variable ha hb).mp h
    obtain ⟨x, q, hq, rfl⟩ := reads_variableHead.mp hhead
    obtain ⟨u, rfl, hu⟩ := H vs (by simp only [List.length_cons] at hlen; omega) arg ws harg
    obtain ⟨c, hc, rfl⟩ := reads_expect.mp hclose
    exact ⟨t :: a :: b :: x :: q :: u ++ [c], by simp, .assigned ht ha hb hq hu hc⟩
  · cases hopen : startsWith "<" ts with
    | true =>
      obtain ⟨a, us, ha, rfl⟩ := startsWith_iff.mp hopen
      obtain ⟨args, vs, hargs, hclose, -⟩ := (reads_parseNamed_applied ha).mp h
      obtain ⟨u, rfl, hu⟩ := spans_arguments H (by simp only [List.length_cons] at hlen; omega) hargs
      obtain ⟨c, hc, rfl⟩ := reads_expect.mp hclose
      exact ⟨t :: a :: u ++ [c], by simp, .applied ht ha hu hc⟩
    | false =>
      obtain ⟨-, rfl⟩ := (reads_parseNamed_alone hboth hopen).mp h
      exact ⟨[t], rfl, .name ht⟩

/-- What is read as a primary type is one; the cases are those of the first token. -/
lemma spans_primary (H : TypesDerive n) (hlen : ts.length ≤ n)
    (h : Reads (parsePrimary ts) e rest) : Spans .primary ts rest := by
  cases ts with
  | nil => exact absurd h not_reads_parsePrimary_nil
  | cons t ts =>
    have hts : ts.length < n := hlen
    rw [reads_parsePrimary] at h
    split_ifs at h with hfn hparen hbracket hbrace hplus hquestion htext hname
    · exact spans_function H hts hfn.1 hfn.2.1 hfn.2.2 h
    · rcases h with harrow | ⟨-, us, hinner, hclose⟩
      · exact spans_arrow H hts hparen harrow
      · obtain ⟨u, rfl, hu⟩ := H ts hts e us hinner
        obtain ⟨c, hc, rfl⟩ := reads_expect.mp hclose
        exact ⟨t :: u ++ [c], by simp, .group hparen hu hc⟩
    · obtain ⟨element, us, helement, hclose, -⟩ := h
      obtain ⟨u, rfl, hu⟩ := H ts hts element us helement
      obtain ⟨c, hc, rfl⟩ := reads_expect.mp hclose
      exact ⟨t :: u ++ [c], by simp, .bracketed hbracket hu hc⟩
    · exact spans_braces H hts hbrace h
    · obtain ⟨name, rfl, hname, -⟩ := h
      exact ⟨[t, name], rfl, .reference hplus hname⟩
    · obtain ⟨rfl, -⟩ := h
      exact ⟨[t], rfl, .unknown hquestion⟩
    · obtain ⟨rfl, -⟩ := h
      exact ⟨[t], rfl, .literal htext⟩
    · exact spans_named H hts hname h

/-! ### Types -/

/-- Brackets behind a suffixed type leave it one. -/
lemma spans_arraySuffixes {us : List Token} (h : Derives .suffixed us) (e : TypeExpr)
    (ts : List Token) : Spans .suffixed (us ++ ts) (arraySuffixes e ts).2.1 := by
  obtain ⟨k, hk⟩ : ∃ k, ts.length = k := ⟨_, rfl⟩
  induction k using Nat.strong_induction_on generalizing us ts e with
  | _ k ih =>
  by_cases hboth : StartsWithBoth "[" "]" ts
  · obtain ⟨a, b, vs, ha, hb, rfl⟩ := hboth
    obtain ⟨u, hu, hd⟩ := ih vs.length (by simp [← hk]) (h.suffix ha hb) (.array e) vs rfl
    rw [(arraySuffixes_of_both ha hb).2]
    exact ⟨u, by simpa using hu, hd⟩
  · rw [(arraySuffixes_of_not_both hboth).2]
    exact ⟨us, rfl, h⟩

/-- What is read as members is a type. -/
lemma spans_members (H : TypesDerive n) (hlen : ts.length ≤ n) {ms : List TypeExpr}
    (h : Reads (parseMembers ts) ms rest) : Spans .type ts rest := by
  induction hk : ts.length using Nat.strong_induction_on generalizing ts ms with
  | _ k ih =>
  obtain ⟨t, us, hpostfix, hbar⟩ := reads_parseMembers.mp h
  obtain ⟨p, vs, hprimary, -, rfl⟩ := reads_parsePostfix.mp hpostfix
  obtain ⟨u, rfl, hu⟩ := spans_primary H hlen hprimary
  obtain ⟨w, hw, hd⟩ := spans_arraySuffixes (.plain hu) p vs
  have hshort := hpostfix.length_lt
  rcases hbar with ⟨-, -, rfl⟩ | ⟨bar, xs, ns, htext, hxs, hmore, -⟩
  · exact ⟨w, hw, .single hd⟩
  · rw [hxs] at hw hshort
    rw [List.length_cons] at hshort
    obtain ⟨v, rfl, hv⟩ := ih xs.length (by omega) (by omega) hmore rfl
    exact ⟨w ++ bar :: v, by rw [hw]; simp, .choice hd htext hv⟩

/-- Whatever is read as a type is one, by induction on the number of its tokens. -/
lemma typesDerive (n : ℕ) : TypesDerive n := by
  induction n with
  | zero => intro ts hlen; simp at hlen
  | succ n ih =>
    intro ts hlen e rest h
    obtain ⟨ms, hms, -⟩ := reads_parseType.mp h
    exact spans_members ih (Nat.lt_succ_iff.mp hlen) hms

/-- What is read as a type is one. -/
theorem spans_of_reads_parseType (h : Reads (parseType ts) e rest) : Spans .type ts rest :=
  typesDerive (ts.length + 1) ts (Nat.lt_succ_self _) e rest h

end

end TypeExpr

end Ambient

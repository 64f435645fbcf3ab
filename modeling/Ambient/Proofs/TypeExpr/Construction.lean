import Mathlib
import Ambient.Proofs.TypeExpr.Reading
import Ambient.Proofs.TypeExpr.Tree

/-!
# Nodes that the reader constructs

The reader makes every node of an expression in one of a few ways, out of the parts that it has read
before and of a single token at most.  `Constructs Q P` lists these ways: each of them gives a node
that `P` holds of, if `Q` holds of the token.  It follows that `P` holds of every node of what is read
of tokens that `Q` holds of (`Constructs.everywhere_of_reads_parseType`).

The functions of the reader call each other on shorter and shorter lists, so the induction is on the
number of tokens: `TypesHave Q P n` is the statement for the lists with fewer than `n` tokens.
-/

namespace Ambient

namespace TypeExpr

/-- A parameter as the reader makes it of tokens that `Q` holds of: it has no name and is required, or
it has the name that such a token spells. -/
def ParamOf (Q : Token → Prop) (p : TypeParam) : Prop :=
  (p.name = none ∧ p.optional = false) ∨ ∃ t, Q t ∧ MayName t ∧ p.name = some (unquote t.text)

/-- The nodes that the reader makes of tokens that `Q` holds of have the property `P`. -/
structure Constructs (Q : Token → Prop) (P : TypeExpr → Prop) : Prop where
  unknown : P (.atom "?")
  name : ∀ t, Q t → t.kind = .name → P (ofName t.text)
  reference : ∀ t, Q t → t.kind = .name → P (.reference t.text)
  literal : ∀ t, Q t → t.kind = .text → P (.literal ('"' :: (t.text.drop 1).dropLast ++ ['"']))
  array : ∀ element, P (.array element)
  indexed : ∀ value, P (.map value true)
  applied : ∀ t args, Q t → t.kind = .name → args ≠ [] → P (ofArguments t.text args)
  fields : ∀ fields, (∀ p ∈ fields, ParamOf Q p) → P (ofFields fields)
  function : ∀ params returns, (∀ p ∈ params, ParamOf Q p) → P (.function params returns false)
  arrow : ∀ params result, (∀ p ∈ params, ParamOf Q p) → P (.function params (some result) true)
  choice : ∀ members, 2 ≤ members.length → P (.union members)

/-- Whatever is read as a type of fewer than `n` tokens that `Q` holds of has the property `P` at each
of its nodes, and tokens that `Q` holds of are left. -/
def TypesHave (Q : Token → Prop) (P : TypeExpr → Prop) (n : ℕ) : Prop :=
  ∀ ts : List Token, ts.length < n → (∀ t ∈ ts, Q t) → ∀ e rest, Reads (parseType ts) e rest →
    Everywhere P e ∧ ∀ t ∈ rest, Q t

section

variable {Q : Token → Prop} {P : TypeExpr → Prop} {n : ℕ} {ts rest us : List Token} {e : TypeExpr}
  {close text : Text}

/-- What holds of all tokens holds of those behind an expected one. -/
lemma forall_mem_of_expect (hts : ∀ t ∈ ts, Q t) (h : Reads (expect text ts) () rest) :
    ∀ t ∈ rest, Q t := by
  obtain ⟨t, -, rfl⟩ := reads_expect.mp h
  exact (List.forall_mem_cons.mp hts).2

/-! ### Values in parts -/

/-- A name alone has no parts. -/
lemma everywhere_ofName {name : Text} : Everywhere P (ofName name) ↔ P (ofName name) := by
  rcases ofName_cases name with ⟨-, h⟩ | ⟨-, h⟩ <;> rw [h] <;> simp

/-- A named type has the property everywhere if its arguments have, whichever node it is. -/
lemma everywhere_ofArguments {name : Text} {args : List TypeExpr} :
    Everywhere P (ofArguments name args) ↔
      P (ofArguments name args) ∧ ∀ a ∈ args, Everywhere P a := by
  rcases ofArguments_cases name args with ⟨result, -, rfl, h⟩ | ⟨-, h⟩ <;> rw [h] <;> simp

/-- An object or map has the property everywhere if its fields have, whichever node it is. -/
lemma everywhere_ofFields {fields : List TypeParam} :
    Everywhere P (ofFields fields) ↔
      P (ofFields fields) ∧ ∀ p ∈ fields, Everywhere P p.type := by
  rcases ofFields_cases fields with ⟨type, rfl, h⟩ | ⟨-, h⟩ <;> rw [h] <;> simp

/-- A union has the property everywhere if its members have; a member alone is no new node. -/
lemma Constructs.everywhere_ofMembers (hP : Constructs Q P) {ms : List TypeExpr} (hne : ms ≠ [])
    (h : ∀ m ∈ ms, Everywhere P m) : Everywhere P (ofMembers ms) := by
  match ms, hne with
  | [m], _ => exact h m (List.mem_singleton_self m)
  | m :: k :: more, _ =>
    exact (everywhere_union _).mpr ⟨hP.choice (m :: k :: more) (by simp), h⟩

/-! ### Parameters and arguments -/

/-- What is read as a parameter has a name that a token spells, and a type with the property. -/
lemma has_param (H : TypesHave Q P n) (hlen : ts.length < n) (hts : ∀ t ∈ ts, Q t) {p : TypeParam}
    (h : Reads (parseParam ts) p rest) :
    (ParamOf Q p ∧ Everywhere P p.type) ∧ ∀ t ∈ rest, Q t := by
  cases hhead : paramHead? ts with
  | none =>
    obtain ⟨type, htype, rfl⟩ := (reads_parseParam_plain hhead).mp h
    obtain ⟨hhave, hrest⟩ := H ts hlen hts type rest htype
    exact ⟨⟨Or.inl ⟨rfl, rfl⟩, hhave⟩, hrest⟩
  | some r =>
    obtain ⟨name, optional, us, hus⟩ := r
    obtain ⟨type, htype, rfl⟩ := (reads_parseParam_named hhead).mp h
    obtain ⟨t, hname, hunquote, htail⟩ := eq_of_paramHead? hhead
    have htokens : Q t ∧ ∀ t ∈ us, Q t := by
      rcases htail with ⟨c, -, rfl, -⟩ | ⟨q, c, -, -, rfl, -⟩
      · exact ⟨hts t (by simp), fun x hx => hts x (by simp [hx])⟩
      · exact ⟨hts t (by simp), fun x hx => hts x (by simp [hx])⟩
    obtain ⟨hhave, hrest⟩ := H us (by omega) htokens.2 type rest htype
    exact ⟨⟨Or.inr ⟨t, htokens.1, hname, congrArg some hunquote⟩, hhave⟩, hrest⟩

/-- Parameters are read with the property one by one. -/
lemma has_someParams (H : TypesHave Q P n) (hlen : ts.length < n) (hts : ∀ t ∈ ts, Q t)
    {ps : List TypeParam} (h : Reads (parseSomeParams close ts) ps rest) :
    (∀ p ∈ ps, ParamOf Q p ∧ Everywhere P p.type) ∧ ∀ t ∈ rest, Q t := by
  induction hk : ts.length using Nat.strong_induction_on generalizing ts ps with
  | _ k ih =>
  obtain ⟨p, us, hp, hmore⟩ := reads_parseSomeParams.mp h
  obtain ⟨hhave, hus⟩ := has_param H hlen hts hp
  have hshort := hp.length_lt
  rcases hmore with ⟨rfl, hclose⟩ | ⟨-, vs, more, hcomma, hmore, rfl⟩
  · exact ⟨by simpa using hhave, forall_mem_of_expect hus hclose⟩
  · have hvs := hcomma.length_lt
    obtain ⟨hps, hrest⟩ :=
      ih _ (by omega) (by omega) (forall_mem_of_expect hus hcomma) hmore rfl
    exact ⟨List.forall_mem_cons.mpr ⟨hhave, hps⟩, hrest⟩

/-- A list of parameters is read with the property, or is empty. -/
lemma has_params (H : TypesHave Q P n) (hlen : ts.length < n) (hts : ∀ t ∈ ts, Q t)
    {ps : List TypeParam} (h : Reads (parseParams close ts) ps rest) :
    (∀ p ∈ ps, ParamOf Q p ∧ Everywhere P p.type) ∧ ∀ t ∈ rest, Q t := by
  rcases reads_parseParams.mp h with ⟨rfl, hclose⟩ | ⟨-, hsome⟩
  · exact ⟨by simp, forall_mem_of_expect hts hclose⟩
  · exact has_someParams H hlen hts hsome

/-- Arguments are read with the property one by one, and there is at least one. -/
lemma has_arguments (H : TypesHave Q P n) (hlen : ts.length < n) (hts : ∀ t ∈ ts, Q t)
    {args : List TypeExpr} (h : Reads (parseArguments ts) args rest) :
    args ≠ [] ∧ (∀ a ∈ args, Everywhere P a) ∧ ∀ t ∈ rest, Q t := by
  induction hk : ts.length using Nat.strong_induction_on generalizing ts args with
  | _ k ih =>
  obtain ⟨a, us, ha, hmore⟩ := reads_parseArguments.mp h
  obtain ⟨hhave, hus⟩ := H ts hlen hts a us ha
  have hshort := ha.length_lt
  rcases hmore with ⟨-, rfl, rfl⟩ | ⟨vs, more, hcomma, hmore, rfl⟩
  · exact ⟨List.cons_ne_nil a [], by simpa using hhave, hus⟩
  · have hvs := hcomma.length_lt
    obtain ⟨-, hargs, hrest⟩ :=
      ih _ (by omega) (by omega) (forall_mem_of_expect hus hcomma) hmore rfl
    exact ⟨List.cons_ne_nil a more, List.forall_mem_cons.mpr ⟨hhave, hargs⟩, hrest⟩

/-! ### Primary types -/

/-- A function is made of parameters and a result that have the property. -/
lemma has_function (hP : Constructs Q P) (H : TypesHave Q P n) (hlen : ts.length < n)
    (hts : ∀ t ∈ ts, Q t) (hopen : startsWith "(" ts = true)
    (h : Reads (parseFunction ts) e rest) : Everywhere P e ∧ ∀ t ∈ rest, Q t := by
  obtain ⟨o, us, -, rfl⟩ := startsWith_iff.mp hopen
  rw [List.length_cons] at hlen
  obtain ⟨ps, vs, hps, hreturn⟩ := reads_parseFunction.mp h
  obtain ⟨hhave, hvs⟩ := has_params H (by omega) (List.forall_mem_cons.mp hts).2 hps
  obtain ⟨hof, htypes⟩ := forall₂_and.mp hhave
  have hshort := hps.length_lt
  rcases hreturn with ⟨-, rfl, rfl⟩ | ⟨ws, r, harrow, hr, rfl⟩
  · exact ⟨(everywhere_function ..).mpr ⟨hP.function ps none hof, htypes, by simp⟩, hvs⟩
  · have hws := harrow.length_lt
    obtain ⟨hresult, hrest⟩ := H ws (by omega) (forall_mem_of_expect hvs harrow) r rest hr
    exact ⟨(everywhere_function ..).mpr
      ⟨hP.function ps (some r) hof, htypes, by simpa using hresult⟩, hrest⟩

/-- An arrow function is made of parameters and a result that have the property. -/
lemma has_arrow (hP : Constructs Q P) (H : TypesHave Q P n) (hlen : ts.length < n)
    (hts : ∀ t ∈ ts, Q t) (h : ReadsArrow ts e rest) : Everywhere P e ∧ ∀ t ∈ rest, Q t := by
  obtain ⟨ps, us, ws, r, hps, harrow, hr, rfl⟩ := readsArrow.mp h
  obtain ⟨hhave, hus⟩ := has_params H hlen hts hps
  obtain ⟨hof, htypes⟩ := forall₂_and.mp hhave
  have hshort := hps.length_lt
  have hws := harrow.length_lt
  obtain ⟨hresult, hrest⟩ := H ws (by omega) (forall_mem_of_expect hus harrow) r rest hr
  exact ⟨(everywhere_function ..).mpr ⟨hP.arrow ps r hof, htypes, by simpa using hresult⟩, hrest⟩

/-- A map is made of its value and an object of its fields. -/
lemma has_braces (hP : Constructs Q P) (H : TypesHave Q P n) (hlen : ts.length < n)
    (hts : ∀ t ∈ ts, Q t) (h : Reads (parseBraces ts) e rest) :
    Everywhere P e ∧ ∀ t ∈ rest, Q t := by
  cases hopen : startsWith "[" ts with
  | true =>
    obtain ⟨b, us, hb, rfl⟩ := startsWith_iff.mp hopen
    obtain ⟨vs, value, ws, hhead, hvalue, hclose, rfl⟩ := (reads_parseBraces_indexed hb).mp h
    obtain ⟨x, d, y, q, g, -, -, -, rfl⟩ := reads_indexHead.mp hhead
    obtain ⟨hhave, hws⟩ := H vs (by simp only [List.length_cons] at hlen; omega)
      (fun t ht => hts t (by simp [ht])) value ws hvalue
    exact ⟨(everywhere_map ..).mpr ⟨hP.indexed value, hhave⟩, forall_mem_of_expect hws hclose⟩
  | false =>
    obtain ⟨fields, hfields, rfl⟩ := (reads_parseBraces_fields hopen).mp h
    obtain ⟨hhave, hrest⟩ := has_params H hlen hts hfields
    obtain ⟨hof, htypes⟩ := forall₂_and.mp hhave
    exact ⟨everywhere_ofFields.mpr ⟨hP.fields fields hof, htypes⟩, hrest⟩

/-- A named type is made of its arguments, if it has any. -/
lemma has_named (hP : Constructs Q P) (H : TypesHave Q P n) (hlen : ts.length < n) {t : Token}
    (ht : Q t) (hkind : t.kind = .name) (hts : ∀ t ∈ ts, Q t) (h : Reads (parseNamed t ts) e rest) :
    Everywhere P e ∧ ∀ t ∈ rest, Q t := by
  by_cases hboth : StartsWithBoth "[" ":" ts
  · obtain ⟨a, b, us, ha, hb, rfl⟩ := hboth
    obtain ⟨vs, arg, ws, hhead, harg, hclose, rfl⟩ := (reads_parseNamed_variable ha hb).mp h
    obtain ⟨x, q, -, rfl⟩ := reads_variableHead.mp hhead
    obtain ⟨hhave, hws⟩ := H vs (by simp only [List.length_cons] at hlen; omega)
      (fun t ht => hts t (by simp [ht])) arg ws harg
    exact ⟨everywhere_ofArguments.mpr
      ⟨hP.applied t [arg] ht hkind (List.cons_ne_nil arg []), by simpa using hhave⟩,
      forall_mem_of_expect hws hclose⟩
  · cases hopen : startsWith "<" ts with
    | true =>
      obtain ⟨a, us, ha, rfl⟩ := startsWith_iff.mp hopen
      rw [List.length_cons] at hlen
      obtain ⟨args, vs, hargs, hclose, rfl⟩ := (reads_parseNamed_applied ha).mp h
      obtain ⟨hne, hhave, hvs⟩ := has_arguments H (by omega) (List.forall_mem_cons.mp hts).2 hargs
      exact ⟨everywhere_ofArguments.mpr ⟨hP.applied t args ht hkind hne, hhave⟩,
        forall_mem_of_expect hvs hclose⟩
    | false =>
      obtain ⟨rfl, rfl⟩ := (reads_parseNamed_alone hboth hopen).mp h
      exact ⟨everywhere_ofName.mpr (hP.name t ht hkind), hts⟩

/-- Whichever mark or name a primary type begins with, the property holds everywhere in it. -/
lemma has_primary (hP : Constructs Q P) (H : TypesHave Q P n) (hlen : ts.length ≤ n)
    (hts : ∀ t ∈ ts, Q t) (h : Reads (parsePrimary ts) e rest) :
    Everywhere P e ∧ ∀ t ∈ rest, Q t := by
  cases ts with
  | nil => exact absurd h not_reads_parsePrimary_nil
  | cons t ts =>
    have hlt : ts.length < n := hlen
    obtain ⟨ht, hts⟩ := List.forall_mem_cons.mp hts
    rw [reads_parsePrimary] at h
    split_ifs at h with hfn hparen hbracket hbrace hplus hquestion htext hname
    · exact has_function hP H hlt hts hfn.2.2 h
    · rcases h with harrow | ⟨-, us, hinner, hclose⟩
      · exact has_arrow hP H hlt hts harrow
      · obtain ⟨hhave, hus⟩ := H ts hlt hts e us hinner
        exact ⟨hhave, forall_mem_of_expect hus hclose⟩
    · obtain ⟨element, us, helement, hclose, rfl⟩ := h
      obtain ⟨hhave, hus⟩ := H ts hlt hts element us helement
      exact ⟨(everywhere_array element).mpr ⟨hP.array element, hhave⟩,
        forall_mem_of_expect hus hclose⟩
    · exact has_braces hP H hlt hts h
    · obtain ⟨name, rfl, hkind, rfl⟩ := h
      obtain ⟨hname, hrest⟩ := List.forall_mem_cons.mp hts
      exact ⟨(everywhere_reference _).mpr (hP.reference name hname hkind), hrest⟩
    · obtain ⟨rfl, rfl⟩ := h
      exact ⟨(everywhere_atom _).mpr hP.unknown, hts⟩
    · obtain ⟨rfl, rfl⟩ := h
      exact ⟨(everywhere_literal _).mpr (hP.literal t ht htext), hts⟩
    · exact has_named hP H hlt ht hname hts h

/-! ### Types -/

/-- Every pair of brackets is one more node with the property. -/
lemma has_arraySuffixes (hP : Constructs Q P) (he : Everywhere P e) (hts : ∀ t ∈ ts, Q t) :
    Everywhere P (arraySuffixes e ts).1 ∧ ∀ t ∈ (arraySuffixes e ts).2.1, Q t := by
  obtain ⟨k, hk⟩ : ∃ k, ts.length = k := ⟨_, rfl⟩
  induction k using Nat.strong_induction_on generalizing ts e with
  | _ k ih =>
  by_cases hboth : StartsWithBoth "[" "]" ts
  · obtain ⟨a, b, vs, ha, hb, rfl⟩ := hboth
    obtain ⟨hvalue, hrest⟩ := arraySuffixes_of_both (e := e) ha hb
    rw [hvalue, hrest]
    exact ih vs.length (by simp [← hk]) ((everywhere_array e).mpr ⟨hP.array e, he⟩)
      (fun t ht => hts t (by simp [ht])) rfl
  · obtain ⟨hvalue, hrest⟩ := arraySuffixes_of_not_both (e := e) hboth
    rw [hvalue, hrest]
    exact ⟨he, hts⟩

/-- Members are read with the property one by one, and there is at least one. -/
lemma has_members (hP : Constructs Q P) (H : TypesHave Q P n) (hlen : ts.length ≤ n)
    (hts : ∀ t ∈ ts, Q t) {ms : List TypeExpr} (h : Reads (parseMembers ts) ms rest) :
    ms ≠ [] ∧ (∀ m ∈ ms, Everywhere P m) ∧ ∀ t ∈ rest, Q t := by
  induction hk : ts.length using Nat.strong_induction_on generalizing ts ms with
  | _ k ih =>
  obtain ⟨m, us, hpostfix, hbar⟩ := reads_parseMembers.mp h
  obtain ⟨p, vs, hprimary, rfl, rfl⟩ := reads_parsePostfix.mp hpostfix
  obtain ⟨hhave, hvs⟩ := has_primary hP H hlen hts hprimary
  obtain ⟨hhave, hvs⟩ := has_arraySuffixes hP hhave hvs
  have hshort := hpostfix.length_lt
  rcases hbar with ⟨-, rfl, rfl⟩ | ⟨bar, xs, ns, -, hxs, hmore, rfl⟩
  · exact ⟨List.cons_ne_nil _ _, by simpa using hhave, hvs⟩
  · rw [hxs] at hvs hshort
    rw [List.length_cons] at hshort
    obtain ⟨-, hns, hrest⟩ :=
      ih xs.length (by omega) (by omega) (List.forall_mem_cons.mp hvs).2 hmore rfl
    exact ⟨List.cons_ne_nil _ _, List.forall_mem_cons.mpr ⟨hhave, hns⟩, hrest⟩

/-- What the reader makes of nodes with the property has it everywhere, by induction on the number
of tokens. -/
lemma Constructs.typesHave (hP : Constructs Q P) (n : ℕ) : TypesHave Q P n := by
  induction n with
  | zero => intro ts hlen; simp at hlen
  | succ n ih =>
    intro ts hlen hts e rest h
    obtain ⟨ms, hms, rfl⟩ := reads_parseType.mp h
    obtain ⟨hne, hhave, hrest⟩ := has_members hP ih (Nat.lt_succ_iff.mp hlen) hts hms
    exact ⟨hP.everywhere_ofMembers hne hhave, hrest⟩

/-- `P` holds of every node of what is read as a type of tokens that `Q` holds of. -/
lemma Constructs.everywhere_of_reads_parseType (hP : Constructs Q P) (hts : ∀ t ∈ ts, Q t)
    (h : Reads (parseType ts) e rest) : Everywhere P e ∧ ∀ t ∈ rest, Q t :=
  hP.typesHave (ts.length + 1) ts (Nat.lt_succ_self _) hts e rest h

/-- `P` holds of every node of what is read as parameters of tokens that `Q` holds of. -/
lemma Constructs.everywhere_of_reads_parseParams (hP : Constructs Q P) (hts : ∀ t ∈ ts, Q t)
    {ps : List TypeParam} (h : Reads (parseParams close ts) ps rest) :
    (∀ p ∈ ps, Everywhere P p.type) ∧ ∀ t ∈ rest, Q t := by
  obtain ⟨hhave, hrest⟩ := has_params (hP.typesHave (ts.length + 1)) (Nat.lt_succ_self _) hts h
  exact ⟨(forall₂_and.mp hhave).2, hrest⟩

/-- `P` holds of every node of the expression that tokens are which `Q` holds of. -/
lemma Constructs.everywhere_of_ofTokens (hP : Constructs Q P) (hts : ∀ t ∈ ts, Q t)
    (h : ofTokens ts = .ok e) : Everywhere P e := by
  by_cases hne : ts = []
  · subst hne
    obtain rfl : .atom "?" = e := by simpa [ofTokens] using h
    exact (everywhere_atom _).mpr hP.unknown
  · exact (hP.everywhere_of_reads_parseType hts ((ofTokens_eq_ok hne).mp h)).1

end

end TypeExpr

end Ambient

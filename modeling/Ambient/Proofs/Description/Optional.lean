import Mathlib
import Ambient.Declaration.Emission
import Ambient.Proofs.Description.Shape

/-!
# Parameters that may be left out

Documentation says by name which parameters may be left out, but only parameters at the end of a list
can be.  `markParams` goes through the list from the right and remembers whether all parameters it has
seen may be left out; with `isOmissible` for a parameter that is optional or documented as such, this is
`all isOmissible` of what stands behind (`trailing_markParams`), so each parameter of the result can be
told from the parameters behind it alone (`getElem_markParams`).

The result is a list in which the parameters that may be left out still are omissible, so a second run
finds nothing to do (`markParams_markParams`).  The constructor of a class is described twice and relies
on that.
-/

namespace Ambient

namespace Signature

variable {s : Signature} {entry entry' : Text} {names : List Text} {docs : List ParameterDoc}
  {p : TypeParam} {ps : List TypeParam} {i j : ℕ}

/-! ### One list of names -/

/-- The indices of the parameters with one of the given names that a required one follows, from the
right to the left. -/
def blocked (names : List Text) (ps : List TypeParam) : List ℕ :=
  ((List.range ps.length).filter fun i =>
    ps[i]?.any (isAmong names) && !(ps.drop (i + 1)).all (isOmissible names)).reverse

/-- The warning about a parameter of a list. -/
def blockedWarning (entry : Text) (ps : List TypeParam) (i : ℕ) : Warning :=
  .optionalBeforeRequired entry ((ps[i]?.bind Param.name).getD [])

/-- What is remembered on the way from the right. -/
lemma trailing_markParams :
    (markParams entry names ps).value.2 = ps.all (isOmissible names) := by
  induction ps with
  | nil => rfl
  | cons p ps ih => rw [markParams_cons, List.all_cons, ← ih]

/-- Each parameter is optional afterwards if it was before, or has one of the names and all
parameters behind it may be left out. -/
lemma getElem_markParams (i : ℕ) :
    (markParams entry names ps).value.1[i]? = ps[i]?.map fun p =>
      { p with
        optional := p.optional || isAmong names p && (ps.drop (i + 1)).all (isOmissible names) } := by
  induction ps generalizing i with
  | nil => rfl
  | cons p ps ih =>
    rw [markParams_cons]
    cases i with
    | zero => simp [trailing_markParams]
    | succ i => simpa using ih i

/-- Nothing but the mark of a parameter changes. -/
lemma map_markParams :
    (markParams entry names ps).value.1.map (fun p => { p with optional := false }) =
      ps.map fun p => { p with optional := false } := by
  refine List.ext_getElem? fun i => ?_
  rw [List.getElem?_map, List.getElem?_map, getElem_markParams]
  cases ps[i]? <;> rfl

/-- The first parameter is blocked by a required one behind it, and the others are counted on. -/
lemma blocked_cons :
    blocked names (p :: ps) = (blocked names ps).map (· + 1) ++
      if isAmong names p && !ps.all (isOmissible names) then [0] else [] := by
  unfold blocked
  rw [List.length_cons, List.range_succ_eq_map, List.filter_cons, List.filter_map]
  split_ifs <;> simp_all [Function.comp_def]

/-- There is one warning for each blocked parameter. -/
lemma warnings_markParams :
    (markParams entry names ps).warnings = (blocked names ps).map (blockedWarning entry ps) := by
  induction ps with
  | nil => rfl
  | cons p ps ih =>
    rw [markParams_cons, blocked_cons, List.map_append, List.map_map, trailing_markParams]
    dsimp only
    rw [ih]
    congr 1
    split_ifs <;> rfl

/-- Marking a parameter that is documented so changes nothing about whether it is omissible. -/
lemma isOmissible_marked (b : Bool) :
    isOmissible names { p with optional := p.optional || isAmong names p && b } =
      isOmissible names p := by
  change (isAmong names p || (p.optional || isAmong names p && b)) = (isAmong names p || p.optional)
  cases isAmong names p <;> simp

/-- What has been marked is not marked again. -/
lemma markParams_markParams :
    (markParams entry' names (markParams entry names ps).value.1).value =
      (markParams entry names ps).value := by
  induction ps with
  | nil => rfl
  | cons p ps ih =>
    have hagain : ∀ b, (p.optional || isAmong names p && b || isAmong names p && b) =
        (p.optional || isAmong names p && b) := fun b => by rw [Bool.or_assoc, Bool.or_self]
    rw [@markParams_cons entry names p ps]
    dsimp only
    rw [markParams_cons, ih, isOmissible_marked]
    dsimp only [isAmong]
    exact congrArg (fun b => (Param.mk p.name p.type b :: _, _)) (hagain _)

/-! ### The documentation of the parameters -/

/-- A parameter may be left out. -/
def OptionalAt (params : List TypeParam) (i : ℕ) : Prop :=
  ∃ p, params[i]? = some p ∧ p.optional = true

/-- The documentation says of a parameter that it may be left out. -/
def DocumentedAt (docs : List ParameterDoc) (params : List TypeParam) (i : ℕ) : Prop :=
  ∃ p, params[i]? = some p ∧ ∃ d ∈ docs, p.name = some d.name ∧ Prose.saysOptional d.doc = true

/-- No required parameter follows one that may be left out. -/
def Trailing (params : List TypeParam) : Prop :=
  ∀ i j, i < j → j < params.length → OptionalAt params i → OptionalAt params j

/-- A parameter is among the names just if its documentation says that it may be left out. -/
lemma isAmong_optionalNames :
    isAmong (optionalNames docs) p = true ↔
      ∃ d ∈ docs, p.name = some d.name ∧ Prose.saysOptional d.doc = true := by
  unfold isAmong optionalNames
  cases p.name with
  | none => simp
  | some name =>
    simp only [Option.elim_some, List.contains_iff_mem, List.mem_map, List.mem_filter,
      Option.some.injEq]
    constructor
    · rintro ⟨d, ⟨hd, hdoc⟩, hname⟩
      exact ⟨d, hd, hname.symm, hdoc⟩
    · rintro ⟨d, hd, hname, hdoc⟩
      exact ⟨d, ⟨hd, hdoc⟩, hname.symm⟩

/-- A parameter is documented as optional just if it is among the names. -/
lemma documentedAt_iff :
    DocumentedAt docs ps i ↔ ∃ p, ps[i]? = some p ∧ isAmong (optionalNames docs) p = true := by
  simp only [DocumentedAt, isAmong_optionalNames]

/-- All parameters behind one are omissible just if each may be left out or is documented so. -/
lemma all_drop_iff :
    (ps.drop (i + 1)).all (isOmissible (optionalNames docs)) = true ↔
      ∀ j, i < j → j < ps.length → OptionalAt ps j ∨ DocumentedAt docs ps j := by
  have hat : ∀ j p, ps[j]? = some p → (isOmissible (optionalNames docs) p = true ↔
      OptionalAt ps j ∨ DocumentedAt docs ps j) := by
    intro j p hp
    simp [documentedAt_iff, OptionalAt, hp, isOmissible, or_comm]
  rw [List.all_eq_true]
  constructor
  · intro h j hij hj
    have hmem : ps[j] ∈ ps.drop (i + 1) :=
      List.mem_drop_iff_getElem.mpr ⟨j - (i + 1), by omega, by congr 1; omega⟩
    exact (hat j _ (List.getElem?_eq_getElem hj)).mp (h _ hmem)
  · intro h p hp
    obtain ⟨k, hk, rfl⟩ := List.mem_drop_iff_getElem.mp hp
    exact (hat (i + 1 + k) _ (List.getElem?_eq_getElem (by omega))).mpr (h _ (by omega) (by omega))

/-- A parameter may be left out afterwards if it could be before, or is documented as optional and
each one behind it may be left out or is documented so. -/
lemma optionalAt_markParams :
    OptionalAt (markParams entry (optionalNames docs) ps).value.1 i ↔
      OptionalAt ps i ∨ DocumentedAt docs ps i ∧
        ∀ j, i < j → j < ps.length → OptionalAt ps j ∨ DocumentedAt docs ps j := by
  rw [← all_drop_iff, documentedAt_iff]
  unfold OptionalAt
  rw [getElem_markParams]
  cases ps[i]? <;> simp

/-- A documented parameter is blocked just if a required one stands behind it. -/
lemma mem_blocked :
    i ∈ blocked (optionalNames docs) ps ↔ DocumentedAt docs ps i ∧
      ∃ j, i < j ∧ j < ps.length ∧ ¬ OptionalAt ps j ∧ ¬ DocumentedAt docs ps j := by
  have hbehind : (∃ j, i < j ∧ j < ps.length ∧ ¬ OptionalAt ps j ∧ ¬ DocumentedAt docs ps j) ↔
      ¬ (ps.drop (i + 1)).all (isOmissible (optionalNames docs)) = true := by
    rw [all_drop_iff]
    push Not
    rfl
  have hbound : DocumentedAt docs ps i → i < ps.length := fun ⟨p, hp, _⟩ =>
    (List.getElem?_eq_some_iff.mp hp).1
  have hhere : (ps[i]?.any (isAmong (optionalNames docs))) = true ↔ DocumentedAt docs ps i := by
    rw [documentedAt_iff, Option.any_eq_true]
  rw [hbehind, blocked, List.mem_reverse, List.mem_filter, List.mem_range, Bool.and_eq_true, hhere,
    Bool.not_eq_true']
  simp only [Bool.not_eq_true]
  exact ⟨fun h => h.2, fun h => ⟨hbound h.1, h⟩⟩

/-- Blocked parameters are named from the right to the left. -/
lemma pairwise_blocked : (blocked names ps).Pairwise (· > ·) := by
  rw [blocked, List.pairwise_reverse]
  exact List.pairwise_lt_range.filter _

/-- If the parameters that may be left out come last, they do so after marking. -/
lemma trailing_of_optionalAt (h : Trailing ps) :
    Trailing (markParams entry (optionalNames docs) ps).value.1 := by
  intro i j hij hj hi
  have hlen : (markParams entry (optionalNames docs) ps).value.1.length = ps.length := by
    simpa using congrArg List.length (@map_markParams entry (optionalNames docs) ps)
  rw [optionalAt_markParams] at hi ⊢
  rcases hi with hi | ⟨-, hbehind⟩
  · exact Or.inl (h i j hij (hlen ▸ hj) hi)
  · exact (hbehind j hij (hlen ▸ hj)).imp_right fun hdoc =>
      ⟨hdoc, fun k hk => hbehind k (hij.trans hk)⟩

/-! ### Whole signatures -/

/-- Marking the parameters of a signature again changes nothing. -/
lemma markOptional_markOptional :
    ((s.markOptional entry docs).value.markOptional entry' docs).value =
      (s.markOptional entry docs).value := by
  cases htype : s.type with
  | function params returns arrow =>
    rw [markOptional_eq htype, markOptional_eq rfl, markParams_markParams]
  | _ => simp [markOptional, htype]

/-- The maps of a signature are not expanded again. -/
lemma expandMaps_eq_self (h : Indexed s.type) : s.expandMaps = s := by
  have htype : s.expandMaps.type = s.type := TypeExpr.rebuild_eq_self fun n hn => by
    cases n with
    | map value indexed =>
      cases indexed with
      | true => rfl
      | false => exact absurd rfl (h _ hn value)
    | _ => rfl
  exact congrArg (fun t => { s with type := t }) htype

end Signature

/-! ### The constructor -/

namespace Description

variable {settings : Settings} {owner : Text} {e e' : Entry} {s : Signature} {d : Description}
  {withSample withSignature : Bool}

lemma unmarkedDoc_nil (marker : Option Text) : unmarkedDoc marker [] = ([], false) := by
  rcases marker with _ | _ | ⟨c, cs⟩ <;> rfl

/-- A signature without any documentation but that of its parameters is marked and nothing else. -/
lemma signature_of_undocumented (hshort : e.shortDoc = []) (hlong : e.longDoc = [])
    (hvalues : e.enumValues = []) (hs : e.signature = some s)
    (h : (ofEntry settings owner e false withSignature).Returns d) :
    d.signature = some (s.expandMaps.markOptional e.name e.parameters).value := by
  obtain ⟨hsignature, hinterface, -, -⟩ := returns_ofEntry.mp h
  rw [Bool.and_false] at hinterface
  have hnone : none = d.interface := Run.returns_pure.mp hinterface
  have hlisted : listedValues (blocks [] []) = [] := by decide
  have hno : entryValues settings e = [] := by
    rw [entryValues, hvalues, entryBlocks, hshort, hlong, unmarkedDoc_nil]
    exact hlisted
  rw [hsignature, hs, ← hnone, hno]
  simp [revised, hshort, unmarkedDoc_nil, Signature.applyEnum]

/-- The signature of a description, described again for its parameters alone, stays. -/
lemma signature_of_described (hd : (ofEntry settings owner e withSample withSignature).Returns d)
    (hs : d.signature = some s) {name : Text} {d' : Description} {settings' : Settings}
    {owner' : Text} {withSignature' : Bool}
    (h : (ofEntry settings' owner' { name, parameters := e.parameters, signature := some s }
      false withSignature').Returns d') :
    d'.signature = some s := by
  rw [signature_of_undocumented rfl rfl rfl rfl h]
  obtain ⟨values, hsignature⟩ := signature_of_returns hd
  rw [hs] at hsignature
  obtain ⟨s₀, -, rfl⟩ := Option.map_eq_some_iff.mp hsignature.symm
  rw [Signature.expandMaps_eq_self indexed_revised]
  exact congrArg some Signature.markOptional_markOptional

/-- The constructor of a class is declared with the signature that the description of the class has. -/
lemma constructorText_of_described {sym : Symbol} {ms : List Member} {texts : List Text}
    (hd : (ofEntry settings owner sym.toEntry withSample withSignature).Returns d)
    (hs : d.signature = some s) (hform : s.form = some .constructor)
    (h : (Declaration.constructorText settings (sym.withMembers ms) (some s)).Returns texts) :
    ∃ comment, texts = [Comment.before comment s.render] := by
  unfold Declaration.constructorText at h
  simp only [hform, if_true, Run.returns_bind, Run.returns_pure] at h
  obtain ⟨d', hd', rfl⟩ := h
  rw [signature_of_described hd hs hd']
  exact ⟨d'.comment, rfl⟩

end Description

/-! ### Marking a trailing run -/

namespace Signature

/-- What marking makes of the parameters of a signature: only the marks change, a parameter may be
left out if it could be before or all parameters from it on may be or are documented so, and each
documented one that stays because of a required one behind it is warned about, from the right to the
left. -/
structure MarkedTrailing (entry : Text) (docs : List ParameterDoc) (params params' : List TypeParam)
    (warnings : List Warning) : Prop where
  kept : params'.map (fun p => { p with optional := false }) =
    params.map fun p => { p with optional := false }
  optionalAt_iff : ∀ i, OptionalAt params' i ↔ OptionalAt params i ∨ DocumentedAt docs params i ∧
    ∀ j, i < j → j < params.length → OptionalAt params j ∨ DocumentedAt docs params j
  trailing : Trailing params → Trailing params'
  warned : ∃ blocked : List ℕ, blocked.Pairwise (· > ·) ∧
    (∀ i, i ∈ blocked ↔ DocumentedAt docs params i ∧
      ∃ j, i < j ∧ j < params.length ∧ ¬ OptionalAt params j ∧ ¬ DocumentedAt docs params j) ∧
    warnings = blocked.map (blockedWarning entry params)

/-- Marking gives a function a trailing run of optional parameters and changes nothing else.  A second
run changes nothing at all, so the constructor of a class, which is described a second time for its
text, keeps the signature of the class. -/
theorem markOptional_trailing {s : Signature} {params : List TypeParam} {returns : Option TypeExpr}
    {arrow : Bool} (h : s.type = .function params returns arrow) (entry : Text)
    (docs : List ParameterDoc) :
    (∃ params' warnings,
      s.markOptional entry docs = ⟨{ s with type := .function params' returns arrow }, warnings⟩ ∧
        MarkedTrailing entry docs params params' warnings) ∧
    (∀ entry', ((s.markOptional entry docs).value.markOptional entry' docs).value =
      (s.markOptional entry docs).value) ∧
    ∀ (settings : Settings) (sym : Symbol) (ms : List Member) (withSample withSignature : Bool)
      (d : Description) (sig : Signature) (texts : List Text),
      (Description.ofEntry settings sym.name sym.toEntry withSample withSignature).Returns d →
      d.signature = some sig → sig.form = some .constructor →
      (Declaration.constructorText settings (sym.withMembers ms) (some sig)).Returns texts →
        ∃ comment, texts = [Comment.before comment sig.render] := by
  refine ⟨⟨_, _, markOptional_eq h, ?_⟩, fun _ => markOptional_markOptional,
    fun _ _ _ _ _ _ _ _ => Description.constructorText_of_described⟩
  exact {
    kept := map_markParams
    optionalAt_iff := fun _ => optionalAt_markParams
    trailing := trailing_of_optionalAt
    warned := ⟨_, pairwise_blocked, fun _ => mem_blocked, warnings_markParams⟩ }

/-- Of three parameters the documented second one may be left out, since the third one may be. -/
theorem markOptional_trailing_second :
    ∃ params', ((Signature.mk "draw" (.function [⟨some "text", .atom "string", false⟩,
        ⟨some "at", .atom "number", false⟩, ⟨some "size", .atom "number", true⟩] none false)
        none false false).markOptional "draw" [⟨"at", "Optional."⟩]).value.type =
          .function params' none false ∧
      OptionalAt params' 1 := by
  obtain ⟨⟨params', warnings, hmarked, hrun⟩, -, -⟩ := markOptional_trailing
    (s := ⟨"draw", .function [⟨some "text", .atom "string", false⟩,
      ⟨some "at", .atom "number", false⟩, ⟨some "size", .atom "number", true⟩] none false,
      none, false, false⟩) rfl "draw" [⟨"at", "Optional."⟩]
  refine ⟨params', by rw [hmarked], (hrun.optionalAt_iff 1).mpr (Or.inr ⟨?_, ?_⟩)⟩
  · exact ⟨_, rfl, _, List.mem_singleton_self _, rfl, by decide⟩
  · intro j hj hlen
    obtain rfl : j = 2 := by simp at hlen; omega
    exact Or.inl ⟨_, rfl, rfl⟩

end Signature

end Ambient

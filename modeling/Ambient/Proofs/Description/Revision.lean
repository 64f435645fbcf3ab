import Mathlib
import Ambient.Description
import Ambient.Proofs.Run
import Ambient.Proofs.TypeExpr.Avoids

/-!
# What documentation does to a signature

Describing an entry revises its signature and may infer an interface.  The revised signature has the
named types of the old one and, in front of them all, the reference to the interface: every other
name that the old type avoids is avoided by the new one (`avoids_revised`).

`revised` is the revision without the ways to fail, and what each of its steps keeps is kept by all of
them (`revised_induction`).  `Describes` lists the parts of a description, and `returns_ofEntry` says
that an entry is described by just what has these parts.
-/

namespace Ambient

open TypeExpr (Avoids)

variable {s s' : Signature} {name owner : Text}

namespace Signature

/-! ### The steps of a revision -/

/-- Writing a method as a property brings in no name but `void`. -/
lemma avoids_asProperty (hvoid : name ≠ "void") (h : Avoids name s.type) :
    Avoids name s.asProperty.type := by
  unfold asProperty
  split
  · next params returns arrow _ htype =>
    rw [htype, TypeExpr.avoids_function] at h
    refine TypeExpr.avoids_function.mpr ⟨h.1, ?_⟩
    cases returns with
    | none => simpa using hvoid.symm
    | some r => simpa using h.2 r rfl
  · exact h

lemma avoids_enumUnion (values : List Text) : Avoids name (enumUnion values) := by
  simp [enumUnion]

/-- A slot brings in the names of the type that is put into it. -/
lemma avoids_withSlot {t : TypeExpr} (slot : StringSlot) (ht : Avoids name t)
    (h : Avoids name s.type) : Avoids name (s.withSlot slot t).type := by
  unfold withSlot
  split
  · next i params returns arrow htype =>
    rw [htype, TypeExpr.avoids_function] at h
    refine TypeExpr.avoids_function.mpr ⟨fun p hp => ?_, h.2⟩
    obtain ⟨j, hj⟩ := List.mem_iff_getElem?.mp hp
    rw [List.getElem?_modify, Option.map_eq_map, Option.map_eq_some_iff] at hj
    obtain ⟨q, hq, rfl⟩ := hj
    split_ifs
    · exact ht
    · exact h.1 q (List.mem_of_getElem? hq)
  · next params _ arrow htype =>
    rw [htype, TypeExpr.avoids_function] at h
    refine TypeExpr.avoids_function.mpr ⟨h.1, ?_⟩
    simpa using ht
  · exact ht

/-- Listing values brings in no name. -/
lemma avoids_applyEnum (values : List Text) (h : Avoids name s.type) :
    Avoids name (s.applyEnum values).value.type := by
  unfold applyEnum
  split_ifs
  · exact h
  · split
    · exact h
    · next slot others _ =>
      cases others <;> exact avoids_withSlot slot (avoids_enumUnion values) h

/-- An interface brings in its own name alone. -/
lemma avoids_applyInterface {i : Interface} (hi : i.qualifiedName owner ≠ name)
    (h : Avoids name s.type) : Avoids name (s.applyInterface owner i).value.type := by
  have hreference : Avoids name (.atom (i.qualifiedName owner)) := TypeExpr.avoids_atom.mpr hi
  have hreplaced : ∀ p t, s.type.replaceFirst? p (.atom (i.qualifiedName owner)) = some t →
      Avoids name t := fun p t ht => hreference.replaceFirst h ht
  simp only [applyInterface]
  split_ifs
  all_goals
    split
    · next t ht =>
      rcases Option.or_eq_some_iff.mp ht with ht | ⟨-, ht⟩
      · exact hreplaced _ t ht
      · exact hreplaced _ t ht
    · exact h

lemma avoids_expandMaps (h : Avoids name s.type) : Avoids name s.expandMaps.type := by
  refine Avoids.rebuild (fun n hn => ?_) h
  split <;> simp_all

/-- Whether a parameter may be left out or has one of the given names. -/
def isOmissible (names : List Text) (p : TypeParam) : Bool :=
  isAmong names p || p.optional

/-- What becomes of a parameter depends on what has been remembered of those behind it. -/
lemma markParams_cons {entry : Text} {names : List Text} {p : TypeParam} {ps : List TypeParam} :
    markParams entry names (p :: ps) =
      ⟨({ p with optional :=
            p.optional || isAmong names p && (markParams entry names ps).value.2 } ::
            (markParams entry names ps).value.1,
          isOmissible names p && (markParams entry names ps).value.2),
        (markParams entry names ps).warnings ++
          if isAmong names p && !(markParams entry names ps).value.2 then
            [.optionalBeforeRequired entry (p.name.getD [])] else []⟩ := by
  obtain ⟨name, type, optional⟩ := p
  rw [markParams]
  obtain ⟨⟨rest, trailing⟩, warnings⟩ := markParams entry names ps
  unfold isOmissible
  cases isAmong names ⟨name, type, optional⟩ <;> cases trailing <;> cases optional <;>
    simp [bind, Logged.andThen, Logged.warn, pure]

/-- Marking parameters changes none of their types. -/
lemma types_markParams (entry : Text) (names : List Text) (params : List TypeParam) :
    (markParams entry names params).value.1.map Param.type = params.map Param.type := by
  induction params with
  | nil => rfl
  | cons p params ih => rw [markParams_cons, List.map_cons, ih, List.map_cons]

/-- A list without documented names is left as it is. -/
lemma markParams_nil {entry : Text} {ps : List TypeParam} :
    markParams entry [] ps = ⟨(ps, ps.all (isOmissible [])), []⟩ := by
  have hnone : ∀ p : TypeParam, isAmong [] p = false := fun p => by
    unfold isAmong
    cases p.name <;> rfl
  induction ps with
  | nil => rfl
  | cons p ps ih => simp [markParams_cons, ih, hnone, isOmissible]

/-- Marking the parameters of a function changes its parameters alone. -/
lemma markOptional_eq {entry : Text} {docs : List ParameterDoc} {params : List TypeParam}
    {returns : Option TypeExpr} {arrow : Bool} (h : s.type = .function params returns arrow) :
    s.markOptional entry docs =
      ⟨{ s with
          type := .function (markParams entry (optionalNames docs) params).value.1 returns arrow },
        (markParams entry (optionalNames docs) params).warnings⟩ := by
  obtain ⟨name, type, form, isStatic, inferred⟩ := s
  obtain rfl : type = .function params returns arrow := h
  unfold markOptional
  dsimp only
  cases hnames : optionalNames docs with
  | nil => simp [markParams_nil, pure]
  | cons n ns => simp [bind, Logged.andThen, pure]

/-- The parameters of a function are marked, and everything else stays. -/
lemma markOptional_cases (s : Signature) (entry : Text) (docs : List ParameterDoc) :
    (∃ params returns arrow, s.type = .function params returns arrow ∧
      s.markOptional entry docs =
        ⟨{ s with
            type := .function (markParams entry (optionalNames docs) params).value.1 returns arrow },
          (markParams entry (optionalNames docs) params).warnings⟩) ∨
      (s.type.isFunction = false ∧ s.markOptional entry docs = pure s) := by
  cases htype : s.type with
  | function params returns arrow =>
    exact Or.inl ⟨params, returns, arrow, rfl, markOptional_eq htype⟩
  | _ => exact Or.inr ⟨rfl, by rw [markOptional, htype]⟩

/-- Marking parameters brings in no name. -/
lemma avoids_markOptional (entry : Text) (docs : List ParameterDoc) (h : Avoids name s.type) :
    Avoids name (s.markOptional entry docs).value.type := by
  rcases markOptional_cases s entry docs with ⟨params, returns, arrow, htype, heq⟩ | ⟨-, heq⟩ <;>
    rw [heq]
  · rw [htype, TypeExpr.avoids_function] at h
    refine TypeExpr.avoids_function.mpr ⟨?_, h.2⟩
    have hall : ∀ t ∈ params.map Param.type, Avoids name t := by simpa using h.1
    rw [← types_markParams entry (optionalNames docs)] at hall
    simpa using hall
  · exact h

end Signature

namespace Description

/-- The blocks that an entry is described by. -/
def entryBlocks (settings : Settings) (e : Entry) : List Prose.Block :=
  blocks (unmarkedDoc settings.functionMarker e.shortDoc).1 e.longDoc

/-- The values of an entry: its own or else those that its documentation lists. -/
def entryValues (settings : Settings) (e : Entry) : List Text :=
  if e.enumValues.isEmpty then listedValues (entryBlocks settings e) else e.enumValues

variable {settings : Settings} {e : Entry} {blocks : List Prose.Block} {values : List Text}
  {withSample withSignature : Bool} {interface : Option Interface} {d : Description}

/-! ### Whole revisions -/

/-- A signature as the documentation of its entry makes it, given the interface of its sample. -/
def revised (settings : Settings) (owner : Text) (e : Entry) (values : List Text)
    (interface : Option Interface) (s : Signature) : Signature :=
  let s := if (unmarkedDoc settings.functionMarker e.shortDoc).2 then s.asProperty else s
  let s := (s.applyEnum values).value
  let s := interface.elim s fun i => (s.applyInterface owner i).value
  (s.expandMaps.markOptional e.name e.parameters).value

/-- A revision can fail in the sample alone. -/
lemma returns_revise :
    (revise settings owner e blocks values withSample s).Returns (s', interface) ↔
      (if withSample then announcedInterface owner e.name blocks else pure none).Returns interface ∧
        revised settings owner e values interface s = s' := by
  -- what follows the sample is the same with one and without
  have hrest : ∀ (s₁ : Signature) (found : Option Interface),
      (do
        let s ← Run.ofLogged (s₁.expandMaps.markOptional e.name e.parameters)
        pure (s, found) : Run (Signature × Option Interface)).Returns (s', interface) ↔
      found = interface ∧ (s₁.expandMaps.markOptional e.name e.parameters).value = s' := by
    intro s₁ found
    simp only [Run.returns_ofLogged_bind, Run.returns_pure, Prod.mk.injEq]
    exact and_comm
  unfold revise
  simp only [Run.returns_ofLogged_bind]
  cases withSample with
  | false =>
    simp only [Bool.false_eq_true, if_false, pure_bind, Run.returns_pure]
    refine (hrest _ none).trans (and_congr_right fun hnone => ?_)
    rw [← hnone]
    rfl
  | true =>
    simp only [if_true, Run.returns_bind]
    constructor
    · rintro ⟨found, hfound, h⟩
      cases found with
      | none =>
        obtain ⟨rfl, rfl⟩ := (hrest _ none).mp h
        exact ⟨hfound, rfl⟩
      | some i =>
        obtain ⟨rfl, rfl⟩ := (hrest _ (some i)).mp (Run.returns_ofLogged_bind.mp h)
        exact ⟨hfound, rfl⟩
    · rintro ⟨hfound, rfl⟩
      refine ⟨interface, hfound, ?_⟩
      cases interface with
      | none => exact (hrest _ none).mpr ⟨rfl, rfl⟩
      | some i => exact Run.returns_ofLogged_bind.mpr ((hrest _ (some i)).mpr ⟨rfl, rfl⟩)

/-- What holds behind the first step of a revision and is kept by the others holds at its end. -/
lemma revised_induction {P : Signature → Prop}
    (hfirst : P (if (unmarkedDoc settings.functionMarker e.shortDoc).2 then s.asProperty else s))
    (henum : ∀ s, P s → P (s.applyEnum values).value)
    (hinterface : ∀ i ∈ interface, ∀ s, P s → P (s.applyInterface owner i).value)
    (hmaps : ∀ s, P s → P s.expandMaps)
    (hmarks : ∀ s, P s → P (s.markOptional e.name e.parameters).value) :
    P (revised settings owner e values interface s) := by
  unfold revised
  refine hmarks _ (hmaps _ ?_)
  cases interface with
  | none => exact henum _ hfirst
  | some i => exact hinterface i rfl _ (henum _ hfirst)

/-- A revision brings in `void` and the name of the interface and no other named type. -/
lemma avoids_revised (hvoid : name ≠ "void")
    (hinterface : ∀ i ∈ interface, i.qualifiedName owner ≠ name) (hs : Avoids name s.type) :
    Avoids name (revised settings owner e values interface s).type := by
  have hmarked : Avoids name (if (unmarkedDoc settings.functionMarker e.shortDoc).2
      then s.asProperty else s).type := by
    split_ifs
    · exact Signature.avoids_asProperty hvoid hs
    · exact hs
  exact revised_induction (P := fun s => Avoids name s.type) hmarked
    (fun _ h => Signature.avoids_applyEnum values h)
    (fun i hi _ h => Signature.avoids_applyInterface (hinterface i hi) h)
    (fun _ h => Signature.avoids_expandMaps h)
    (fun _ h => Signature.avoids_markOptional _ _ h)

/-! ### Whole descriptions -/

/-- What the description of an entry is put together from: the revised signature, the interface of the
announced sample, the values, and a comment of the wrapped documentation and the lines behind it. -/
structure Describes (settings : Settings) (owner : Text) (e : Entry) (withSample withSignature : Bool)
    (d : Description) : Prop where
  signature : d.signature =
    e.signature.map (revised settings owner e (entryValues settings e) d.interface)
  interface : (if e.signature.isSome && withSample then
    announcedInterface owner e.name (entryBlocks settings e) else pure none).Returns d.interface
  enumValues : d.enumValues = entryValues settings e
  comment : ∃ body behind, bodyLines settings.wrapColumn (entryBlocks settings e) = .ok body ∧
    wrapLines settings.wrapColumn (tags e d.signature withSignature) = .ok behind ∧
    d.comment = Comment.ofLines (body ++ behind)

/-- The description of an entry is what has the parts of one. -/
lemma returns_ofEntry :
    (ofEntry settings owner e withSample withSignature).Returns d ↔
      Describes settings owner e withSample withSignature d := by
  unfold ofEntry
  cases hs : e.signature with
  | none =>
    simp only [Run.returns_bind, Run.returns_pure, Run.returns_mk]
    constructor
    · rintro ⟨_, rfl, body, hbody, behind, hbehind, rfl⟩
      exact ⟨by rw [hs]; rfl, by rw [hs]; exact Run.returns_pure.mpr rfl, rfl,
        body, behind, hbody, hbehind, rfl⟩
    · obtain ⟨comment, signature, interface, enumValues⟩ := d
      rintro ⟨hsignature, hinterface, hvalues, body, behind, hbody, hbehind, hcomment⟩
      dsimp only at hsignature hinterface hvalues hbehind hcomment
      rw [hs] at hsignature hinterface
      obtain rfl : none = interface := Run.returns_pure.mp hinterface
      subst hsignature hvalues hcomment
      exact ⟨(none, none), rfl, body, hbody, behind, hbehind, rfl⟩
  | some s =>
    simp only [Run.returns_bind, Run.returns_pure, Run.returns_mk]
    constructor
    · rintro ⟨⟨s', interface⟩, hrevise, _, rfl, body, hbody, behind, hbehind, rfl⟩
      obtain ⟨hinterface, rfl⟩ := returns_revise.mp hrevise
      exact ⟨by rw [hs]; rfl, by rw [hs]; exact hinterface, rfl, body, behind, hbody, hbehind, rfl⟩
    · obtain ⟨comment, signature, interface, enumValues⟩ := d
      rintro ⟨hsignature, hinterface, hvalues, body, behind, hbody, hbehind, hcomment⟩
      dsimp only at hsignature hinterface hvalues hbehind hcomment
      rw [hs] at hsignature hinterface
      subst hsignature hvalues hcomment
      exact ⟨_, returns_revise.mpr ⟨hinterface, rfl⟩, _, rfl, body, hbody, behind, hbehind, rfl⟩

/-- The signature of a description is that of the entry, revised with the interface of the sample. -/
lemma signature_of_returns
    (h : (ofEntry settings owner e withSample withSignature).Returns d) :
    ∃ values, d.signature = e.signature.map (revised settings owner e values d.interface) :=
  ⟨_, (returns_ofEntry.mp h).signature⟩

end Description

end Ambient

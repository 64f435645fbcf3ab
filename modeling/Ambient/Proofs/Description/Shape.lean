import Mathlib
import Ambient.Proofs.Description.Revision
import Ambient.Proofs.Signature.Idempotent

/-!
# What documentation keeps of a signature

A revision rewrites a signature up to five times: the marker of a property, the listed values, the
interface of the sample, the index signatures of its maps and the optional parameters.  None of these
steps changes the name of the signature or whether it is static, and none adds, drops, renames or
reorders a parameter (`Keeps`).  The form changes in the first step alone, and behind the fourth no
bare map is left.
-/

namespace Ambient

open TypeExpr (Everywhere)

/-! ### Parameters and types -/

/-- A parameter with its name kept, which may be left out if it could be before. -/
def KeepsParam (p q : TypeParam) : Prop :=
  q.name = p.name ∧ (p.optional = true → q.optional = true)

/-- A type with the parameters of a function kept. -/
def KeepsCall (t u : TypeExpr) : Prop :=
  ∀ params returns arrow, t = .function params returns arrow →
    ∃ params' returns' arrow', u = .function params' returns' arrow' ∧
      List.Forall₂ KeepsParam params params'

/-- A type without bare maps. -/
def Indexed (t : TypeExpr) : Prop :=
  Everywhere (fun n => ∀ value, n ≠ .map value false) t

section

variable {t u v new : TypeExpr} {ps qs : List TypeParam} {p : TypeExpr → Bool}

/-- A parameter with the same name and the same mark is kept. -/
lemma keepsParam_of_eq {p q : TypeParam} (hname : q.name = p.name)
    (hoptional : q.optional = p.optional) : KeepsParam p q :=
  ⟨hname, fun h => hoptional.trans h⟩

lemma KeepsParam.trans {p q r : TypeParam} (h : KeepsParam p q) (h' : KeepsParam q r) :
    KeepsParam p r :=
  ⟨h'.1.trans h.1, fun hp => h'.2 (h.2 hp)⟩

lemma keepsParams_refl (ps : List TypeParam) : List.Forall₂ KeepsParam ps ps :=
  List.forall₂_same.mpr fun _ _ => keepsParam_of_eq rfl rfl

lemma keepsParams_trans {rs : List TypeParam} (h : List.Forall₂ KeepsParam ps qs)
    (h' : List.Forall₂ KeepsParam qs rs) : List.Forall₂ KeepsParam ps rs := by
  induction h generalizing rs with
  | nil => exact h'
  | cons hp _ ih =>
    cases h' with
    | cons hq hrest => exact .cons (hp.trans hq) (ih hrest)

lemma keepsCall_refl (t : TypeExpr) : KeepsCall t t :=
  fun params returns arrow ht => ⟨params, returns, arrow, ht, keepsParams_refl params⟩

lemma keepsCall_of_not_function (h : t.isFunction = false) : KeepsCall t u := by
  rintro params returns arrow rfl
  simp [TypeExpr.isFunction] at h

/-- A function keeps its parameters whatever it returns. -/
lemma keepsCall_function {returns returns' : Option TypeExpr} {arrow arrow' : Bool}
    (h : List.Forall₂ KeepsParam ps qs) :
    KeepsCall (.function ps returns arrow) (.function qs returns' arrow') := by
  intro params r a heq
  obtain ⟨rfl, -, -⟩ := TypeExpr.function.inj heq
  exact ⟨qs, returns', arrow', rfl, h⟩

lemma KeepsCall.trans (h : KeepsCall t u) (h' : KeepsCall u v) : KeepsCall t v := by
  intro params returns arrow ht
  obtain ⟨params', returns', arrow', hu, hparams⟩ := h params returns arrow ht
  obtain ⟨params'', returns'', arrow'', hv, hparams'⟩ := h' params' returns' arrow' hu
  exact ⟨params'', returns'', arrow'', hv,
    keepsParams_trans hparams hparams'⟩

/-- Another type for one of the parameters. -/
lemma keepsParams_modify (ps : List TypeParam) (i : ℕ) (new : TypeExpr) :
    List.Forall₂ KeepsParam ps (ps.modify i fun q => { q with type := new }) := by
  induction ps generalizing i with
  | nil => simp
  | cons q ps ih =>
    cases i with
    | zero => exact .cons (keepsParam_of_eq rfl rfl) (keepsParams_refl ps)
    | succ i => exact .cons (keepsParam_of_eq rfl rfl) (ih i)

/-- Other types for all parameters. -/
lemma keepsParams_rebuild (f : TypeExpr → TypeExpr) (ps : List TypeParam) :
    List.Forall₂ KeepsParam ps (TypeExpr.rebuildParams f ps) := by
  rw [TypeExpr.rebuildParams_eq_map, List.forall₂_map_right_iff]
  exact List.forall₂_same.mpr fun _ _ => keepsParam_of_eq rfl rfl

/-- The types of a list for the parameters. -/
lemma keepsParams_withTypes {ts : List TypeExpr} (h : ps.length ≤ ts.length) :
    List.Forall₂ KeepsParam ps (TypeExpr.withTypes ps ts) := by
  induction ps generalizing ts with
  | nil => exact .nil
  | cons q ps ih =>
    obtain ⟨t, ts, rfl⟩ := List.exists_cons_of_length_pos (Nat.zero_lt_of_lt h)
    exact .cons (keepsParam_of_eq rfl rfl) (ih (Nat.le_of_succ_le_succ h))

/-- Replacing the first part of a kind that no function is of keeps a function. -/
lemma keepsCall_replaceFirst (hp : ∀ t, t.isFunction = true → p t = false)
    (h : TypeExpr.replaceFirst? p t new = some u) : KeepsCall t u := by
  rintro params returns arrow rfl
  have hroot : p (.function params returns arrow) = false := hp _ rfl
  rw [TypeExpr.replaceFirst_eq, hroot] at h
  obtain ⟨ts, hts, rfl⟩ := Option.map_eq_some_iff.mp h
  have hlen : params.length ≤ ts.length := by
    simp [TypeExpr.length_of_replaceInList hts, TypeExpr.parts]
  exact ⟨_, _, _, rfl, keepsParams_withTypes hlen⟩

end

/-! ### Signatures -/

/-- A signature with its name, its marks and the parameters of its type kept. -/
structure Keeps (s s' : Signature) : Prop where
  name : s'.name = s.name
  isStatic : s'.isStatic = s.isStatic
  inferredReturn : s'.inferredReturn = s.inferredReturn
  call : KeepsCall s.type s'.type

/-- A method has the type of a function. -/
def Callable (s : Signature) : Prop :=
  s.form = some .method → s.type.isFunction = true

lemma Keeps.refl (s : Signature) : Keeps s s :=
  ⟨rfl, rfl, rfl, keepsCall_refl s.type⟩

lemma Keeps.trans {s s' s'' : Signature} (h : Keeps s s') (h' : Keeps s' s'') : Keeps s s'' :=
  ⟨h'.name.trans h.name, h'.isStatic.trans h.isStatic,
    h'.inferredReturn.trans h.inferredReturn, h.call.trans h'.call⟩

/-- What is a method and was one before still has the type of a function. -/
lemma Callable.keeps {s s' : Signature} (h : Callable s) (hkeeps : Keeps s s')
    (hform : s'.form = some .method → s.form = some .method) : Callable s' := by
  intro hmethod
  have hfunction := h (hform hmethod)
  cases htype : s.type with
  | function params returns arrow =>
    obtain ⟨params', returns', arrow', htype', -⟩ := hkeeps.call params returns arrow htype
    rw [htype']
    rfl
  | _ => simp [htype, TypeExpr.isFunction] at hfunction

namespace Signature

variable {s : Signature} {owner : Text}

/-! ### The steps of a revision -/

/-- Writing a method as a property keeps the signature but for its form. -/
lemma keeps_asProperty (s : Signature) : Keeps s s.asProperty := by
  unfold asProperty
  split
  · next params returns arrow _ htype =>
    refine ⟨rfl, rfl, rfl, ?_⟩
    rw [htype]
    exact keepsCall_function (keepsParams_refl params)
  · exact Keeps.refl s

/-- A method becomes a property. -/
lemma form_asProperty (h : Callable s) :
    s.asProperty.form = if s.form = some .method then some .property else s.form := by
  unfold asProperty
  split
  · next hform _ => rw [if_pos hform]
  · next hnot =>
    rw [if_neg]
    intro hform
    have hfunction := h hform
    cases htype : s.type with
    | function params returns arrow => exact hnot params returns arrow hform htype
    | _ => simp [htype, TypeExpr.isFunction] at hfunction

/-- The places of a function type are its parts. -/
lemma keeps_withSlot {slot : StringSlot} (hslot : slot ∈ s.stringSlots) (t : TypeExpr) :
    Keeps s (s.withSlot slot t) ∧ (s.withSlot slot t).form = s.form := by
  obtain ⟨name, type, form, isStatic, inferred⟩ := s
  unfold stringSlots at hslot
  split at hslot
  · next params returns arrow _ htype =>
    obtain rfl : type = .function params returns arrow := htype
    rcases List.mem_append.mp hslot with hmem | hmem
    · obtain ⟨i, -, rfl⟩ := List.mem_map.mp hmem
      exact ⟨⟨rfl, rfl, rfl, keepsCall_function (keepsParams_modify params i t)⟩, rfl⟩
    · obtain rfl : slot = .returns := by
        split_ifs at hmem
        · exact List.mem_singleton.mp hmem
        · simp at hmem
      exact ⟨⟨rfl, rfl, rfl, keepsCall_function (keepsParams_refl params)⟩, rfl⟩
  · split_ifs at hslot with hnamed
    · obtain rfl : slot = .type := List.mem_singleton.mp hslot
      refine ⟨⟨rfl, rfl, rfl, keepsCall_of_not_function ?_⟩, rfl⟩
      cases type with
      | function => simp [TypeExpr.isNamed] at hnamed
      | _ => rfl
    · simp at hslot

/-- Listing values keeps the signature and its form. -/
lemma keeps_applyEnum (values : List Text) :
    Keeps s (s.applyEnum values).value ∧ (s.applyEnum values).value.form = s.form := by
  unfold applyEnum
  split_ifs
  · exact ⟨Keeps.refl s, rfl⟩
  · split
    · exact ⟨Keeps.refl s, rfl⟩
    · next slot others hslots =>
      have hslot : slot ∈ s.stringSlots := hslots ▸ List.mem_cons_self
      cases others <;> exact keeps_withSlot hslot (enumUnion values)

/-- An interface keeps the signature and its form. -/
lemma keeps_applyInterface (owner : Text) (i : Interface) :
    Keeps s (s.applyInterface owner i).value ∧ (s.applyInterface owner i).value.form = s.form := by
  have hmap : ∀ t : TypeExpr, t.isFunction = true → t.isMap = false := by
    intro t ht
    cases t <;> first | rfl | simp [TypeExpr.isFunction] at ht
  have hnamed : ∀ t : TypeExpr, t.isFunction = true → t.isNamed "any" = false := by
    intro t ht
    cases t <;> first | rfl | simp [TypeExpr.isFunction] at ht
  simp only [applyInterface]
  split_ifs
  all_goals
    split
    · next t ht =>
      refine ⟨⟨rfl, rfl, rfl, ?_⟩, rfl⟩
      rcases Option.or_eq_some_iff.mp ht with ht | ⟨-, ht⟩
      · exact keepsCall_replaceFirst (by assumption) ht
      · exact keepsCall_replaceFirst (by assumption) ht
    · exact ⟨Keeps.refl s, rfl⟩

lemma keeps_expandMaps (s : Signature) : Keeps s s.expandMaps := by
  refine ⟨rfl, rfl, rfl, ?_⟩
  intro params returns arrow htype
  have hrebuilt : s.expandMaps.type = _ := congrArg (TypeExpr.rebuild _) htype
  rw [hrebuilt]
  exact ⟨_, _, _, rfl, keepsParams_rebuild _ params⟩

/-- Marking keeps the parameters, since it only adds marks. -/
lemma keepsParams_markParams (entry : Text) (names : List Text) (params : List TypeParam) :
    List.Forall₂ KeepsParam params (markParams entry names params).value.1 := by
  induction params with
  | nil => exact .nil
  | cons p params ih =>
    rw [markParams_cons]
    exact .cons ⟨rfl, fun hp => by rw [hp, Bool.true_or]⟩ ih

/-- Marking keeps the signature and its form. -/
lemma keeps_markOptional (entry : Text) (docs : List ParameterDoc) :
    Keeps s (s.markOptional entry docs).value ∧ (s.markOptional entry docs).value.form = s.form := by
  rcases markOptional_cases s entry docs with ⟨params, returns, arrow, htype, heq⟩ | ⟨-, heq⟩ <;>
    rw [heq]
  · refine ⟨⟨rfl, rfl, rfl, ?_⟩, rfl⟩
    rw [htype]
    exact keepsCall_function (keepsParams_markParams entry (optionalNames docs) params)
  · exact ⟨Keeps.refl s, rfl⟩

/-! ### Maps -/

/-- Giving every map of an expression an index signature leaves no bare map. -/
lemma indexed_rebuild {f : TypeExpr → TypeExpr} (hmap : ∀ value i, f (.map value i) = .map value true)
    (hother : ∀ t, t.isMap = false → f t = t) (t : TypeExpr) : Indexed (t.rebuild f) := by
  induction t with
  | atom name =>
    rw [TypeExpr.rebuild, hother _ rfl]
    exact (TypeExpr.everywhere_atom name).mpr (by simp)
  | reference name =>
    rw [TypeExpr.rebuild, hother _ rfl]
    exact (TypeExpr.everywhere_reference name).mpr (by simp)
  | literal text =>
    rw [TypeExpr.rebuild, hother _ rfl]
    exact (TypeExpr.everywhere_literal text).mpr (by simp)
  | raw text =>
    rw [TypeExpr.rebuild, hother _ rfl]
    exact (TypeExpr.everywhere_raw text).mpr (by simp)
  | array element ih =>
    rw [TypeExpr.rebuild, hother _ rfl]
    exact (TypeExpr.everywhere_array _).mpr ⟨by simp, ih⟩
  | map value indexed ih =>
    rw [TypeExpr.rebuild, hmap]
    exact (TypeExpr.everywhere_map ..).mpr ⟨by simp, ih⟩
  | promise result ih =>
    rw [TypeExpr.rebuild, hother _ rfl, TypeExpr.rebuildOption_eq_map]
    refine (TypeExpr.everywhere_promise _).mpr ⟨by simp, fun r hr => ?_⟩
    obtain ⟨r', hr', rfl⟩ := Option.map_eq_some_iff.mp hr
    exact ih r' hr'
  | generic name args ih =>
    rw [TypeExpr.rebuild, hother _ rfl, TypeExpr.rebuildList_eq_map]
    exact (TypeExpr.everywhere_generic ..).mpr ⟨by simp, List.forall_mem_map.mpr ih⟩
  | object fields ih =>
    rw [TypeExpr.rebuild, hother _ rfl, TypeExpr.rebuildParams_eq_map]
    exact (TypeExpr.everywhere_object _).mpr ⟨by simp, List.forall_mem_map.mpr ih⟩
  | union members ih =>
    rw [TypeExpr.rebuild, hother _ rfl, TypeExpr.rebuildList_eq_map]
    exact (TypeExpr.everywhere_union _).mpr ⟨by simp, List.forall_mem_map.mpr ih⟩
  | function params returns arrow ihp ihr =>
    rw [TypeExpr.rebuild, hother _ rfl, TypeExpr.rebuildParams_eq_map, TypeExpr.rebuildOption_eq_map]
    refine (TypeExpr.everywhere_function ..).mpr
      ⟨by simp, List.forall_mem_map.mpr ihp, fun r hr => ?_⟩
    obtain ⟨r', hr', rfl⟩ := Option.map_eq_some_iff.mp hr
    exact ihr r' hr'

/-- No bare map is left when maps are expanded. -/
lemma indexed_expandMaps (s : Signature) : Indexed s.expandMaps.type := by
  refine indexed_rebuild (fun _ _ => rfl) (fun t ht => ?_) s.type
  cases t with
  | map => simp [TypeExpr.isMap] at ht
  | _ => rfl

/-- Marking parameters leaves the types of a function. -/
lemma indexed_markOptional (entry : Text) (docs : List ParameterDoc) (h : Indexed s.type) :
    Indexed (s.markOptional entry docs).value.type := by
  rcases markOptional_cases s entry docs with ⟨params, returns, arrow, htype, heq⟩ | ⟨-, heq⟩ <;>
    rw [heq]
  · rw [htype] at h
    obtain ⟨-, hparams, hreturns⟩ := (TypeExpr.everywhere_function ..).mp h
    refine (TypeExpr.everywhere_function ..).mpr ⟨by simp, ?_, hreturns⟩
    have hall : ∀ t ∈ params.map Param.type, Indexed t := List.forall_mem_map.mpr hparams
    rw [← types_markParams entry (optionalNames docs)] at hall
    exact List.forall_mem_map.mp hall
  · exact h

/-! ### Methods -/

/-- What the rules make a method is a function. -/
lemma callable_translate (c : Circumstances) (source : Text) : Callable (translate c source) := by
  intro h
  rw [translate, applyAll_eq_onePass] at h ⊢
  have hcall := (sourced_ofSource c source).call
  cases htype : (ofSource c source).type with
  | function params returns arrow =>
    simp only [onePass, htype]
    rfl
  | _ =>
    rw [htype] at hcall
    simp only [onePass, htype, Option.some.injEq] at h
    rcases hcall with hform | hform | hfunction
    · simp [hform] at h
    · simp [hform] at h
    · simp [TypeExpr.isFunction] at hfunction

end Signature

namespace Description

variable {settings : Settings} {owner shortDoc : Text} {e : Entry} {values : List Text}
  {withSample withSignature : Bool} {interface : Option Interface} {d : Description} {s : Signature}

/-! ### Whole revisions -/

/-- The short documentation starts with the marker of a property whose value is a function. -/
def Marked (settings : Settings) (shortDoc : Text) : Prop :=
  ∃ marker, settings.functionMarker = some marker ∧ marker ≠ [] ∧ marker <+: shortDoc.trim

/-- A marker is taken off just if the documentation starts with it. -/
lemma marked_iff :
    (unmarkedDoc settings.functionMarker shortDoc).2 = true ↔ Marked settings shortDoc := by
  unfold unmarkedDoc Marked
  split
  · next hnone => simp [hnone]
  · next hnil => simp [hnil]
  · next marker hne hmarker =>
    have hprefix : marker <+: shortDoc.trim ↔
        ∃ rest, Text.after? marker shortDoc.trim = some rest := by
      simp only [Text.after?_eq_some_iff]
      exact exists_congr fun _ => eq_comm
    have hnil : marker ≠ [] := fun h => hne (h ▸ rfl)
    cases hafter : Text.after? marker shortDoc.trim with
    | none => simp [hmarker, hprefix, hafter]
    | some rest => simp [hmarker, hprefix, hafter, hnil]

instance (settings : Settings) (shortDoc : Text) : Decidable (Marked settings shortDoc) :=
  decidable_of_iff _ marked_iff

/-- A revision keeps the name, the marks and the parameters of a signature. -/
lemma keeps_revised : Keeps s (revised settings owner e values interface s) := by
  have hmarked : Keeps s (if (unmarkedDoc settings.functionMarker e.shortDoc).2
      then s.asProperty else s) := by
    split_ifs
    · exact Signature.keeps_asProperty s
    · exact Keeps.refl s
  exact revised_induction hmarked
    (fun _ h => h.trans (Signature.keeps_applyEnum values).1)
    (fun i _ _ h => h.trans (Signature.keeps_applyInterface owner i).1)
    (fun s h => h.trans (Signature.keeps_expandMaps s))
    (fun _ h => h.trans (Signature.keeps_markOptional e.name e.parameters).1)

/-- A revision makes a marked method a property and keeps every other form. -/
lemma form_revised (hs : Callable s) :
    (revised settings owner e values interface s).form =
      if s.form = some .method ∧ Marked settings e.shortDoc then some .property else s.form := by
  have hmarked : (if (unmarkedDoc settings.functionMarker e.shortDoc).2
      then s.asProperty else s).form =
        if s.form = some .method ∧ Marked settings e.shortDoc then some .property else s.form := by
    by_cases h : Marked settings e.shortDoc
    · rw [if_pos (marked_iff.mpr h), Signature.form_asProperty hs]
      simp only [h, and_true]
    · rw [if_neg (mt marked_iff.mp h), if_neg (fun hboth => h hboth.2)]
  rw [← hmarked]
  exact revised_induction (P := fun s' => s'.form = _) rfl
    (fun _ h => (Signature.keeps_applyEnum values).2.trans h)
    (fun i _ _ h => (Signature.keeps_applyInterface owner i).2.trans h)
    (fun _ h => h)
    (fun _ h => (Signature.keeps_markOptional e.name e.parameters).2.trans h)

/-- A revised signature has no bare map. -/
lemma indexed_revised : Indexed (revised settings owner e values interface s).type :=
  Signature.indexed_markOptional _ _ (Signature.indexed_expandMaps _)

/-- What describing an entry makes of its signature. -/
lemma exists_signature (hs : e.signature = some s) (hcalled : Callable s)
    (h : (ofEntry settings owner e withSample withSignature).Returns d) :
    ∃ s', d.signature = some s' ∧ Keeps s s' ∧
      s'.form = (if s.form = some .method ∧ Marked settings e.shortDoc
        then some .property else s.form) ∧
      Indexed s'.type := by
  obtain ⟨values, hsignature⟩ := signature_of_returns h
  rw [hs, Option.map_some] at hsignature
  exact ⟨_, hsignature, keeps_revised, form_revised hcalled, indexed_revised⟩

/-- Describing an entry gives its signature back with the name, the marks and the parameters that the
rules have given it.  A method whose documentation starts with the marker becomes a property, every
other form stays, and no bare map is left. -/
theorem keeps_of_returns {c : Circumstances} {source : Text}
    (hsource : e.signature = some (Signature.translate c source))
    (h : (ofEntry settings owner e withSample withSignature).Returns d) :
    ∃ s, d.signature = some s ∧ Keeps (Signature.translate c source) s ∧
      s.form = (if (Signature.translate c source).form = some .method ∧ Marked settings e.shortDoc
        then some .property else (Signature.translate c source).form) ∧
      Indexed s.type :=
  exists_signature hsource (Signature.callable_translate c source) h

/-- The circumstances of a function of the console. -/
def ofPrint : Circumstances :=
  { name := "print", owner := some "console" }

/-- The type of a function with a bare map. -/
def printSource : Text :=
  "fn(text: string, options: \x7bstring: any\x7d)"

/-- A marked function whose last parameter is documented as optional. -/
def printEntry : Entry :=
  { name := "print"
    shortDoc := "(property) Prints a text."
    parameters := [⟨"options", "Optional."⟩]
    signature := some (Signature.translate ofPrint printSource) }

/-- A method whose documentation marks it as a property. -/
theorem keeps_of_returns_print :
    ∃ d s, (ofEntry {} "console" printEntry true true).Returns d ∧ d.signature = some s ∧
      Keeps (Signature.translate ofPrint printSource) s ∧ s.form = some .property ∧
      Indexed s.type := by
  have hreturns : (ofEntry {} "console" printEntry true true).run.value.toOption.isSome := by
    decide +kernel
  obtain ⟨d, hd⟩ := Option.isSome_iff_exists.mp hreturns
  rw [← Run.returns_iff_toOption] at hd
  obtain ⟨s, hs, hkeeps, hform, hindexed⟩ := keeps_of_returns rfl hd
  have hmarked : (Signature.translate ofPrint printSource).form = some .method ∧
      Marked {} printEntry.shortDoc := by
    decide +kernel
  rw [if_pos hmarked] at hform
  exact ⟨d, s, hd, hs, hkeeps, hform, hindexed⟩

end Description

end Ambient

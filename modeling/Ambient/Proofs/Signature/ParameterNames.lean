import Mathlib
import Ambient.Proofs.Signature.Separation
import Ambient.Proofs.TypeExpr.Position

/-!
# Names of parameters

The rules name an anonymous parameter after its position and look at no other name of its list.  A
position is named once, so two generated names never clash, but a generated name may be one that the
source writes for another parameter.  `names_translate` says of every function of a translated signature
which function of the source it comes from, which names its parameters have, and when they differ.

A function keeps its position.  Its parts keep theirs as well, and the one part that may be new is the
return type `void`, which is no function (`parts_normalized`).
-/

namespace Ambient

/-- Different numbers have different numerals. -/
lemma Text.ofNat_injective : Function.Injective Text.ofNat := by
  intro i j h
  have hdigits : Nat.toDigits 10 i = Nat.toDigits 10 j := h
  have hnumber := congrArg (Nat.ofDigitChars 10 · 0) hdigits
  simpa using hnumber

namespace TypeExpr

/-! ### The names of a list of parameters -/

/-- The name that an anonymous parameter gets at a position. -/
def generatedName (i : ℕ) : Text :=
  "arg" ++ Text.ofNat i

/-- The names of those parameters that have one. -/
def namesOf (ps : List TypeParam) : List Text :=
  ps.filterMap Param.name

/-- The names of a list of parameters once the anonymous ones are named after their positions. -/
def givenNames (ps : List TypeParam) : List Text :=
  ps.mapIdx fun i p => p.name.getD (generatedName i)

section

variable {fills : Bool} {ps qs : List TypeParam}

/-- Names made of different positions are different. -/
lemma generatedName_injective : Function.Injective generatedName := by
  intro i j h
  exact Text.ofNat_injective (List.append_cancel_left h)

lemma types_nameParams (i : ℕ) (ps : List TypeParam) :
    (nameParams i ps).map Param.type = ps.map Param.type := by
  induction ps generalizing i with
  | nil => rfl
  | cons p ps ih => exact congrArg (p.type :: ·) (ih (i + 1))

/-- A parameter has the name that is written for it, or one for its position. -/
lemma map_name_nameParams (i : ℕ) (ps : List TypeParam) :
    (nameParams i ps).map Param.name =
      (ps.mapIdx fun k p => p.name.getD (generatedName (i + k))).map some := by
  induction ps generalizing i with
  | nil => rfl
  | cons p ps ih =>
    have hshift : ∀ k, i + 1 + k = i + (k + 1) := by
      intro k
      omega
    rw [nameParams, List.map_cons, ih, List.mapIdx_cons, List.map_cons]
    simp only [hshift, generatedName, Nat.add_zero]

/-- The names that parameters get do not depend on their types. -/
lemma nameParams_normalizedParams (i : ℕ) (qs : List TypeParam) :
    (nameParams i (normalizedParams fills qs)).map Param.name = (nameParams i qs).map Param.name := by
  induction qs generalizing i with
  | nil => rfl
  | cons q qs ih =>
    obtain ⟨name, type, optional⟩ := q
    exact congrArg (some (name.getD (generatedName i)) :: ·) (ih (i + 1))

/-- The rules give a list of parameters the names of its positions. -/
lemma map_name_normalizedParams (fills : Bool) (qs : List TypeParam) :
    (nameParams 0 (normalizedParams fills qs)).map Param.name = (givenNames qs).map some := by
  rw [nameParams_normalizedParams, map_name_nameParams, givenNames]
  simp only [Nat.zero_add]

/-- If all parameters have names, these are the names of the list. -/
lemma namesOf_of_map_name {names : List Text} (h : ps.map Param.name = names.map some) :
    namesOf ps = names := by
  have hfilter : namesOf ps = (ps.map Param.name).filterMap id := by
    rw [namesOf, List.filterMap_map, Function.id_comp]
  rw [hfilter, h, List.filterMap_map]
  simp

/-- At a position stands the name of the parameter, or the one made of the position. -/
lemma getElem?_givenNames {i : ℕ} {q : TypeParam} (h : qs[i]? = some q) :
    (givenNames qs)[i]? = some (q.name.getD (generatedName i)) := by
  rw [givenNames, List.getElem?_mapIdx, h, Option.map_some]

/-- Two parameters with the same written name are one. -/
lemma eq_of_name_eq (h : (namesOf qs).Nodup) {i j : ℕ} {p q : TypeParam} {name : Text}
    (hi : qs[i]? = some p) (hj : qs[j]? = some q) (hp : p.name = some name)
    (hq : q.name = some name) : i = j := by
  have hpairs := List.pairwise_iff_getElem.mp (List.pairwise_filterMap.mp h)
  obtain ⟨hilt, rfl⟩ := List.getElem?_eq_some_iff.mp hi
  obtain ⟨hjlt, rfl⟩ := List.getElem?_eq_some_iff.mp hj
  rcases Nat.lt_trichotomy i j with hlt | heq | hgt
  · exact absurd rfl (hpairs i j hilt hjlt hlt name hp name hq)
  · exact heq
  · exact absurd rfl (hpairs j i hjlt hilt hgt name hq name hp)

/-- Where the written names differ, all names differ exactly if no anonymous parameter is named as
another one is written. -/
lemma nodup_givenNames_iff (h : (namesOf qs).Nodup) :
    (givenNames qs).Nodup ↔
      ∀ i q, qs[i]? = some q → q.name = none → generatedName i ∉ namesOf qs := by
  constructor
  · intro hnodup i q hi hq hmem
    obtain ⟨p, hp, hname⟩ := List.mem_filterMap.mp hmem
    obtain ⟨j, hj⟩ := List.mem_iff_getElem?.mp hp
    have hsame : i = j := by
      by_contra hne
      have hgiven := getElem?_givenNames hi
      rw [hq, Option.getD_none] at hgiven
      have hgiven' := getElem?_givenNames hj
      rw [hname, Option.getD_some] at hgiven'
      rcases Nat.lt_or_gt_of_ne hne with hlt | hgt
      · have hlen := (List.getElem?_eq_some_iff.mp hgiven').1
        exact List.nodup_iff_getElem?_ne_getElem?.mp hnodup i j hlt hlen (hgiven.trans hgiven'.symm)
      · have hlen := (List.getElem?_eq_some_iff.mp hgiven).1
        exact List.nodup_iff_getElem?_ne_getElem?.mp hnodup j i hgt hlen (hgiven'.trans hgiven.symm)
    subst hsame
    obtain rfl : q = p := Option.some.inj (hi.symm.trans hj)
    rw [hq] at hname
    exact absurd hname (Option.some_ne_none _).symm
  · intro hfree
    rw [List.nodup_iff_getElem?_ne_getElem?]
    intro i j hlt hj heq
    rw [givenNames, List.length_mapIdx] at hj
    have hi : i < qs.length := hlt.trans hj
    obtain ⟨p, hp⟩ : ∃ p, qs[i]? = some p := ⟨_, List.getElem?_eq_getElem hi⟩
    obtain ⟨q, hq⟩ : ∃ q, qs[j]? = some q := ⟨_, List.getElem?_eq_getElem hj⟩
    rw [getElem?_givenNames hp, getElem?_givenNames hq, Option.some.injEq] at heq
    have hwritten : ∀ {k : ℕ} {r : TypeParam} {name : Text}, qs[k]? = some r → r.name = some name →
        name ∈ namesOf qs := fun hk hr =>
      List.mem_filterMap.mpr ⟨_, List.mem_of_getElem? hk, hr⟩
    -- of two equal names at most one is made of a position
    cases hpn : p.name with
    | none =>
      cases hqn : q.name with
      | none =>
        have := generatedName_injective (by simpa [hpn, hqn] using heq)
        omega
      | some name =>
        obtain rfl : generatedName i = name := by simpa [hpn, hqn] using heq
        exact hfree i p hp hpn (hwritten hq hqn)
    | some name =>
      cases hqn : q.name with
      | none =>
        obtain rfl : name = generatedName j := by simpa [hpn, hqn] using heq
        exact hfree j q hq hqn (hwritten hp hpn)
      | some name' =>
        obtain rfl : name = name' := by simpa [hpn, hqn] using heq
        have := eq_of_name_eq h hp hq hpn hqn
        omega

end

/-! ### Functions keep their positions -/

section

variable {fills a : Bool} {t : TypeExpr} {ps : List TypeParam} {r : Option TypeExpr} {pos : List ℕ}

/-- The parts of a normalized node are its normalized parts and perhaps a return type that was
missing. -/
lemma parts_normalized (fills : Bool) (t : TypeExpr) :
    ∃ filled : Option TypeExpr, (filled = none ∨ filled = some (.atom "void")) ∧
      (t.normalized fills).parts = t.parts.map (normalized fills) ++ filled.toList := by
  have hparams : ∀ qs : List TypeParam, (normalizedParams fills qs).map Param.type =
      (qs.map Param.type).map (normalized fills) := by
    intro qs
    simp [normalizedParams_eq_map, Function.comp_def]
  cases t with
  | function params returns arrow =>
    cases returns with
    | none =>
      refine ⟨if fills then some (.atom "void") else none, ?_, ?_⟩
      · cases fills
        · exact Or.inl rfl
        · exact Or.inr rfl
      · simp [normalized, normalizedOption, parts, types_nameParams, hparams]
    | some result =>
      refine ⟨none, Or.inl rfl, ?_⟩
      simp [normalized, normalizedOption, parts, types_nameParams, hparams]
  | promise result =>
    cases result with
    | none => exact ⟨some (.atom "void"), Or.inr rfl, rfl⟩
    | some result => exact ⟨none, Or.inl rfl, rfl⟩
  | generic name args => exact ⟨none, Or.inl rfl, by simp [normalized, parts, normalizedList_eq_map]⟩
  | union members => exact ⟨none, Or.inl rfl, by simp [normalized, parts, normalizedList_eq_map]⟩
  | object fields => exact ⟨none, Or.inl rfl, by simp [normalized, parts, hparams]⟩
  | _ => exact ⟨none, Or.inl rfl, rfl⟩

/-- There is no function below a name. -/
lemma at?_atom_ne_function (name : Text) : (atom name).at? pos ≠ some (.function ps r a) := by
  cases pos with
  | nil => exact fun h => nomatch h
  | cons i pos => exact fun h => nomatch h

/-- A function of a normalized expression comes from the function at its position. -/
lemma exists_function_of_normalized (h : (t.normalized fills).at? pos = some (.function ps r a)) :
    ∃ qs r' a', t.at? pos = some (.function qs r' a') ∧
      ps = nameParams 0 (normalizedParams fills qs) := by
  induction pos generalizing t with
  | nil =>
    have hroot : t.normalized fills = .function ps r a := Option.some.inj h
    cases t with
    | function qs r' a' =>
      rw [normalized, function.injEq] at hroot
      exact ⟨qs, r', a', rfl, hroot.1.symm⟩
    | _ => simp [normalized] at hroot
  | cons i pos ih =>
    obtain ⟨filled, hfilled, hparts⟩ := parts_normalized fills t
    rw [at?, Option.bind_eq_some_iff] at h
    obtain ⟨u, hu, hat⟩ := h
    rw [hparts] at hu
    by_cases hi : i < t.parts.length
    · rw [List.getElem?_append_left (by simpa using hi), List.getElem?_map] at hu
      obtain ⟨v, hv, rfl⟩ := Option.map_eq_some_iff.mp hu
      rw [at?_cons hv]
      exact ih hat
    · rw [List.getElem?_append_right (by simpa using hi)] at hu
      have hmem : u ∈ filled.toList := List.mem_of_getElem? hu
      rcases hfilled with rfl | rfl
      · exact absurd hmem (List.not_mem_nil)
      · obtain rfl : u = .atom "void" := List.mem_singleton.mp hmem
        exact absurd hat (at?_atom_ne_function _)

end

end TypeExpr

namespace Signature

open TypeExpr (generatedName givenNames namesOf normalizedParams normalizedOption nameParams)

section

variable {c : Circumstances} {a : Bool} {ps : List TypeParam} {r : Option TypeExpr} {pos : List ℕ}

/-- The return type of a function after the rules is a name, or it comes from the documented one. -/
lemma exists_of_callReturn {form : SignatureForm} {inferred fills : Bool} {returns : Option TypeExpr}
    {u : TypeExpr}
    (h : callReturn c form inferred
      (if fills then some (.atom "void") else normalizedOption false returns) = some u) :
    (∃ name, u = .atom name) ∨ ∃ v, returns = some v ∧ u = v.normalized false := by
  have hresult : (if fills then some (.atom "void") else normalizedOption false returns) = some u →
      (∃ name, u = .atom name) ∨ ∃ v, returns = some v ∧ u = v.normalized false := by
    intro h
    split_ifs at h
    · exact Or.inl ⟨_, (Option.some.inj h).symm⟩
    · rw [TypeExpr.normalizedOption_eq_map] at h
      obtain ⟨v, hv, rfl⟩ := Option.map_eq_some_iff.mp h
      exact Or.inr ⟨v, hv, rfl⟩
  cases form with
  | constructor => cases h
  | property => exact hresult h
  | method =>
    rw [callReturn, Circumstances.methodReturn] at h
    by_cases htext : (inferred && c.textReturns.contains c.qualifiedName) = true
    · rw [if_pos htext] at h
      exact Or.inl ⟨_, (Option.some.inj h).symm⟩
    · rw [if_neg htext] at h
      exact hresult h

/-- A function of a signature after the rules comes from the function at its position. -/
lemma exists_function_of_onePass {s : Signature}
    (h : (onePass c s).type.at? pos = some (.function ps r a)) :
    ∃ qs r' a' fills, s.type.at? pos = some (.function qs r' a') ∧
      ps = nameParams 0 (normalizedParams fills qs) := by
  obtain ⟨name, type, form, isStatic, inferred⟩ := s
  cases type with
  | function params returns arrow =>
    cases pos with
    | nil =>
      have hroot := Option.some.inj h
      simp only [onePass, TypeExpr.function.injEq] at hroot
      exact ⟨params, returns, arrow, true, rfl, hroot.1.symm⟩
    | cons i pos =>
      rw [TypeExpr.at?, Option.bind_eq_some_iff] at h
      obtain ⟨u, hu, hat⟩ := h
      simp only [onePass, TypeExpr.parts, TypeExpr.types_nameParams,
        TypeExpr.normalizedParams_eq_map, List.map_map, Function.comp_def] at hu
      by_cases hi : i < params.length
      · rw [List.getElem?_append_left (by simpa using hi), List.getElem?_map] at hu
        obtain ⟨p, hp, rfl⟩ := Option.map_eq_some_iff.mp hu
        obtain ⟨qs, r', a', hqs, hps⟩ := TypeExpr.exists_function_of_normalized hat
        refine ⟨qs, r', a', true, ?_, hps⟩
        rw [TypeExpr.at?_cons (u := p.type), hqs]
        rw [TypeExpr.parts, List.getElem?_append_left (by simpa using hi), List.getElem?_map, hp]
        rfl
      · rw [List.getElem?_append_right (by simpa using hi), List.length_map] at hu
        have hmem := Option.mem_toList.mp (List.mem_of_getElem? hu)
        have hzero : i - params.length = 0 := by
          have hlt := (List.getElem?_eq_some_iff.mp hu).1
          rw [Option.mem_def.mp hmem, Option.toList_some, List.length_singleton] at hlt
          omega
        rcases exists_of_callReturn hmem with ⟨name, rfl⟩ | ⟨v, rfl, rfl⟩
        · exact absurd hat (TypeExpr.at?_atom_ne_function name)
        · obtain ⟨qs, r', a', hqs, hps⟩ := TypeExpr.exists_function_of_normalized hat
          refine ⟨qs, r', a', false, ?_, hps⟩
          rw [TypeExpr.at?_cons (u := v), hqs]
          rw [TypeExpr.parts, List.getElem?_append_right (by simpa using hi), List.length_map, hzero]
          rfl
  | _ =>
    obtain ⟨qs, r', a', hqs, hps⟩ := TypeExpr.exists_function_of_normalized h
    exact ⟨qs, r', a', false, hqs, hps⟩

/-- Every function of a translated signature stands where the source has a function, and each of its
parameters has the name that the source writes for it, or one for its position.  If the written names
differ, all names do exactly if none of them is that of the position of an anonymous parameter. -/
theorem names_translate (c : Circumstances) (w : Text) (pos : List ℕ) (ps : List TypeParam)
    (r : Option TypeExpr) (a : Bool)
    (h : (translate c w).type.at? pos = some (.function ps r a)) :
    ∃ qs r' a', (ofSource c w).type.at? pos = some (.function qs r' a') ∧
      ps.map Param.name = (givenNames qs).map some ∧
      ((namesOf qs).Nodup → ((namesOf ps).Nodup ↔
        ∀ i q, qs[i]? = some q → q.name = none → generatedName i ∉ namesOf qs)) := by
  rw [translate, applyAll_eq_onePass] at h
  obtain ⟨qs, r', a', fills, hqs, rfl⟩ := exists_function_of_onePass h
  have hnames := TypeExpr.map_name_normalizedParams fills qs
  refine ⟨qs, r', a', hqs, hnames, fun hnodup => ?_⟩
  rw [TypeExpr.namesOf_of_map_name hnames]
  exact TypeExpr.nodup_givenNames_iff hnodup

/-- In `fn(arg1: number, fn(string, arg1: bool))` the callback has an anonymous parameter whose position
no written name has. -/
theorem names_translate_callback :
    let w : Text := "fn(arg1: number, fn(string, arg1: bool))"
    ∃ ps r a, (translate { name := "f" } w).type.at? [1] = some (.function ps r a) ∧
      ps.map Param.name = [some ("arg0" : Text), some ("arg1" : Text)] ∧ (namesOf ps).Nodup := by
  intro w
  let callback : TypeExpr :=
    .function [⟨none, .atom "string", false⟩, ⟨some "arg1", .atom "bool", false⟩] none false
  let source : TypeExpr :=
    .function [⟨some "arg1", .atom "number", false⟩, ⟨none, callback, false⟩] none false
  have hparse : TypeExpr.parseStrict w = .ok source := by
    apply TypeExpr.parseStrict_render_of_printable (t := source)
    have harg : Token.IsName "arg1" := Token.IsIdentifier.isName (by decide)
    have hstring : Token.IsName "string" := Token.IsIdentifier.isName (by decide)
    have hbool : Token.IsName "bool" := Token.IsIdentifier.isName (by decide)
    have hnumber : Token.IsName "number" := Token.IsIdentifier.isName (by decide)
    have hplain : ("string" : Text) ≠ "Promise" ∧ ("bool" : Text) ≠ "Promise" ∧
        ("number" : Text) ≠ "Promise" := by decide
    simp [source, callback, TypeExpr.Printable, TypeExpr.ParamsPrintable, harg, hstring, hbool, hnumber,
      hplain, -String.reduceToList]
  have hsource := ofSource_of_parseStrict hparse { name := "f" }
  have hat : ∃ ps r a, (translate { name := "f" } w).type.at? [1] = some (.function ps r a) := by
    rw [translate, applyAll_eq_onePass, hsource]
    exact ⟨_, _, _, rfl⟩
  obtain ⟨ps, r, a, hat⟩ := hat
  obtain ⟨qs, r', a', hqs, hnames, hiff⟩ := names_translate _ w [1] ps r a hat
  rw [hsource] at hqs
  obtain ⟨rfl, -, -⟩ := TypeExpr.function.inj (Option.some.inj hqs)
  refine ⟨ps, r, a, hat, hnames, ?_⟩
  rw [TypeExpr.namesOf_of_map_name hnames]
  decide

/-- Written names that differ need not be enough: in `fn(arg1: number, string)` the second parameter is
named after its position, which is the name of the first one. -/
theorem not_nodup_names_translate :
    ¬ ∀ (c : Circumstances) (w : Text) (pos : List ℕ) (ps qs : List TypeParam)
      (r r' : Option TypeExpr) (a a' : Bool),
      (translate c w).type.at? pos = some (.function ps r a) →
        (ofSource c w).type.at? pos = some (.function qs r' a') →
          (namesOf qs).Nodup → (namesOf ps).Nodup := by
  intro hall
  let w : Text := "fn(arg1: number, string)"
  let source : TypeExpr :=
    .function [⟨some "arg1", .atom "number", false⟩, ⟨none, .atom "string", false⟩] none false
  have hparse : TypeExpr.parseStrict w = .ok source := by
    apply TypeExpr.parseStrict_render_of_printable (t := source)
    have harg : Token.IsName "arg1" := Token.IsIdentifier.isName (by decide)
    have hstring : Token.IsName "string" := Token.IsIdentifier.isName (by decide)
    have hnumber : Token.IsName "number" := Token.IsIdentifier.isName (by decide)
    have hplain : ("string" : Text) ≠ "Promise" ∧ ("number" : Text) ≠ "Promise" := by decide
    simp [source, TypeExpr.Printable, TypeExpr.ParamsPrintable, harg, hstring, hnumber, hplain,
      -String.reduceToList]
  have hsource := ofSource_of_parseStrict hparse { name := "f" }
  have hat : (translate { name := "f" } w).type.at? [] = some (.function
      [⟨some "arg1", .atom "number", false⟩, ⟨some "arg1", .atom "string", false⟩]
      (some (.atom "void")) false) := by
    rw [translate, applyAll_eq_onePass, hsource]
    rfl
  have hqs : (ofSource { name := "f" } w).type.at? [] = some source := by
    rw [hsource]
    rfl
  have hclash := hall _ w [] _ _ _ _ _ _ hat hqs (by decide)
  exact absurd hclash (by decide)

end

end Signature

end Ambient

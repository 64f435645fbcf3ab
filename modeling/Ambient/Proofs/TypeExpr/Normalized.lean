import Mathlib
import Ambient.Proofs.TypeExpr.Tree
import Ambient.Signature.Rules

/-!
# Normalized expressions

The rules for one node run over a tree one after another: references lose their mark, callbacks get
a return type, parameters get names, functions become arrow functions, and keywords are replaced.
`normalized` does the same in one recursion, with a switch for the return types of callbacks
(`afterRules_eq_normalized`).  An expression is *ruled* if no node of it is left for the rules that
run, and *settled* if none is left for any rule.  A normalized expression is ruled
(`ruled_normalized`), and normalizing a ruled one changes nothing (`normalized_of_ruled`).
-/

namespace Ambient

namespace TypeExpr

/-! ### One recursion -/

/-- The name of a type in declarations. -/
def keyword (name : Text) : Text :=
  if name = "bool" then "boolean" else if name = "?" then "any" else name

mutual

/-- The expression as declarations write it; a function that leaves its return type open returns
nothing if `fills`. -/
def normalized (fills : Bool) : TypeExpr → TypeExpr
  | .atom name => .atom (keyword name)
  | .reference name => .atom (keyword name)
  | .literal text => .literal text
  | .function params returns _ =>
    .function (nameParams 0 (normalizedParams fills params))
      ((normalizedOption fills returns).or (if fills then some (.atom "void") else none)) true
  | .array element => .array (normalized fills element)
  | .promise result => .promise (some ((normalizedOption fills result).getD (.atom "void")))
  | .generic name args => .generic name (normalizedList fills args)
  | .map value indexed => .map (normalized fills value) indexed
  | .object fields => .object (normalizedParams fills fields)
  | .union members => .union (normalizedList fills members)
  | .raw text => .raw text

/-- Several expressions as declarations write them. -/
def normalizedList (fills : Bool) : List TypeExpr → List TypeExpr
  | [] => []
  | t :: ts => normalized fills t :: normalizedList fills ts

/-- An expression that may be missing as declarations write it. -/
def normalizedOption (fills : Bool) : Option TypeExpr → Option TypeExpr
  | none => none
  | some t => some (normalized fills t)

/-- Several parameters with their types as declarations write them. -/
def normalizedParams (fills : Bool) : List (Param TypeExpr) → List (Param TypeExpr)
  | [] => []
  | p :: ps => normalizedParam fills p :: normalizedParams fills ps

/-- A parameter with its type as declarations write it. -/
def normalizedParam (fills : Bool) : Param TypeExpr → Param TypeExpr
  | ⟨name, type, optional⟩ => ⟨name, normalized fills type, optional⟩

end

section

variable {fills : Bool} {t : TypeExpr}

lemma normalizedList_eq_map (ts : List TypeExpr) :
    normalizedList fills ts = ts.map (normalized fills) := by
  induction ts with
  | nil => rfl
  | cons t ts ih => simp [normalizedList, ih]

lemma normalizedOption_eq_map (t : Option TypeExpr) :
    normalizedOption fills t = t.map (normalized fills) := by
  cases t <;> rfl

/-- Of a parameter only the type is normalized; its name and its mark stay. -/
lemma normalizedParams_eq_map (ps : List TypeParam) :
    normalizedParams fills ps = ps.map fun p => { p with type := p.type.normalized fills } := by
  induction ps with
  | nil => rfl
  | cons p ps ih =>
    obtain ⟨name, type, optional⟩ := p
    simp [normalizedParams, normalizedParam, ih]

/-! ### The rules one after another -/

/-- The rules go through parameters as the rewriting of their types does. -/
lemma rebuildParams_eq_overParams (f : TypeExpr → TypeExpr) (ps : List TypeParam) :
    rebuildParams f ps = overParams f ps :=
  rebuildParams_eq_map f ps

/-- Names are given to parameters before or after a change of their types. -/
lemma nameParams_overParams (f : TypeExpr → TypeExpr) (i : ℕ) (ps : List TypeParam) :
    overParams f (nameParams i ps) = nameParams i (overParams f ps) := by
  induction ps generalizing i with
  | nil => rfl
  | cons p ps ih =>
    have hrest := ih (i + 1)
    simp only [overParams] at hrest
    simp [overParams, nameParams, hrest]

/-- The rules for one node in their order; the one for open return types runs if `fills`. -/
def afterRules (fills : Bool) (t : TypeExpr) : TypeExpr :=
  let unmarked := t.rebuild .unmarked
  let filled := if fills then unmarked.rebuild .returningVoid else unmarked
  ((filled.rebuild .withNamedParams).rebuild .arrowed).rebuild .withKeywords

/-- If the rules normalize every expression of a list, they normalize the list. -/
lemma afterRules_list {ts : List TypeExpr} (h : ∀ t ∈ ts, afterRules fills t = t.normalized fills) :
    ts.map (afterRules fills) = normalizedList fills ts := by
  rw [normalizedList_eq_map]
  exact List.map_congr_left h

/-- If the rules normalize the type of every parameter, they normalize the parameters. -/
lemma afterRules_params {ps : List TypeParam}
    (h : ∀ p ∈ ps, afterRules fills p.type = p.type.normalized fills) :
    (ps.map fun p => { p with type := afterRules fills p.type }) = normalizedParams fills ps := by
  rw [normalizedParams_eq_map]
  exact List.map_congr_left fun p hp => by rw [h p hp]

lemma afterRules_atom (name : Text) : afterRules fills (.atom name) = .atom (keyword name) := by
  have hkeyword : withKeywords (.atom name) = .atom (keyword name) := by
    rw [withKeywords, keyword]
    split_ifs <;> rfl
  cases fills <;> exact hkeyword

lemma afterRules_overParams (fills : Bool) (ps : List TypeParam) :
    (let unmarked := overParams .unmarked ps
      let filled := if fills then overParams .returningVoid unmarked else unmarked
      overParams .withKeywords (overParams .arrowed (overParams .withNamedParams filled))) =
      ps.map fun p => { p with type := afterRules fills p.type } := by
  cases fills <;> simp [overParams, afterRules, Function.comp_def]

/-- The rules name the parameters of a function, fill its return type and make it an arrow function.
-/
lemma afterRules_function (params : List TypeParam) (returns : Option TypeExpr) (arrow : Bool) :
    afterRules fills (.function params returns arrow) =
      .function (nameParams 0 (params.map fun p => { p with type := afterRules fills p.type }))
        ((returns.map (afterRules fills)).or (if fills then some (.atom "void") else none)) true := by
  have hparams := afterRules_overParams fills params
  rw [← hparams]
  cases fills <;> cases returns <;>
    simp only [afterRules, rebuild, unmarked, returningVoid, withNamedParams, arrowed,
      withKeywords, rebuildParams_eq_overParams, rebuildOption, nameParams_overParams,
      Bool.false_eq_true, if_true, if_false] <;> rfl

/-- The rules for one node, one after another, are one recursion. -/
lemma afterRules_eq_normalized (fills : Bool) (t : TypeExpr) :
    afterRules fills t = t.normalized fills := by
  induction t with
  | atom name => exact afterRules_atom name
  | reference name =>
    have hmark : afterRules fills (.reference name) = afterRules fills (.atom name) := by
      cases fills <;> rfl
    rw [hmark, afterRules_atom, normalized]
  | literal text => cases fills <;> rfl
  | raw text => cases fills <;> rfl
  | array element ih =>
    have harray : afterRules fills (.array element) = .array (afterRules fills element) := by
      cases fills <;> rfl
    rw [harray, ih, normalized]
  | map value indexed ih =>
    have hmap : afterRules fills (.map value indexed) = .map (afterRules fills value) indexed := by
      cases fills <;> rfl
    rw [hmap, ih, normalized]
  | function params returns arrow ihp ihr =>
    have hreturns : returns.map (afterRules fills) = normalizedOption fills returns := by
      rw [normalizedOption_eq_map]
      exact Option.map_congr ihr
    rw [afterRules_function, afterRules_params ihp, hreturns, normalized]
  | promise result ih =>
    have hpromise : afterRules fills (.promise result) =
        .promise (some ((result.map (afterRules fills)).getD (.atom "void"))) := by
      cases fills <;> cases result <;> rfl
    have hresult : result.map (afterRules fills) = normalizedOption fills result := by
      rw [normalizedOption_eq_map]
      exact Option.map_congr ih
    rw [hpromise, hresult, normalized]
  | generic name args ih =>
    have hgeneric : afterRules fills (.generic name args) =
        .generic name (args.map (afterRules fills)) := by
      cases fills <;> simp [afterRules, rebuild, unmarked, returningVoid, withNamedParams, arrowed,
        withKeywords, rebuildList_eq_map, Function.comp_def]
    rw [hgeneric, afterRules_list ih, normalized]
  | object fields ih =>
    have hobject : afterRules fills (.object fields) =
        .object (fields.map fun p => { p with type := afterRules fills p.type }) := by
      cases fills <;> simp [afterRules, rebuild, unmarked, returningVoid, withNamedParams, arrowed,
        withKeywords, rebuildParams_eq_map, Function.comp_def]
    rw [hobject, afterRules_params ih, normalized]
  | union members ih =>
    have hunion : afterRules fills (.union members) =
        .union (members.map (afterRules fills)) := by
      cases fills <;> simp [afterRules, rebuild, unmarked, returningVoid, withNamedParams, arrowed,
        withKeywords, rebuildList_eq_map, Function.comp_def]
    rw [hunion, afterRules_list ih, normalized]

/-! ### Parameters -/

/-- Parameters that have names keep them. -/
lemma nameParams_eq_self {ps : List TypeParam} (h : ∀ p ∈ ps, p.name.isSome = true) (i : ℕ) :
    nameParams i ps = ps := by
  induction ps generalizing i with
  | nil => rfl
  | cons p ps ih =>
    obtain ⟨⟨name⟩ | name, type, optional⟩ := p
    · exact absurd (h _ (List.mem_cons_self ..)) (by simp)
    · rw [nameParams, ih fun q hq => h q (List.mem_cons_of_mem _ hq)]
      rfl

/-- All parameters have names once names are given. -/
lemma named_nameParams (i : ℕ) (ps : List TypeParam) :
    ∀ p ∈ nameParams i ps, p.name.isSome = true := by
  induction ps generalizing i with
  | nil => simp [nameParams]
  | cons p ps ih => exact List.forall_mem_cons.mpr ⟨rfl, ih (i + 1)⟩

lemma mem_nameParams {ps : List TypeParam} {P : TypeExpr → Prop} (h : ∀ p ∈ ps, P p.type) (i : ℕ) :
    ∀ p ∈ nameParams i ps, P p.type := by
  induction ps generalizing i with
  | nil => simp [nameParams]
  | cons p ps ih =>
    exact List.forall_mem_cons.mpr
      ⟨h p (List.mem_cons_self ..), ih (fun q hq => h q (List.mem_cons_of_mem p hq)) (i + 1)⟩

/-- What holds of the normalized types holds of the types of normalized parameters. -/
lemma mem_normalizedParams {ps : List TypeParam} {P : TypeExpr → Prop}
    (h : ∀ p ∈ ps, P (p.type.normalized fills)) : ∀ p ∈ normalizedParams fills ps, P p.type := by
  rw [normalizedParams_eq_map]
  intro p hp
  obtain ⟨q, hq, rfl⟩ := List.mem_map.mp hp
  exact h q hq

/-! ### Ruled expressions -/

/-- The rules leave a node as it is; the one for open return types is among them if `fills`. -/
def Ruled (fills : Bool) : TypeExpr → Prop
  | .atom name => keyword name = name
  | .reference _ => False
  | .function params returns arrow =>
    (∀ p ∈ params, p.name.isSome = true) ∧ (fills = true → returns.isSome = true) ∧ arrow = true
  | .promise result => result.isSome = true
  | .literal _ | .array _ | .generic .. | .map .. | .object _ | .union _ | .raw _ => True

/-- Nothing is left to do for a name in declarations. -/
lemma keyword_keyword (name : Text) : keyword (keyword name) = keyword name := by
  unfold keyword
  split_ifs <;> simp_all

/-- The return type that is filled in stays as it is. -/
lemma ruled_void : Everywhere (Ruled fills) (.atom "void") := by
  rw [everywhere_atom]
  rfl

lemma ruled_normalizedOption {returns : Option TypeExpr}
    (h : ∀ r ∈ returns, Everywhere (Ruled fills) (r.normalized fills)) :
    ∀ r ∈ normalizedOption fills returns, Everywhere (Ruled fills) r := by
  cases returns with
  | none => simp [normalizedOption]
  | some r => simpa [normalizedOption] using h r rfl

/-- The rules have nothing to do in an expression that they have been through. -/
lemma ruled_normalized (fills : Bool) (t : TypeExpr) : Everywhere (Ruled fills) (t.normalized fills) := by
  induction t with
  | atom name => exact (everywhere_atom _).mpr (keyword_keyword name)
  | reference name => exact (everywhere_atom _).mpr (keyword_keyword name)
  | literal text => exact (everywhere_literal text).mpr trivial
  | raw text => exact (everywhere_raw text).mpr trivial
  | array element ih => exact (everywhere_array _).mpr ⟨trivial, ih⟩
  | map value indexed ih => exact (everywhere_map ..).mpr ⟨trivial, ih⟩
  | function params returns arrow ihp ihr =>
    have hresult := ruled_normalizedOption ihr
    refine (everywhere_function ..).mpr ⟨⟨named_nameParams 0 _, ?_, rfl⟩,
      mem_nameParams (mem_normalizedParams ihp) 0, ?_⟩
    · rintro rfl
      cases normalizedOption true returns <;> rfl
    · intro r hr
      cases hoption : normalizedOption fills returns with
      | some r' => exact hresult r (by simpa [hoption] using hr)
      | none =>
        have hfilled : r ∈ (if fills then some (.atom "void") else none : Option TypeExpr) := by
          simpa [hoption] using hr
        split_ifs at hfilled
        · obtain rfl := Option.mem_some_iff.mp hfilled
          exact ruled_void
        · simp at hfilled
  | promise result ih =>
    have hresult := ruled_normalizedOption ih
    refine (everywhere_promise _).mpr ⟨rfl, fun r hr => ?_⟩
    obtain rfl := Option.mem_some_iff.mp hr
    cases hoption : normalizedOption fills result with
    | none => exact ruled_void
    | some r => exact hresult r hoption
  | generic name args ih =>
    rw [normalized, normalizedList_eq_map]
    exact (everywhere_generic ..).mpr ⟨trivial, List.forall_mem_map.mpr ih⟩
  | object fields ih => exact (everywhere_object _).mpr ⟨trivial, mem_normalizedParams ih⟩
  | union members ih =>
    rw [normalized, normalizedList_eq_map]
    exact (everywhere_union _).mpr ⟨trivial, List.forall_mem_map.mpr ih⟩

lemma normalizedList_eq_self {ts : List TypeExpr} (h : ∀ t ∈ ts, t.normalized fills = t) :
    normalizedList fills ts = ts := by
  rw [normalizedList_eq_map, List.map_congr_left h, List.map_id']

lemma normalizedOption_eq_self {t : Option TypeExpr} (h : ∀ r ∈ t, r.normalized fills = r) :
    normalizedOption fills t = t := by
  cases t with
  | none => rfl
  | some r => exact congrArg some (h r rfl)

lemma normalizedParams_eq_self {ps : List TypeParam}
    (h : ∀ p ∈ ps, p.type.normalized fills = p.type) : normalizedParams fills ps = ps := by
  have hp : ∀ p ∈ ps, { p with type := p.type.normalized fills } = p := by
    intro p hp
    rw [h p hp]
  rw [normalizedParams_eq_map, List.map_congr_left hp, List.map_id']

/-- The rules leave a ruled expression as it is. -/
lemma normalized_of_ruled (h : Everywhere (Ruled fills) t) : t.normalized fills = t := by
  induction t with
  | atom name => exact congrArg TypeExpr.atom ((everywhere_atom name).mp h)
  | reference name => exact absurd ((everywhere_reference name).mp h) id
  | literal text => rfl
  | raw text => rfl
  | array element ih => exact congrArg TypeExpr.array (ih ((everywhere_array element).mp h).2)
  | map value indexed ih =>
    exact congrArg (TypeExpr.map · indexed) (ih ((everywhere_map value indexed).mp h).2)
  | function params returns arrow ihp ihr =>
    obtain ⟨⟨hnames, hreturns, rfl⟩, hp, hr⟩ := (everywhere_function ..).mp h
    have hparams : normalizedParams fills params = params :=
      normalizedParams_eq_self fun p hm => ihp p hm (hp p hm)
    have hresult : normalizedOption fills returns = returns :=
      normalizedOption_eq_self fun r hm => ihr r hm (hr r hm)
    have hfilled : returns.or (if fills then some (.atom "void") else none) = returns := by
      cases returns with
      | some r => rfl
      | none =>
        cases fills with
        | false => rfl
        | true => exact absurd (hreturns rfl) Bool.false_ne_true
    rw [normalized, hparams, hresult, nameParams_eq_self hnames, hfilled]
  | promise result ih =>
    obtain ⟨hresult, hr⟩ := (everywhere_promise result).mp h
    obtain ⟨r, rfl⟩ := Option.isSome_iff_exists.mp hresult
    rw [normalized, normalizedOption_eq_self fun r' hm => ih r' hm (hr r' hm)]
    rfl
  | generic name args ih =>
    obtain ⟨-, ha⟩ := (everywhere_generic name args).mp h
    rw [normalized, normalizedList_eq_self fun a hm => ih a hm (ha a hm)]
  | object fields ih =>
    obtain ⟨-, hp⟩ := (everywhere_object fields).mp h
    rw [normalized, normalizedParams_eq_self fun p hm => ih p hm (hp p hm)]
  | union members ih =>
    obtain ⟨-, hm⟩ := (everywhere_union members).mp h
    rw [normalized, normalizedList_eq_self fun m hmem => ih m hmem (hm m hmem)]

/-- Normalizing twice is normalizing once. -/
lemma normalized_normalized (fills : Bool) (t : TypeExpr) :
    (t.normalized fills).normalized fills = t.normalized fills :=
  normalized_of_ruled (ruled_normalized fills t)

/-! ### Settled expressions -/

/-- No rule changes a node. -/
def Settled : TypeExpr → Prop
  | .atom name => keyword name = name
  | .reference _ => False
  | .function params returns arrow =>
    (∀ p ∈ params, p.name.isSome = true) ∧ returns.isSome = true ∧ arrow = true
  | .promise result => result.isSome = true
  | .literal _ | .array _ | .generic .. | .map .. | .object _ | .union _ | .raw _ => True

/-- A node that no rule changes is ruled, whether open return types are filled or not. -/
lemma Settled.ruled (h : Settled t) : Ruled fills t := by
  cases t with
  | function params returns arrow => exact ⟨h.1, fun _ => h.2.1, h.2.2⟩
  | _ => exact h

/-- The rules leave a settled expression as it is. -/
lemma normalized_eq_self (h : Everywhere Settled t) : t.normalized fills = t :=
  normalized_of_ruled (h.imp fun _ => Settled.ruled)

end

end TypeExpr

end Ambient

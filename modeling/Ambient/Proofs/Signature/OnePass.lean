import Mathlib
import Ambient.Proofs.TypeExpr.Normalized
import Ambient.Proofs.TypeExpr.Printable

/-!
# The rules in one pass

The nine rules run over a signature one after another, and some of them only work behind others: a
constructor is found by its return type before keywords are replaced, and callbacks get their return
types before they become arrow functions.  `onePass` computes the same signature at once
(`applyAll_eq_onePass`), for signatures of every form.  `ofType` is what it comes to for a type that
is no declaration (`translate_eq_ofType`).
-/

namespace Ambient

open TypeExpr (nameParams normalizedParams normalizedOption overParams)

namespace Circumstances

variable (c : Circumstances)

/-- Whether a return type is the owner of the member, or the member itself if it has none. -/
def returnsOwner : Option TypeExpr → Bool
  | some (.atom name) => name = c.ownerName?.getD c.name
  | some (.reference name) => name = c.ownerName?.getD c.name
  | _ => false

/-- Whether a missing return type of the member is filled in. -/
def fillsReturn (form : Option SignatureForm) (returns : Option TypeExpr) : Bool :=
  returns.isNone && (form.isNone || form = some .method) && !c.leavesReturnOpen

/-- The return type of a method whose documented one has been filled in, if it was missing. -/
def methodReturn (inferred : Bool) (returns : Option TypeExpr) : Option TypeExpr :=
  if inferred && c.textReturns.contains c.qualifiedName then some (.atom "string") else returns

end Circumstances

namespace Signature

/-! ### One pass -/

/-- The form of a function after the rules, `declared` before them. -/
def callForm (c : Circumstances) (declared : Option SignatureForm) (returns : Option TypeExpr)
    (inferred : Bool) : SignatureForm :=
  declared.getD
    (if c.mayBeConstructor && (c.returnsOwner returns || inferred) then .constructor else .method)

/-- Whether a function is static after the rules, which have given it the form `form`. -/
def callStatic (c : Circumstances) (declared : Option SignatureForm) (isStatic : Bool)
    (form : SignatureForm) : Bool :=
  if declared.isSome then isStatic else form = .method && (isStatic || c.isStatic)

/-- The return type of a function after the rules. -/
def callReturn (c : Circumstances) (form : SignatureForm) (inferred : Bool)
    (returns : Option TypeExpr) : Option TypeExpr :=
  match form with
  | .constructor => none
  | .method => c.methodReturn inferred returns
  | .property => returns

/-- The signature after the rules. -/
def onePass (c : Circumstances) (s : Signature) : Signature :=
  match s.type with
  | .function params returns arrow =>
    let fills := c.fillsReturn s.form returns
    let inferred := s.inferredReturn || fills
    let form := callForm c s.form returns inferred
    let returned := if fills then some (.atom "void") else normalizedOption false returns
    { s with
      type := .function (nameParams 0 (normalizedParams true params))
        (callReturn c form inferred returned) (arrow || s.form = some .property)
      form := some form
      isStatic := callStatic c s.form s.isStatic form
      inferredReturn := inferred }
  | t => { s with type := t.normalized false, form := some (s.form.getD .property) }

/-! ### What is no function -/

section

variable {c : Circumstances} {s : Signature} {f : TypeExpr → TypeExpr} {t : TypeExpr}

/-- Rebuilding makes no function of another type if no step does. -/
lemma isFunction_rebuild (hf : ∀ n : TypeExpr, n.isFunction = false → (f n).isFunction = false)
    (h : t.isFunction = false) : (t.rebuild f).isFunction = false := by
  cases t with
  | function => simp [TypeExpr.isFunction] at h
  | _ => exact hf _ rfl

lemma isFunction_unmarked (h : t.isFunction = false) : t.unmarked.isFunction = false := by
  cases t <;> first | rfl | simp [TypeExpr.isFunction] at h

lemma isFunction_withNamedParams (h : t.isFunction = false) :
    t.withNamedParams.isFunction = false := by
  cases t <;> first | rfl | simp [TypeExpr.isFunction] at h

lemma isFunction_arrowed (h : t.isFunction = false) : t.arrowed.isFunction = false := by
  cases t <;> first | rfl | simp [TypeExpr.isFunction] at h

lemma isFunction_withKeywords (h : t.isFunction = false) : t.withKeywords.isFunction = false := by
  cases t with
  | atom name =>
    rw [TypeExpr.withKeywords]
    split_ifs <;> rfl
  | promise result => cases result <;> rfl
  | function => simp [TypeExpr.isFunction] at h
  | _ => rfl

/-- Only a function has a return type to fill in. -/
lemma applyVoidReturns_of_not_function (h : s.type.isFunction = false) :
    Rule.applyVoidReturns c s = s := by
  obtain ⟨name, type, form, isStatic, inferred⟩ := s
  cases type <;> first | rfl | simp [TypeExpr.isFunction] at h

/-- In any other type than a function all functions are callbacks. -/
lemma applyArrowCallbacks_of_not_function (h : s.type.isFunction = false) :
    Rule.applyArrowCallbacks s = { s with type := s.type.rebuild .arrowed } := by
  obtain ⟨name, type, form, isStatic, inferred⟩ := s
  cases type <;> first | rfl | simp [TypeExpr.isFunction] at h

/-- Only a function is a constructor or a method. -/
lemma applyCallForm_of_not_function (h : s.type.isFunction = false) :
    Rule.applyCallForm c s = s := by
  obtain ⟨name, type, form, isStatic, inferred⟩ := s
  cases form <;> cases type <;> first | rfl | simp [TypeExpr.isFunction] at h

/-- Only a constructor loses its return type. -/
lemma applyConstructorReturn_of_not_function (h : s.type.isFunction = false) :
    Rule.applyConstructorReturn s = s := by
  rw [Rule.applyConstructorReturn]
  split
  · next heq => simp [heq, TypeExpr.isFunction] at h
  · rfl

/-- Only a function has a return type that is known to be text. -/
lemma applyTextReturns_of_not_function (h : s.type.isFunction = false) :
    Rule.applyTextReturns c s = s := by
  rw [Rule.applyTextReturns]
  split
  · next heq => simp [heq, TypeExpr.isFunction] at h
  · rfl

/-- What is no function becomes a property unless it has a form, and its type is normalized. -/
lemma applyAll_of_not_function (h : s.type.isFunction = false) :
    Rule.applyAll c Rule.all s =
      { s with type := s.type.normalized false, form := some (s.form.getD .property) } := by
  have h₁ := isFunction_rebuild (fun _ => isFunction_unmarked) h
  have h₂ := isFunction_rebuild (fun _ => isFunction_withNamedParams) h₁
  have h₃ := isFunction_rebuild (fun _ => isFunction_arrowed) h₂
  have h₄ := isFunction_rebuild (fun _ => isFunction_withKeywords) h₃
  have hform : Rule.applyPropertyForm { s with type := s.type.rebuild .unmarked } =
      { s with type := s.type.rebuild .unmarked, form := some (s.form.getD .property) } := by
    rw [Rule.applyPropertyForm]
    cases s.form <;> simp [h₁]
  simp only [Rule.applyAll, Rule.all, List.foldl_cons, List.foldl_nil, Rule.apply]
  rw [hform, applyVoidReturns_of_not_function h₁, applyArrowCallbacks_of_not_function h₂,
    applyCallForm_of_not_function h₃, applyConstructorReturn_of_not_function h₃,
    applyTextReturns_of_not_function h₄, ← TypeExpr.afterRules_eq_normalized]
  rfl

end

/-! ### Functions -/

section

variable {c : Circumstances} {params : List TypeParam} {returns : Option TypeExpr} {arrow : Bool}
  {form : Option SignatureForm}

/-- The parameters of a function after the rules. -/
lemma rules_params (params : List TypeParam) :
    overParams .withKeywords (overParams .arrowed (nameParams 0 (overParams .withNamedParams
      (overParams .returningVoid (overParams .unmarked params))))) =
      nameParams 0 (normalizedParams true params) := by
  have h := TypeExpr.afterRules_overParams true params
  rw [TypeExpr.afterRules_params fun p _ => TypeExpr.afterRules_eq_normalized true p.type] at h
  rw [TypeExpr.nameParams_overParams, TypeExpr.nameParams_overParams, ← h]
  rfl

/-- A return type in front of the rules for callbacks. -/
def markedReturn (fills : Bool) (returns : Option TypeExpr) : Option TypeExpr :=
  if fills then some (.atom "void") else returns.map (TypeExpr.rebuild .unmarked)

/-- A return type in front of the choice between method and constructor. -/
def arrowedReturn (fills : Bool) (returns : Option TypeExpr) : Option TypeExpr :=
  ((markedReturn fills returns).map (TypeExpr.rebuild .withNamedParams)).map
    (TypeExpr.rebuild .arrowed)

/-- A return type is filled in or normalized. -/
lemma map_withKeywords_arrowedReturn (fills : Bool) (returns : Option TypeExpr) :
    (arrowedReturn fills returns).map (TypeExpr.rebuild .withKeywords) =
      if fills then some (.atom "void") else normalizedOption false returns := by
  cases fills with
  | true => rfl
  | false =>
    cases returns with
    | none => rfl
    | some r => exact congrArg some (TypeExpr.afterRules_eq_normalized false r)

/-- The owner is recognized behind the rules for callbacks as it is in front of them. -/
lemma isNamed_arrowedReturn (c : Circumstances) (returns : Option TypeExpr) :
    (arrowedReturn false returns).elim false (TypeExpr.isNamed (c.ownerName?.getD c.name)) =
      c.returnsOwner returns := by
  cases returns with
  | none => rfl
  | some r => cases r <;> rfl

end

section

variable {c : Circumstances} {name : Text} {params : List TypeParam} {returns : Option TypeExpr}
  {arrow isStatic inferred : Bool} {form : Option SignatureForm} {f : TypeExpr → TypeExpr}

/-- A rule for every node does to a function what it does to its parts and then to its root. -/
lemma rebuild_function : (TypeExpr.function params returns arrow).rebuild f =
    f (.function (overParams f params) (returns.map (TypeExpr.rebuild f)) arrow) := by
  rw [TypeExpr.rebuild, TypeExpr.rebuildParams_eq_overParams, TypeExpr.rebuildOption_eq_map]

/-- Of a function the rule fills the return types of its callbacks, and its own if it is missing. -/
lemma applyVoidReturns_function :
    Rule.applyVoidReturns c ⟨name, .function params (returns.map f) arrow, form, isStatic, inferred⟩ =
      ⟨name, .function (overParams .returningVoid params)
        (if c.fillsReturn form returns then some (.atom "void") else returns.map f) arrow, form,
        isStatic, inferred || c.fillsReturn form returns⟩ := by
  cases returns <;> rfl

/-- A function without a form becomes a constructor or a method. -/
lemma applyCallForm_function {fills : Bool} (hfills : fills = true → inferred = true) :
    Rule.applyCallForm c
        ⟨name, .function params (arrowedReturn fills returns) arrow, form, isStatic, inferred⟩ =
      ⟨name, .function params (arrowedReturn fills returns) arrow,
        some (callForm c form returns inferred),
        callStatic c form isStatic (callForm c form returns inferred), inferred⟩ := by
  have howner : ((arrowedReturn fills returns).elim false
      (TypeExpr.isNamed (c.ownerName?.getD c.name)) || inferred) =
        (c.returnsOwner returns || inferred) := by
    cases fills with
    | true => simp [hfills rfl]
    | false => rw [isNamed_arrowedReturn]
  cases form with
  | some form => rfl
  | none =>
    simp only [Rule.applyCallForm, howner, callForm, callStatic, Option.getD_none,
      Option.isSome_none, Bool.false_eq_true, if_false]
    split_ifs <;> simp

/-- Of a function the rule drops the return type of a constructor. -/
lemma applyConstructorReturn_function {form : SignatureForm} :
    Rule.applyConstructorReturn
        ⟨name, .function params returns arrow, some form, isStatic, inferred⟩ =
      ⟨name, .function params (if form = .constructor then none else returns) arrow, some form,
        isStatic, inferred⟩ := by
  cases form <;> rfl

/-- Of a function the rule leaves the return type that a call ends up with. -/
lemma applyTextReturns_function {form : SignatureForm} :
    Rule.applyTextReturns c
        ⟨name, .function params (if form = .constructor then none else returns) arrow, some form,
          isStatic, inferred⟩ =
      ⟨name, .function params (callReturn c form inferred returns) arrow, some form, isStatic,
        inferred⟩ := by
  cases form with
  | method =>
    simp only [Rule.applyTextReturns, callReturn, Circumstances.methodReturn, reduceCtorEq, if_false]
    split_ifs <;> rfl
  | _ => rfl

/-- The rules make of a function what one pass makes of it. -/
lemma applyAll_of_function {s : Signature} (h : s.type = .function params returns arrow) :
    Rule.applyAll c Rule.all s = onePass c s := by
  obtain ⟨name, type, form, isStatic, inferred⟩ := s
  obtain rfl : type = .function params returns arrow := h
  -- the rule for properties leaves a function as it is
  have hproperty : ∀ r a, Rule.applyPropertyForm
      ⟨name, .function (overParams .unmarked params) r a, form, isStatic, inferred⟩ =
        ⟨name, .function (overParams .unmarked params) r a, form, isStatic, inferred⟩ := by
    intro r a
    cases form <;> rfl
  have hinferred : c.fillsReturn form returns = true →
      (inferred || c.fillsReturn form returns) = true := by
    intro h
    rw [h, Bool.or_true]
  have hreturn : ((if c.fillsReturn form returns = true then some (.atom "void") else
      returns.map (TypeExpr.rebuild .unmarked)).map (TypeExpr.rebuild .withNamedParams)).map
        (TypeExpr.rebuild .arrowed) = arrowedReturn (c.fillsReturn form returns) returns := rfl
  simp only [Rule.applyAll, Rule.all, List.foldl_cons, List.foldl_nil, Rule.apply,
    rebuild_function, TypeExpr.unmarked, hproperty, applyVoidReturns_function,
    TypeExpr.withNamedParams, Rule.applyArrowCallbacks, hreturn, applyCallForm_function hinferred,
    applyConstructorReturn_function, TypeExpr.withKeywords, rules_params]
  rw [apply_ite (Option.map (TypeExpr.rebuild .withKeywords)), Option.map_none,
    map_withKeywords_arrowedReturn, applyTextReturns_function]
  rfl

end

/-- The rules in their order are one pass. -/
theorem applyAll_eq_onePass (c : Circumstances) (s : Signature) :
    Rule.applyAll c Rule.all s = onePass c s := by
  cases h : s.type with
  | function params returns arrow => exact applyAll_of_function h
  | _ => rw [applyAll_of_not_function (by rw [h]; rfl), onePass, h]

/-- A signature has the name of its member, whatever its source says. -/
lemma name_ofSource (c : Circumstances) (source : Text) : (ofSource c source).name = c.name := by
  rw [ofSource]
  split <;> rfl

/-- No rule changes the name of a member. -/
lemma name_translate (c : Circumstances) (source : Text) : (translate c source).name = c.name := by
  rw [translate, applyAll_eq_onePass, onePass]
  split <;> exact name_ofSource c source

/-- The rules leave a declared function as it is if they have nothing to do in its parts and its arrow
and its return type go with its form. -/
lemma onePass_eq_self {c : Circumstances} {name : Text} {params : List TypeParam}
    {returns : Option TypeExpr} {arrow isStatic inferred : Bool} {form : SignatureForm}
    (hparams : nameParams 0 (normalizedParams true params) = params)
    (hresult : normalizedOption false returns = returns)
    (hfills : c.fillsReturn (some form) returns = false)
    (hreturn : callReturn c form inferred returns = returns)
    (harrow : form = .property → arrow = true) :
    onePass c ⟨name, .function params returns arrow, some form, isStatic, inferred⟩ =
      ⟨name, .function params returns arrow, some form, isStatic, inferred⟩ := by
  simpa [onePass, hparams, hresult, hfills, callForm, callStatic, hreturn] using harrow

/-! ### Types that are no declarations -/

/-- The signature of a member whose type is documented as an expression.  A function is a constructor
without a return type if the member may be one and the function returns the owner, or if its return
type is missing and not left open; every other function is a method, and what is no function is a
property. -/
def ofType (c : Circumstances) : TypeExpr → Signature
  | .function params returns arrow =>
    let params := nameParams 0 (normalizedParams true params)
    let missing := returns.isNone && !c.leavesReturnOpen
    if c.mayBeConstructor && (c.returnsOwner returns || missing) then
      { name := c.name
        type := .function params none arrow
        form := some .constructor
        inferredReturn := missing }
    else
      let result : TypeExpr := .atom (if c.textReturns.contains c.qualifiedName then "string" else "void")
      { name := c.name
        type := .function params (if missing then some result else normalizedOption false returns) arrow
        form := some .method
        isStatic := c.isStatic
        inferredReturn := missing }
  | t => { name := c.name, type := t.normalized false, form := some .property, isStatic := c.isStatic }

/-- The rules give a type that is no declaration the signature that `ofType` computes. -/
theorem translate_eq_ofType (c : Circumstances) {source : Text} (h : ofDeclaration? source = none) :
    translate c source = ofType c (TypeExpr.parse source) := by
  have hsource : ofSource c source =
      { name := c.name, type := .parse source, isStatic := c.isStatic } := by
    rw [ofSource, h]
  rw [translate, applyAll_eq_onePass, hsource]
  cases TypeExpr.parse source with
  | function params returns arrow =>
    have hfills : c.fillsReturn none returns = (returns.isNone && !c.leavesReturnOpen) := by
      simp [Circumstances.fillsReturn]
    simp only [onePass, ofType, hfills, Bool.false_or, callForm, Option.getD_none]
    by_cases hconstructor :
        (c.mayBeConstructor && (c.returnsOwner returns || returns.isNone && !c.leavesReturnOpen)) = true
    · simp [hconstructor, callReturn, callStatic]
    · rw [if_neg hconstructor, if_neg hconstructor]
      by_cases htext : c.qualifiedName ∈ c.textReturns <;>
        cases returns.isNone && !c.leavesReturnOpen <;>
          simp [callReturn, callStatic, Circumstances.methodReturn, htext, -String.reduceToList]
  | _ => rfl

/-- A function from `bool` to an instance of the member is its constructor if it may have one. -/
theorem translate_constructor :
    let source : TypeExpr := .function [⟨none, .atom "bool", false⟩] (some (.reference "Foo")) false
    translate { name := "Foo", mayBeConstructor := true, isStatic := true } source.render =
      { name := "Foo"
        type := .function [⟨some "arg0", .atom "boolean", false⟩] none false
        form := some .constructor } := by
  intro source
  have hbool : Token.IsName ['b', 'o', 'o', 'l'] := Token.IsIdentifier.isName (by decide)
  have hfoo : Token.IsName ['F', 'o', 'o'] := Token.IsIdentifier.isName (by decide)
  have hsource : TypeExpr.Everywhere TypeExpr.Printable source := by
    simp [source, TypeExpr.Printable, TypeExpr.ParamsPrintable, hbool, hfoo]
  have hparse : TypeExpr.parse source.render = source := by
    rw [TypeExpr.parse, TypeExpr.parseStrict_render_of_printable hsource]
  have hnone : ofDeclaration? source.render = none := by rfl
  rw [translate_eq_ofType _ hnone, hparse]
  rfl

end Signature

end Ambient

import Mathlib
import Ambient.Proofs.Signature.OnePass

/-!
# The rules are a closure

Each rule takes something away from a signature, and none of the later ones brings it back: behind all
nine the signature is *normal* (`normal_onePass`).  Running the rules a second time changes nothing.
The circumstances matter for this as well.  A method may be left without a return type only where the
member leaves it open, and a method whose return type was filled in already returns text where the
member is known to (`callReturn_callReturn`), so neither rule finds anything to do again.

All this holds of every signature, whatever its form and its type, and not only of those that are read
from a document.
-/

namespace Ambient

open TypeExpr (Everywhere Ruled nameParams normalizedParams normalizedOption)

namespace Signature

/-! ### Normal signatures -/

/-- A signature in which no rule that looks at its form and its type alone has anything to do. -/
structure Normal (s : Signature) : Prop where
  classified : s.form.isSome = true
  /-- No instance reference is left. -/
  unmarked : ∀ name, .reference name ∉ s.type.nodes
  keywords : .atom "bool" ∉ s.type.nodes ∧ .atom "?" ∉ s.type.nodes
  /-- Every promise says what it promises. -/
  promises : .promise none ∉ s.type.nodes
  /-- Every parameter of a function type has a name. -/
  named : ∀ params returns arrow, .function params returns arrow ∈ s.type.nodes →
    ∀ p ∈ params, p.name.isSome = true
  /-- Below the root every function type is an arrow function. -/
  callbacks : ∀ params returns arrow, .function params returns arrow ∈ s.type.nodes.tail →
    arrow = true
  property : ∀ params returns arrow, s.form = some .property →
    s.type = .function params returns arrow → arrow = true
  constructor : ∀ params returns arrow, s.form = some .constructor →
    s.type = .function params returns arrow → returns = none

section

variable {fills : Bool} {t : TypeExpr} {params : List TypeParam} {returns : Option TypeExpr}
  {arrow isStatic inferred : Bool} {form : SignatureForm} {name : Text}

/-- A name that declarations leave as it is, is none of the two they change. -/
lemma ne_keyword (h : TypeExpr.keyword name = name) : name ≠ "bool" ∧ name ≠ "?" := by
  refine ⟨?_, ?_⟩
  · rintro rfl
    exact absurd h (by decide)
  · rintro rfl
    exact absurd h (by decide)

/-- What is ruled throughout and no function is normal as soon as it has a form. -/
lemma normal_of_ruled (h : Everywhere (Ruled fills) t) (ht : t.isFunction = false) :
    Normal ⟨name, t, some form, isStatic, inferred⟩ where
  classified := rfl
  unmarked _ hm := h _ hm
  keywords := ⟨fun hm => (ne_keyword (h _ hm)).1 rfl, fun hm => (ne_keyword (h _ hm)).2 rfl⟩
  promises hm := absurd (h _ hm) Bool.false_ne_true
  named _ _ _ hm := (h _ hm).1
  callbacks _ _ _ hm := (h _ (List.mem_of_mem_tail hm)).2.2
  property := by
    rintro params returns arrow - rfl
    exact absurd ht (by simp [TypeExpr.isFunction])
  constructor := by
    rintro params returns arrow - rfl
    exact absurd ht (by simp [TypeExpr.isFunction])

/-- The nodes below a function are those of its parameters and of its return type. -/
lemma mem_tail_nodes_function {n : TypeExpr} :
    n ∈ (TypeExpr.function params returns arrow).nodes.tail ↔
      (∃ p ∈ params, n ∈ p.type.nodes) ∨ ∃ r ∈ returns, n ∈ r.nodes := by
  cases returns <;>
    simp [TypeExpr.nodes, TypeExpr.nodesOfParams_eq_flatMap, TypeExpr.nodesOfOption]

/-- A function whose parts are ruled and whose parameters have names is normal, if its arrow and its
return type go with its form. -/
lemma normal_function (hnamed : ∀ p ∈ params, p.name.isSome = true)
    (hparams : ∀ p ∈ params, Everywhere (Ruled true) p.type)
    (hreturns : ∀ r ∈ returns, Everywhere (Ruled false) r)
    (hproperty : form = .property → arrow = true) (hconstructor : form = .constructor → returns = none) :
    Normal ⟨name, .function params returns arrow, some form, isStatic, inferred⟩ := by
  -- the root is the only node that need not be ruled
  have hbelow : ∀ n ∈ (TypeExpr.function params returns arrow).nodes.tail, ∃ fills, Ruled fills n := by
    intro n hn
    rcases mem_tail_nodes_function.mp hn with ⟨p, hp, hn⟩ | ⟨r, hr, hn⟩
    · exact ⟨true, hparams p hp n hn⟩
    · exact ⟨false, hreturns r hr n hn⟩
  have hnode : ∀ n ∈ (TypeExpr.function params returns arrow).nodes,
      n = .function params returns arrow ∨ ∃ fills, Ruled fills n := by
    intro n hn
    rw [TypeExpr.nodes, List.mem_cons] at hn
    exact hn.imp_right fun hn => hbelow n (by simpa [TypeExpr.nodes] using hn)
  have hother : ∀ n ∈ (TypeExpr.function params returns arrow).nodes, n.isFunction = false →
      ∃ fills, Ruled fills n := by
    intro n hn hnot
    rcases hnode n hn with rfl | hruled
    · exact absurd hnot (by simp [TypeExpr.isFunction])
    · exact hruled
  refine ⟨rfl, ?_, ⟨?_, ?_⟩, ?_, ?_, ?_, ?_, ?_⟩
  · intro name hm
    obtain ⟨_, hruled⟩ := hother _ hm rfl
    exact hruled
  · intro hm
    obtain ⟨_, hruled⟩ := hother _ hm rfl
    exact (ne_keyword hruled).1 rfl
  · intro hm
    obtain ⟨_, hruled⟩ := hother _ hm rfl
    exact (ne_keyword hruled).2 rfl
  · intro hm
    obtain ⟨_, hruled⟩ := hother _ hm rfl
    exact absurd hruled Bool.false_ne_true
  · intro params' returns' arrow' hm
    rcases hnode _ hm with hroot | ⟨_, hruled⟩
    · obtain ⟨rfl, -, -⟩ := TypeExpr.function.inj hroot
      exact hnamed
    · exact hruled.1
  · intro params' returns' arrow' hm
    obtain ⟨_, hruled⟩ := hbelow _ hm
    exact hruled.2.2
  · intro params' returns' arrow' hform htype
    obtain ⟨-, -, rfl⟩ := TypeExpr.function.inj htype
    exact hproperty (Option.some.inj hform)
  · intro params' returns' arrow' hform htype
    obtain ⟨-, rfl, -⟩ := TypeExpr.function.inj htype
    exact hconstructor (Option.some.inj hform)

end

/-! ### What one pass leaves -/

section

variable {c : Circumstances} {declared : Option SignatureForm} {form : SignatureForm}
  {returns : Option TypeExpr} {inferred : Bool} {t : TypeExpr}

/-- The return type of a function in front of the choice of its form and the known texts. -/
def filledReturn (c : Circumstances) (declared : Option SignatureForm) (returns : Option TypeExpr) :
    Option TypeExpr :=
  if c.fillsReturn declared returns then some (.atom "void") else normalizedOption false returns

/-- The return type that a call is filled with is ruled. -/
lemma ruled_filledReturn :
    ∀ r ∈ filledReturn c declared returns, Everywhere (Ruled false) r := by
  intro r hr
  rw [filledReturn] at hr
  split_ifs at hr
  · obtain rfl := Option.mem_some_iff.mp hr
    exact TypeExpr.ruled_void
  · exact TypeExpr.ruled_normalizedOption (fun r _ => TypeExpr.ruled_normalized false r) r hr

/-- The return type that a call ends up with is ruled if the first one is. -/
lemma ruled_callReturn (h : ∀ r ∈ returns, Everywhere (Ruled false) r) :
    ∀ r ∈ callReturn c form inferred returns, Everywhere (Ruled false) r := by
  cases form with
  | constructor => simp [callReturn]
  | property => exact h
  | method =>
    intro r hr
    rw [callReturn, Circumstances.methodReturn] at hr
    split_ifs at hr
    · obtain rfl := Option.mem_some_iff.mp hr
      exact (TypeExpr.everywhere_atom _).mpr rfl
    · exact h r hr

lemma isFunction_normalized (h : t.isFunction = false) :
    (t.normalized false).isFunction = false := by
  cases t with
  | function => simp [TypeExpr.isFunction] at h
  | _ => rfl

/-- A function becomes a property only if it was one, and then it is an arrow function. -/
lemma arrow_of_callForm (arrow : Bool) (h : callForm c declared returns inferred = .property) :
    (arrow || decide (declared = some .property)) = true := by
  cases declared with
  | some form =>
    obtain rfl : form = .property := h
    exact Bool.or_true arrow
  | none =>
    rw [callForm, Option.getD_none] at h
    split_ifs at h

/-- One pass of the rules leaves a normal signature. -/
lemma normal_onePass (c : Circumstances) (s : Signature) : Normal (onePass c s) := by
  obtain ⟨name, type, form, isStatic, inferred⟩ := s
  cases type with
  | function params returns arrow =>
    have hparams : ∀ p ∈ normalizedParams true params, Everywhere (Ruled true) p.type :=
      TypeExpr.mem_normalizedParams fun p _ => TypeExpr.ruled_normalized true p.type
    refine normal_function (TypeExpr.named_nameParams 0 _) (TypeExpr.mem_nameParams hparams 0)
      (ruled_callReturn ruled_filledReturn) ?_ ?_
    · exact arrow_of_callForm arrow
    · intro hform
      rw [hform]
      rfl
  | _ => exact normal_of_ruled (TypeExpr.ruled_normalized false _) (isFunction_normalized rfl)

/-! ### The second pass -/

/-- Nothing is filled in behind the rules: a method without a return type leaves it open. -/
lemma fillsReturn_callReturn (hmethod : form = .method → declared = none ∨ declared = some .method) :
    c.fillsReturn (some form) (callReturn c form inferred (filledReturn c declared returns)) = false := by
  cases form with
  | constructor => simp [Circumstances.fillsReturn]
  | property => simp [Circumstances.fillsReturn]
  | method =>
    rw [callReturn, Circumstances.methodReturn]
    split_ifs
    · rfl
    · rw [filledReturn]
      split_ifs with hfills
      · rfl
      · cases returns with
        | some r => rfl
        | none => rcases hmethod rfl with rfl | rfl <;>
            simpa [Circumstances.fillsReturn, normalizedOption] using hfills

/-- The return type of a call stays as the rules have left it. -/
lemma normalizedOption_callReturn (h : ∀ r ∈ returns, Everywhere (Ruled false) r) :
    normalizedOption false (callReturn c form inferred returns) = callReturn c form inferred returns :=
  TypeExpr.normalizedOption_eq_self fun r hr =>
    TypeExpr.normalized_of_ruled (ruled_callReturn h r hr)

/-- Choosing the return type of a call again changes nothing. -/
lemma callReturn_callReturn :
    callReturn c form inferred (callReturn c form inferred returns) =
      callReturn c form inferred returns := by
  cases form with
  | constructor => rfl
  | property => rfl
  | method =>
    simp only [callReturn, Circumstances.methodReturn]
    split_ifs <;> rfl

/-- Parameters stay as the rules have left them. -/
lemma normalizedParams_nameParams (params : List TypeParam) :
    nameParams 0 (normalizedParams true (nameParams 0 (normalizedParams true params))) =
      nameParams 0 (normalizedParams true params) := by
  have htypes : ∀ p ∈ normalizedParams true params, p.type.normalized true = p.type :=
    TypeExpr.mem_normalizedParams (P := fun t => t.normalized true = t) fun p _ =>
      TypeExpr.normalized_normalized true p.type
  have hnamed : ∀ p ∈ nameParams 0 (normalizedParams true params), p.type.normalized true = p.type :=
    TypeExpr.mem_nameParams (P := fun t => t.normalized true = t) htypes 0
  rw [TypeExpr.normalizedParams_eq_self hnamed]
  exact TypeExpr.nameParams_eq_self (TypeExpr.named_nameParams 0 _) 0

/-- One pass is enough. -/
lemma onePass_onePass (c : Circumstances) (s : Signature) :
    onePass c (onePass c s) = onePass c s := by
  obtain ⟨name, type, declared, isStatic, inferred⟩ := s
  cases type with
  | function params returns arrow =>
    have hmethod : callForm c declared returns (inferred || c.fillsReturn declared returns) = .method →
        declared = none ∨ declared = some .method := by
      cases declared with
      | none => exact fun _ => Or.inl rfl
      | some form => exact fun hform => Or.inr (congrArg some hform)
    exact onePass_eq_self (normalizedParams_nameParams params)
      (normalizedOption_callReturn ruled_filledReturn) (fillsReturn_callReturn hmethod)
      callReturn_callReturn (arrow_of_callForm arrow)
  | _ =>
    have hpass : ∀ s : Signature, s.type.isFunction = false → onePass c s =
        { s with type := s.type.normalized false, form := some (s.form.getD .property) } := by
      intro s hs
      rw [← applyAll_eq_onePass, applyAll_of_not_function hs]
    rw [hpass ⟨_, _, declared, isStatic, inferred⟩ rfl, hpass _ (isFunction_normalized rfl),
      TypeExpr.normalized_normalized]
    rfl

end

/-- Running the rules again changes nothing, and a signature that they have run over is normal. -/
theorem applyAll_applyAll (c : Circumstances) (s : Signature) :
    Rule.applyAll c Rule.all (Rule.applyAll c Rule.all s) = Rule.applyAll c Rule.all s ∧
      Normal (Rule.applyAll c Rule.all s) := by
  rw [applyAll_eq_onePass, applyAll_eq_onePass]
  exact ⟨onePass_onePass c s, normal_onePass c s⟩

end Signature

end Ambient

import Mathlib
import Ambient.Proofs.TypeExpr.Replacement

/-!
# Names that a type expression avoids

Exchanging a part of an expression or rebuilding it brings in no named type but those of what is
put in.  It is said by the names that an expression avoids: what it is made of avoids them too, and
so does the result.
-/

namespace Ambient

namespace TypeExpr

variable {t new : TypeExpr} {name : Text} {p : TypeExpr → Bool} {f : TypeExpr → TypeExpr}

/-- The named type `name` occurs nowhere in an expression. -/
def Avoids (name : Text) (t : TypeExpr) : Prop :=
  Everywhere (· ≠ .atom name) t

/-- A name occurs nowhere if it is none of the nodes. -/
lemma avoids_iff : Avoids name t ↔ .atom name ∉ t.nodes := by
  constructor
  · intro h hmem
    exact h _ hmem rfl
  · rintro h n hn rfl
    exact h hn

/-- A named type avoids every other name. -/
@[simp] lemma avoids_atom {n : Text} : Avoids name (.atom n) ↔ n ≠ name := by
  simp [Avoids]

@[simp] lemma avoids_literal {text : Text} : Avoids name (.literal text) := by
  simp [Avoids]

/-- A name occurs in a function only in its parameters and its result. -/
@[simp] lemma avoids_function {params : List TypeParam} {returns : Option TypeExpr} {arrow : Bool} :
    Avoids name (.function params returns arrow) ↔
      (∀ p ∈ params, Avoids name p.type) ∧ ∀ r ∈ returns, Avoids name r := by
  simp [Avoids]

@[simp] lemma avoids_array {element : TypeExpr} :
    Avoids name (.array element) ↔ Avoids name element := by
  simp [Avoids]

@[simp] lemma avoids_promise {result : Option TypeExpr} :
    Avoids name (.promise result) ↔ ∀ r ∈ result, Avoids name r := by
  simp [Avoids]

/-- The name of a generic type is no named type of its own. -/
@[simp] lemma avoids_generic {g : Text} {args : List TypeExpr} :
    Avoids name (.generic g args) ↔ ∀ a ∈ args, Avoids name a := by
  simp [Avoids]

@[simp] lemma avoids_map {value : TypeExpr} {indexed : Bool} :
    Avoids name (.map value indexed) ↔ Avoids name value := by
  simp [Avoids]

@[simp] lemma avoids_object {fields : List TypeParam} :
    Avoids name (.object fields) ↔ ∀ p ∈ fields, Avoids name p.type := by
  simp [Avoids]

/-- A name occurs in a union only in one of its members. -/
@[simp] lemma avoids_union {members : List TypeExpr} :
    Avoids name (.union members) ↔ ∀ m ∈ members, Avoids name m := by
  simp [Avoids]

/-! ### Rebuilding -/

/-- An expression rebuilt by a function that brings in no `name` avoids it. -/
lemma Avoids.rebuild (hf : ∀ n, Avoids name n → Avoids name (f n)) (h : Avoids name t) :
    Avoids name (t.rebuild f) := by
  induction t with
  | atom | reference | literal | raw => exact hf _ h
  | array element ih => exact hf _ (avoids_array.mpr (ih (avoids_array.mp h)))
  | map value indexed ih => exact hf _ (avoids_map.mpr (ih (avoids_map.mp h)))
  | function params returns arrow ihp ihr =>
    obtain ⟨hp, hr⟩ := avoids_function.mp h
    refine hf _ (avoids_function.mpr ⟨?_, ?_⟩)
    · simpa [rebuildParams_eq_map] using fun p hm => ihp p hm (hp p hm)
    · simpa [rebuildOption_eq_map] using fun r hm => ihr r hm (hr r hm)
  | promise result ih =>
    have hr := avoids_promise.mp h
    refine hf _ (avoids_promise.mpr ?_)
    simpa [rebuildOption_eq_map] using fun r hm => ih r hm (hr r hm)
  | generic g args ih =>
    have ha := avoids_generic.mp h
    refine hf _ (avoids_generic.mpr ?_)
    simpa [rebuildList_eq_map] using fun a hm => ih a hm (ha a hm)
  | object fields ih =>
    have hp := avoids_object.mp h
    refine hf _ (avoids_object.mpr ?_)
    simpa [rebuildParams_eq_map] using fun p hm => ih p hm (hp p hm)
  | union members ih =>
    have hm := avoids_union.mp h
    refine hf _ (avoids_union.mpr ?_)
    simpa [rebuildList_eq_map] using fun m hmem => ih m hmem (hm m hmem)

/-! ### Replacing -/

/-- An expression with a part replaced avoids what both the expression and the new part avoid. -/
lemma Avoids.replaceFirst {u : TypeExpr} (hnew : Avoids name new) (h : Avoids name t)
    (hu : replaceFirst? p t new = some u) : Avoids name u := by
  rw [avoids_iff] at hnew h ⊢
  intro hmem
  rcases exists_of_mem_nodes_replaceFirst hu hmem with hmem | ⟨m, hm, hbare⟩
  · exact hnew hmem
  · -- only the named type itself says by itself what it says
    obtain rfl : m = .atom name := by
      cases m <;> simp_all [bare, withParts]
    exact h hm

end TypeExpr

end Ambient

import Mathlib
import Ambient.TypeExpr.Basic

/-!
# Induction over type expressions

A type expression holds others in lists, in parameters and in places that may be empty.  The
principle `induct` hides these containers: each constructor comes with what holds of every
expression directly below it.

`Everywhere P t` says that `P` holds of each node of `t`.  It is unfolded one constructor at a time
by the lemmas `everywhere_function`, `everywhere_array`, ….  The last section says when `rebuild`
leaves an expression as it is.
-/

namespace Ambient

namespace TypeExpr

/-! ### The induction principle -/

/-- Induction over an expression, with a hypothesis for each expression directly below a node. -/
@[elab_as_elim, induction_eliminator]
theorem induct {motive : TypeExpr → Prop}
    (atom : ∀ name, motive (.atom name))
    (reference : ∀ name, motive (.reference name))
    (literal : ∀ text, motive (.literal text))
    (function : ∀ params returns arrow, (∀ p ∈ params, motive p.type) →
      (∀ r ∈ returns, motive r) → motive (.function params returns arrow))
    (array : ∀ element, motive element → motive (.array element))
    (promise : ∀ result, (∀ r ∈ result, motive r) → motive (.promise result))
    (generic : ∀ name args, (∀ a ∈ args, motive a) → motive (.generic name args))
    (map : ∀ value indexed, motive value → motive (.map value indexed))
    (object : ∀ fields, (∀ p ∈ fields, motive p.type) → motive (.object fields))
    (union : ∀ members, (∀ m ∈ members, motive m) → motive (.union members))
    (raw : ∀ text, motive (.raw text)) (t : TypeExpr) : motive t := by
  refine TypeExpr.rec
    (motive_1 := motive)
    (motive_2 := fun ps => ∀ p ∈ ps, motive p.type)
    (motive_3 := fun r => ∀ t ∈ r, motive t)
    (motive_4 := fun ts => ∀ t ∈ ts, motive t)
    (motive_5 := fun p => motive p.type)
    atom reference literal function array promise generic map object union raw
    ?_ ?_ ?_ ?_ ?_ ?_ ?_ t
  · simp
  · intro p ps hp hps q hq
    rcases List.mem_cons.mp hq with rfl | hq
    · exact hp
    · exact hps q hq
  · simp
  · intro r hr t ht
    obtain rfl := Option.mem_some.mp ht
    exact hr
  · simp
  · intro t ts ht hts u hu
    rcases List.mem_cons.mp hu with rfl | hu
    · exact ht
    · exact hts u hu
  · intro name type optional h
    exact h

/-! ### Nodes -/

/-- The nodes of several trees are those of each, in turn. -/
lemma nodesOfList_eq_flatMap (ts : List TypeExpr) : nodesOfList ts = ts.flatMap nodes := by
  induction ts with
  | nil => rfl
  | cons t ts ih => simp [nodesOfList, ih]

/-- The nodes of parameters are those of their types, in turn. -/
lemma nodesOfParams_eq_flatMap (ps : List TypeParam) :
    nodesOfParams ps = ps.flatMap fun p => p.type.nodes := by
  induction ps with
  | nil => rfl
  | cons p ps ih =>
    obtain ⟨name, type, optional⟩ := p
    simp [nodesOfParams, nodesOfParam, ih]

/-- `P` holds of every node of an expression. -/
def Everywhere (P : TypeExpr → Prop) (t : TypeExpr) : Prop :=
  ∀ n ∈ t.nodes, P n

section Everywhere

variable {P Q : TypeExpr → Prop}

attribute [local simp] nodes

@[simp] lemma everywhere_atom (name : Text) :
    Everywhere P (.atom name) ↔ P (.atom name) := by
  simp [Everywhere]

@[simp] lemma everywhere_reference (name : Text) :
    Everywhere P (.reference name) ↔ P (.reference name) := by
  simp [Everywhere]

@[simp] lemma everywhere_literal (text : Text) :
    Everywhere P (.literal text) ↔ P (.literal text) := by
  simp [Everywhere]

@[simp] lemma everywhere_raw (text : Text) :
    Everywhere P (.raw text) ↔ P (.raw text) := by
  simp [Everywhere]

/-- In a function a property holds everywhere if it holds of the node, in the parameters and in the
result. -/
@[simp] lemma everywhere_function (params : List TypeParam) (returns : Option TypeExpr)
    (arrow : Bool) :
    Everywhere P (.function params returns arrow) ↔
      P (.function params returns arrow) ∧ (∀ p ∈ params, Everywhere P p.type) ∧
        ∀ r ∈ returns, Everywhere P r := by
  cases returns <;>
    simp [Everywhere, nodesOfParams_eq_flatMap, nodesOfOption, or_imp, forall_and] <;>
    grind

@[simp] lemma everywhere_array (element : TypeExpr) :
    Everywhere P (.array element) ↔ P (.array element) ∧ Everywhere P element := by
  simp [Everywhere]

@[simp] lemma everywhere_promise (result : Option TypeExpr) :
    Everywhere P (.promise result) ↔ P (.promise result) ∧ ∀ r ∈ result, Everywhere P r := by
  cases result <;> simp [Everywhere, nodesOfOption]

/-- In a generic type a property holds everywhere if it holds of the node and in all arguments. -/
@[simp] lemma everywhere_generic (name : Text) (args : List TypeExpr) :
    Everywhere P (.generic name args) ↔
      P (.generic name args) ∧ ∀ a ∈ args, Everywhere P a := by
  simp only [Everywhere, nodes, nodesOfList_eq_flatMap, List.mem_cons, List.mem_flatMap]
  grind

@[simp] lemma everywhere_map (value : TypeExpr) (indexed : Bool) :
    Everywhere P (.map value indexed) ↔ P (.map value indexed) ∧ Everywhere P value := by
  simp [Everywhere]

/-- In an object type a property holds everywhere if it holds of the node and in all fields. -/
@[simp] lemma everywhere_object (fields : List TypeParam) :
    Everywhere P (.object fields) ↔
      P (.object fields) ∧ ∀ p ∈ fields, Everywhere P p.type := by
  simp only [Everywhere, nodes, nodesOfParams_eq_flatMap, List.mem_cons, List.mem_flatMap]
  grind

/-- In a union a property holds everywhere if it holds of the node and in all members. -/
@[simp] lemma everywhere_union (members : List TypeExpr) :
    Everywhere P (.union members) ↔
      P (.union members) ∧ ∀ m ∈ members, Everywhere P m := by
  simp only [Everywhere, nodes, nodesOfList_eq_flatMap, List.mem_cons, List.mem_flatMap]
  grind

/-- An expression is the first of its nodes. -/
lemma self_mem_nodes (t : TypeExpr) : t ∈ t.nodes := by
  cases t <;> simp

/-- What holds everywhere in a tree holds of its root. -/
lemma Everywhere.self {t : TypeExpr} (h : Everywhere P t) : P t :=
  h t (self_mem_nodes t)

/-- A property that follows at each node follows everywhere. -/
lemma Everywhere.imp {t : TypeExpr} (h : Everywhere P t) (hPQ : ∀ n, P n → Q n) :
    Everywhere Q t :=
  fun n hn => hPQ n (h n hn)

/-- Two properties hold everywhere if each one does. -/
lemma everywhere_and {t : TypeExpr} :
    Everywhere (fun n => P n ∧ Q n) t ↔ Everywhere P t ∧ Everywhere Q t :=
  forall₂_and

instance [DecidablePred P] : DecidablePred (Everywhere P) :=
  fun t => inferInstanceAs (Decidable (∀ n ∈ t.nodes, P n))

end Everywhere

/-! ### Rebuilding -/

section Rebuild

variable {f : TypeExpr → TypeExpr}

/-- Trees that are rebuilt as they are make a list that is. -/
lemma rebuildList_eq_self {ts : List TypeExpr} (h : ∀ t ∈ ts, t.rebuild f = t) :
    rebuildList f ts = ts := by
  rw [rebuildList_eq_map, List.map_congr_left h, List.map_id']

/-- A result that is rebuilt as it is makes an optional one that is. -/
lemma rebuildOption_eq_self {t : Option TypeExpr} (h : ∀ r ∈ t, r.rebuild f = r) :
    rebuildOption f t = t := by
  cases t with
  | none => rfl
  | some r => rw [rebuildOption, h r rfl]

/-- Parameters whose types are rebuilt as they are stay as they are. -/
lemma rebuildParams_eq_self {ps : List TypeParam} (h : ∀ p ∈ ps, p.type.rebuild f = p.type) :
    rebuildParams f ps = ps := by
  have hp : ∀ p ∈ ps, { p with type := p.type.rebuild f } = p := by
    intro p hp
    rw [h p hp]
  rw [rebuildParams_eq_map, List.map_congr_left hp, List.map_id']

/-- Rebuilding with a function that changes no node leaves an expression as it is. -/
lemma rebuild_eq_self {t : TypeExpr} (h : Everywhere (fun n => f n = n) t) : t.rebuild f = t := by
  induction t with
  | atom name => simpa [rebuild] using h
  | reference name => simpa [rebuild] using h
  | literal text => simpa [rebuild] using h
  | raw text => simpa [rebuild] using h
  | array element ih =>
    rw [everywhere_array] at h
    rw [rebuild, ih h.2, h.1]
  | map value indexed ih =>
    rw [everywhere_map] at h
    rw [rebuild, ih h.2, h.1]
  | function params returns arrow ihp ihr =>
    obtain ⟨hf, hp, hr⟩ := (everywhere_function ..).mp h
    rw [rebuild, rebuildParams_eq_self fun p hm => ihp p hm (hp p hm),
      rebuildOption_eq_self fun r hm => ihr r hm (hr r hm), hf]
  | promise result ih =>
    obtain ⟨hf, hr⟩ := (everywhere_promise ..).mp h
    rw [rebuild, rebuildOption_eq_self fun r hm => ih r hm (hr r hm), hf]
  | generic name args ih =>
    obtain ⟨hf, ha⟩ := (everywhere_generic ..).mp h
    rw [rebuild, rebuildList_eq_self fun a hm => ih a hm (ha a hm), hf]
  | object fields ih =>
    obtain ⟨hf, hp⟩ := (everywhere_object ..).mp h
    rw [rebuild, rebuildParams_eq_self fun p hm => ih p hm (hp p hm), hf]
  | union members ih =>
    obtain ⟨hf, hm⟩ := (everywhere_union ..).mp h
    rw [rebuild, rebuildList_eq_self fun m hmem => ih m hmem (hm m hmem), hf]

end Rebuild

end TypeExpr

end Ambient

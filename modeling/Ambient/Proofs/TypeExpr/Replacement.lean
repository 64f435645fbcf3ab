import Mathlib
import Ambient.Proofs.TypeExpr.Position
import Ambient.Synthesis.Interface

/-!
# Replacing the first match

`replaceFirst?` goes through an expression by itself, without the list `nodes`.  That both follow one
order is shown on positions: the subtree it exchanges stands at the first position whose node has the
property (`exists_isFirst_of_replaceFirst`), it finds one if and only if the list has one
(`replaceFirst_eq_none_iff`), and what stands elsewhere stays (`Exchanged`).

An interface takes the place of the first node of the kind that it is looked for in, and of the first
one of the other kind only if the first kind occurs nowhere (`Signature.placed_applyInterface`).
-/

namespace Ambient

namespace TypeExpr

variable {p : TypeExpr → Bool} {t u new : TypeExpr} {ts us : List TypeExpr} {pos : List ℕ}

/-! ### Lists of expressions -/

/-- Types beyond those of the parameters are not used. -/
lemma withTypes_append {ps : List TypeParam} (h : ts.length = ps.length) :
    withTypes ps (ts ++ us) = withTypes ps ts := by
  induction ps generalizing ts with
  | nil => rfl
  | cons q ps ih =>
    obtain ⟨t, ts, rfl⟩ := List.exists_cons_of_length_eq_add_one h
    simpa [withTypes] using ih (Nat.succ.inj h)

lemma withTypes_map_type (ps : List TypeParam) : withTypes ps (ps.map Param.type) = ps := by
  simp [withTypes, List.zipWith_map_right, List.zipWith_self]

/-- Nothing in a list is replaced just if nothing in any of its expressions is. -/
lemma replaceInList_eq_none :
    replaceInList? p new ts = none ↔ ∀ t ∈ ts, replaceFirst? p t new = none := by
  induction ts with
  | nil => simp [replaceInList?]
  | cons t ts ih => cases ht : replaceFirst? p t new <;> simp [replaceInList?, ht, ih]

/-- In a list the first expression that has something to replace is exchanged. -/
lemma exists_of_replaceInList (h : replaceInList? p new ts = some us) :
    ∃ i t t', ts[i]? = some t ∧ replaceFirst? p t new = some t' ∧ us = ts.set i t' ∧
      ∀ j < i, ∀ v, ts[j]? = some v → replaceFirst? p v new = none := by
  induction ts generalizing us with
  | nil => simp [replaceInList?] at h
  | cons t ts ih =>
    rw [replaceInList?] at h
    cases ht : replaceFirst? p t new with
    | some t' =>
      rw [ht] at h
      obtain rfl := Option.some.inj h
      exact ⟨0, t, t', rfl, ht, rfl, fun j hj => absurd hj (Nat.not_lt_zero j)⟩
    | none =>
      rw [ht] at h
      obtain ⟨us, hus, rfl⟩ := Option.map_eq_some_iff.mp h
      obtain ⟨i, v, v', hv, hv', rfl, hbefore⟩ := ih hus
      refine ⟨i + 1, v, v', hv, hv', rfl, fun j hj w hw => ?_⟩
      cases j with
      | zero =>
        obtain rfl : t = w := Option.some.inj hw
        exact ht
      | succ j => exact hbefore j (Nat.lt_of_succ_lt_succ hj) w hw

/-- A replacement leaves as many expressions in the list. -/
lemma length_of_replaceInList (h : replaceInList? p new ts = some us) : us.length = ts.length := by
  obtain ⟨i, t, t', -, -, rfl, -⟩ := exists_of_replaceInList h
  exact List.length_set

/-- The second of two lists is searched only if nothing in the first matches. -/
lemma replaceInList_append :
    replaceInList? p new (ts ++ us) =
      ((replaceInList? p new ts).map (· ++ us)).or ((replaceInList? p new us).map (ts ++ ·)) := by
  induction ts with
  | nil => simp [replaceInList?]
  | cons t ts ih =>
    rw [List.cons_append, replaceInList?, replaceInList?, ih]
    cases replaceFirst? p t new with
    | some t' => rfl
    | none => cases replaceInList? p new ts <;> simp [Function.comp_def]

/-- Replacing in parameters is replacing in the list of their types. -/
lemma replaceInParams_eq_map (ps : List TypeParam) :
    replaceInParams? p new ps =
      (replaceInList? p new (ps.map Param.type)).map (withTypes ps) := by
  induction ps with
  | nil => rfl
  | cons q ps ih =>
    obtain ⟨n, type, optional⟩ := q
    rw [List.map_cons, replaceInList?, replaceInParams?, replaceInParam?, ih]
    cases replaceFirst? p type new with
    | some type' =>
      have hrest := withTypes_map_type ps
      simp only [withTypes] at hrest
      simp [withTypes, hrest]
    | none => simp [Function.comp_def, withTypes]

lemma replaceInOption_eq_map (r : Option TypeExpr) :
    (replaceInOption? p new r).map (fun r' => [r']) = replaceInList? p new r.toList := by
  cases r with
  | none => rfl
  | some r => cases hr : replaceFirst? p r new <;> simp [replaceInOption?, replaceInList?, hr]

/-- Below the root, replacing is replacing in the list of the parts. -/
lemma replaceFirst_eq (p : TypeExpr → Bool) (t new : TypeExpr) :
    replaceFirst? p t new =
      if p t then some new else (replaceInList? p new t.parts).map t.withParts := by
  rw [replaceFirst?.eq_def]
  congr 1
  cases t with
  | function params returns arrow =>
    simp only [parts, replaceInList_append, replaceInParams_eq_map, ← replaceInOption_eq_map returns]
    cases hparams : replaceInList? p new (params.map Param.type) with
    | some ts =>
      have hlen : ts.length = params.length := by simpa using length_of_replaceInList hparams
      have hdrop : (ts ++ returns.toList).drop params.length = returns.toList := by
        rw [← hlen, List.drop_left]
      cases returns <;> simp_all [withParts, withTypes_append hlen]
    | none =>
      have htypes : ∀ r', withTypes params (params.map Param.type ++ [r']) = params := fun r' =>
        (withTypes_append (by simp)).trans (withTypes_map_type params)
      cases returns with
      | none => rfl
      | some r => simp [Function.comp_def, withParts, htypes]
  | promise result =>
    rw [parts, ← replaceInOption_eq_map result]
    cases result with
    | none => rfl
    | some r => simp [Function.comp_def, withParts]
  | array e | map e indexed =>
    cases he : replaceFirst? p e new <;> simp [parts, replaceInList?, he, withParts]
  | generic name args | union members => rfl
  | object fields =>
    simp only [parts, replaceInParams_eq_map, Option.map_map]
    rfl
  | atom | reference | literal | raw => rfl

/-! ### The first match -/

/-- A position is the first in an expression whose node has a property. -/
structure IsFirst (p : TypeExpr → Bool) (t : TypeExpr) (pos : List ℕ) : Prop where
  here : ∃ n, t.at? pos = some n ∧ p n = true
  before : ∀ q < pos, ∀ n, t.at? q = some n → p n = false

/-- An expression with another subtree at a position and everything else as it was: aside of the
position the same subtrees, and on the way to it nodes that say by themselves what they said. -/
structure Exchanged (t new : TypeExpr) (pos : List ℕ) (u : TypeExpr) : Prop where
  eq_replaceAt : u = t.replaceAt new pos
  here : u.at? pos = some new
  aside : ∀ q, ¬ pos <+: q → ¬ q <+: pos → u.at? q = t.at? q
  outside : ∀ q, ¬ pos <+: q → (u.at? q).map bare = (t.at? q).map bare

/-- What is put at a position of an expression stands there, and the rest stays. -/
lemma exchanged_replaceAt (h : (t.at? pos).isSome) :
    Exchanged t new pos (t.replaceAt new pos) where
  eq_replaceAt := rfl
  here := at?_replaceAt h
  aside _ := at?_replaceAt_of_not_prefix
  outside _ := bare_at?_replaceAt

/-- Nothing is replaced if and only if no node has the property. -/
theorem replaceFirst_eq_none_iff :
    replaceFirst? p t new = none ↔ ∀ n ∈ t.nodes, p n = false := by
  induction t using inductParts with
  | step t ih =>
    have hparts : replaceInList? p new t.parts = none ↔
        ∀ n ∈ t.parts.flatMap nodes, p n = false := by
      rw [replaceInList_eq_none, List.forall_mem_flatMap]
      exact forall₂_congr ih
    rw [replaceFirst_eq, nodes_eq, List.forall_mem_cons]
    cases hp : p t with
    | true => simp
    | false => simpa using hparts

/-- What is replaced is the subtree at the first position whose node has the property. -/
theorem exists_isFirst_of_replaceFirst (h : replaceFirst? p t new = some u) :
    ∃ pos, IsFirst p t pos ∧ u = t.replaceAt new pos := by
  induction t using inductParts generalizing u with
  | step t ih =>
    rw [replaceFirst_eq] at h
    cases hp : p t with
    | true =>
      rw [if_pos hp] at h
      obtain rfl := Option.some.inj h
      exact ⟨[], ⟨⟨t, rfl, hp⟩, fun q hq => absurd hq (List.not_lt_nil q)⟩, rfl⟩
    | false =>
      rw [hp] at h
      obtain ⟨us, hus, rfl⟩ := Option.map_eq_some_iff.mp h
      obtain ⟨i, v, v', hv, hv', rfl, hleft⟩ := exists_of_replaceInList hus
      obtain ⟨pos, hfirst, rfl⟩ := ih v (List.mem_of_getElem? hv) hv'
      refine ⟨i :: pos, ⟨?_, fun q hq n hn => ?_⟩, ?_⟩
      · rw [at?_cons hv]
        exact hfirst.here
      · cases q with
        | nil =>
          obtain rfl : t = n := Option.some.inj hn
          exact hp
        | cons j q =>
          obtain ⟨w, hw, hwn⟩ := Option.bind_eq_some_iff.mp hn
          rcases List.cons_lt_cons_iff.mp hq with hji | ⟨rfl, hlt⟩
          · exact replaceFirst_eq_none_iff.mp (hleft j hji w hw) n (mem_nodes_iff.mpr ⟨q, hwn⟩)
          · obtain rfl : v = w := Option.some.inj (hv.symm.trans hw)
            exact hfirst.before q hlt n hwn
      · rw [replaceAt, List.modify_eq_set_getElem?, hv]
        rfl

/-- A node of the result is a node of the new part, or says by itself what a node said before. -/
lemma exists_of_mem_nodes_replaceFirst (h : replaceFirst? p t new = some u) {n : TypeExpr}
    (hn : n ∈ u.nodes) : n ∈ new.nodes ∨ ∃ m ∈ t.nodes, m.bare = n.bare := by
  obtain ⟨pos, hfirst, rfl⟩ := exists_isFirst_of_replaceFirst h
  obtain ⟨m, hm, -⟩ := hfirst.here
  obtain ⟨q, hq⟩ := mem_nodes_iff.mp hn
  by_cases hbelow : pos <+: q
  · obtain ⟨q, rfl⟩ := hbelow
    rw [at?_append, at?_replaceAt (Option.isSome_of_eq_some hm)] at hq
    exact Or.inl (mem_nodes_iff.mpr ⟨q, hq⟩)
  · have hbare : ((t.replaceAt new pos).at? q).map bare = (t.at? q).map bare :=
      bare_at?_replaceAt hbelow
    rw [hq] at hbare
    obtain ⟨m, hm, hsame⟩ := Option.map_eq_some_iff.mp hbare.symm
    exact Or.inr ⟨m, mem_nodes_iff.mpr ⟨q, hm⟩, hsame⟩

/-- A replacement takes the first node with a property, if there is one, and only this one. -/
structure ReplacesFirst (p : TypeExpr → Bool) (t new : TypeExpr) (result : Option TypeExpr) :
    Prop where
  isSome_iff : result.isSome = true ↔ ∃ n ∈ t.nodes, p n = true
  exchanged : ∀ u, result = some u → ∃ pos, IsFirst p t pos ∧ Exchanged t new pos u
  unchanged : (∀ n ∈ t.nodes, p n = false) → result.getD t = t

/-- There is a replacement just if some node matches. -/
lemma isSome_replaceFirst : (replaceFirst? p t new).isSome = true ↔ ∃ n ∈ t.nodes, p n = true := by
  rw [← Option.ne_none_iff_isSome, ne_eq, replaceFirst_eq_none_iff]
  simp

/-- What is replaced stands at the first position that matches. -/
lemma exists_exchanged_of_replaceFirst (h : replaceFirst? p t new = some u) :
    ∃ pos, IsFirst p t pos ∧ Exchanged t new pos u := by
  obtain ⟨pos, hfirst, rfl⟩ := exists_isFirst_of_replaceFirst h
  obtain ⟨n, hn, -⟩ := hfirst.here
  exact ⟨pos, hfirst, exchanged_replaceAt (Option.isSome_of_eq_some hn)⟩

/-- The replacement takes the first node that matches and no other. -/
lemma replacesFirst_replaceFirst (p : TypeExpr → Bool) (t new : TypeExpr) :
    ReplacesFirst p t new (replaceFirst? p t new) where
  isSome_iff := isSome_replaceFirst
  exchanged _ := exists_exchanged_of_replaceFirst
  unchanged h := by rw [replaceFirst_eq_none_iff.mpr h, Option.getD_none]

/-- The positions of an expression are listed in ascending order, and so are its nodes. -/
structure Ordered (t : TypeExpr) : Prop where
  complete : ∀ pos, pos ∈ t.positions ↔ (t.at? pos).isSome = true
  ascending : t.positions.Pairwise (· < ·)
  nodes : t.positions.map t.at? = t.nodes.map some

/-- The listing of positions is complete and in ascending order. -/
lemma ordered (t : TypeExpr) : Ordered t where
  complete _ := mem_positions
  ascending := pairwise_positions t
  nodes := map_at?_positions t

end TypeExpr

/-! ### The place of an interface -/

/-- The kind of node that gives its place to an interface. -/
def Interface.sought (i : Interface) : TypeExpr → Bool :=
  if i.isMixed then TypeExpr.isNamed "any" else TypeExpr.isMap

/-- The kind of node that does so if there is none of the kind sought. -/
def Interface.fallback (i : Interface) : TypeExpr → Bool :=
  if i.isMixed then TypeExpr.isMap else TypeExpr.isNamed "any"

namespace Signature

open TypeExpr (IsFirst Exchanged ReplacesFirst Ordered)

/-- The result is a signature with `new` in the place of the first node with a property and
everything else as it was, without a warning. -/
def PlacedFirst (p : TypeExpr → Bool) (s : Signature) (new : TypeExpr)
    (result : Logged Signature) : Prop :=
  ∃ pos u, IsFirst p s.type pos ∧ Exchanged s.type new pos u ∧
    result = ⟨{ s with type := u }, []⟩

/-- The result of referring to an interface in a signature: the reference stands in the place of the
first node of the kind sought, of the first node of the other kind if the kind sought occurs nowhere,
and if neither kind occurs a warning says so and the signature stays. -/
structure Placed (s : Signature) (owner : Text) (i : Interface) (result : Logged Signature) :
    Prop where
  sought : (∃ n ∈ s.type.nodes, i.sought n = true) →
    PlacedFirst i.sought s (.atom (i.qualifiedName owner)) result
  fallback : (∀ n ∈ s.type.nodes, i.sought n = false) →
    (∃ n ∈ s.type.nodes, i.fallback n = true) →
    PlacedFirst i.fallback s (.atom (i.qualifiedName owner)) result
  nowhere : (∀ n ∈ s.type.nodes, i.sought n = false) →
    (∀ n ∈ s.type.nodes, i.fallback n = false) →
    result = ⟨s, [.noPlaceholder owner s.name (i.qualifiedName owner)]⟩

/-- The kinds of nodes are looked for one after the other. -/
lemma applyInterface_eq (s : Signature) (owner : Text) (i : Interface) :
    s.applyInterface owner i =
      match (s.type.replaceFirst? i.sought (.atom (i.qualifiedName owner))).or
        (s.type.replaceFirst? i.fallback (.atom (i.qualifiedName owner))) with
      | some type => ⟨{ s with type }, []⟩
      | none => ⟨s, [.noPlaceholder owner s.name (i.qualifiedName owner)]⟩ := by
  cases hmixed : i.isMixed with
  | true | false =>
    simp only [applyInterface, Interface.sought, Interface.fallback, hmixed, Bool.false_eq_true,
      if_false, if_true]
    generalize Option.or _ _ = type
    cases type <;> rfl

/-- An interface takes the place of the first node of the kind sought. -/
lemma placed_applyInterface (s : Signature) (owner : Text) (i : Interface) :
    Placed s owner i (s.applyInterface owner i) where
  sought h := by
    obtain ⟨u, hu⟩ := Option.isSome_iff_exists.mp (TypeExpr.isSome_replaceFirst.mpr h)
    obtain ⟨pos, hfirst, hexchanged⟩ := TypeExpr.exists_exchanged_of_replaceFirst hu
    exact ⟨pos, u, hfirst, hexchanged, by rw [applyInterface_eq, hu, Option.some_or]⟩
  fallback hnone h := by
    obtain ⟨u, hu⟩ := Option.isSome_iff_exists.mp (TypeExpr.isSome_replaceFirst.mpr h)
    obtain ⟨pos, hfirst, hexchanged⟩ := TypeExpr.exists_exchanged_of_replaceFirst hu
    refine ⟨pos, u, hfirst, hexchanged, ?_⟩
    rw [applyInterface_eq, TypeExpr.replaceFirst_eq_none_iff.mpr hnone, Option.none_or, hu]
  nowhere hsought hfallback := by
    rw [applyInterface_eq, TypeExpr.replaceFirst_eq_none_iff.mpr hsought,
      TypeExpr.replaceFirst_eq_none_iff.mpr hfallback, Option.none_or]

/-- Replacing takes the first node with a property, in the order in which the nodes are listed, and
an interface takes the place of the first node of its kind. -/
theorem replacesFirst_placed (p : TypeExpr → Bool) (t new : TypeExpr) (s : Signature)
    (owner : Text) (i : Interface) :
    Ordered t ∧ ReplacesFirst p t new (t.replaceFirst? p new) ∧
      Placed s owner i (s.applyInterface owner i) :=
  ⟨TypeExpr.ordered t, TypeExpr.replacesFirst_replaceFirst p t new, placed_applyInterface s owner i⟩

/-- A signature without an unknown type gives a mixed interface the place of its first map. -/
theorem replacesFirst_placed_mixed :
    PlacedFirst TypeExpr.isMap
      ⟨"draw", .function [⟨some "at", .map (.atom "number") false, false⟩,
        ⟨some "to", .map (.atom "string") false, true⟩] none false, none, false, false⟩
      (.atom "Pen.Draw")
      (applyInterface ⟨"draw", .function [⟨some "at", .map (.atom "number") false, false⟩,
        ⟨some "to", .map (.atom "string") false, true⟩] none false, none, false, false⟩
        "Pen" ⟨"Draw", [], true⟩) :=
  (replacesFirst_placed TypeExpr.isMap (.atom "any") (.atom "any") _ "Pen"
    ⟨"Draw", [], true⟩).2.2.fallback (by decide)
    ⟨.map (.atom "number") false, by simp [TypeExpr.nodes_eq, TypeExpr.parts], rfl⟩

end Signature

end Ambient

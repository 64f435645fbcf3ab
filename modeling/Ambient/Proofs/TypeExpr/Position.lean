import Mathlib
import Ambient.Proofs.TypeExpr.Tree

/-!
# Positions in a type expression

`parts t` are the expressions directly below a node, from left to right, and `withParts` gives a node
other parts with all that it says by itself: its names, its marks and how many parts it has.  A
position is the way down from the root, the number of a part at each step.  Positions are compared as
lists of numbers, so a node comes before the nodes below it and these before the nodes to the right of
it, which is the order in which `nodes` lists them (`map_at?_positions`).

`replaceAt` exchanges the subtree at a position.  What stands elsewhere stays: aside of the position the
subtrees are the same, and on the way to it the nodes are the same but for the part that leads there.
-/

namespace Ambient

namespace TypeExpr

/-! ### The parts of a node -/

/-- The expressions directly below the root of an expression, from left to right. -/
def parts : TypeExpr → List TypeExpr
  | .function params returns _ => params.map Param.type ++ returns.toList
  | .array element => [element]
  | .promise result => result.toList
  | .generic _ args => args
  | .map value _ => [value]
  | .object fields => fields.map Param.type
  | .union members => members
  | .atom _ | .reference _ | .literal _ | .raw _ => []

/-- Parameters with other types. -/
def withTypes (ps : List TypeParam) (ts : List TypeExpr) : List TypeParam :=
  List.zipWith (fun p t => { p with type := t }) ps ts

/-- An expression with other parts below its root. -/
def withParts : TypeExpr → List TypeExpr → TypeExpr
  | .function params returns arrow, ts =>
    .function (withTypes params ts) (returns.map (ts.drop params.length).headD) arrow
  | .array element, ts => .array (ts.headD element)
  | .promise result, ts => .promise (result.map ts.headD)
  | .generic name _, ts => .generic name ts
  | .map value indexed, ts => .map (ts.headD value) indexed
  | .object fields, ts => .object (withTypes fields ts)
  | .union _, ts => .union ts
  | .atom name, _ => .atom name
  | .reference name, _ => .reference name
  | .literal text, _ => .literal text
  | .raw text, _ => .raw text

/-- What the root of an expression says by itself, with nothing below it. -/
def bare (t : TypeExpr) : TypeExpr :=
  t.withParts (t.parts.map fun _ => .raw [])

section Parts

variable {t u : TypeExpr} {ts us : List TypeExpr} {ps : List TypeParam}

lemma length_withTypes (h : ps.length ≤ ts.length) : (withTypes ps ts).length = ps.length := by
  simp [withTypes, h]

/-- The types of parameters with other types are these types. -/
lemma types_withTypes (h : ps.length ≤ ts.length) :
    (withTypes ps ts).map Param.type = ts.take ps.length := by
  induction ps generalizing ts with
  | nil => rfl
  | cons p ps ih =>
    obtain ⟨t, ts, rfl⟩ := List.exists_cons_of_length_pos (Nat.zero_lt_of_lt h)
    simpa [withTypes] using ih (Nat.le_of_succ_le_succ h)

/-- Of two changes of the types only the second one shows. -/
lemma withTypes_withTypes (h : ps.length ≤ ts.length) :
    withTypes (withTypes ps ts) us = withTypes ps us := by
  induction ps generalizing ts us with
  | nil => rfl
  | cons p ps ih =>
    obtain ⟨t, ts, rfl⟩ := List.exists_cons_of_length_pos (Nat.zero_lt_of_lt h)
    cases us with
    | nil => rfl
    | cons u us => simpa [withTypes] using ih (Nat.le_of_succ_le_succ h)

/-- The parts that an expression is given are its parts. -/
lemma parts_withParts (h : ts.length = t.parts.length) : (t.withParts ts).parts = ts := by
  cases t with
  | function params returns arrow =>
    have hlen : params.length ≤ ts.length := by simp [h, parts]
    cases returns with
    | none =>
      have htake : ts.take params.length = ts := List.take_of_length_le (by simp [h, parts])
      simp [withParts, parts, types_withTypes hlen, htake]
    | some r =>
      obtain ⟨u, hu⟩ : ∃ u, ts.drop params.length = [u] :=
        List.length_eq_one_iff.mp (by simp [h, parts])
      have hsplit := List.take_append_drop params.length ts
      rw [hu] at hsplit
      simp [withParts, parts, types_withTypes hlen, hu, hsplit]
  | array element | map value indexed =>
    obtain ⟨u, rfl⟩ := List.length_eq_one_iff.mp h
    rfl
  | promise result =>
    cases result with
    | none =>
      obtain rfl := List.length_eq_zero_iff.mp h
      rfl
    | some r =>
      obtain ⟨u, rfl⟩ := List.length_eq_one_iff.mp h
      rfl
  | generic name args | union members => rfl
  | object fields =>
    have hlen : ts.length = fields.length := by simpa [parts] using h
    have htake : ts.take fields.length = ts := List.take_of_length_le hlen.le
    simp [withParts, parts, types_withTypes hlen.ge, htake]
  | atom name | reference name | literal text | raw text =>
    obtain rfl := List.length_eq_zero_iff.mp h
    rfl

/-- Of two changes of the parts only the second one shows. -/
lemma withParts_withParts (ht : ts.length = t.parts.length) (hu : us.length = t.parts.length) :
    (t.withParts ts).withParts us = t.withParts us := by
  cases t with
  | function params returns arrow =>
    have hlen : params.length ≤ ts.length := by simp [ht, parts]
    have hparams : withTypes (withTypes params ts) us = withTypes params us :=
      withTypes_withTypes hlen
    cases returns with
    | none => simp [withParts, hparams]
    | some r =>
      obtain ⟨u, hdrop⟩ : ∃ u, us.drop params.length = [u] :=
        List.length_eq_one_iff.mp (by simp [hu, parts])
      simp [withParts, hparams, length_withTypes hlen, hdrop]
  | array element | map value indexed =>
    obtain ⟨u, rfl⟩ := List.length_eq_one_iff.mp hu
    rfl
  | promise result =>
    cases result with
    | none => rfl
    | some r =>
      obtain ⟨u, rfl⟩ := List.length_eq_one_iff.mp hu
      rfl
  | object fields =>
    have hlen : fields.length ≤ ts.length := by simp [ht, parts]
    simp [withParts, withTypes_withTypes hlen]
  | generic | union | atom | reference | literal | raw => rfl

/-- Other parts change nothing of what an expression says by itself. -/
lemma bare_withParts (h : ts.length = t.parts.length) : (t.withParts ts).bare = t.bare := by
  have hmap : (ts.map fun _ => TypeExpr.raw []) = t.parts.map fun _ => .raw [] := by
    simp [List.map_const', h]
  rw [bare, bare, parts_withParts h, hmap, withParts_withParts h (by simp)]

/-- An expression is listed before its parts, and these one after another. -/
lemma nodes_eq (t : TypeExpr) : t.nodes = t :: t.parts.flatMap nodes := by
  cases t with
  | function params returns arrow =>
    cases returns <;> simp [nodes, parts, nodesOfParams_eq_flatMap, nodesOfOption, List.flatMap_map]
  | promise result => cases result <;> simp [nodes, parts, nodesOfOption]
  | object fields => simp [nodes, parts, nodesOfParams_eq_flatMap, List.flatMap_map]
  | generic name args => simp [nodes, parts, nodesOfList_eq_flatMap]
  | union members => simp [nodes, parts, nodesOfList_eq_flatMap]
  | _ => simp [nodes, parts]

/-- A part is smaller than its node, so that functions may recurse into the parts. -/
lemma sizeOf_lt_of_mem_parts (h : u ∈ t.parts) : sizeOf u < sizeOf t := by
  have hparams : ∀ {ps : List TypeParam} {u}, u ∈ ps.map Param.type → sizeOf u < sizeOf ps := by
    intro ps u hu
    obtain ⟨⟨name, type, optional⟩, hp, rfl⟩ := List.mem_map.mp hu
    have hlt := List.sizeOf_lt_of_mem hp
    rw [Param.mk.sizeOf_spec] at hlt
    change sizeOf type < sizeOf ps
    omega
  cases t with
  | function params returns arrow =>
    rcases List.mem_append.mp h with h | h
    · have hlt := hparams h
      rw [function.sizeOf_spec]
      omega
    · obtain rfl : returns = some u := by simpa using h
      rw [function.sizeOf_spec, Option.some.sizeOf_spec]
      omega
  | array element | map value indexed =>
    obtain rfl := List.mem_singleton.mp h
    simp
  | promise result =>
    obtain rfl : result = some u := by simpa [parts] using h
    rw [promise.sizeOf_spec, Option.some.sizeOf_spec]
    omega
  | generic name args =>
    have hlt : sizeOf u < sizeOf args := List.sizeOf_lt_of_mem h
    rw [generic.sizeOf_spec]
    omega
  | union members =>
    have hlt : sizeOf u < sizeOf members := List.sizeOf_lt_of_mem h
    rw [union.sizeOf_spec]
    omega
  | object fields =>
    have hlt := hparams h
    rw [object.sizeOf_spec]
    omega
  | atom | reference | literal | raw => simp [parts] at h

/-- Induction over an expression, with a hypothesis for each of its parts. -/
@[elab_as_elim]
theorem inductParts {motive : TypeExpr → Prop}
    (step : ∀ t : TypeExpr, (∀ u ∈ t.parts, motive u) → motive t) (t : TypeExpr) : motive t :=
  step t fun u _ => inductParts step u
termination_by sizeOf t
decreasing_by exact sizeOf_lt_of_mem_parts ‹_›

end Parts

/-! ### Positions -/

/-- The subtree at a position, if there is one. -/
def at? (t : TypeExpr) : List ℕ → Option TypeExpr
  | [] => some t
  | i :: pos => t.parts[i]?.bind (at? · pos)

/-- The expression with `new` in the place of the subtree at a position. -/
def replaceAt (t new : TypeExpr) : List ℕ → TypeExpr
  | [] => new
  | i :: pos => t.withParts (t.parts.modify i (replaceAt · new pos))

/-- The positions in an expression, each one before those below it and these before those to the
right of it. -/
def positions (t : TypeExpr) : List (List ℕ) :=
  [] :: t.parts.attach.zipIdx.flatMap fun part => (positions part.1.1).map (part.2 :: ·)
termination_by sizeOf t
decreasing_by exact sizeOf_lt_of_mem_parts part.1.2

section Positions

variable {t u new : TypeExpr} {i : ℕ} {pos q : List ℕ}

/-- A position below a part goes on in this part. -/
lemma at?_cons (h : t.parts[i]? = some u) : t.at? (i :: pos) = u.at? pos := by
  simp [at?, h]

/-- A position in two steps is the second step from the subtree of the first. -/
lemma at?_append : t.at? (pos ++ q) = (t.at? pos).bind (at? · q) := by
  induction pos generalizing t with
  | nil => rfl
  | cons i pos ih =>
    rw [List.cons_append, at?, at?, Option.bind_assoc]
    exact congrArg (t.parts[i]?.bind ·) (funext fun u => ih)

/-- Replacing below a node changes the one part the position goes through. -/
lemma parts_replaceAt_cons (t new : TypeExpr) (i : ℕ) (pos : List ℕ) :
    (t.replaceAt new (i :: pos)).parts = t.parts.modify i (replaceAt · new pos) :=
  parts_withParts (List.length_modify ..)

/-- The subtree that was put in stands at its position. -/
lemma at?_replaceAt (h : (t.at? pos).isSome) : (t.replaceAt new pos).at? pos = some new := by
  induction pos generalizing t with
  | nil => rfl
  | cons i pos ih =>
    obtain ⟨u, hu⟩ : ∃ u, t.parts[i]? = some u :=
      Option.isSome_iff_exists.mp (Option.isSome_of_isSome_bind h)
    rw [at?_cons hu] at h
    rw [at?, parts_replaceAt_cons, List.getElem?_modify_eq, hu]
    exact ih h

/-- Aside of a position, neither on the way to it nor below it, the subtrees stay. -/
lemma at?_replaceAt_of_not_prefix (hbelow : ¬ pos <+: q) (habove : ¬ q <+: pos) :
    (t.replaceAt new pos).at? q = t.at? q := by
  induction pos generalizing t q with
  | nil => exact absurd List.nil_prefix hbelow
  | cons i pos ih =>
    cases q with
    | nil => exact absurd List.nil_prefix habove
    | cons j q =>
      rw [at?, at?, parts_replaceAt_cons]
      by_cases hij : i = j
      · subst hij
        have hrest : ∀ u : TypeExpr, (u.replaceAt new pos).at? q = u.at? q := fun u =>
          ih (fun h => hbelow (List.cons_prefix_cons.mpr ⟨rfl, h⟩))
            fun h => habove (List.cons_prefix_cons.mpr ⟨rfl, h⟩)
        rw [List.getElem?_modify_eq]
        cases t.parts[i]? with
        | none => rfl
        | some u => exact hrest u
      · rw [List.getElem?_modify_ne _ _ hij]

/-- Everywhere but at a position and below it, the nodes say by themselves what they said. -/
lemma bare_at?_replaceAt (hbelow : ¬ pos <+: q) :
    ((t.replaceAt new pos).at? q).map bare = (t.at? q).map bare := by
  induction pos generalizing t q with
  | nil => exact absurd List.nil_prefix hbelow
  | cons i pos ih =>
    cases q with
    | nil => exact congrArg some (bare_withParts (List.length_modify ..))
    | cons j q =>
      rw [at?, at?, parts_replaceAt_cons]
      by_cases hij : i = j
      · subst hij
        have hrest : ∀ u : TypeExpr, ((u.replaceAt new pos).at? q).map bare = (u.at? q).map bare :=
          fun u => ih fun h => hbelow (List.cons_prefix_cons.mpr ⟨rfl, h⟩)
        rw [List.getElem?_modify_eq]
        cases t.parts[i]? with
        | none => rfl
        | some u => exact hrest u
      · rw [List.getElem?_modify_ne _ _ hij]

/-! ### The order of positions -/

/-- The positions of a node: its own, and those of each part behind the index of the part. -/
lemma positions_eq (t : TypeExpr) :
    t.positions = [] :: t.parts.zipIdx.flatMap fun part => part.1.positions.map (part.2 :: ·) := by
  conv_rhs => rw [← List.attach_map_subtype_val t.parts, List.zipIdx_map, List.flatMap_map]
  rw [positions]
  rfl

/-- The positions are listed in ascending order. -/
lemma pairwise_positions (t : TypeExpr) : t.positions.Pairwise (· < ·) := by
  induction t using inductParts with
  | step t ih =>
    have hnumbers : t.parts.zipIdx.Pairwise fun a b => a.2 < b.2 := by
      rw [← List.pairwise_map (f := Prod.snd) (R := (· < ·)), List.zipIdx_map_snd]
      exact List.pairwise_lt_range'
    rw [positions_eq, List.pairwise_cons, List.pairwise_flatMap]
    refine ⟨fun q hq => ?_, fun part hpart => ?_, hnumbers.imp fun hlt x hx y hy => ?_⟩
    · obtain ⟨part, -, hmem⟩ := List.mem_flatMap.mp hq
      obtain ⟨q, -, rfl⟩ := List.mem_map.mp hmem
      exact List.nil_lt_cons part.2 q
    · rw [List.pairwise_map]
      exact (ih part.1 (List.fst_mem_of_mem_zipIdx hpart)).imp fun h =>
        List.cons_lt_cons_iff.mpr (Or.inr ⟨rfl, h⟩)
    · obtain ⟨x, -, rfl⟩ := List.mem_map.mp hx
      obtain ⟨y, -, rfl⟩ := List.mem_map.mp hy
      exact List.cons_lt_cons_iff.mpr (Or.inl hlt)

/-- The positions of an expression are those with a subtree. -/
lemma mem_positions {t : TypeExpr} {pos : List ℕ} : pos ∈ t.positions ↔ (t.at? pos).isSome := by
  induction t using inductParts generalizing pos with
  | step t ih =>
    rw [positions_eq]
    cases pos with
    | nil => simp [at?]
    | cons i pos =>
      simp only [List.mem_cons, reduceCtorEq, false_or, List.mem_flatMap, List.mem_map,
        List.cons.injEq, List.mem_zipIdx_iff_getElem?]
      constructor
      · rintro ⟨⟨u, j⟩, hu, q, hq, rfl, rfl⟩
        rw [at?_cons hu]
        exact (ih u (List.mem_of_getElem? hu)).mp hq
      · intro h
        obtain ⟨u, hu⟩ : ∃ u, t.parts[i]? = some u :=
          Option.isSome_iff_exists.mp (Option.isSome_of_isSome_bind h)
        rw [at?_cons hu] at h
        exact ⟨(u, i), hu, pos, (ih u (List.mem_of_getElem? hu)).mpr h, rfl, rfl⟩

/-- The subtrees at the positions are the nodes, in the same order. -/
lemma map_at?_positions (t : TypeExpr) : t.positions.map t.at? = t.nodes.map some := by
  induction t using inductParts with
  | step t ih =>
    have hpart : ∀ part ∈ t.parts.zipIdx,
        (part.1.positions.map (part.2 :: ·)).map t.at? = part.1.nodes.map some := by
      intro part hmem
      have hat : ∀ pos, t.at? (part.2 :: pos) = part.1.at? pos := fun pos =>
        at?_cons (List.mem_zipIdx_iff_getElem?.mp hmem)
      rw [List.map_map, ← ih part.1 (List.fst_mem_of_mem_zipIdx hmem)]
      exact List.map_congr_left fun pos _ => hat pos
    rw [positions_eq, nodes_eq, List.map_cons, List.map_cons, List.map_flatMap, List.map_flatMap,
      List.flatMap_congr hpart]
    conv_rhs => rw [← List.zipIdx_map_fst 0 t.parts, List.flatMap_map]
    rfl

/-- A node is the subtree at some position, and a subtree is a node. -/
lemma mem_nodes_iff {t u : TypeExpr} : u ∈ t.nodes ↔ ∃ pos, t.at? pos = some u := by
  have hmem : u ∈ t.nodes ↔ some u ∈ t.positions.map t.at? := by
    rw [map_at?_positions]
    simp
  rw [hmem, List.mem_map]
  refine ⟨fun ⟨pos, _, hpos⟩ => ⟨pos, hpos⟩, fun ⟨pos, hpos⟩ => ⟨pos, ?_, hpos⟩⟩
  rw [mem_positions, hpos]
  rfl

end Positions

end TypeExpr

end Ambient

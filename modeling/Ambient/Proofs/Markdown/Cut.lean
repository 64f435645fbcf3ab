import Mathlib
import Ambient.Markdown.Basic

/-!
# Cutting a text at pieces of one kind

A text is cut at the pieces that a search finds at the start of what is left of it: the preformatted
regions are one kind of piece, and tags are another.  A search that has found a piece finds it there
whatever follows (`IsFinder`), so what stands between two pieces is cut off as a whole
(`cut_append`), and what holds of a cut is proved by induction on the pieces (`cut_induction`).
-/

namespace Ambient

namespace Markdown

/-- A search that finds pieces at the start of a text, each of them whatever follows it. -/
structure IsFinder (piece? : Text → Option (Text × Text)) : Prop where
  eq_append : ∀ {t p rest : Text}, piece? t = some (p, rest) → t = p ++ rest
  ne_nil : ∀ {t p rest : Text}, piece? t = some (p, rest) → p ≠ []
  anywhere : ∀ {t p rest : Text}, piece? t = some (p, rest) → ∀ u, piece? (p ++ u) = some (p, u)

/-- The pieces of a text and what lies between them, when `skip` characters still belong to a piece
that was cut out. -/
def cutFrom (piece? : Text → Option (Text × Text)) : ℕ → Text → List Stretch
  | _, [] => []
  | skip + 1, _ :: t => cutFrom piece? skip t
  | 0, c :: t =>
    match piece? (c :: t) with
    | some (p, _) => ⟨true, p⟩ :: cutFrom piece? (p.length - 1) t
    | none => pushFront c (cutFrom piece? 0 t)

/-- The pieces of a text and what lies between them. -/
def cut (piece? : Text → Option (Text × Text)) (t : Text) : List Stretch :=
  cutFrom piece? 0 t

/-- No piece begins in a text in front of `rest`. -/
def PieceFree (piece? : Text → Option (Text × Text)) (rest : Text) : Text → Prop
  | [] => True
  | c :: s => piece? (c :: s ++ rest) = none ∧ PieceFree piece? rest s

/-- A text is empty or begins with a piece. -/
def EndsStretch (piece? : Text → Option (Text × Text)) (rest : Text) : Prop :=
  rest = [] ∨ (piece? rest).isSome = true

/-- The stretch that lies between two pieces, if it is not empty. -/
def between (s : Text) : List Stretch :=
  if s = [] then [] else [⟨false, s⟩]

variable {piece? : Text → Option (Text × Text)} {c : Char} {s t u p rest : Text}

lemma cut_nil : cut piece? [] = [] :=
  rfl

/-- Within a piece nothing is left to do. -/
lemma cutFrom_skip (u t : Text) : cutFrom piece? u.length (u ++ t) = cut piece? t := by
  induction u with
  | nil => rfl
  | cons c u ih => exact ih

/-- A piece that is found is cut out. -/
lemma cut_piece (hfind : IsFinder piece?) (h : piece? t = some (p, rest)) :
    cut piece? t = ⟨true, p⟩ :: cut piece? rest := by
  obtain rfl := hfind.eq_append h
  obtain ⟨c, p, rfl⟩ := List.exists_cons_of_ne_nil (hfind.ne_nil h)
  rw [cut, List.cons_append, cutFrom, ← List.cons_append, h]
  exact congrArg _ (cutFrom_skip p rest)

/-- Without a piece at the start, the first character joins what lies between. -/
lemma cut_cons (h : piece? (c :: t) = none) : cut piece? (c :: t) = pushFront c (cut piece? t) := by
  rw [cut, cutFrom, h]
  rfl

/-- A stretch in which no piece begins is cut off as a whole. -/
lemma cut_append (hfind : IsFinder piece?) (hs : PieceFree piece? rest s)
    (hrest : EndsStretch piece? rest) :
    cut piece? (s ++ rest) = between s ++ cut piece? rest := by
  have hpush : ∀ c, pushFront c (cut piece? rest) = ⟨false, [c]⟩ :: cut piece? rest := by
    intro c
    rcases hrest with rfl | hpiece
    · rfl
    · obtain ⟨⟨p, behind⟩, hpiece⟩ := Option.isSome_iff_exists.mp hpiece
      rw [cut_piece hfind hpiece]
      rfl
  induction s with
  | nil => rfl
  | cons c s ih =>
    obtain ⟨hno, hs⟩ := hs
    refine (cut_cons hno).trans ?_
    cases s with
    | nil => exact hpush c
    | cons d s => exact congrArg (pushFront c) (ih hs)

/-- If no piece begins in a text, none begins in its end. -/
lemma PieceFree.of_append (h : PieceFree piece? rest (u ++ s)) : PieceFree piece? rest s := by
  induction u with
  | nil => exact h
  | cons c u ih => exact ih h.2

/-- If no piece begins in either of two texts, none begins in both together. -/
lemma PieceFree.append (hu : PieceFree piece? (s ++ rest) u) (hs : PieceFree piece? rest s) :
    PieceFree piece? rest (u ++ s) := by
  induction u with
  | nil => exact hs
  | cons c u ih =>
    obtain ⟨hno, hu⟩ := hu
    refine ⟨?_, ih hu⟩
    rw [← hno]
    simp

/-- Where no piece begins in front of a text, none begins in front of its end. -/
lemma PieceFree.mono (hfind : IsFinder piece?) (h : PieceFree piece? rest s) :
    PieceFree piece? [] s := by
  induction s with
  | nil => trivial
  | cons c s ih =>
    refine ⟨?_, ih h.2⟩
    rw [List.append_nil, Option.eq_none_iff_forall_ne_some]
    rintro ⟨p, w⟩ hsome
    have hlonger := hfind.anywhere hsome (w ++ rest)
    rw [← List.append_assoc, ← hfind.eq_append hsome, h.1] at hlonger
    cases hlonger

/-- Every text begins with a stretch in which no piece begins. -/
lemma exists_pieceFree (piece? : Text → Option (Text × Text)) (t : Text) :
    ∃ s rest, t = s ++ rest ∧ PieceFree piece? rest s ∧ EndsStretch piece? rest := by
  induction t with
  | nil => exact ⟨[], [], rfl, trivial, Or.inl rfl⟩
  | cons c t ih =>
    cases hpiece : piece? (c :: t) with
    | some parts => exact ⟨[], c :: t, rfl, trivial, Or.inr (by rw [hpiece]; rfl)⟩
    | none =>
      obtain ⟨s, rest, rfl, hs, hrest⟩ := ih
      exact ⟨c :: s, rest, rfl, ⟨hpiece, hs⟩, hrest⟩

/-- Induction on the pieces of a text. -/
lemma cut_induction {motive : Text → Prop} (hfind : IsFinder piece?)
    (last : ∀ s, PieceFree piece? [] s → motive s)
    (piece : ∀ s p w, piece? (p ++ w) = some (p, w) → PieceFree piece? (p ++ w) s → motive w →
      motive (s ++ (p ++ w))) (t : Text) : motive t := by
  induction hlength : t.length using Nat.strong_induction_on generalizing t with
  | _ n ih =>
    subst hlength
    obtain ⟨s, rest, rfl, hs, rfl | hpiece⟩ := exists_pieceFree piece? t
    · rw [List.append_nil]
      exact last s hs
    · obtain ⟨⟨p, w⟩, hpiece⟩ := Option.isSome_iff_exists.mp hpiece
      obtain rfl := hfind.eq_append hpiece
      have hpos := List.length_pos_of_ne_nil (hfind.ne_nil hpiece)
      refine piece s p w hpiece hs (ih w.length ?_ w rfl)
      simp only [List.length_append]
      omega

lemma flatMap_text_between (s : Text) : (between s).flatMap Stretch.text = s := by
  unfold between
  split_ifs with hs
  · exact hs.symm
  · simp

lemma mem_between (s : Text) : ⟨true, p⟩ ∉ between s := by
  unfold between
  split_ifs <;> simp

/-- A text in which no piece begins is one stretch. -/
lemma cut_of_pieceFree (hfind : IsFinder piece?) (hs : PieceFree piece? [] s) :
    cut piece? s = between s := by
  have hcut := cut_append hfind hs (Or.inl rfl)
  rwa [List.append_nil, cut_nil, List.append_nil] at hcut

/-- A text in front of a piece is one stretch, and the piece is cut out behind it. -/
lemma cut_append_piece (hfind : IsFinder piece?) {w : Text} (h : piece? (p ++ w) = some (p, w))
    (hs : PieceFree piece? (p ++ w) s) :
    cut piece? (s ++ (p ++ w)) = between s ++ ⟨true, p⟩ :: cut piece? w := by
  rw [cut_append hfind hs (Or.inr (by rw [h]; rfl)), cut_piece hfind h]

/-- A text is made of its stretches. -/
lemma flatMap_text_cut (hfind : IsFinder piece?) (t : Text) :
    (cut piece? t).flatMap Stretch.text = t := by
  induction t using cut_induction hfind with
  | last s hs => rw [cut_of_pieceFree hfind hs, flatMap_text_between]
  | piece s p w hp hs ih =>
    rw [cut_append_piece hfind hp hs, List.flatMap_append, List.flatMap_cons, flatMap_text_between,
      ih]

end Markdown

end Ambient

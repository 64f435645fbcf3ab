import Mathlib
import Ambient.Proofs.Text.Lines

/-!
# Words

The words of a text are the runs between its separators.  A separator ends a word wherever it stands
(`wordsBy_append_cons`), so the words of pieces with separators between them are the words of the
pieces, one after another, and separators in front make no difference.  What stands in the place of a
separator makes none either, as long as it is made of separators.
-/

namespace Ambient

namespace Text

variable {p : Char → Bool} {c d : Char} {t u v : Text}

/-! ### One character -/

lemma wordsBy_cons_of_pos (h : p c = true) (t : Text) : wordsBy p (c :: t) = wordsBy p t := by
  rw [wordsBy.eq_def]
  dsimp only
  rw [if_pos h]

/-- What is no separator stands in front of one as a word of its own. -/
lemma wordsBy_cons_of_sep (hc : p c = false) (ht : t.head?.all p = true) :
    wordsBy p (c :: t) = [c] :: wordsBy p t := by
  cases t with
  | nil => simp [wordsBy, hc]
  | cons d t =>
    have hd : p d = true := ht
    simp [wordsBy, hc, hd]

lemma wordsBy_ne_nil (h : p c = false) (t : Text) : wordsBy p (c :: t) ≠ [] := by
  cases t with
  | nil => simp [wordsBy, h]
  | cons d t =>
    rw [wordsBy, if_neg (by simp [h])]
    split_ifs
    · exact List.cons_ne_nil _ _
    · split <;> exact List.cons_ne_nil _ _

/-- What is no separator belongs to the word that follows it. -/
lemma wordsBy_cons_cons (hc : p c = false) (hd : p d = false) (t : Text) :
    wordsBy p (c :: d :: t) =
      (c :: (wordsBy p (d :: t)).headD []) :: (wordsBy p (d :: t)).tail := by
  obtain ⟨w, ws, hws⟩ := List.exists_cons_of_ne_nil (wordsBy_ne_nil hd t)
  rw [wordsBy, if_neg (by simp [hc])]
  simp only [hd, hws]
  rfl

/-- A text with the words of another one and some more has them behind one more character as well, if
both texts or none of them go on with a word. -/
lemma wordsBy_cons_append (c : Char) {ws : List Text} (h : wordsBy p t = wordsBy p u ++ ws)
    (hhead : t.head?.all p = u.head?.all p) :
    wordsBy p (c :: t) = wordsBy p (c :: u) ++ ws := by
  cases hc : p c with
  | true => rw [wordsBy_cons_of_pos hc, wordsBy_cons_of_pos hc, h]
  | false =>
    cases hu : u.head?.all p with
    | true =>
      rw [wordsBy_cons_of_sep hc (hhead.trans hu), wordsBy_cons_of_sep hc hu, h]
      rfl
    | false =>
      rw [hu] at hhead
      cases t with
      | nil => simp at hhead
      | cons d t =>
        cases u with
        | nil => simp at hu
        | cons e u =>
          obtain ⟨w, us, hus⟩ := List.exists_cons_of_ne_nil (wordsBy_ne_nil hu u)
          rw [wordsBy_cons_cons hc hhead, wordsBy_cons_cons hc hu, h, hus]
          rfl

/-- A character in front of texts with the same words leaves them the same, if both go on with a
word or neither does. -/
lemma wordsBy_cons_congr (c : Char) (h : wordsBy p t = wordsBy p u)
    (hhead : t.head?.all p = u.head?.all p) : wordsBy p (c :: t) = wordsBy p (c :: u) := by
  have happend : wordsBy p t = wordsBy p u ++ [] := h.trans (List.append_nil _).symm
  rw [wordsBy_cons_append c happend hhead, List.append_nil]

/-- Separators may be exchanged for others. -/
lemma wordsBy_map {f : Char → Char} (h : ∀ c, f c = c ∨ p c = true ∧ p (f c) = true) (t : Text) :
    wordsBy p (t.map f) = wordsBy p t := by
  have hsame : ∀ c, p (f c) = p c := by
    intro c
    rcases h c with heq | ⟨hc, hf⟩
    · rw [heq]
    · rw [hc, hf]
  induction t with
  | nil => rfl
  | cons c t ih =>
    rw [List.map_cons]
    rcases h c with heq | ⟨hc, hf⟩
    · rw [heq]
      refine wordsBy_cons_congr c ih ?_
      cases t with
      | nil => rfl
      | cons d t => exact hsame d
    · rw [wordsBy_cons_of_pos hf, wordsBy_cons_of_pos hc, ih]

/-! ### Pieces -/

/-- A separator ends a word wherever it stands. -/
lemma wordsBy_append_cons (h : p c = true) (t u : Text) :
    wordsBy p (t ++ c :: u) = wordsBy p t ++ wordsBy p u := by
  induction t with
  | nil => exact wordsBy_cons_of_pos h u
  | cons d t ih =>
    refine wordsBy_cons_append d ih ?_
    cases t with
    | nil => exact h
    | cons e t => rfl

lemma wordsBy_of_all (h : ∀ c ∈ t, p c = true) : wordsBy p t = [] := by
  induction t with
  | nil => rfl
  | cons c t ih =>
    obtain ⟨hc, ht⟩ := List.forall_mem_cons.mp h
    rw [wordsBy_cons_of_pos hc, ih ht]

/-- Separators in front of a text make no difference. -/
lemma wordsBy_append_of_all (h : ∀ c ∈ v, p c = true) (t : Text) :
    wordsBy p (v ++ t) = wordsBy p t := by
  induction v with
  | nil => rfl
  | cons c v ih =>
    obtain ⟨hc, hv⟩ := List.forall_mem_cons.mp h
    rw [List.cons_append, wordsBy_cons_of_pos hc, ih hv]

/-- Separators behind a text make no difference. -/
lemma wordsBy_append_all (h : ∀ c ∈ v, p c = true) (t : Text) : wordsBy p (t ++ v) = wordsBy p t := by
  cases v with
  | nil => rw [List.append_nil]
  | cons c v =>
    obtain ⟨hc, hv⟩ := List.forall_mem_cons.mp h
    rw [wordsBy_append_cons hc, wordsBy_of_all hv, List.append_nil]

/-- Separators between two texts keep their words apart. -/
lemma wordsBy_append_append (hne : v ≠ []) (h : ∀ c ∈ v, p c = true) (t u : Text) :
    wordsBy p (t ++ v ++ u) = wordsBy p t ++ wordsBy p u := by
  obtain ⟨c, v, rfl⟩ := List.exists_cons_of_ne_nil hne
  obtain ⟨hc, hv⟩ := List.forall_mem_cons.mp h
  rw [List.append_assoc, List.cons_append, wordsBy_append_cons hc, wordsBy_append_of_all hv]

/-- A text has no words just if all its characters separate. -/
lemma wordsBy_eq_nil_iff : wordsBy p t = [] ↔ ∀ c ∈ t, p c = true := by
  refine ⟨fun h => ?_, wordsBy_of_all⟩
  induction t with
  | nil => simp
  | cons c t ih =>
    cases hc : p c with
    | true =>
      rw [wordsBy_cons_of_pos hc] at h
      exact List.forall_mem_cons.mpr ⟨hc, ih h⟩
    | false => exact absurd h (wordsBy_ne_nil hc t)

/-- A word is not empty and holds no separator. -/
lemma of_mem_wordsBy (h : u ∈ wordsBy p t) : u ≠ [] ∧ ∀ c ∈ u, p c = false := by
  induction t generalizing u with
  | nil => cases h
  | cons c t ih =>
    cases hc : p c with
    | true =>
      rw [wordsBy_cons_of_pos hc] at h
      exact ih h
    | false =>
      cases ht : t.head?.all p with
      | true =>
        rw [wordsBy_cons_of_sep hc ht] at h
        rcases List.mem_cons.mp h with rfl | h
        · exact ⟨List.cons_ne_nil c [], by simpa using hc⟩
        · exact ih h
      | false =>
        obtain ⟨d, t, rfl⟩ : ∃ d t', t = d :: t' := by
          cases t with
          | nil => cases ht
          | cons d t => exact ⟨d, t, rfl⟩
        obtain ⟨w, ws, hws⟩ := List.exists_cons_of_ne_nil (wordsBy_ne_nil ht t)
        rw [wordsBy_cons_cons hc ht, hws] at h
        rw [hws] at ih
        rcases List.mem_cons.mp h with rfl | h
        · exact ⟨List.cons_ne_nil c w, List.forall_mem_cons.mpr ⟨hc, (ih List.mem_cons_self).2⟩⟩
        · exact ih (List.mem_cons_of_mem w h)

lemma words_eq_nil_iff : t.words = [] ↔ t.blank = true := by
  rw [words, wordsBy_eq_nil_iff, blank, List.all_eq_true]

/-- The first line of a text begins with white space if the text does, or it is empty. -/
lemma blank_head?_lines (t : Text) :
    ((lines t).headD []).head?.all isBlank = t.head?.all isBlank := by
  cases t with
  | nil => rfl
  | cons c t =>
    cases hbreak : isLineBreak c with
    | false =>
      rw [lines_cons hbreak]
      rfl
    | true =>
      have hblank : isBlank c = true := isBlank_of_isLineBreak hbreak
      have hfirst : (lines (c :: t)).headD [] = [] := by
        rw [lines.eq_def]
        split
        · rfl
        · rfl
        · next heq =>
          obtain ⟨rfl, rfl⟩ := List.cons.inj heq
          rw [if_pos hbreak]
          rfl
      rw [hfirst]
      exact hblank.symm

/-- Cutting a text into its lines keeps its words. -/
lemma flatMap_words_lines (t : Text) : (lines t).flatMap words = words t := by
  fun_induction lines t with
  | case1 => rfl
  | case2 t ih =>
    have hbreaks : words ('\r' :: '\n' :: t) = words t := by
      rw [words, wordsBy_cons_of_pos (by decide), wordsBy_cons_of_pos (by decide), words]
    rw [List.flatMap_cons, ih, hbreaks]
    rfl
  | case3 c t _ hbreak ih =>
    rw [List.flatMap_cons, ih]
    exact (wordsBy_cons_of_pos (isBlank_of_isLineBreak hbreak) t).symm
  | case4 c t _ _ hnil _ =>
    obtain rfl : t = [] := by
      by_contra hne
      exact lines_ne_nil hne hnil
    simp
  | case5 c t _ _ l ls hls ih =>
    have hhead := blank_head?_lines t
    rw [hls] at ih hhead
    rw [List.flatMap_cons]
    exact (wordsBy_cons_append c ih.symm hhead.symm).symm

end Text

end Ambient

import Mathlib
import Ambient.Text.Order

/-!
# The order of texts, by prefixes

One text comes before another exactly if it is a beginning of the other or has the smaller character
at the first place where they differ (`lt_iff`).  The second case stays as it is whatever is put
behind the texts, and so it is the first one that decides where two continued texts stand.  Sorting
orders texts in this way (`pairwise_sorted`).
-/

namespace Ambient

namespace Text

variable {a b s u v : Text} {ts : List Text}

/-- Two texts differ at a place where the first one has the smaller character. -/
def DivergesBelow (a b : Text) : Prop :=
  ∃ s c d u v, a = s ++ c :: u ∧ b = s ++ d :: v ∧ c < d

/-- What follows two texts that differ changes nothing about where they do. -/
lemma DivergesBelow.append (h : DivergesBelow a b) (u v : Text) :
    DivergesBelow (a ++ u) (b ++ v) := by
  obtain ⟨s, c, d, x, y, rfl, rfl, hcd⟩ := h
  exact ⟨s, c, d, x ++ u, y ++ v, by simp, by simp, hcd⟩

/-- A common beginning does not count. -/
lemma append_lt_append_left_iff : s ++ a < s ++ b ↔ a < b := by
  induction s with
  | nil => rfl
  | cons c s ih => simp [ih]

/-- A text comes before every longer one that begins with it. -/
lemma lt_append_cons (a : Text) (c : Char) (u : Text) : a < a ++ c :: u := by
  have h : a ++ [] < a ++ c :: u := append_lt_append_left_iff.mpr (List.nil_lt_cons c u)
  rwa [List.append_nil] at h

/-- A text that differs by a smaller character comes first. -/
lemma DivergesBelow.lt (h : DivergesBelow a b) : a < b := by
  obtain ⟨s, c, d, u, v, rfl, rfl, hcd⟩ := h
  exact append_lt_append_left_iff.mpr (List.cons_lt_cons_iff.mpr (Or.inl hcd))

/-- A smaller text is a beginning of the other one, or has the smaller character where they differ. -/
lemma lt_iff : a < b ↔ (∃ c u, b = a ++ c :: u) ∨ DivergesBelow a b := by
  constructor
  · intro h
    induction a generalizing b with
    | nil =>
      cases b with
      | nil => exact absurd h (lt_irrefl _)
      | cons d b => exact Or.inl ⟨d, b, rfl⟩
    | cons c a ih =>
      cases b with
      | nil => exact absurd h (List.not_lt_nil _)
      | cons d b =>
        rcases List.cons_lt_cons_iff.mp h with hcd | ⟨rfl, hab⟩
        · exact Or.inr ⟨[], c, d, a, b, rfl, rfl, hcd⟩
        · rcases ih hab with ⟨e, u, rfl⟩ | ⟨s, e, f, u, v, rfl, rfl, hef⟩
          · exact Or.inl ⟨e, u, rfl⟩
          · exact Or.inr ⟨c :: s, e, f, u, v, rfl, rfl, hef⟩
  · rintro (⟨c, u, rfl⟩ | h)
    · exact lt_append_cons a c u
    · exact h.lt

/-- A text may stand in front of another just if the other does not come first. -/
lemma isLe_iff : isLe a b = true ↔ ¬ b < a := by
  induction a generalizing b with
  | nil => simp [isLe, List.not_lt_nil]
  | cons c a ih =>
    cases b with
    | nil => simp [isLe, List.nil_lt_cons]
    | cons d b =>
      rw [isLe, List.cons_lt_cons_iff]
      split_ifs with h
      · subst h
        simp [ih]
      · have hne : c.toNat ≠ d.toNat := fun e => h (Char.toNat_inj.mp e)
        have hlt : d < c ↔ d.toNat < c.toNat := Iff.rfl
        rw [decide_eq_true_iff, hlt]
        have : d ≠ c := Ne.symm h
        simp only [this, false_and, or_false]
        omega

/-- Sorting neither adds nor loses a text. -/
lemma mem_sorted : a ∈ sorted ts ↔ a ∈ ts :=
  List.mem_mergeSort

/-- In sorted texts none comes before one in front of it. -/
lemma pairwise_sorted (ts : List Text) : (sorted ts).Pairwise fun a b => ¬ b < a := by
  have hpairwise : (sorted ts).Pairwise fun a b => isLe a b = true := by
    refine List.pairwise_mergeSort (fun a b c hab hbc => ?_) isLe_total ts
    rw [isLe_iff, not_lt] at hab hbc ⊢
    exact hab.trans hbc
  exact hpairwise.imp fun h => isLe_iff.mp h

end Text

end Ambient

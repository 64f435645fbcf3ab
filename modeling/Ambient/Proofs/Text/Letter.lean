import Mathlib
import Ambient.Text.Blank
import Ambient.Text.Case

/-!
# Letters and digits below 128

Plain letters and digits are no white space, and a plain small letter is its own small form.
-/

namespace Ambient

variable {c : Char}

/-- The ASCII letters and digits, by their numbers. -/
lemma Char.isAlphanum_iff {c : Char} : c.isAlphanum = true ↔
    (65 ≤ c.toNat ∧ c.toNat ≤ 90) ∨ (97 ≤ c.toNat ∧ c.toNat ≤ 122) ∨
      (48 ≤ c.toNat ∧ c.toNat ≤ 57) := by
  simp only [Char.isAlphanum, Char.isAlpha, Char.isUpper, Char.isLower, Char.isDigit,
    Bool.or_eq_true, Bool.and_eq_true, decide_eq_true_eq, ge_iff_le, UInt32.le_iff_toNat_le,
    or_assoc]
  rfl

/-- No ASCII letter or digit is white space. -/
lemma isBlank_of_isAlphanum (h : c.isAlphanum = true) : isBlank c = false := by
  rw [Char.isAlphanum_iff] at h
  rw [← Bool.not_eq_true]
  intro hblank
  simp only [isBlank, Bool.or_eq_true, beq_iff_eq, Bool.and_eq_true, decide_eq_true_eq] at hblank
  omega

/-- A small ASCII letter is a letter. -/
lemma isAlphanum_of_isLower (h : c.isLower = true) : c.isAlphanum = true := by
  simp [Char.isAlphanum, Char.isAlpha, h]

/-- A small ASCII letter is its own small form. -/
lemma smallForm_of_isLower (h : c.isLower = true) : smallForm c = [c] := by
  have hrange : 97 ≤ c.toNat ∧ c.toNat ≤ 122 := by
    simpa [Char.isLower, UInt32.le_iff_toNat_le, ← Char.toNat_val] using h
  have hlower : c.toLower = c := by
    unfold Char.toLower
    split
    · next hupper =>
      have hle : c.toNat ≤ 90 := hupper.2
      omega
    · rfl
  rw [smallForm, if_pos (by omega), hlower]

/-- A text of small ASCII letters is in small letters already. -/
lemma Text.toSmall_of_isLower {t : Text} (h : ∀ c ∈ t, c.isLower = true) : Text.toSmall t = t := by
  induction t with
  | nil => rfl
  | cons c t ih =>
    obtain ⟨hc, ht⟩ := List.forall_mem_cons.mp h
    rw [Text.toSmall] at ih ⊢
    rw [List.flatMap_cons, smallForm_of_isLower hc, ih ht]
    rfl

end Ambient

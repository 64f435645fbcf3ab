import Ambient.Text.Basic

/-!
# The order of texts

Texts are compared character by character by code point, and a text comes before its continuations.
-/

namespace Ambient

namespace Text

/-- Whether the first text comes before the second or is the same. -/
def isLe : Text → Text → Bool
  | [], _ => true
  | _ :: _, [] => false
  | a :: as, b :: bs => if a = b then isLe as bs else a.toNat < b.toNat

/-- The texts in ascending order; equal ones stay as they are. -/
def sorted (ts : List Text) : List Text :=
  ts.mergeSort isLe

/-- Of two texts one may stand in front of the other. -/
theorem isLe_total (a b : Text) : isLe a b || isLe b a := by
  induction a generalizing b with
  | nil => simp [isLe]
  | cons c a ih =>
    cases b with
    | nil => simp [isLe]
    | cons d b =>
      by_cases h : c = d
      · subst h
        simpa [isLe] using ih b
      · have h' : ¬ d = c := fun e => h e.symm
        have hn : c.toNat ≠ d.toNat := fun e => h (Char.toNat_inj.1 e)
        simp only [isLe, h, h', if_false, Bool.or_eq_true, decide_eq_true_eq]
        omega

end Text

end Ambient

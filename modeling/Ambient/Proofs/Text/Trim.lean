import Mathlib
import Ambient.Text.Blank

/-!
# Trimming

How the operations that take white space off the ends of a text act on a text put together of
pieces.  Each of them may be applied again without effect, and in front of or behind white space.
-/

namespace Ambient

namespace Text

section

variable {p : Char → Bool} {c : Char} {v w : Text}

lemma dropEndWhile_append_of_all (h : ∀ c ∈ v, p c = true) :
    dropEndWhile p (w ++ v) = dropEndWhile p w := by
  have hall : ∀ c ∈ v.reverse, p c = true := fun c hc => h c (List.mem_reverse.mp hc)
  rw [dropEndWhile, List.reverse_append, List.dropWhile_append_of_pos hall]
  rfl

/-- What stands in front of a character that stays is kept. -/
lemma dropEndWhile_append_cons (h : p c = false) :
    dropEndWhile p (w ++ c :: v) = w ++ c :: dropEndWhile p v := by
  have hne : (v.reverse ++ [c]).dropWhile p = v.reverse.dropWhile p ++ [c] := by
    rw [List.dropWhile_append]
    split
    · next hnil =>
      have hnil' : v.reverse.dropWhile p = [] := by simpa using hnil
      simp [h, hnil']
    · rfl
  have hne' : (v.reverse ++ [c] ++ w.reverse).dropWhile p =
      v.reverse.dropWhile p ++ [c] ++ w.reverse := by
    rw [List.dropWhile_append, hne]
    simp
  have hreverse : (w ++ c :: v).reverse = v.reverse ++ [c] ++ w.reverse := by simp
  rw [dropEndWhile, hreverse, hne']
  simp [dropEndWhile]

/-- A text whose last character stays loses nothing at its end. -/
lemma dropEndWhile_of_getLast? (h : ∀ c ∈ w.getLast?, p c = false) : dropEndWhile p w = w := by
  rcases List.eq_nil_or_concat w with rfl | ⟨v, c, rfl⟩
  · rfl
  · rw [List.concat_eq_append, List.getLast?_concat] at h
    rw [List.concat_eq_append, dropEndWhile_append_cons (h c rfl)]
    rfl

/-- What is left of a text does not end in what was dropped. -/
lemma of_getLast?_dropEndWhile (h : (dropEndWhile p w).getLast? = some c) : p c = false := by
  rw [dropEndWhile, List.getLast?_reverse] at h
  have hhead := List.head?_dropWhile_not p w.reverse
  rwa [h] at hhead

lemma mem_takeEndWhile (h : c ∈ takeEndWhile p w) : p c = true :=
  List.mem_takeWhile_imp (List.mem_reverse.mp h)

/-! ### White space -/

/-- A text with a character other than white space shows something. -/
lemma blank_of_mem (hc : c ∈ w) (h : isBlank c = false) : w.blank = false := by
  rw [← Bool.not_eq_true, blank, List.all_eq_true]
  intro hall
  rw [hall c hc] at h
  cases h

/-- White space at the end makes no difference. -/
lemma trimEnd_append_of_blank (h : ∀ c ∈ v, isBlank c = true) : (w ++ v).trimEnd = w.trimEnd :=
  dropEndWhile_append_of_all h

lemma trimEnd_append_cons (h : isBlank c = false) :
    (w ++ c :: v).trimEnd = w ++ c :: v.trimEnd :=
  dropEndWhile_append_cons h

lemma trimEnd_cons_of_not_blank (h : isBlank c = false) (w : Text) :
    trimEnd (c :: w) = c :: trimEnd w :=
  trimEnd_append_cons (w := []) h

/-- A text without white space has nothing to take off at its end. -/
lemma trimEnd_of_forall (h : ∀ c ∈ w, isBlank c = false) : w.trimEnd = w :=
  dropEndWhile_of_getLast? fun c hc => h c (List.mem_of_getLast? hc)

/-- White space in front of a text goes with the text if nothing else is left of it. -/
lemma trimEnd_cons_of_blank (h : isBlank c = true) :
    Text.trimEnd (c :: w) = if w.trimEnd = [] then [] else c :: w.trimEnd := by
  rw [trimEnd, trimEnd, dropEndWhile, dropEndWhile, List.reverse_cons, List.dropWhile_append]
  cases hw : w.reverse.dropWhile isBlank with
  | nil => simp [h]
  | cons d v => simp

/-- A text is its trimmed text with white space behind it. -/
lemma exists_trimEnd_append (w : Text) :
    ∃ v, (∀ c ∈ v, isBlank c = true) ∧ w = w.trimEnd ++ v :=
  ⟨takeEndWhile isBlank w, fun _ => mem_takeEndWhile,
    (dropEndWhile_append_takeEndWhile isBlank w).symm⟩

lemma trimEnd_isPrefix (w : Text) : w.trimEnd <+: w := by
  obtain ⟨v, -, hv⟩ := exists_trimEnd_append w
  exact ⟨v, hv.symm⟩

/-- Taking off white space at the end twice is doing so once. -/
lemma trimEnd_trimEnd (w : Text) : w.trimEnd.trimEnd = w.trimEnd := by
  obtain ⟨v, hv, hw⟩ := exists_trimEnd_append w
  conv_rhs => rw [hw, trimEnd_append_of_blank hv]

/-- White space is taken off at the start and then at the end. -/
lemma trim_eq (w : Text) : w.trim = trimEnd (w.dropWhile isBlank) :=
  rfl

/-- Trimming takes a piece out of a text. -/
lemma trim_isInfix (w : Text) : w.trim <:+: w := by
  rw [trim_eq]
  exact (trimEnd_isPrefix _).isInfix.trans (List.dropWhile_suffix isBlank).isInfix

lemma trim_cons_of_blank (h : isBlank c = true) : Text.trim (c :: w) = w.trim := by
  rw [trim_eq, trim_eq, List.dropWhile_cons_of_pos h]

lemma trim_append_of_blank (h : ∀ c ∈ v, isBlank c = true) : (w ++ v).trim = w.trim := by
  rw [trim_eq, trim_eq, List.dropWhile_append]
  split
  · next hnil =>
    have hw : w.dropWhile isBlank = [] := by simpa using hnil
    have hv : v.dropWhile isBlank = [] := by simpa using h
    rw [hw, hv]
  · exact trimEnd_append_of_blank h

/-- Taking it off at the end first makes no difference. -/
lemma trim_trimEnd (w : Text) : w.trimEnd.trim = w.trim := by
  obtain ⟨v, hv, hw⟩ := exists_trimEnd_append w
  conv_rhs => rw [hw, trim_append_of_blank hv]

/-- Taking off white space twice is doing so once. -/
lemma trim_trim (w : Text) : w.trim.trim = w.trim := by
  rw [trim_eq w, trim_trimEnd, trim_eq, List.dropWhile_idempotent]

/-- A text that starts with no white space loses only what stands at its end. -/
lemma trim_cons_of_not_blank (h : isBlank c = false) : Text.trim (c :: w) = Text.trimEnd (c :: w) := by
  rw [trim_eq, List.dropWhile_cons_of_neg (by simp [h])]

end

end Text

end Ambient

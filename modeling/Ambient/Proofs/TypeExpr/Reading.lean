import Mathlib
import Ambient.TypeExpr.Parser

/-!
# What the reader of type expressions reads

The reader answers with the tokens that are left and with a proof that there are fewer of them.
`Reads p a rest` forgets the proof: `p` succeeds with the value `a` and leaves `rest`.

For each function of the reader one lemma says exactly when it reads a value: `reads_parseType`,
`reads_parseMembers`, and so on down to the single tokens.  They are what later modules know of the
reader; none of them opens its definitions.
-/

namespace Ambient

namespace TypeExpr

variable {α : Type} {ts rest : List Token} {text close : Text} {e : TypeExpr}

/-- The reading `p` succeeds with the value `a` and leaves the tokens `rest`. -/
def Reads (p : Parse α ts) (a : α) (rest : List Token) : Prop :=
  ∃ r, p = .ok (a, r) ∧ r.1 = rest

/-- Reading takes at least one token, so what is left is shorter. -/
lemma Reads.length_lt {p : Parse α ts} {a : α} (h : Reads p a rest) :
    rest.length < ts.length := by
  obtain ⟨r, -, rfl⟩ := h
  exact r.2

/-- A reading has one value and one rest. -/
lemma Reads.unique {p : Parse α ts} {a b : α} {rest' : List Token} (h : Reads p a rest)
    (h' : Reads p b rest') : a = b ∧ rest = rest' := by
  obtain ⟨r, hp, rfl⟩ := h
  obtain ⟨r', hp', rfl⟩ := h'
  rw [hp] at hp'
  grind

/-! ### Single tokens -/

lemma startsWith_cons (t : Token) : startsWith text (t :: ts) = true ↔ t.text = text := by
  simp [startsWith]

lemma startsWith_iff : startsWith text ts = true ↔ ∃ t us, t.text = text ∧ ts = t :: us := by
  cases ts <;> simp [startsWith]

/-- The next token is the first one, if there is one. -/
lemma reads_next {t : Token} : Reads (next ts) t rest ↔ ts = t :: rest := by
  cases ts with
  | nil => simp [Reads, next]
  | cons u us => grind [Reads, next]

/-- A token is expected by its text, whatever kind it has. -/
lemma reads_expect : Reads (expect text ts) () rest ↔ ∃ t, t.text = text ∧ ts = t :: rest := by
  cases ts with
  | nil => simp [Reads, expect]
  | cons u us =>
    by_cases h : u.text = text
    · simp [Reads, expect, h]
    · simp only [Reads, expect, h]
      grind

/-- Nothing follows a text that the first token does not have. -/
lemma after?_eq_none : after? text ts = none ↔ startsWith text ts = false := by
  cases ts <;> simp [after?, startsWith]

/-- What follows a text is everything behind the token that has it. -/
lemma after?_eq_some {h : rest.length < ts.length} :
    after? text ts = some ⟨rest, h⟩ ↔ ∃ t, t.text = text ∧ ts = t :: rest := by
  cases ts with
  | nil => simp [after?]
  | cons u us => grind [after?]

/-- Where a text is expected with success, the first token has it. -/
lemma startsWith_of_reads_expect (h : Reads (expect text ts) () rest) :
    startsWith text ts = true := by
  obtain ⟨t, ht, rfl⟩ := reads_expect.mp h
  exact (startsWith_cons t).mpr ht

/-- Whether a list starts with the tokens `first` and `second`. -/
def StartsWithBoth (first second : Text) (ts : List Token) : Prop :=
  ∃ a b us, a.text = first ∧ b.text = second ∧ ts = a :: b :: us

/-- What follows two texts is everything behind the two tokens that have them. -/
lemma afterBoth?_eq_some {first second : Text} {h : rest.length < ts.length} :
    afterBoth? first second ts = some ⟨rest, h⟩ ↔
      ∃ a b, a.text = first ∧ b.text = second ∧ ts = a :: b :: rest := by
  match ts with
  | [] => simp [afterBoth?]
  | [a] => simp [afterBoth?]
  | a :: b :: us => grind [afterBoth?]

/-- Nothing follows two texts that the first two tokens do not have. -/
lemma afterBoth?_eq_none {first second : Text} :
    afterBoth? first second ts = none ↔ ¬ StartsWithBoth first second ts := by
  match ts with
  | [] => simp [afterBoth?, StartsWithBoth]
  | [a] => simp [afterBoth?, StartsWithBoth]
  | a :: b :: us => simp [afterBoth?, StartsWithBoth]

/-! ### Heads -/

/-- A token that may be the name of a parameter. -/
def MayName (t : Token) : Prop :=
  t.kind = .name ∨ t.kind = .text

/-- A name in front of a colon is the head of a parameter that has to be given. -/
lemma paramHead?_colon {t c : Token} (ht : MayName t) (hc : c.text = ":") :
    paramHead? (t :: c :: ts) = some (unquote t.text, false, ⟨ts, by simp⟩) := by
  have hk : (decide (t.kind = .name) || decide (t.kind = .text)) = true := by
    simpa [MayName] using ht
  simp [paramHead?, hk, after?, hc]

/-- A name in front of a question mark and a colon is the head of an optional parameter. -/
lemma paramHead?_question {t q c : Token} (ht : MayName t) (hq : q.text = "?")
    (hc : c.text = ":") :
    paramHead? (t :: q :: c :: ts) = some (unquote t.text, true, ⟨ts, by simp; omega⟩) := by
  have hk : (decide (t.kind = .name) || decide (t.kind = .text)) = true := by
    simpa [MayName] using ht
  simp [paramHead?, hk, after?, afterBoth?, hq, hc]

/-- The name that a parameter has stands before a colon, or before a question mark and a colon. -/
lemma eq_of_paramHead? {name : Text} {optional : Bool} {us : List Token}
    {hus : us.length < ts.length} (h : paramHead? ts = some (name, optional, ⟨us, hus⟩)) :
    ∃ t : Token, MayName t ∧ name = unquote t.text ∧
      ((∃ c : Token, c.text = ":" ∧ ts = t :: c :: us ∧ optional = false) ∨
        ∃ q c : Token, q.text = "?" ∧ c.text = ":" ∧ ts = t :: q :: c :: us ∧
          optional = true) := by
  cases ts with
  | nil => simp [paramHead?] at h
  | cons t vs =>
    rw [paramHead?] at h
    split at h
    · next hk =>
      refine ⟨t, by simpa [MayName] using hk, ?_⟩
      split at h
      · next ws hws hafter =>
        obtain ⟨c, hc, rfl⟩ := after?_eq_some.mp hafter
        obtain ⟨rfl, rfl, rfl⟩ := by simpa using h
        exact ⟨rfl, Or.inl ⟨c, hc, rfl, rfl⟩⟩
      · split at h
        · next ws hws hboth =>
          obtain ⟨q, c, hq, hc, rfl⟩ := afterBoth?_eq_some.mp hboth
          obtain ⟨rfl, rfl, rfl⟩ := by simpa using h
          exact ⟨rfl, Or.inr ⟨q, c, hq, hc, rfl, rfl⟩⟩
        · simp at h
    · simp at h

/-- A parameter has no name exactly if no token that may name it stands before a colon, or before a
question mark and a colon. -/
lemma paramHead?_eq_none :
    paramHead? ts = none ↔ ∀ t us, ts = t :: us → MayName t →
      startsWith ":" us = false ∧ ¬ StartsWithBoth "?" ":" us := by
  cases ts with
  | nil => simp [paramHead?]
  | cons t us =>
    by_cases ht : MayName t
    · have hk : (decide (t.kind = .name) || decide (t.kind = .text)) = true := by
        simpa [MayName] using ht
      have hhead : paramHead? (t :: us) = none ↔
          after? ":" us = none ∧ afterBoth? "?" ":" us = none := by
        cases ha : after? ":" us with
        | some r => simp [paramHead?, hk, ha, -String.reduceToList]
        | none =>
          cases hb : afterBoth? "?" ":" us <;>
            simp [paramHead?, hk, ha, hb, -String.reduceToList]
      rw [hhead, after?_eq_none, afterBoth?_eq_none]
      constructor
      · rintro h t' us' heq -
        obtain ⟨rfl, rfl⟩ := List.cons.inj heq
        exact h
      · intro h
        exact h t us rfl ht
    · have hk : (decide (t.kind = .name) || decide (t.kind = .text)) = false := by
        simpa [MayName] using ht
      simp [paramHead?, hk, ht]

/-- The head of an index signature has five tokens, and only the marks among them are looked at. -/
lemma reads_indexHead :
    Reads (indexHead ts) () rest ↔
      ∃ x c y b d : Token, c.text = ":" ∧ b.text = "]" ∧ d.text = ":" ∧
        ts = x :: c :: y :: b :: d :: rest := by
  match ts with
  | [] => simp [Reads, indexHead, next]
  | [x] => simp [Reads, indexHead, next, expect]
  | x :: c :: us =>
    by_cases hc : c.text = ":"
    · match us with
      | [] => simp [Reads, indexHead, next, expect, hc]
      | [y] => simp [Reads, indexHead, next, expect, hc]
      | y :: b :: vs =>
        by_cases hb : b.text = "]"
        · cases vs with
          | nil => simp [Reads, indexHead, next, expect, hc, hb]
          | cons d ws =>
            by_cases hd : d.text = ":"
            · simp [Reads, indexHead, next, expect, hc, hb, hd]
            · simp_all [Reads, indexHead, next, expect]
        · simp_all [Reads, indexHead, next, expect]
    · simp_all [Reads, indexHead, next, expect]

/-- The head of a type variable is any token with an equals sign behind it. -/
lemma reads_variableHead :
    Reads (variableHead ts) () rest ↔ ∃ x q : Token, q.text = "=" ∧ ts = x :: q :: rest := by
  match ts with
  | [] => simp [Reads, variableHead, next]
  | [x] => simp [Reads, variableHead, next, expect]
  | x :: q :: us =>
    by_cases hq : q.text = "="
    · simp [Reads, variableHead, next, expect, hq]
    · simp_all [Reads, variableHead, next, expect]

/-! ### Types -/

/-- A type is read as its members: one of them alone, or a union. -/
lemma reads_parseType :
    Reads (parseType ts) e rest ↔ ∃ ms, Reads (parseMembers ts) ms rest ∧ e = ofMembers ms := by
  rw [parseType]
  constructor
  · rintro ⟨r, h, rfl⟩
    split at h
    · simp at h
    · next ms r' hm =>
      obtain ⟨rfl, rfl⟩ : ofMembers ms = e ∧ r' = r := by simpa using h
      exact ⟨ms, ⟨r', hm, rfl⟩, rfl⟩
  · rintro ⟨ms, ⟨r, hm, rfl⟩, rfl⟩
    exact ⟨r, by simp [hm], rfl⟩

/-- The members of a type are one type, or one with a bar and further members behind it. -/
lemma reads_parseMembers {ms : List TypeExpr} :
    Reads (parseMembers ts) ms rest ↔
      ∃ t us, Reads (parsePostfix ts) t us ∧
        ((startsWith "|" us = false ∧ ms = [t] ∧ us = rest) ∨
          ∃ (bar : Token) (vs : List Token) (ns : List TypeExpr), bar.text = "|" ∧
            us = bar :: vs ∧ Reads (parseMembers vs) ns rest ∧ ms = t :: ns) := by
  rw [parseMembers]
  constructor
  · rintro ⟨r, h, rfl⟩
    split at h
    · simp at h
    · next t us hus hp =>
      refine ⟨t, us, ⟨_, hp, rfl⟩, ?_⟩
      split at h
      · next hbar =>
        obtain ⟨rfl, rfl⟩ : [t] = ms ∧ ⟨us, hus⟩ = r := by simpa using h
        exact Or.inl ⟨after?_eq_none.mp hbar, rfl, rfl⟩
      · next vs hvs hbar =>
        obtain ⟨bar, htext, rfl⟩ := after?_eq_some.mp hbar
        split at h
        · simp at h
        · next ns ws hws hm =>
          obtain ⟨rfl, rfl⟩ := by simpa using h
          exact Or.inr ⟨bar, vs, ns, htext, rfl, ⟨_, hm, rfl⟩, rfl⟩
  · rintro ⟨t, us, ⟨⟨vs, hvs⟩, hp, rfl⟩, ⟨hbar, rfl, rfl⟩ | ⟨bar, ws, ns, hbar, rfl, ⟨r, hm, rfl⟩, rfl⟩⟩
    · have hnone : after? "|" vs = none := after?_eq_none.mpr hbar
      simp [Reads, hp, hnone, -String.reduceToList]
    · simp [Reads, hp, after?, hbar, hm, -String.reduceToList]

/-! ### Suffixes -/

/-- A pair of brackets behind a type makes an array of it. -/
lemma arraySuffixes_of_both {a b : Token} (ha : a.text = "[") (hb : b.text = "]") :
    (arraySuffixes e (a :: b :: ts)).1 = (arraySuffixes (.array e) ts).1 ∧
      (arraySuffixes e (a :: b :: ts)).2.1 = (arraySuffixes (.array e) ts).2.1 := by
  rw [arraySuffixes]
  simp [afterBoth?, ha, hb]

/-- Where no pair of brackets follows, a type is left as it is. -/
lemma arraySuffixes_of_not_both (h : ¬ StartsWithBoth "[" "]" ts) :
    (arraySuffixes e ts).1 = e ∧ (arraySuffixes e ts).2.1 = ts := by
  rw [arraySuffixes]
  have hnone := afterBoth?_eq_none.mpr h
  simp [hnone, -String.reduceToList]

/-- A type with suffixes is a primary one and all pairs of brackets behind it. -/
lemma reads_parsePostfix :
    Reads (parsePostfix ts) e rest ↔
      ∃ t us, Reads (parsePrimary ts) t us ∧ (arraySuffixes t us).1 = e ∧
        (arraySuffixes t us).2.1 = rest := by
  rw [parsePostfix]
  constructor
  · rintro ⟨r, h, rfl⟩
    split at h
    · simp at h
    · next t us hus hp =>
      refine ⟨t, us, ⟨_, hp, rfl⟩, ?_⟩
      obtain ⟨rfl, rfl⟩ := by simpa using h
      exact ⟨rfl, rfl⟩
  · rintro ⟨t, us, ⟨⟨vs, hvs⟩, hp, rfl⟩, rfl, rfl⟩
    simp [Reads, hp]

/-! ### Functions -/

/-- An arrow function `e` is read of `ts`, and `rest` is left. -/
def ReadsArrow (ts : List Token) (e : TypeExpr) (rest : List Token) : Prop :=
  ∃ r, parseArrow? ts = some (e, r) ∧ r.1 = rest

/-- No arrow function is found where none can be read. -/
lemma parseArrow?_eq_none : parseArrow? ts = none ↔ ∀ e rest, ¬ ReadsArrow ts e rest := by
  cases h : parseArrow? ts with
  | none => simp [ReadsArrow, h]
  | some r =>
    simp only [reduceCtorEq, false_iff, not_forall, not_not]
    exact ⟨r.1, r.2.1, r.2, h, rfl⟩

/-- An arrow function is a list of parameters, an arrow and a result. -/
lemma readsArrow :
    ReadsArrow ts e rest ↔
      ∃ ps us ws r, Reads (parseParams ")" ts) ps us ∧ Reads (expect "=>" us) () ws ∧
        Reads (parseType ws) r rest ∧ e = .function ps (some r) true := by
  rw [ReadsArrow, parseArrow?]
  constructor
  · rintro ⟨r, h, rfl⟩
    split at h
    · simp at h
    · next ps us hus hp =>
      split at h
      · simp at h
      · next ws hws harrow =>
        split at h
        · simp at h
        · next r' vs hvs hr =>
          obtain ⟨rfl, rfl⟩ := by simpa using h
          exact ⟨ps, us, ws, r', ⟨_, hp, rfl⟩, reads_expect.mpr (after?_eq_some.mp harrow),
            ⟨_, hr, rfl⟩, rfl⟩
  · rintro ⟨ps, us, ws, r', ⟨⟨_, hus⟩, hp, rfl⟩, harrow, ⟨⟨vs, hvs⟩, hr, rfl⟩, rfl⟩
    obtain ⟨t, ht, rfl⟩ := reads_expect.mp harrow
    simp [hp, after?, ht, hr, -String.reduceToList]

/-- A function is a list of parameters, alone or with an arrow and a result behind it. -/
lemma reads_parseFunction {t : Token} :
    Reads (parseFunction (t :: ts)) e rest ↔
      ∃ ps us, Reads (parseParams ")" ts) ps us ∧
        ((startsWith "->" us = false ∧ us = rest ∧ e = .function ps none false) ∨
          ∃ ws r, Reads (expect "->" us) () ws ∧ Reads (parseType ws) r rest ∧
            e = .function ps (some r) false) := by
  rw [parseFunction]
  constructor
  · rintro ⟨r, h, rfl⟩
    simp only [next] at h
    split at h
    · simp at h
    · next ps us hus hp =>
      refine ⟨ps, us, ⟨_, hp, rfl⟩, ?_⟩
      split at h
      · next harrow =>
        obtain ⟨rfl, rfl⟩ := by simpa using h
        exact Or.inl ⟨after?_eq_none.mp harrow, rfl, rfl⟩
      · next ws hws harrow =>
        split at h
        · simp at h
        · next r' vs hvs hr =>
          obtain ⟨rfl, rfl⟩ := by simpa using h
          exact Or.inr ⟨ws, r', reads_expect.mpr (after?_eq_some.mp harrow), ⟨_, hr, rfl⟩, rfl⟩
  · rintro ⟨ps, us, ⟨⟨vs, hvs⟩, hp, rfl⟩, ⟨harrow, rfl, rfl⟩ | ⟨ws, r, harrow, ⟨⟨_, _⟩, hr, rfl⟩, rfl⟩⟩
    · have hnone := after?_eq_none.mpr harrow
      simp [Reads, next, hp, hnone, -String.reduceToList]
    · obtain ⟨t, ht, rfl⟩ := reads_expect.mp harrow
      simp [Reads, next, hp, after?, ht, hr, -String.reduceToList]

/-! ### Names, arguments and fields -/

/-- A name stands for itself, except that of the type of promises. -/
lemma ofName_cases (name : Text) :
    (name = "Promise" ∧ ofName name = .promise none) ∨
      (name ≠ "Promise" ∧ ofName name = .atom name) := by
  unfold ofName
  split_ifs with hname
  · exact Or.inl ⟨hname, rfl⟩
  · exact Or.inr ⟨hname, rfl⟩

/-- The arguments of a name stay what they are, but for the only one of a promise. -/
lemma ofArguments_cases (name : Text) (args : List TypeExpr) :
    (∃ result, name = "Promise" ∧ args = [result] ∧
        ofArguments name args = .promise (some result)) ∨
      (¬ (name = "Promise" ∧ args.length = 1) ∧ ofArguments name args = .generic name args) := by
  unfold ofArguments
  split
  · next result =>
    split_ifs with hname
    · exact Or.inl ⟨result, hname, rfl, rfl⟩
    · exact Or.inr ⟨fun hboth => hname hboth.1, rfl⟩
  · next hnot =>
    refine Or.inr ⟨fun hboth => ?_, rfl⟩
    obtain ⟨result, rfl⟩ := List.length_eq_one_iff.mp hboth.2
    exact hnot result rfl

/-- Fields stay what they are, but for a required `string` that stands alone. -/
lemma ofFields_cases (fields : List TypeParam) :
    (∃ type, fields = [⟨some "string", type, false⟩] ∧ ofFields fields = .map type false) ∨
      ((¬ ∃ type, fields = [⟨some "string", type, false⟩]) ∧ ofFields fields = .object fields) := by
  unfold ofFields
  split
  · next name type =>
    split_ifs with hname
    · exact Or.inl ⟨type, by rw [hname], rfl⟩
    · refine Or.inr ⟨fun ⟨type', heq⟩ => hname ?_, rfl⟩
      simp only [List.cons.injEq, Param.mk.injEq, Option.some.injEq] at heq
      exact heq.1.1
  · next hnot => exact Or.inr ⟨fun ⟨type, heq⟩ => hnot "string" type heq, rfl⟩

/-! ### Named types and braces -/

/-- Arguments are one type, or one with a comma and further arguments behind it. -/
lemma reads_parseArguments {args : List TypeExpr} :
    Reads (parseArguments ts) args rest ↔
      ∃ t us, Reads (parseType ts) t us ∧
        ((startsWith "," us = false ∧ args = [t] ∧ us = rest) ∨
          ∃ vs more, Reads (expect "," us) () vs ∧ Reads (parseArguments vs) more rest ∧
            args = t :: more) := by
  rw [parseArguments]
  constructor
  · rintro ⟨r, h, rfl⟩
    split at h
    · simp at h
    · next t us hus ht =>
      refine ⟨t, us, ⟨_, ht, rfl⟩, ?_⟩
      split at h
      · next hcomma =>
        obtain ⟨rfl, rfl⟩ := by simpa using h
        exact Or.inl ⟨after?_eq_none.mp hcomma, rfl, rfl⟩
      · next vs hvs hcomma =>
        split at h
        · simp at h
        · next more ws hws hm =>
          obtain ⟨rfl, rfl⟩ := by simpa using h
          exact Or.inr ⟨vs, more, reads_expect.mpr (after?_eq_some.mp hcomma), ⟨_, hm, rfl⟩, rfl⟩
  · rintro ⟨t, us, ⟨⟨vs, hvs⟩, ht, rfl⟩, ⟨hcomma, rfl, rfl⟩ | ⟨ws, more, hcomma, ⟨_, hm, rfl⟩, rfl⟩⟩
    · have hnone : after? "," vs = none := after?_eq_none.mpr hcomma
      simp [Reads, ht, hnone, -String.reduceToList]
    · obtain ⟨c, hc, rfl⟩ := reads_expect.mp hcomma
      simp [Reads, ht, after?, hc, hm, -String.reduceToList]

/-- A name with a type variable in brackets has the type of the variable as its argument. -/
lemma reads_parseNamed_variable {t a b : Token} (ha : a.text = "[") (hb : b.text = ":") :
    Reads (parseNamed t (a :: b :: ts)) e rest ↔
      ∃ us arg vs, Reads (variableHead ts) () us ∧ Reads (parseType us) arg vs ∧
        Reads (expect "]" vs) () rest ∧ e = ofArguments t.text [arg] := by
  have hboth : afterBoth? "[" ":" (a :: b :: ts) = some ⟨ts, by simp⟩ :=
    afterBoth?_eq_some.mpr ⟨a, b, ha, hb, rfl⟩
  rw [parseNamed, hboth]
  constructor
  · rintro ⟨r, h, rfl⟩
    simp only [] at h
    split at h
    · simp at h
    · next us hus hv =>
      split at h
      · simp at h
      · next arg vs hvs harg =>
        split at h
        · simp at h
        · next ws hws hclose =>
          obtain ⟨rfl, rfl⟩ := by simpa using h
          exact ⟨us, arg, vs, ⟨_, hv, rfl⟩, ⟨_, harg, rfl⟩, ⟨_, hclose, rfl⟩, rfl⟩
  · rintro ⟨us, arg, vs, ⟨⟨_, _⟩, hv, rfl⟩, ⟨⟨_, _⟩, harg, rfl⟩, ⟨_, hclose, rfl⟩, rfl⟩
    simp only [] at harg hclose
    simp [Reads, hv, harg, hclose, -String.reduceToList]

/-- A name with angle brackets has the types between them as its arguments. -/
lemma reads_parseNamed_applied {t a : Token} (ha : a.text = "<") :
    Reads (parseNamed t (a :: ts)) e rest ↔
      ∃ args us, Reads (parseArguments ts) args us ∧ Reads (expect ">" us) () rest ∧
        e = ofArguments t.text args := by
  have hboth : afterBoth? "[" ":" (a :: ts) = none := by
    rw [afterBoth?_eq_none]
    rintro ⟨a', b, us, ha', -, heq⟩
    obtain ⟨rfl, -⟩ := List.cons.inj heq
    rw [ha] at ha'
    exact absurd ha' (by decide)
  have hafter : after? "<" (a :: ts) = some ⟨ts, by simp⟩ := after?_eq_some.mpr ⟨a, ha, rfl⟩
  rw [parseNamed, hboth, hafter]
  constructor
  · rintro ⟨r, h, rfl⟩
    simp only [] at h
    split at h
    · simp at h
    · next args us hus hargs =>
      split at h
      · simp at h
      · next ws hws hclose =>
        obtain ⟨rfl, rfl⟩ := by simpa using h
        exact ⟨args, us, ⟨_, hargs, rfl⟩, ⟨_, hclose, rfl⟩, rfl⟩
  · rintro ⟨args, us, ⟨⟨_, _⟩, hargs, rfl⟩, ⟨_, hclose, rfl⟩, rfl⟩
    simp only [] at hclose
    simp [Reads, hargs, hclose, -String.reduceToList]

/-- A name with neither of the two behind it is read alone. -/
lemma reads_parseNamed_alone {t : Token} (hboth : ¬ StartsWithBoth "[" ":" ts)
    (hopen : startsWith "<" ts = false) :
    Reads (parseNamed t ts) e rest ↔ e = ofName t.text ∧ ts = rest := by
  have hnone := afterBoth?_eq_none.mpr hboth
  have hnone' := after?_eq_none.mpr hopen
  rw [parseNamed]
  simp only [hnone, hnone', Reads, -String.reduceToList]
  constructor
  · rintro ⟨r, h, rfl⟩
    obtain ⟨rfl, rfl⟩ := by simpa using h
    exact ⟨rfl, rfl⟩
  · rintro ⟨rfl, rfl⟩
    exact ⟨_, rfl, rfl⟩

/-- A bracket behind a brace begins an index signature, which makes a map. -/
lemma reads_parseBraces_indexed {a : Token} (ha : a.text = "[") :
    Reads (parseBraces (a :: ts)) e rest ↔
      ∃ us value vs, Reads (indexHead ts) () us ∧ Reads (parseType us) value vs ∧
        Reads (expect ['}'] vs) () rest ∧ e = .map value true := by
  have hafter : after? "[" (a :: ts) = some ⟨ts, by simp⟩ := after?_eq_some.mpr ⟨a, ha, rfl⟩
  rw [parseBraces, hafter]
  constructor
  · rintro ⟨r, h, rfl⟩
    simp only [] at h
    split at h
    · simp at h
    · next us hus hi =>
      split at h
      · simp at h
      · next value vs hvs hv =>
        split at h
        · simp at h
        · next ws hws hclose =>
          obtain ⟨rfl, rfl⟩ := by simpa using h
          exact ⟨us, value, vs, ⟨_, hi, rfl⟩, ⟨_, hv, rfl⟩, ⟨_, hclose, rfl⟩, rfl⟩
  · rintro ⟨us, value, vs, ⟨⟨_, _⟩, hi, rfl⟩, ⟨⟨_, _⟩, hv, rfl⟩, ⟨_, hclose, rfl⟩, rfl⟩
    simp only [] at hv hclose
    simp [Reads, hi, hv, hclose]

/-- Any other content of braces is a list of fields. -/
lemma reads_parseBraces_fields (hopen : startsWith "[" ts = false) :
    Reads (parseBraces ts) e rest ↔
      ∃ fields, Reads (parseParams ['}'] ts) fields rest ∧ e = ofFields fields := by
  have hnone := after?_eq_none.mpr hopen
  rw [parseBraces]
  simp only [hnone, Reads, -String.reduceToList]
  constructor
  · rintro ⟨r, h, rfl⟩
    split at h
    · simp at h
    · next fields us hf =>
      obtain ⟨rfl, rfl⟩ := by simpa using h
      exact ⟨fields, ⟨_, hf, rfl⟩, rfl⟩
  · rintro ⟨fields, ⟨r, hf, rfl⟩, rfl⟩
    exact ⟨r, by simp [hf], rfl⟩

/-! ### Parameters -/

/-- A list of parameters is closed at once, or holds at least one. -/
lemma reads_parseParams {ps : List TypeParam} :
    Reads (parseParams close ts) ps rest ↔
      (ps = [] ∧ Reads (expect close ts) () rest) ∨
        (startsWith close ts = false ∧ Reads (parseSomeParams close ts) ps rest) := by
  rw [parseParams]
  cases hafter : after? close ts with
  | none =>
    have hno : startsWith close ts = false := after?_eq_none.mp hafter
    have hno' : ¬ Reads (expect close ts) () rest := by
      intro h
      rw [startsWith_of_reads_expect h] at hno
      exact absurd hno (by decide)
    simp [hno, hno']
  | some r =>
    obtain ⟨us, hus⟩ := r
    obtain ⟨t, ht, rfl⟩ := after?_eq_some.mp hafter
    have hyes : startsWith close (t :: us) = true := (startsWith_cons t).mpr ht
    have hexpect : Reads (expect close (t :: us)) () rest ↔ us = rest := by
      rw [reads_expect]
      simp [ht]
    rw [hyes, hexpect]
    constructor
    · rintro ⟨r, h, rfl⟩
      obtain ⟨rfl, rfl⟩ := by simpa using h
      exact Or.inl ⟨rfl, rfl⟩
    · rintro (⟨rfl, rfl⟩ | ⟨h, -⟩)
      · exact ⟨_, rfl, rfl⟩
      · exact absurd h (by decide)

/-- Parameters are a last one with the closing mark, or one with a comma and further ones behind it.
-/
lemma reads_parseSomeParams {ps : List TypeParam} :
    Reads (parseSomeParams close ts) ps rest ↔
      ∃ p us, Reads (parseParam ts) p us ∧
        ((ps = [p] ∧ Reads (expect close us) () rest) ∨
          (startsWith close us = false ∧ ∃ vs more, Reads (expect "," us) () vs ∧
            Reads (parseSomeParams close vs) more rest ∧ ps = p :: more)) := by
  rw [parseSomeParams]
  constructor
  · rintro ⟨r, h, rfl⟩
    split at h
    · simp at h
    · next p us hus hp =>
      refine ⟨p, us, ⟨_, hp, rfl⟩, ?_⟩
      split at h
      · simp at h
      · next t vs hvs hn =>
        obtain rfl : us = t :: vs := reads_next.mp ⟨_, hn, rfl⟩
        split at h
        · next hclose =>
          obtain ⟨rfl, rfl⟩ := by simpa using h
          exact Or.inl ⟨rfl, reads_expect.mpr ⟨t, hclose, rfl⟩⟩
        · next hclose =>
          split at h
          · next hcomma =>
            split at h
            · simp at h
            · next more ws hws hm =>
              obtain ⟨rfl, rfl⟩ := by simpa using h
              exact Or.inr ⟨by simp [startsWith, hclose], vs, more,
                reads_expect.mpr ⟨t, hcomma, rfl⟩, ⟨_, hm, rfl⟩, rfl⟩
          · simp at h
  · rintro ⟨p, us, ⟨⟨_, hus⟩, hp, rfl⟩, ⟨rfl, hclose⟩ | ⟨hclose, vs, more, hcomma, ⟨_, hm, rfl⟩, rfl⟩⟩
    · obtain ⟨t, ht, rfl⟩ := reads_expect.mp hclose
      simp [Reads, hp, next, ht]
    · obtain ⟨t, ht, rfl⟩ := reads_expect.mp hcomma
      have hne : ¬ t.text = close := by simpa [startsWith] using hclose
      simp only [Reads, hp, next, if_neg hne, if_pos ht]
      simp [hm]

/-- A parameter without a head has a type alone. -/
lemma reads_parseParam_plain {p : TypeParam} (h : paramHead? ts = none) :
    Reads (parseParam ts) p rest ↔ ∃ t, Reads (parseType ts) t rest ∧ p = ⟨none, t, false⟩ := by
  rw [parseParam]
  simp only [h]
  constructor
  · rintro ⟨r, h, rfl⟩
    split at h
    · simp at h
    · next t us ht =>
      obtain ⟨rfl, rfl⟩ := by simpa using h
      exact ⟨t, ⟨_, ht, rfl⟩, rfl⟩
  · rintro ⟨t, ⟨r, ht, rfl⟩, rfl⟩
    exact ⟨r, by simp [ht], rfl⟩

/-- A parameter with a head has a name, perhaps a mark, and a type. -/
lemma reads_parseParam_named {p : TypeParam} {name : Text} {optional : Bool} {us : List Token}
    {hus : us.length < ts.length} (h : paramHead? ts = some (name, optional, ⟨us, hus⟩)) :
    Reads (parseParam ts) p rest ↔
      ∃ t, Reads (parseType us) t rest ∧ p = ⟨some name, t, optional⟩ := by
  rw [parseParam]
  simp only [h]
  constructor
  · rintro ⟨r, h, rfl⟩
    split at h
    · simp at h
    · next t vs hvs ht =>
      obtain ⟨rfl, rfl⟩ := by simpa using h
      exact ⟨t, ⟨_, ht, rfl⟩, rfl⟩
  · rintro ⟨t, ⟨⟨_, _⟩, ht, rfl⟩, rfl⟩
    simp [Reads, ht]

/-! ### Primary types -/

/-- The types that start with their own mark or name, by the first token. -/
lemma reads_parsePrimary {t : Token} :
    Reads (parsePrimary (t :: ts)) e rest ↔
      if t.kind = .name ∧ t.text = "fn" ∧ startsWith "(" ts = true then
        Reads (parseFunction ts) e rest
      else if t.text = "(" then
        ReadsArrow ts e rest ∨
          (parseArrow? ts = none ∧
            ∃ us, Reads (parseType ts) e us ∧ Reads (expect ")" us) () rest)
      else if t.text = "[" then
        ∃ element us, Reads (parseType ts) element us ∧ Reads (expect "]" us) () rest ∧
          e = .array element
      else if t.text = ['{'] then Reads (parseBraces ts) e rest
      else if t.text = "+" then
        ∃ name : Token, ts = name :: rest ∧ name.kind = .name ∧ e = .reference name.text
      else if t.text = "?" then ts = rest ∧ e = .atom "?"
      else if t.kind = .text then
        ts = rest ∧ e = .literal ('"' :: (t.text.drop 1).dropLast ++ ['"'])
      else if t.kind = .name then Reads (parseNamed t ts) e rest
      else False := by
  rw [parsePrimary]
  simp only [Bool.and_eq_true, decide_eq_true_eq, and_assoc, -String.reduceToList]
  -- one case for each first token, in the order of the reader
  split_ifs with hfn hparen hbracket hbrace hplus hquestion htext hname
  · constructor
    · rintro ⟨r, h, rfl⟩
      split at h
      · simp at h
      · next f us hus hf =>
        obtain ⟨rfl, rfl⟩ := by simpa using h
        exact ⟨_, hf, rfl⟩
    · rintro ⟨r, hf, rfl⟩
      simp [Reads, hf]
  · constructor
    · rintro ⟨r, h, rfl⟩
      split at h
      · next f us hus hf =>
        obtain ⟨rfl, rfl⟩ := by simpa using h
        exact Or.inl ⟨_, hf, rfl⟩
      · next hnone =>
        refine Or.inr ⟨hnone, ?_⟩
        split at h
        · simp at h
        · next inner us hus hi =>
          split at h
          · simp at h
          · next vs hvs hclose =>
            obtain ⟨rfl, rfl⟩ := by simpa using h
            exact ⟨us, ⟨_, hi, rfl⟩, ⟨_, hclose, rfl⟩⟩
    · rintro (⟨r, hf, rfl⟩ | ⟨hnone, us, ⟨⟨_, _⟩, hi, rfl⟩, ⟨_, hclose, rfl⟩⟩)
      · simp [Reads, hf]
      · simp only [] at hclose
        simp [Reads, hnone, hi, hclose, -String.reduceToList]
  · constructor
    · rintro ⟨r, h, rfl⟩
      split at h
      · simp at h
      · next element us hus hi =>
        split at h
        · simp at h
        · next vs hvs hclose =>
          obtain ⟨rfl, rfl⟩ := by simpa using h
          exact ⟨element, us, ⟨_, hi, rfl⟩, ⟨_, hclose, rfl⟩, rfl⟩
    · rintro ⟨element, us, ⟨⟨_, _⟩, hi, rfl⟩, ⟨_, hclose, rfl⟩, rfl⟩
      simp only [] at hclose
      simp [Reads, hi, hclose, -String.reduceToList]
  · constructor
    · rintro ⟨r, h, rfl⟩
      split at h
      · simp at h
      · next b us hus hb =>
        obtain ⟨rfl, rfl⟩ := by simpa using h
        exact ⟨_, hb, rfl⟩
    · rintro ⟨r, hb, rfl⟩
      simp [Reads, hb]
  · constructor
    · rintro ⟨r, h, rfl⟩
      split at h
      · simp at h
      · next name us hus hn =>
        split at h
        · next hk =>
          obtain ⟨rfl, rfl⟩ := by simpa using h
          exact ⟨name, reads_next.mp ⟨_, hn, rfl⟩, hk, rfl⟩
        · simp at h
    · rintro ⟨name, rfl, hk, rfl⟩
      simp [Reads, next, hk]
  · simp [Reads, eq_comm, and_comm]
  · simp [Reads, eq_comm, and_comm]
  · exact Iff.rfl
  · simp [Reads]

section Dispatch

variable {t : Token}

/-- The word for functions in front of a parenthesis begins a function. -/
lemma reads_parsePrimary_fn (hkind : t.kind = .name) (ht : t.text = "fn")
    (hopen : startsWith "(" ts = true) :
    Reads (parsePrimary (t :: ts)) e rest ↔ Reads (parseFunction ts) e rest := by
  rw [reads_parsePrimary, if_pos ⟨hkind, ht, hopen⟩]

/-- A parenthesis begins an arrow function, or else encloses a type. -/
lemma reads_parsePrimary_parenthesis (ht : t.text = "(") :
    Reads (parsePrimary (t :: ts)) e rest ↔
      ReadsArrow ts e rest ∨ (parseArrow? ts = none ∧
        ∃ us, Reads (parseType ts) e us ∧ Reads (expect ")" us) () rest) := by
  have hfn : ¬ (t.kind = .name ∧ t.text = "fn" ∧ startsWith "(" ts = true) := by
    rw [ht]
    exact fun h => absurd h.2.1 (by decide)
  rw [reads_parsePrimary, if_neg hfn, if_pos ht]

/-- Brackets around a type make an array of it. -/
lemma reads_parsePrimary_bracket (ht : t.text = "[") :
    Reads (parsePrimary (t :: ts)) e rest ↔
      ∃ element us, Reads (parseType ts) element us ∧ Reads (expect "]" us) () rest ∧
        e = .array element := by
  rw [reads_parsePrimary]
  simp [ht]

lemma reads_parsePrimary_brace (ht : t.text = ['{']) :
    Reads (parsePrimary (t :: ts)) e rest ↔ Reads (parseBraces ts) e rest := by
  rw [reads_parsePrimary]
  simp [ht]

/-- A plus sign marks the name behind it as a reference. -/
lemma reads_parsePrimary_plus (ht : t.text = "+") :
    Reads (parsePrimary (t :: ts)) e rest ↔
      ∃ name : Token, ts = name :: rest ∧ name.kind = .name ∧ e = .reference name.text := by
  rw [reads_parsePrimary]
  simp [ht]

/-- A question mark is a type of its own. -/
lemma reads_parsePrimary_question (ht : t.text = "?") :
    Reads (parsePrimary (t :: ts)) e rest ↔ ts = rest ∧ e = .atom "?" := by
  rw [reads_parsePrimary]
  simp [ht]

/-- The texts of the marks that a type may start with. -/
def openers : List Text :=
  ["(", "[", ['{'], "+", "?"]

/-- Quoted text is a literal, with quotation marks in the place of its own marks. -/
lemma reads_parsePrimary_text (hkind : t.kind = .text) (ht : t.text ∉ openers) :
    Reads (parsePrimary (t :: ts)) e rest ↔
      ts = rest ∧ e = .literal ('"' :: (t.text.drop 1).dropLast ++ ['"']) := by
  simp only [openers, List.mem_cons, List.not_mem_nil, or_false, not_or] at ht
  rw [reads_parsePrimary, if_neg (by simp [hkind]), if_neg ht.1, if_neg ht.2.1, if_neg ht.2.2.1,
    if_neg ht.2.2.2.1, if_neg ht.2.2.2.2, if_pos hkind]

/-- Any other name begins a named type. -/
lemma reads_parsePrimary_name (hkind : t.kind = .name) (ht : t.text ∉ openers)
    (hfn : t.text ≠ "fn" ∨ startsWith "(" ts = false) :
    Reads (parsePrimary (t :: ts)) e rest ↔ Reads (parseNamed t ts) e rest := by
  have hfn' : ¬ (t.kind = .name ∧ t.text = "fn" ∧ startsWith "(" ts = true) := by
    rintro ⟨-, htext, hopen⟩
    rcases hfn with hne | hno
    · exact hne htext
    · rw [hopen] at hno
      exact absurd hno (by decide)
  simp only [openers, List.mem_cons, List.not_mem_nil, or_false, not_or] at ht
  rw [reads_parsePrimary, if_neg hfn', if_neg ht.1, if_neg ht.2.1, if_neg ht.2.2.1,
    if_neg ht.2.2.2.1, if_neg ht.2.2.2.2, if_neg (by simp [hkind]), if_pos hkind]

end Dispatch

/-- No type is read of nothing. -/
lemma not_reads_parsePrimary_nil : ¬ Reads (parsePrimary []) e rest := by
  rw [parsePrimary]
  rintro ⟨r, h, -⟩
  simp at h

/-! ### Whole lists of tokens -/

/-- A list of tokens is a type if reading one takes all of it. -/
lemma ofTokens_eq_ok (hts : ts ≠ []) : ofTokens ts = .ok e ↔ Reads (parseType ts) e [] := by
  have hne : ts.isEmpty = false := by simpa using hts
  rw [ofTokens, hne]
  constructor
  · intro h
    simp only [Bool.false_eq_true, if_false] at h
    split at h
    · simp at h
    · next t _ ht =>
      obtain rfl : t = e := by simpa using h
      exact ⟨_, ht, rfl⟩
    · simp at h
  · rintro ⟨⟨_, _⟩, h, rfl⟩
    simp [h]

end TypeExpr

end Ambient

import Mathlib
import Ambient.Proofs.TypeExpr.Lexical
import Ambient.Proofs.TypeExpr.Soundness

/-!
# The grammar is what the reader accepts

The reader never looks back: it takes the longest return type that it finds, decides between the
kinds of parameter by the next two or three tokens, and tries an arrow function before a type in
parentheses.  None of these choices loses a derivable list of tokens, because a type is only ever
followed by the end or by one of the `closers`, and because what a function takes too much of may be
derived as a part of its return type just as well.

`TypesAccepted n` says that the types with fewer than `n` tokens are accepted in front of anything
that `Stops` them; the induction is on that length.
-/

namespace Ambient

namespace TypeExpr

/-! ### What stands behind a type -/

/-- The texts of the tokens that may stand behind a type inside another one. -/
def closers : List Text :=
  [")", "]", ['}'], ">", ","]

/-- There are no tokens left, or the first of them closes what a type stands in. -/
def Stops (rest : List Token) : Prop :=
  ∀ t ∈ rest.head?, t.text ∈ closers

lemma stops_nil : Stops [] := by
  simp [Stops]

lemma stops_cons {t : Token} {ts : List Token} (h : t.text ∈ closers) : Stops (t :: ts) := by
  simpa [Stops] using h

section

variable {n : ℕ} {u v s ts rest : List Token} {e : TypeExpr} {close text : Text}

/-- What stops a type starts with no other text. -/
lemma Stops.startsWith_eq_false (h : Stops rest) (htext : text ∉ closers) :
    startsWith text rest = false := by
  cases rest with
  | nil => rfl
  | cons t ts =>
    have ht : t.text ∈ closers := h t rfl
    have hne : t.text ≠ text := fun heq => htext (heq ▸ ht)
    simp [startsWith, hne]

/-- Tokens that do not start with the first of two texts do not start with both. -/
lemma not_startsWithBoth {first second : Text} (h : startsWith first ts = false) :
    ¬ StartsWithBoth first second ts := by
  rintro ⟨a, b, us, ha, -, rfl⟩
  rw [(startsWith_cons a).mpr ha] at h
  exact absurd h (by decide)

lemma startsWith_append_of_ne_nil (hu : u ≠ []) :
    startsWith text (u ++ v) = startsWith text u := by
  cases u with
  | nil => exact absurd rfl hu
  | cons t u => rfl

/-! ### How a type starts -/

/-- The first token closes nothing, and where it may be the name of a parameter no colon and no
question mark stands behind it. -/
def Opens (u : List Token) : Prop :=
  ∃ t w, u = t :: w ∧ t.text ∉ closers ∧
    (MayName t → startsWith ":" w = false ∧ startsWith "?" w = false)

lemma Opens.ne_nil (h : Opens u) : u ≠ [] := by
  obtain ⟨t, w, rfl, -, -⟩ := h
  exact List.cons_ne_nil t w

/-- A list that opens still does so in front of tokens that start with neither of the two marks. -/
lemma Opens.append (h : Opens u) (hcolon : startsWith ":" v = false)
    (hquestion : startsWith "?" v = false) : Opens (u ++ v) := by
  obtain ⟨t, w, rfl, ht, hw⟩ := h
  refine ⟨t, w ++ v, rfl, ht, fun hname => ?_⟩
  cases w with
  | nil => exact ⟨hcolon, hquestion⟩
  | cons a w => exact hw hname

/-- A list whose first token is a mark opens. -/
lemma opens_of_sign {o : Token} (ho : o.Proper) (hsign : o.text ∈ Token.signs)
    (hclose : o.text ∉ closers) : Opens (o :: u) :=
  ⟨o, u, rfl, hclose, fun hname => absurd hsign (ho hname)⟩

/-- A list whose first token is a name or a text opens if what follows does not look like a
parameter. -/
lemma opens_of_mayName {t : Token} (ht : t.Proper) (hname : MayName t)
    (hcolon : startsWith ":" u = false) (hquestion : startsWith "?" u = false) :
    Opens (t :: u) := by
  refine ⟨t, u, rfl, fun hclose => ?_, fun _ => ⟨hcolon, hquestion⟩⟩
  have hsub : ∀ s ∈ closers, s ∈ Token.signs := by decide
  exact ht hname (hsub _ hclose)

/-- Tokens do not start with a text that the first of them does not have. -/
lemma startsWith_of_text {t : Token} (h : t.text ≠ text) : startsWith text (t :: ts) = false := by
  simp [startsWith, h]

/-- A primary type opens with a token that closes nothing and names no parameter. -/
lemma Derives.opens_of_primary (h : Derives .primary u) (hu : ∀ t ∈ u, t.Proper) : Opens u := by
  have hfirst : ∀ t w, u = t :: w → t.Proper := by
    rintro t w rfl
    exact hu t (List.mem_cons_self ..)
  cases h with
  | function hkind _ ho =>
    refine opens_of_mayName (hfirst _ _ rfl) (Or.inl hkind) ?_ ?_ <;>
      exact startsWith_of_text (by rw [ho]; decide)
  | functionTo hkind _ ho =>
    refine opens_of_mayName (hfirst _ _ rfl) (Or.inl hkind) ?_ ?_ <;>
      exact startsWith_of_text (by rw [ho]; decide)
  | arrow ho => exact opens_of_sign (hfirst _ _ rfl) (by rw [ho]; decide) (by rw [ho]; decide)
  | group ho => exact opens_of_sign (hfirst _ _ rfl) (by rw [ho]; decide) (by rw [ho]; decide)
  | bracketed ho => exact opens_of_sign (hfirst _ _ rfl) (by rw [ho]; decide) (by rw [ho]; decide)
  | indexed ho => exact opens_of_sign (hfirst _ _ rfl) (by rw [ho]; decide) (by rw [ho]; decide)
  | fields ho => exact opens_of_sign (hfirst _ _ rfl) (by rw [ho]; decide) (by rw [ho]; decide)
  | reference ho => exact opens_of_sign (hfirst _ _ rfl) (by rw [ho]; decide) (by rw [ho]; decide)
  | unknown ho => exact opens_of_sign (hfirst _ _ rfl) (by rw [ho]; decide) (by rw [ho]; decide)
  | literal hkind => exact opens_of_mayName (hfirst _ _ rfl) (Or.inr hkind) rfl rfl
  | name hkind => exact opens_of_mayName (hfirst _ _ rfl) (Or.inl hkind) rfl rfl
  | assigned hkind ha =>
    refine opens_of_mayName (hfirst _ _ rfl) (Or.inl hkind) ?_ ?_ <;>
      exact startsWith_of_text (by rw [ha]; decide)
  | applied hkind ha =>
    refine opens_of_mayName (hfirst _ _ rfl) (Or.inl hkind) ?_ ?_ <;>
      exact startsWith_of_text (by rw [ha]; decide)

/-- A type opens like its first member. -/
lemma Derives.opens (h : Derives .type u) (hu : ∀ t ∈ u, t.Proper) : Opens u := by
  obtain ⟨p, s, hp, hs, rfl⟩ := h.exists_primary
  have hopens := hp.opens_of_primary fun t ht => hu t (List.mem_append_left s ht)
  have hfirst : startsWith ":" s = false ∧ startsWith "?" s = false := by
    cases hs with
    | nothing => exact ⟨rfl, rfl⟩
    | choice hbar =>
      constructor <;> exact startsWith_of_text (by rw [hbar]; decide)
    | suffix ha =>
      constructor <;> exact startsWith_of_text (by rw [ha]; decide)
  exact hopens.append hfirst.1 hfirst.2

/-- A type in front of tokens that stop it is not read as a named parameter. -/
lemma Opens.paramHead?_append (h : Opens u) (hrest : Stops rest) :
    paramHead? (u ++ rest) = none := by
  obtain ⟨t, w, hw, -, hnext⟩ := h.append (hrest.startsWith_eq_false (by decide))
    (hrest.startsWith_eq_false (by decide))
  rw [hw, paramHead?_eq_none]
  intro t' us heq hname
  obtain ⟨rfl, rfl⟩ := List.cons.inj heq
  obtain ⟨hcolon, hquestion⟩ := hnext hname
  exact ⟨hcolon, not_startsWithBoth hquestion⟩

/-- The first token of a parameter closes nothing. -/
lemma Derives.exists_cons_of_param (h : Derives .param u) (hu : ∀ t ∈ u, t.Proper) :
    ∃ t w, u = t :: w ∧ t.text ∉ closers := by
  have hsub : ∀ s ∈ closers, s ∈ Token.signs := by decide
  cases h with
  | unnamed hd =>
    obtain ⟨t, w, rfl, ht, -⟩ := hd.opens hu
    exact ⟨t, w, rfl, ht⟩
  | named hname =>
    exact ⟨_, _, rfl, fun hclose => hu _ (List.mem_cons_self ..) hname (hsub _ hclose)⟩
  | optional hname =>
    exact ⟨_, _, rfl, fun hclose => hu _ (List.mem_cons_self ..) hname (hsub _ hclose)⟩

/-- Parameters do not start with the mark that closes them. -/
lemma Derives.startsWith_append_of_someParams (h : Derives .someParams u)
    (hu : ∀ t ∈ u, t.Proper) (hclose : close ∈ closers) : startsWith close (u ++ v) = false := by
  have hparam : ∀ w, Derives .param w → (∀ t ∈ w, t.Proper) →
      ∀ x, startsWith close (w ++ x) = false := by
    intro w hw hproper x
    obtain ⟨t, y, rfl, ht⟩ := hw.exists_cons_of_param hproper
    exact startsWith_of_text fun heq => ht (heq ▸ hclose)
  cases h with
  | oneParam hp => exact hparam u hp hu v
  | @moreParams w x comma hp =>
    rw [List.append_assoc]
    exact hparam w hp (fun t ht => hu t (List.mem_append_left _ ht)) _

/-! ### Parameters and arguments -/

/-- In front of tokens that stop it, a type with fewer than `n` tokens is read. -/
def TypesAccepted (n : ℕ) : Prop :=
  ∀ u : List Token, u.length < n → Derives .type u → (∀ t ∈ u, t.Proper) →
    ∀ rest, Stops rest → ∃ e, Reads (parseType (u ++ rest)) e rest

/-- A parameter is read where types with fewer tokens are. -/
lemma accepts_param (H : TypesAccepted n) (hlen : u.length < n) (hu : ∀ t ∈ u, t.Proper)
    (h : Derives .param u) (hrest : Stops rest) :
    ∃ p, Reads (parseParam (u ++ rest)) p rest := by
  cases h with
  | unnamed hd =>
    obtain ⟨e, he⟩ := H u hlen hd hu rest hrest
    exact ⟨_, (reads_parseParam_plain ((hd.opens hu).paramHead?_append hrest)).mpr ⟨e, he, rfl⟩⟩
  | @named v t c ht hc hd =>
    obtain ⟨e, he⟩ := H v (by simp only [List.length_cons] at hlen; omega) hd
      (fun x hx => hu x (by simp [hx])) rest hrest
    exact ⟨_, (reads_parseParam_named (paramHead?_colon ht hc)).mpr ⟨e, he, rfl⟩⟩
  | @optional v t q c ht hq hc hd =>
    obtain ⟨e, he⟩ := H v (by simp only [List.length_cons] at hlen; omega) hd
      (fun x hx => hu x (by simp [hx])) rest hrest
    exact ⟨_, (reads_parseParam_named (paramHead?_question ht hq hc)).mpr ⟨e, he, rfl⟩⟩

/-- Parameters with commas between them are read one by one, up to the closing mark. -/
lemma accepts_someParams (H : TypesAccepted n) (hlen : u.length < n) (hu : ∀ t ∈ u, t.Proper)
    (h : Derives .someParams u) {c : Token} (hc : c.text = close) (hclose : close ∈ closers)
    (hcomma : close ≠ ",") (rest : List Token) :
    ∃ ps, Reads (parseSomeParams close (u ++ c :: rest)) ps rest := by
  generalize hph : Phrase.someParams = ph at h
  induction h with
  | oneParam hp =>
    have hstop : Stops (c :: rest) := stops_cons (hc ▸ hclose)
    obtain ⟨p, hp⟩ := accepts_param H hlen hu hp hstop
    exact ⟨[p], reads_parseSomeParams.mpr ⟨p, _, hp, Or.inl ⟨rfl, reads_expect.mpr ⟨c, hc, rfl⟩⟩⟩⟩
  | @moreParams w v comma hp htext _ _ ih =>
    have hw : ∀ t ∈ w, t.Proper := fun t ht => hu t (by simp [ht])
    have hv : ∀ t ∈ v, t.Proper := fun t ht => hu t (by simp [ht])
    simp only [List.length_append, List.length_cons] at hlen
    have hstop : Stops (comma :: (v ++ c :: rest)) := stops_cons (by rw [htext]; decide)
    obtain ⟨p, hp⟩ := accepts_param H (by omega) hw hp hstop
    obtain ⟨ps, hps⟩ := ih (by omega) hv hph
    have hno : startsWith close (comma :: (v ++ c :: rest)) = false :=
      startsWith_of_text fun heq => hcomma (by rw [← heq, htext])
    refine ⟨p :: ps, reads_parseSomeParams.mpr ⟨p, comma :: (v ++ c :: rest), ?_, ?_⟩⟩
    · rw [List.append_assoc, List.cons_append]
      exact hp
    · exact Or.inr ⟨hno, _, ps, reads_expect.mpr ⟨comma, htext, rfl⟩, hps, rfl⟩
  | _ => cases hph

/-- A list of parameters is read, the empty one included. -/
lemma accepts_params (H : TypesAccepted n) (hlen : u.length < n) (hu : ∀ t ∈ u, t.Proper)
    (h : Derives .params u) {c : Token} (hc : c.text = close) (hclose : close ∈ closers)
    (hcomma : close ≠ ",") (rest : List Token) :
    ∃ ps, Reads (parseParams close (u ++ c :: rest)) ps rest := by
  cases h with
  | noParams => exact ⟨[], reads_parseParams.mpr (Or.inl ⟨rfl, reads_expect.mpr ⟨c, hc, rfl⟩⟩)⟩
  | ofSome hsome =>
    obtain ⟨ps, hps⟩ := accepts_someParams H hlen hu hsome hc hclose hcomma rest
    exact ⟨ps, reads_parseParams.mpr
      (Or.inr ⟨hsome.startsWith_append_of_someParams hu hclose, hps⟩)⟩

/-- Arguments are read one by one, up to the closing bracket. -/
lemma accepts_arguments (H : TypesAccepted n) (hlen : u.length < n) (hu : ∀ t ∈ u, t.Proper)
    (h : Derives .arguments u) {c : Token} (hc : c.text = ">") (rest : List Token) :
    ∃ args, Reads (parseArguments (u ++ c :: rest)) args (c :: rest) := by
  generalize hph : Phrase.arguments = ph at h
  induction h with
  | oneArgument ht =>
    obtain ⟨t, ht⟩ := H _ hlen ht hu (c :: rest) (stops_cons (by rw [hc]; decide))
    exact ⟨[t], reads_parseArguments.mpr
      ⟨t, _, ht, Or.inl ⟨startsWith_of_text (by rw [hc]; decide), rfl, rfl⟩⟩⟩
  | @moreArguments w v comma ht htext _ _ ih =>
    have hw : ∀ t ∈ w, t.Proper := fun t ht => hu t (by simp [ht])
    have hv : ∀ t ∈ v, t.Proper := fun t ht => hu t (by simp [ht])
    simp only [List.length_append, List.length_cons] at hlen
    have hstop : Stops (comma :: (v ++ c :: rest)) := stops_cons (by rw [htext]; decide)
    obtain ⟨t, ht⟩ := H w (by omega) ht hw _ hstop
    obtain ⟨args, hargs⟩ := ih (by omega) hv hph
    refine ⟨t :: args, reads_parseArguments.mpr ⟨t, comma :: (v ++ c :: rest), ?_, ?_⟩⟩
    · rw [List.append_assoc, List.cons_append]
      exact ht
    · exact Or.inr ⟨_, args, reads_expect.mpr ⟨comma, htext, rfl⟩, hargs, rfl⟩
  | _ => cases hph

/-! ### Primary types -/

/-- What continues a type starts with a bracket or a bar only. -/
lemma Continuation.startsWith_append (hs : Continuation s) (hrest : Stops rest)
    (hclose : text ∉ closers) (hbracket : text ≠ "[") (hbar : text ≠ "|") :
    startsWith text (s ++ rest) = false := by
  cases hs with
  | nothing => exact hrest.startsWith_eq_false hclose
  | choice h => exact startsWith_of_text (by rw [h]; exact hbar.symm)
  | suffix h => exact startsWith_of_text (by rw [h]; exact hbracket.symm)

/-- What continues a type begins no type variable. -/
lemma Continuation.not_startsWithBoth (hs : Continuation s) (hrest : Stops rest) :
    ¬ StartsWithBoth "[" ":" (s ++ rest) := by
  cases hs with
  | nothing => exact TypeExpr.not_startsWithBoth (hrest.startsWith_eq_false (by decide))
  | choice h => exact TypeExpr.not_startsWithBoth (startsWith_of_text (by rw [h]; decide))
  | suffix _ hb =>
    rintro ⟨a', b', us, -, hb', heq⟩
    obtain ⟨-, htail⟩ := List.cons.inj heq
    obtain ⟨rfl, -⟩ := List.cons.inj htail
    rw [hb] at hb'
    exact absurd hb' (by decide)

/-- A type in parentheses without an arrow behind it is not read as an arrow function. -/
lemma parseArrow?_eq_none_of_closed (H : TypesAccepted n) (hlen : u.length < n)
    (hu : ∀ t ∈ u, t.Proper) (h : Derives .type u) {c : Token} (hc : c.text = ")")
    (hno : startsWith "=>" ts = false) : parseArrow? (u ++ c :: ts) = none := by
  rw [parseArrow?_eq_none]
  intro e rest harrow
  obtain ⟨ps, us, ws, r, hps, hexpect, -, -⟩ := readsArrow.mp harrow
  obtain ⟨ps', hps'⟩ := accepts_params H hlen hu (.ofSome (.oneParam (.unnamed h))) hc (by decide)
    (by decide) ts
  obtain ⟨-, rfl⟩ := hps.unique hps'
  rw [startsWith_of_reads_expect hexpect] at hno
  exact absurd hno (by decide)

section

variable {f o c a t : Token}

/-- A type in front of a token that closes it is read. -/
lemma accepts_closed (H : TypesAccepted n) (hlen : u.length < n) (hu : ∀ t ∈ u, t.Proper)
    (h : Derives .type u) (hc : c.text ∈ closers) (ts : List Token) :
    ∃ e, Reads (parseType (u ++ c :: ts)) e (c :: ts) :=
  H u hlen h hu (c :: ts) (stops_cons hc)

lemma accepts_function (H : TypesAccepted n) (hlen : u.length < n) (hu : ∀ t ∈ u, t.Proper)
    (hkind : f.kind = .name) (hf : f.text = "fn") (ho : o.text = "(") (h : Derives .params u)
    (hc : c.text = ")") (hno : startsWith "->" ts = false) :
    ∃ e, Reads (parsePrimary (f :: o :: (u ++ c :: ts))) e ts ∧ e.isFunction = true := by
  obtain ⟨ps, hps⟩ := accepts_params H hlen hu h hc (by decide) (by decide) ts
  refine ⟨.function ps none false,
    (reads_parsePrimary_fn hkind hf ((startsWith_cons o).mpr ho)).mpr ?_, rfl⟩
  exact reads_parseFunction.mpr ⟨ps, ts, hps, Or.inl ⟨hno, rfl, rfl⟩⟩

lemma accepts_functionTo (H : TypesAccepted n) (hlen : u.length < n) (hu : ∀ t ∈ u, t.Proper)
    (hkind : f.kind = .name) (hf : f.text = "fn") (ho : o.text = "(") (h : Derives .params u)
    (hc : c.text = ")") (ha : a.text = "->") (hr : Reads (parseType ts) e rest) :
    ∃ e', Reads (parsePrimary (f :: o :: (u ++ c :: a :: ts))) e' rest ∧ e'.isFunction = true := by
  obtain ⟨ps, hps⟩ := accepts_params H hlen hu h hc (by decide) (by decide) (a :: ts)
  refine ⟨.function ps (some e) false,
    (reads_parsePrimary_fn hkind hf ((startsWith_cons o).mpr ho)).mpr ?_, rfl⟩
  exact reads_parseFunction.mpr
    ⟨ps, a :: ts, hps, Or.inr ⟨ts, e, reads_expect.mpr ⟨a, ha, rfl⟩, hr, rfl⟩⟩

/-- An arrow function is read in front of a type in parentheses. -/
lemma accepts_arrow (H : TypesAccepted n) (hlen : u.length < n) (hu : ∀ t ∈ u, t.Proper)
    (ho : o.text = "(") (h : Derives .params u) (hc : c.text = ")") (ha : a.text = "=>")
    (hr : Reads (parseType ts) e rest) :
    ∃ e', Reads (parsePrimary (o :: (u ++ c :: a :: ts))) e' rest ∧ e'.isFunction = true := by
  obtain ⟨ps, hps⟩ := accepts_params H hlen hu h hc (by decide) (by decide) (a :: ts)
  refine ⟨.function ps (some e) true, (reads_parsePrimary_parenthesis ho).mpr (Or.inl ?_), rfl⟩
  exact readsArrow.mpr ⟨ps, a :: ts, ts, e, hps, reads_expect.mpr ⟨a, ha, rfl⟩, hr, rfl⟩

/-- A type in parentheses is read where no arrow function stands. -/
lemma accepts_group (H : TypesAccepted n) (hlen : u.length < n) (hu : ∀ t ∈ u, t.Proper)
    (ho : o.text = "(") (h : Derives .type u) (hc : c.text = ")")
    (hnone : parseArrow? (u ++ c :: ts) = none) :
    ∃ e, Reads (parsePrimary (o :: (u ++ c :: ts))) e ts := by
  obtain ⟨e, he⟩ := accepts_closed H hlen hu h (by rw [hc]; decide) ts
  refine ⟨e, (reads_parsePrimary_parenthesis ho).mpr (Or.inr ⟨hnone, c :: ts, he, ?_⟩)⟩
  exact reads_expect.mpr ⟨c, hc, rfl⟩

lemma accepts_bracketed (H : TypesAccepted n) (hlen : u.length < n) (hu : ∀ t ∈ u, t.Proper)
    (ho : o.text = "[") (h : Derives .type u) (hc : c.text = "]") :
    ∃ e, Reads (parsePrimary (o :: (u ++ c :: ts))) e ts := by
  obtain ⟨e, he⟩ := accepts_closed H hlen hu h (by rw [hc]; decide) ts
  refine ⟨.array e, (reads_parsePrimary_bracket ho).mpr ⟨e, c :: ts, he, ?_, rfl⟩⟩
  exact reads_expect.mpr ⟨c, hc, rfl⟩

/-- A map with an index signature is read, whatever names the signature gives. -/
lemma accepts_indexed (H : TypesAccepted n) (hlen : u.length < n) (hu : ∀ t ∈ u, t.Proper)
    {b x d y q g : Token} (ho : o.text = ['{']) (hb : b.text = "[") (hd : d.text = ":")
    (hq : q.text = "]") (hg : g.text = ":") (h : Derives .type u) (hc : c.text = ['}']) :
    ∃ e, Reads (parsePrimary (o :: b :: x :: d :: y :: q :: g :: (u ++ c :: ts))) e ts := by
  obtain ⟨e, he⟩ := accepts_closed H hlen hu h (by rw [hc]; decide) ts
  refine ⟨.map e true, (reads_parsePrimary_brace ho).mpr ((reads_parseBraces_indexed hb).mpr ?_)⟩
  exact ⟨u ++ c :: ts, e, c :: ts, reads_indexHead.mpr ⟨x, d, y, q, g, hd, hq, hg, rfl⟩, he,
    reads_expect.mpr ⟨c, hc, rfl⟩, rfl⟩

/-- An object is read if no index signature begins it. -/
lemma accepts_fields (H : TypesAccepted n) (hlen : u.length < n) (hu : ∀ t ∈ u, t.Proper)
    (ho : o.text = ['{']) (h : Derives .params u) (hc : c.text = ['}'])
    (hfirst : startsWith "[" (u ++ [c]) = false) :
    ∃ e, Reads (parsePrimary (o :: (u ++ c :: ts))) e ts := by
  obtain ⟨ps, hps⟩ := accepts_params H hlen hu h hc (by decide) (by decide) ts
  have hopen : startsWith "[" (u ++ c :: ts) = false := by
    have heq : u ++ c :: ts = (u ++ [c]) ++ ts := by simp
    rw [heq, startsWith_append_of_ne_nil (by simp)]
    exact hfirst
  exact ⟨_, (reads_parsePrimary_brace ho).mpr
    ((reads_parseBraces_fields hopen).mpr ⟨ps, hps, rfl⟩)⟩

/-- A name is read alone in front of what continues or stops a type. -/
lemma accepts_name (hkind : t.kind = .name) (ht : t.text ∉ openers) (hs : Continuation s)
    (hrest : Stops rest) : ∃ e, Reads (parsePrimary (t :: (s ++ rest))) e (s ++ rest) := by
  have hopen : startsWith "(" (s ++ rest) = false :=
    hs.startsWith_append hrest (by decide) (by decide) (by decide)
  have hless : startsWith "<" (s ++ rest) = false :=
    hs.startsWith_append hrest (by decide) (by decide) (by decide)
  refine ⟨ofName t.text, (reads_parsePrimary_name hkind ht (Or.inr hopen)).mpr ?_⟩
  exact (reads_parseNamed_alone (hs.not_startsWithBoth hrest) hless).mpr ⟨rfl, rfl⟩

/-- A name is read with the type of its type variable. -/
lemma accepts_assigned (H : TypesAccepted n) (hlen : u.length < n) (hu : ∀ t ∈ u, t.Proper)
    {b x q : Token} (hkind : t.kind = .name) (ht : t.text ∉ openers) (ha : a.text = "[")
    (hb : b.text = ":") (hq : q.text = "=") (h : Derives .type u) (hc : c.text = "]") :
    ∃ e, Reads (parsePrimary (t :: a :: b :: x :: q :: (u ++ c :: ts))) e ts := by
  obtain ⟨e, he⟩ := accepts_closed H hlen hu h (by rw [hc]; decide) ts
  have hopen : startsWith "(" (a :: b :: x :: q :: (u ++ c :: ts)) = false :=
    startsWith_of_text (by rw [ha]; decide)
  refine ⟨ofArguments t.text [e], (reads_parsePrimary_name hkind ht (Or.inr hopen)).mpr
    ((reads_parseNamed_variable ha hb).mpr ?_)⟩
  exact ⟨u ++ c :: ts, e, c :: ts, reads_variableHead.mpr ⟨x, q, hq, rfl⟩, he,
    reads_expect.mpr ⟨c, hc, rfl⟩, rfl⟩

/-- A name is read with its arguments. -/
lemma accepts_applied (H : TypesAccepted n) (hlen : u.length < n) (hu : ∀ t ∈ u, t.Proper)
    (hkind : t.kind = .name) (ht : t.text ∉ openers) (ha : a.text = "<")
    (h : Derives .arguments u) (hc : c.text = ">") :
    ∃ e, Reads (parsePrimary (t :: a :: (u ++ c :: ts))) e ts := by
  obtain ⟨args, hargs⟩ := accepts_arguments H hlen hu h hc ts
  have hopen : startsWith "(" (a :: (u ++ c :: ts)) = false :=
    startsWith_of_text (by rw [ha]; decide)
  refine ⟨ofArguments t.text args, (reads_parsePrimary_name hkind ht (Or.inr hopen)).mpr
    ((reads_parseNamed_applied ha).mpr ⟨args, c :: ts, hargs, ?_, rfl⟩)⟩
  exact reads_expect.mpr ⟨c, hc, rfl⟩

end

/-- A primary type with a continuation is read to the end of the primary type, or to the end of the
continuation if the primary type ends with a return type, which takes the continuation in. -/
lemma accepts_primary (H : TypesAccepted n) (hlen : (u ++ s).length ≤ n)
    (hproper : ∀ t ∈ u ++ s, t.Proper) (h : Derives .primary u) (hs : Continuation s)
    (hrest : Stops rest) :
    (∃ e, Reads (parsePrimary (u ++ (s ++ rest))) e (s ++ rest)) ∨
      ∃ e, Reads (parsePrimary (u ++ (s ++ rest))) e rest := by
  have hsigns : ∀ t ∈ u, MayName t → t.text ∉ openers := by
    have hsub : ∀ x ∈ openers, x ∈ Token.signs := by decide
    exact fun t ht hname hopen => hproper t (List.mem_append_left s ht) hname (hsub _ hopen)
  -- A return type takes the continuation in.
  have hreturn : ∀ v, (v ++ s).length < n → Derives .type v → (∀ t ∈ v, t ∈ u) →
      ∃ r, Reads (parseType (v ++ (s ++ rest))) r rest := by
    intro v hv hd hsub
    have hvproper : ∀ t ∈ v ++ s, t.Proper := by
      intro t ht
      rcases List.mem_append.mp ht with ht | ht
      · exact hproper t (List.mem_append_left s (hsub t ht))
      · exact hproper t (List.mem_append_right u ht)
    obtain ⟨r, hr⟩ := H (v ++ s) hv (hd.append_continuation hs) hvproper rest hrest
    rw [List.append_assoc] at hr
    exact ⟨r, hr⟩
  have hinner : ∀ w : List Token, (∀ t ∈ w, t ∈ u) → ∀ t ∈ w, t.Proper :=
    fun w hsub t ht => hproper t (List.mem_append_left s (hsub t ht))
  simp only [List.length_append] at hlen hreturn
  cases h with
  | @function w f o c hkind hf ho hw hc =>
    simp only [List.length_append, List.length_cons] at hlen
    have hno : startsWith "->" (s ++ rest) = false :=
      hs.startsWith_append hrest (by decide) (by decide) (by decide)
    have heq : f :: o :: w ++ [c] ++ (s ++ rest) = f :: o :: (w ++ c :: (s ++ rest)) := by simp
    rw [heq]
    obtain ⟨e, he, -⟩ := accepts_function H (by omega) (hinner w (fun x hx => by simp [hx]))
      hkind hf ho hw hc hno
    exact Or.inl ⟨e, he⟩
  | @functionTo w v f o c a hkind hf ho hw hc ha hv =>
    simp only [List.length_append, List.length_cons] at hlen
    obtain ⟨r, hr⟩ := hreturn v (by omega) hv (fun x hx => by simp [hx])
    have heq : f :: o :: w ++ c :: a :: v ++ (s ++ rest) =
        f :: o :: (w ++ c :: a :: (v ++ (s ++ rest))) := by simp
    rw [heq]
    obtain ⟨e, he, -⟩ := accepts_functionTo H (by omega) (hinner w (fun x hx => by simp [hx]))
      hkind hf ho hw hc ha hr
    exact Or.inr ⟨e, he⟩
  | @arrow w v o c a ho hw hc ha hv =>
    simp only [List.length_append, List.length_cons] at hlen
    obtain ⟨r, hr⟩ := hreturn v (by omega) hv (fun x hx => by simp [hx])
    have heq : o :: w ++ c :: a :: v ++ (s ++ rest) =
        o :: (w ++ c :: a :: (v ++ (s ++ rest))) := by simp
    rw [heq]
    obtain ⟨e, he, -⟩ := accepts_arrow H (by omega) (hinner w (fun x hx => by simp [hx]))
      ho hw hc ha hr
    exact Or.inr ⟨e, he⟩
  | @group w o c ho hw hc =>
    simp only [List.length_append, List.length_cons] at hlen
    have hw' := hinner w (fun x hx => by simp [hx])
    have hno : startsWith "=>" (s ++ rest) = false :=
      hs.startsWith_append hrest (by decide) (by decide) (by decide)
    have hnone := parseArrow?_eq_none_of_closed H (by omega) hw' hw hc hno
    have heq : o :: w ++ [c] ++ (s ++ rest) = o :: (w ++ c :: (s ++ rest)) := by simp
    rw [heq]
    exact Or.inl (accepts_group H (by omega) hw' ho hw hc hnone)
  | @bracketed w o c ho hw hc =>
    simp only [List.length_append, List.length_cons] at hlen
    have heq : o :: w ++ [c] ++ (s ++ rest) = o :: (w ++ c :: (s ++ rest)) := by simp
    rw [heq]
    exact Or.inl (accepts_bracketed H (by omega) (hinner w (fun x hx => by simp [hx])) ho hw hc)
  | @indexed w o b x d y q g c ho hb hd hq hg hw hc =>
    simp only [List.length_append, List.length_cons] at hlen
    have heq : o :: b :: x :: d :: y :: q :: g :: w ++ [c] ++ (s ++ rest) =
        o :: b :: x :: d :: y :: q :: g :: (w ++ c :: (s ++ rest)) := by simp
    rw [heq]
    exact Or.inl (accepts_indexed H (by omega) (hinner w (fun x hx => by simp [hx])) ho hb hd hq hg hw hc)
  | @fields w o c ho hw hc hfirst =>
    simp only [List.length_append, List.length_cons] at hlen
    have heq : o :: w ++ [c] ++ (s ++ rest) = o :: (w ++ c :: (s ++ rest)) := by simp
    rw [heq]
    exact Or.inl (accepts_fields H (by omega) (hinner w (fun x hx => by simp [hx])) ho hw hc hfirst)
  | @reference o t ho hkind =>
    exact Or.inl ⟨_, (reads_parsePrimary_plus ho).mpr ⟨t, rfl, hkind, rfl⟩⟩
  | @unknown t ht => exact Or.inl ⟨_, (reads_parsePrimary_question ht).mpr ⟨rfl, rfl⟩⟩
  | @literal t hkind =>
    have ht := hsigns t (List.mem_singleton_self t) (Or.inr hkind)
    exact Or.inl ⟨_, (reads_parsePrimary_text hkind ht).mpr ⟨rfl, rfl⟩⟩
  | @name t hkind =>
    have ht := hsigns t (List.mem_singleton_self t) (Or.inl hkind)
    have haccepts := accepts_name hkind ht hs hrest
    exact Or.inl haccepts
  | @assigned w t a b x q c hkind ha hb hq hw hc =>
    simp only [List.length_append, List.length_cons] at hlen
    have ht := hsigns t (by simp) (Or.inl hkind)
    have heq : t :: a :: b :: x :: q :: w ++ [c] ++ (s ++ rest) =
        t :: a :: b :: x :: q :: (w ++ c :: (s ++ rest)) := by simp
    rw [heq]
    exact Or.inl (accepts_assigned H (by omega) (hinner w (fun x hx => by simp [hx])) hkind ht ha hb hq hw hc)
  | @applied w t a c hkind ha hw hc =>
    simp only [List.length_append, List.length_cons] at hlen
    have ht := hsigns t (by simp) (Or.inl hkind)
    have heq : t :: a :: w ++ [c] ++ (s ++ rest) = t :: a :: (w ++ c :: (s ++ rest)) := by simp
    rw [heq]
    exact Or.inl (accepts_applied H (by omega) (hinner w (fun x hx => by simp [hx])) hkind ht ha hw hc)

/-! ### Types -/

/-- The suffixes in a continuation are read, and what is left of it is nothing or a choice. -/
lemma Continuation.exists_arraySuffixes (hs : Continuation s) (hrest : Stops rest)
    (e : TypeExpr) : ∃ s', (arraySuffixes e (s ++ rest)).2.1 = s' ++ rest ∧ s' <:+ s ∧
      (s' = [] ∨ ∃ (bar : Token) (v : List Token), s' = bar :: v ∧ bar.text = "|" ∧
        Derives .type v) := by
  induction hs generalizing e with
  | nothing =>
    have hno : ¬ StartsWithBoth "[" "]" rest :=
      TypeExpr.not_startsWithBoth (hrest.startsWith_eq_false (by decide))
    exact ⟨[], (arraySuffixes_of_not_both hno).2, List.suffix_rfl, Or.inl rfl⟩
  | @choice v bar hbar hv =>
    have hno : ¬ StartsWithBoth "[" "]" (bar :: v ++ rest) :=
      TypeExpr.not_startsWithBoth (startsWith_of_text (by rw [hbar]; decide))
    exact ⟨bar :: v, (arraySuffixes_of_not_both hno).2, List.suffix_rfl,
      Or.inr ⟨bar, v, rfl, hbar, hv⟩⟩
  | @suffix s a b ha hb _ ih =>
    obtain ⟨s', hs', hsuffix, hshape⟩ := ih (.array e)
    refine ⟨s', ?_, hsuffix.trans ⟨[a, b], rfl⟩, hshape⟩
    rw [← hs']
    exact (arraySuffixes_of_both ha hb).2

/-- Behind a primary type the rest of a type is read to its end. -/
lemma accepts_of_primary (H : TypesAccepted n) (hlen : s.length ≤ n) (hproper : ∀ t ∈ s, t.Proper)
    (hs : Continuation s) (hrest : Stops rest) (h : Reads (parsePrimary ts) e (s ++ rest)) :
    ∃ e', Reads (parseType ts) e' rest := by
  obtain ⟨s', heq, hsuffix, hshape⟩ := hs.exists_arraySuffixes hrest e
  have hpostfix : Reads (parsePostfix ts) (arraySuffixes e (s ++ rest)).1 (s' ++ rest) :=
    reads_parsePostfix.mpr ⟨e, _, h, rfl, heq⟩
  rcases hshape with rfl | ⟨bar, v, rfl, hbar, hv⟩
  · have hno : startsWith "|" rest = false := hrest.startsWith_eq_false (by decide)
    exact ⟨_, reads_parseType.mpr
      ⟨_, reads_parseMembers.mpr ⟨_, _, hpostfix, Or.inl ⟨hno, rfl, rfl⟩⟩, rfl⟩⟩
  · have hshort := hsuffix.length_le
    rw [List.length_cons] at hshort
    have hvproper : ∀ t ∈ v, t.Proper :=
      fun t ht => hproper t (hsuffix.subset (List.mem_cons_of_mem bar ht))
    obtain ⟨e', he'⟩ := H v (by omega) hv hvproper rest hrest
    obtain ⟨ms, hms, -⟩ := reads_parseType.mp he'
    exact ⟨_, reads_parseType.mpr ⟨_, reads_parseMembers.mpr
      ⟨_, _, hpostfix, Or.inr ⟨bar, _, ms, hbar, rfl, hms, rfl⟩⟩, rfl⟩⟩

/-- Types of any number of tokens are read. -/
lemma typesAccepted (n : ℕ) : TypesAccepted n := by
  induction n with
  | zero => intro u hlen; simp at hlen
  | succ n ih =>
    intro u hlen h hu rest hrest
    obtain ⟨p, s, hp, hs, rfl⟩ := h.exists_primary
    have hle : (p ++ s).length ≤ n := Nat.lt_succ_iff.mp hlen
    have hsproper : ∀ t ∈ s, t.Proper := fun t ht => hu t (List.mem_append_right p ht)
    rw [List.append_assoc]
    obtain ⟨e, he⟩ | ⟨e, he⟩ := accepts_primary ih hle hu hp hs hrest
    · rw [List.length_append] at hle
      exact accepts_of_primary ih (by omega) hsproper hs hrest he
    · exact accepts_of_primary (s := []) ih (Nat.zero_le n) (by simp) .nothing hrest he

/-- A whole type in parentheses without an arrow behind it is not read as an arrow function. -/
lemma Derives.parseArrow?_eq_none (h : Derives .type u) (hu : ∀ t ∈ u, t.Proper) {c : Token}
    (hc : c.text = ")") (hno : startsWith "=>" ts = false) : parseArrow? (u ++ c :: ts) = none :=
  parseArrow?_eq_none_of_closed (typesAccepted (u.length + 1)) (Nat.lt_succ_self _) hu h hc hno

/-- In front of tokens that stop it, every type is read to its end. -/
theorem exists_reads_of_derives (h : Derives .type u) (hu : ∀ t ∈ u, t.Proper)
    (hrest : Stops rest) : ∃ e, Reads (parseType (u ++ rest)) e rest :=
  typesAccepted (u.length + 1) u (Nat.lt_succ_self _) h hu rest hrest

end

/-! ### Whole lists of tokens -/

/-- A list of tokens is a type expression exactly if it is empty or a type of the grammar, and every
other list has a fault.  This needs names and texts that are spelt like no mark, as those of the
scanner are. -/
theorem exists_ofTokens_iff_derives :
    (∀ text ts, Token.tokens text = .ok ts → ∀ t ∈ ts, t.Proper) ∧
      ∀ ts : List Token, (∀ t ∈ ts, t.Proper) →
        ((∃ e, ofTokens ts = .ok e) ↔ ts = [] ∨ Derives .type ts) ∧
          (¬ (ts = [] ∨ Derives .type ts) → ∃ fault, ofTokens ts = .error fault) := by
  refine ⟨fun text ts h t ht => ((Token.tokens_eq_ok_iff.mp h).lexical t ht).proper, ?_⟩
  intro ts hproper
  have hiff : (∃ e, ofTokens ts = .ok e) ↔ ts = [] ∨ Derives .type ts := by
    by_cases hts : ts = []
    · subst hts
      exact ⟨fun _ => Or.inl rfl, fun _ => ⟨.atom "?", rfl⟩⟩
    · constructor
      · rintro ⟨e, he⟩
        obtain ⟨u, heq, hu⟩ := spans_of_reads_parseType ((ofTokens_eq_ok hts).mp he)
        rw [List.append_nil] at heq
        exact Or.inr (heq ▸ hu)
      · rintro (h | h)
        · exact absurd h hts
        · obtain ⟨e, he⟩ := exists_reads_of_derives h hproper stops_nil
          rw [List.append_nil] at he
          exact ⟨e, (ofTokens_eq_ok hts).mpr he⟩
  refine ⟨hiff, fun hno => ?_⟩
  cases h : ofTokens ts with
  | ok e => exact absurd (hiff.mp ⟨e, h⟩) hno
  | error fault => exact ⟨fault, rfl⟩

/-- The tokens of `a[]` are a type, and a closing parenthesis is none. -/
theorem exists_ofTokens_array :
    (∃ e, ofTokens [⟨.name, "a"⟩, ⟨.mark, "["⟩, ⟨.mark, "]"⟩] = .ok e) ∧
      ∃ fault, ofTokens [⟨.mark, ")"⟩] = .error fault := by
  refine ⟨?_, ?_⟩
  · refine (exists_ofTokens_iff_derives.2 _ (by decide)).1.mpr (Or.inr (.single ?_))
    exact .suffix (u := [⟨.name, "a"⟩]) (.plain (.name rfl)) rfl rfl
  · refine (exists_ofTokens_iff_derives.2 _ (by decide)).2 ?_
    rintro (h | h)
    · exact absurd h (by decide)
    · obtain ⟨t, u, heq, ht, -⟩ := h.opens (by decide)
      obtain ⟨rfl, -⟩ := List.cons.inj heq
      exact absurd ht (by decide)

end TypeExpr

end Ambient

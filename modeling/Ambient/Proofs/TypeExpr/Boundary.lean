import Mathlib
import Ambient.Proofs.TypeExpr.Spelling

/-!
# Where tokens begin and end

Nothing of an accepted text is lost: it is its tokens in their order with white space around them,
each token is read from its own text, and the texts of the tokens with a blank between each two of
them are read as the same tokens again.

For a rejected text the relation `Reaches rest ts front` follows the scanner up to the character it
stops at: in front of `rest`, the text `front` is the tokens `ts`.  It is kept when `rest` is cut
anywhere, so a text that is accepted and goes beyond `front` would make the scanner stop at the same
character (`Reaches.isPrefix`).  Where the scanner stops, `front` is therefore the longest beginning
of the text that is accepted (`exists_longest_of_tokens_eq_error`).
-/

namespace Ambient.Token

/-! ### Accepted texts -/

section

variable {v w : Text} {t : Token} {ts : List Token}

/-- The texts of tokens, each with the piece of `gaps` in front of it. -/
def interleave (gaps : List Text) (ts : List Token) : Text :=
  (List.zipWith (fun gap t => gap ++ t.text) gaps ts).flatten

/-- White space. -/
def IsGap (gap : Text) : Prop :=
  ∀ c ∈ gap, isBlank c = true

/-- A text that spells tokens is their texts with white space between them and around them. -/
lemma Spells.exists_gaps (h : Spells ts w) :
    ∃ gaps back, gaps.length = ts.length ∧ (∀ gap ∈ gaps, IsGap gap) ∧ IsGap back ∧
      w = interleave gaps ts ++ back := by
  induction h with
  | nil => exact ⟨[], [], rfl, by simp, by simp [IsGap], rfl⟩
  | @blank c ts w hc _ ih =>
    obtain ⟨gaps, back, hlength, hgaps, hback, rfl⟩ := ih
    cases gaps with
    | nil =>
      obtain rfl : ts = [] := List.length_eq_zero_iff.mp hlength.symm
      exact ⟨[], c :: back, rfl, by simp, List.forall_mem_cons.mpr ⟨hc, hback⟩, rfl⟩
    | cons gap gaps =>
      obtain ⟨t, ts, rfl⟩ := List.exists_cons_of_length_eq_add_one hlength.symm
      obtain ⟨hgap, hgaps⟩ := List.forall_mem_cons.mp hgaps
      exact ⟨(c :: gap) :: gaps, back, hlength,
        List.forall_mem_cons.mpr ⟨List.forall_mem_cons.mpr ⟨hc, hgap⟩, hgaps⟩, hback, rfl⟩
  | @token t ts w _ _ _ ih =>
    obtain ⟨gaps, back, hlength, hgaps, hback, rfl⟩ := ih
    refine ⟨[] :: gaps, back, by simp [hlength],
      List.forall_mem_cons.mpr ⟨by simp [IsGap], hgaps⟩, hback, ?_⟩
    simp [interleave]

lemma ends_nil : Ends t [] :=
  ⟨fun _ => endsName_nil, by simp⟩

/-- White space ends every token. -/
lemma ends_blank (w : Text) : Ends t (' ' :: w) :=
  ⟨fun _ => endsName_cons (by decide) (by decide), by simp⟩

/-- The text of a token that can be read is read as that token alone. -/
lemma Lexical.tokens_text (h : t.Lexical) : tokens t.text = .ok [t] := by
  have hspells : Spells [t] (t.text ++ []) := .token h ends_nil .nil
  rw [List.append_nil] at hspells
  exact tokens_eq_ok_iff.mpr hspells

/-- Tokens with a blank between each two of them. -/
lemma spells_joinWith (h : ∀ t ∈ ts, t.Lexical) :
    Spells ts (Text.joinWith " " (ts.map (·.text))) := by
  induction ts with
  | nil => exact .nil
  | cons t ts ih =>
    obtain ⟨ht, hts⟩ := List.forall_mem_cons.mp h
    cases ts with
    | nil => simpa [Text.joinWith] using Spells.token ht ends_nil .nil
    | cons u us =>
      have hrest : Spells (u :: us) (' ' :: Text.joinWith " " ((u :: us).map (·.text))) :=
        .blank (by decide) (ih hts)
      simpa [Text.joinWith_cons_cons] using Spells.token ht (ends_blank _) hrest

end

/-! ### Rejected texts -/

section

variable {c : Char} {back front rest u v w : Text} {t : Token} {ts : List Token}
variable {fault : SyntaxFault}

/-- Where no token starts: not at the first character of a name nor at a mark, at a dash only
without the rest of its arrow, at a quotation mark or apostrophe only if it is the last one. -/
lemma first?_eq_none_iff :
    first? c rest = none ↔ isNameStart c = false ∧ c.isDigit = false ∧ c ∉ marks ∧
      (c = '-' → rest.head? ≠ some '>') ∧ (c = '"' ∨ c = '\'' → c ∉ rest) := by
  have hequals : c = '=' → c ∈ marks := by rintro rfl; decide
  unfold first?
  by_cases harrow : (c = '-' ∨ c = '=') ∧ rest.head? = some '>'
  · rw [if_pos (by simpa using harrow)]
    refine ⟨by simp, fun ⟨_, _, hmark, hdash, _⟩ => ?_⟩
    exact absurd (harrow.1.resolve_left fun h => hdash h harrow.2) fun h => hmark (hequals h)
  rw [if_neg (by simpa using harrow)]
  by_cases hquote : c = '"' ∨ c = '\''
  · rw [if_pos (by simpa using hquote)]
    have hother : isNameStart c = false ∧ c.isDigit = false ∧ c ∉ marks ∧ c ≠ '-' := by
      rcases hquote with rfl | rfl <;> decide
    by_cases hmem : c ∈ rest
    · obtain ⟨inner, r, rfl, hinner⟩ := List.eq_append_cons_of_mem hmem
      simp [Text.cutAt_eq_some.mpr ⟨hinner, rfl⟩, hquote]
    · simp [Text.cutAt_of_not_mem hmem, hother, hmem]
  · rw [if_neg (by simpa using hquote)]
    have hdash : c ∉ marks → c = '-' → rest.head? ≠ some '>' :=
      fun _ h hhead => harrow ⟨Or.inl h, hhead⟩
    by_cases hname : isNameStart c = true ∨ c.isDigit = true
    · rw [if_pos (by simpa using hname)]
      refine ⟨by simp, fun ⟨hstart, hdigit, _⟩ => ?_⟩
      simp [hstart, hdigit] at hname
    · obtain ⟨hstart, hdigit⟩ : isNameStart c = false ∧ c.isDigit = false := by simpa using hname
      by_cases hmark : c ∈ marks
      · simp [hstart, hdigit, hmark]
      · simpa [hstart, hdigit, hmark, hquote] using hdash hmark

/-- Where no token begins, none begins when the text behind is cut off. -/
lemma first?_eq_none_of_append (h : first? c (u ++ v) = none) : first? c u = none := by
  obtain ⟨hstart, hdigit, hmark, hdash, hquote⟩ := first?_eq_none_iff.mp h
  refine first?_eq_none_iff.mpr ⟨hstart, hdigit, hmark, fun heq hhead => hdash heq ?_, fun heq hmem =>
    hquote heq (List.mem_append_left v hmem)⟩
  simp [hhead]

/-- White space behind a text makes no token begin in front of it. -/
lemma first?_append_blank (hc : isBlank c = false) (hv : IsGap v) (h : first? c u = none) :
    first? c (u ++ v) = none := by
  obtain ⟨hstart, hdigit, hmark, hdash, hquote⟩ := first?_eq_none_iff.mp h
  have hbehind : ∀ d, isBlank d = false → d ∉ v := fun d hd hmem =>
    absurd (hv d hmem) (by simp [hd])
  refine first?_eq_none_iff.mpr ⟨hstart, hdigit, hmark, fun heq hhead => ?_, fun heq hmem => ?_⟩
  · cases u with
    | nil => exact hbehind '>' (by decide) (List.mem_of_head? hhead)
    | cons d u => exact hdash heq hhead
  · exact (List.mem_append.mp hmem).elim (hquote heq) (hbehind c hc)

/-- In front of `rest`, the text `front` is the tokens `ts` with white space around them. -/
inductive Reaches (rest : Text) : List Token → Text → Prop
  | nil : Reaches rest [] []
  | blank {c : Char} {ts : List Token} {front : Text} : isBlank c = true →
      Reaches rest ts front → Reaches rest ts (c :: front)
  | token {t : Token} {ts : List Token} {front : Text} : t.Lexical → Ends t (front ++ rest) →
      Reaches rest ts front → Reaches rest (t :: ts) (t.text ++ front)

/-- A fault of the scanner stands behind tokens, at a character no token begins with. -/
lemma exists_reaches_of_scan_eq_error (h : scan w = .error fault) :
    ∃ ts front c back, w = front ++ c :: back ∧ Reaches (c :: back) ts front ∧
      isBlank c = false ∧ first? c back = none ∧ fault = .unexpectedCharacter [c] := by
  induction hk : w.length using Nat.strong_induction_on generalizing w with
  | _ k ih =>
  cases w with
  | nil =>
    rw [scan_of_blank rfl] at h
    simp at h
  | cons c cs =>
    rw [List.length_cons] at hk
    cases hc : isBlank c with
    | true =>
      rw [scan_blank hc] at h
      obtain ⟨ts, front, d, back, rfl, hreaches, hd, hnone, hfault⟩ := ih _ (by omega) h rfl
      exact ⟨ts, c :: front, d, back, rfl, .blank hc hreaches, hd, hnone, hfault⟩
    | false =>
      have hdrop : (c :: cs).dropWhile isBlank = c :: cs := by simp [hc]
      cases ht : first? c cs with
      | none =>
        rw [scan_of_fault hdrop ht] at h
        exact ⟨[], [], c, cs, rfl, .nil, hc, ht, (Except.error.inj h).symm⟩
      | some r =>
        obtain ⟨t, rest⟩ := r
        obtain ⟨hlex, hends, heq⟩ := first?_eq_some.mp ht
        have hle := length_le_of_first? ht
        rw [scan_of_token hdrop ht] at h
        cases hs : scan rest with
        | ok us => simp [hs, Except.map] at h
        | error e =>
          obtain rfl : e = fault := by simpa [hs, Except.map] using h
          obtain ⟨ts, front, d, back, rfl, hreaches, hd, hnone, hfault⟩ := ih _ (by omega) hs rfl
          exact ⟨t :: ts, t.text ++ front, d, back, by rw [heq, List.append_assoc],
            .token hlex hends hreaches, hd, hnone, hfault⟩

/-- The same tokens are reached when text far behind them is cut off. -/
lemma Reaches.of_append (h : Reaches (u ++ v) ts front) : Reaches u ts front := by
  induction h with
  | nil => exact .nil
  | blank hc _ ih => exact .blank hc ih
  | token hlex hends _ ih =>
    rw [← List.append_assoc] at hends
    exact .token hlex hends.of_append ih

/-- The same tokens are reached when white space is put behind the rest. -/
lemma Reaches.append_blank (h : Reaches u ts front) (hv : IsGap v) :
    Reaches (u ++ v) ts front := by
  induction h with
  | nil => exact .nil
  | blank hc _ ih => exact .blank hc ih
  | token hlex hends _ ih =>
    have hends' := hends.append_blank hv
    rw [List.append_assoc] at hends'
    exact .token hlex hends' ih

lemma Reaches.spells (h : Reaches rest ts front) : Spells ts front := by
  induction h with
  | nil => exact .nil
  | blank hc _ ih => exact .blank hc ih
  | token hlex hends _ ih => exact .token hlex hends.of_append ih

/-- The scanner gets to what stands behind the tokens. -/
lemma Reaches.scan_append (h : Reaches rest ts front) :
    scan (front ++ rest) = (scan rest).map (ts ++ ·) := by
  induction h with
  | nil => cases h : scan rest <;> simp [h, Except.map]
  | blank hc _ ih => rw [List.cons_append, scan_blank hc, ih]
  | @token t ts front hlex hends _ ih =>
    obtain ⟨⟨c, v, htext, hc⟩, -⟩ := hlex.isBlank_eq_false
    have ht : first? c (v ++ (front ++ rest)) = some (t, front ++ rest) :=
      first?_eq_some.mpr ⟨hlex, hends, by rw [htext, List.cons_append]⟩
    have hdrop : (c :: (v ++ (front ++ rest))).dropWhile isBlank = c :: (v ++ (front ++ rest)) := by
      simp [hc]
    rw [htext, List.append_assoc, List.cons_append, scan_of_token hdrop ht, ih]
    cases scan rest <;> rfl

/-- An accepted beginning of a text does not go beyond the character where the scanner stops. -/
lemma Reaches.isPrefix (h : Reaches (c :: back) ts front) (hc : isBlank c = false)
    (hnone : first? c back = none) {us : List Token} (hu : tokens u = .ok us)
    (hstart : u <+: front ++ c :: back) : u <+: front := by
  rcases List.prefix_or_prefix_of_prefix hstart (List.prefix_append front (c :: back)) with hle | hge
  · exact hle
  obtain ⟨beyond, rfl⟩ := hge
  rw [List.prefix_append_right_inj] at hstart
  cases beyond with
  | nil => simp
  | cons d beyond =>
    obtain ⟨rfl, more, rfl⟩ := List.cons_prefix_cons.mp hstart
    have hreaches : Reaches (d :: beyond) ts front := Reaches.of_append (v := more) h
    have hscan : scan (d :: beyond) = .error (.unexpectedCharacter [d]) :=
      scan_of_fault (by simp [hc]) (first?_eq_none_of_append hnone)
    have hok : scan (front ++ d :: beyond) = .ok us :=
      scan_eq_ok_iff.mpr (tokens_eq_ok_iff.mp hu)
    rw [hreaches.scan_append, hscan] at hok
    simp [Except.map] at hok

/-- The scanner stops where the longest accepted beginning of a rejected text ends. -/
lemma exists_longest_of_tokens_eq_error (h : tokens w = .error fault) :
    ∃ front c back, w = front ++ c :: back ∧ isBlank c = false ∧
      fault = .unexpectedCharacter [c] ∧ (∃ ts, tokens front = .ok ts) ∧
      ∀ u us, u <+: w → tokens u = .ok us → u <+: front := by
  obtain ⟨gap, hgap, hw⟩ := Text.exists_trimEnd_append w
  obtain ⟨ts, front, c, back, htrim, hreaches, hc, hnone, hfault⟩ :=
    exists_reaches_of_scan_eq_error h
  have hw' : w = front ++ c :: (back ++ gap) := by
    rw [hw, htrim, List.append_assoc, List.cons_append]
  refine ⟨front, c, back ++ gap, hw', hc, hfault, ⟨ts, tokens_eq_ok_iff.mpr hreaches.spells⟩, ?_⟩
  intro u us hu hus
  rw [hw'] at hu
  exact Reaches.isPrefix (hreaches.append_blank hgap) hc (first?_append_blank hc hgap hnone) hus hu

/-- An accepted text is its tokens with white space around them, each token is read from its own
text, and the texts of the tokens with blanks between them are read as the same tokens.  The fault of
a rejected text names the character behind its longest beginning that is accepted. -/
theorem tokens_outcome (w : Text) :
    (∀ ts, tokens w = .ok ts →
      (∃ gaps back, gaps.length = ts.length ∧ (∀ gap ∈ gaps, IsGap gap) ∧ IsGap back ∧
        w = interleave gaps ts ++ back) ∧
      (∀ t ∈ ts, tokens t.text = .ok [t]) ∧
      tokens (Text.joinWith " " (ts.map (·.text))) = .ok ts) ∧
    ∀ fault, tokens w = .error fault →
      ∃ front c back, w = front ++ c :: back ∧ isBlank c = false ∧
        fault = .unexpectedCharacter [c] ∧ (∃ ts, tokens front = .ok ts) ∧
        ∀ u us, u <+: w → tokens u = .ok us → u <+: front := by
  refine ⟨fun ts hts => ?_, fun fault => exists_longest_of_tokens_eq_error⟩
  have hspells := tokens_eq_ok_iff.mp hts
  refine ⟨hspells.exists_gaps, fun t ht => (hspells.lexical t ht).tokens_text, ?_⟩
  exact tokens_eq_ok_iff.mpr (spells_joinWith hspells.lexical)

/-- Tabs and blanks go from an arrow function, and a dash without the rest of its arrow is named. -/
theorem tokens_outcome_arrowAndDash :
    tokens "(a) =>\tb.c " = .ok [mark '(', word "a", mark ')', fatArrow, word "b.c"] ∧
      tokens "( a ) => b.c" = .ok [mark '(', word "a", mark ')', fatArrow, word "b.c"] ∧
      tokens "a | -b" = .error (.unexpectedCharacter "-") ∧
      ∃ front c back, ("a | -b" : Text) = front ++ c :: back ∧ isBlank c = false ∧
        SyntaxFault.unexpectedCharacter "-" = .unexpectedCharacter [c] ∧
        (∃ ts, tokens front = .ok ts) ∧
        ∀ u us, u <+: ("a | -b" : Text) → tokens u = .ok us → u <+: front := by
  have haccepted : tokens "(a) =>\tb.c " =
      .ok [mark '(', word "a", mark ')', fatArrow, word "b.c"] := by decide +kernel
  have hrejected : tokens "a | -b" = .error (.unexpectedCharacter "-") := by decide +kernel
  exact ⟨haccepted, ((tokens_outcome _).1 _ haccepted).2.2, hrejected,
    (tokens_outcome _).2 _ hrejected⟩

end

end Ambient.Token

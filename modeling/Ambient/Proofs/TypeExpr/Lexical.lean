import Mathlib
import Ambient.Proofs.Text.Letter
import Ambient.Proofs.Text.Lines
import Ambient.Proofs.Text.Trim
import Ambient.TypeExpr.Token

/-!
# Tokens and their texts

A token is *lexical* if the scanner makes it of its own text, and `Ends t rest` says that `rest` does
not go on with the token `t`.  `Spells ts w` builds a text `w` from its end: of white space, and of
lexical tokens in front of texts that end them.  It describes the scanner completely:
`scan_eq_ok_iff` says that the scanner reads the tokens `ts` of `w` exactly if `w` spells them.
-/

namespace Ambient

/-! ### Character classes -/

/-- The stretches of code points above 127 between white space, without their ends. -/
def blankGaps : List (ℕ × ℕ) :=
  [(0x7F, 0x85), (0x85, 0xA0), (0xA0, 0x1680), (0x1680, 0x2000), (0x200A, 0x2028), (0x2029, 0x202F),
    (0x202F, 0x205F), (0x205F, 0x3000), (0x3000, 0x110000)]

/-- No range of word characters holds white space. -/
lemma wordRanges_in_blankGaps :
    (wordRanges.all fun r => blankGaps.any fun g => Nat.blt g.1 r.1 && Nat.blt r.2 g.2) = true := by
  decide +kernel

/-- White space stands in no name. -/
lemma isNameRest_of_isBlank {c : Char} (h : isBlank c = true) : isNameRest c = false := by
  have hdollar : c ≠ '$' := by rintro rfl; exact absurd h (by decide)
  have hunderscore : c ≠ '_' := by rintro rfl; exact absurd h (by decide)
  simp only [isBlank, Bool.or_eq_true, beq_iff_eq, Bool.and_eq_true, decide_eq_true_eq] at h
  have hword : isWord c = false := by
    rw [isWord]
    split
    · have halnum : ¬ c.isAlphanum = true := by
        rw [Char.isAlphanum_iff]
        omega
      simp [halnum, hunderscore]
    · next hlarge =>
      rw [List.any_eq_false]
      intro r hr
      obtain ⟨g, hg, hgap⟩ := List.any_eq_true.mp (List.all_eq_true.mp wordRanges_in_blankGaps r hr)
      have hout : ∀ g ∈ blankGaps, c.toNat ≤ g.1 ∨ g.2 ≤ c.toNat := by
        simp only [blankGaps, List.forall_mem_cons]
        refine ⟨?_, ?_, ?_, ?_, ?_, ?_, ?_, ?_, ?_, by simp⟩ <;> omega
      have hc := hout g hg
      simp only [Bool.and_eq_true, Nat.blt_eq] at hgap
      simp only [Bool.and_eq_true, decide_eq_true_eq]
      omega
  simp [isNameRest, hword, hdollar]

lemma isNameRest_of_isNameStart {c : Char} (h : isNameStart c = true) : isNameRest c = true := by
  simp only [isNameStart, Bool.or_eq_true, beq_iff_eq] at h
  rcases h with (h | rfl) | rfl
  · have halnum : c.isAlphanum = true := by simp [Char.isAlphanum, h]
    have hlt : c.toNat < 128 := by
      have := Char.isAlphanum_iff.mp halnum
      omega
    simp [isNameRest, isWord, hlt, halnum]
  · decide
  · decide

namespace Token

/-! ### Names -/

section

variable {c : Char} {cs rest : Text}

/-- A text that goes on with no name: neither with a character inside one nor with a dot and a
further name. -/
def EndsName (rest : Text) : Prop :=
  (∀ c ∈ rest.head?, isNameRest c = false) ∧ ∀ c ds, rest = '.' :: c :: ds → isNameStart c = false

/-- What ends a stretch of characters ends it whatever follows. -/
lemma takeWhile_append (p : Char → Bool) (h : ∀ c ∈ rest.head?, p c = false) :
    (cs ++ rest).takeWhile p = cs.takeWhile p := by
  induction cs with
  | nil =>
    cases rest with
    | nil => rfl
    | cons c rest => simp [h c rfl]
  | cons c cs ih =>
    cases hc : p c
    · simp [hc]
    · simp [hc, ih]

/-- What stands behind a stretch of characters is followed by what ends it. -/
lemma dropWhile_append (p : Char → Bool) (h : ∀ c ∈ rest.head?, p c = false) :
    (cs ++ rest).dropWhile p = cs.dropWhile p ++ rest := by
  induction cs with
  | nil =>
    cases rest with
    | nil => rfl
    | cons c rest => simp [h c rfl]
  | cons c cs ih =>
    cases hc : p c
    · simp [hc]
    · simp [hc, ih]

lemma dottedNames_eq_nil (h : ∀ c ds, cs = '.' :: c :: ds → isNameStart c = false) :
    dottedNames cs = ([], cs) := by
  match cs with
  | [] => simp [dottedNames]
  | [d] => simp [dottedNames]
  | d :: e :: cs =>
    by_cases hd : d = '.'
    · subst hd
      rw [dottedNames, if_neg (by simp [h e cs rfl])]
    · simp [dottedNames, hd]

/-- Names after dots are found whatever stands behind them, if it goes on with no name. -/
lemma dottedNames_append (hrest : EndsName rest) :
    dottedNames (cs ++ rest) = ((dottedNames cs).1, (dottedNames cs).2 ++ rest) := by
  have hhead := hrest.1
  fun_induction dottedNames cs with
  | case1 c ds hc hle more ih =>
    rw [List.cons_append, List.cons_append, dottedNames, if_pos hc]
    simp only [takeWhile_append _ hhead, dropWhile_append _ hhead, ih]
    rfl
  | case2 c ds hc =>
    exact dottedNames_eq_nil fun c' ds' heq => by
      obtain ⟨rfl, -⟩ : c = c' ∧ _ := by simpa using heq
      simpa using hc
  | case3 cs h =>
    refine dottedNames_eq_nil fun c ds heq => ?_
    match cs with
    | [] => exact hrest.2 c ds heq
    | [d] =>
      obtain ⟨rfl, rfl⟩ : d = '.' ∧ rest = c :: ds := by simpa using heq
      cases hc : isNameStart c with
      | false => rfl
      | true =>
        have hno := hhead c rfl
        rw [isNameRest_of_isNameStart hc] at hno
        exact absurd hno (by decide)
    | d :: e :: cs =>
      obtain ⟨rfl, rfl, -⟩ : d = '.' ∧ e = c ∧ _ := by simpa using heq
      exact absurd rfl (h e cs)

/-- The further names and the rest are the whole text. -/
lemma dottedNames_fst_append_snd (cs : Text) : (dottedNames cs).1 ++ (dottedNames cs).2 = cs := by
  fun_induction dottedNames cs with
  | case1 c ds hc hle more ih =>
    simp only [List.cons_append, List.append_assoc, more, ih, List.takeWhile_append_dropWhile]
  | case2 => rfl
  | case3 => rfl

/-- Names after dots are empty or start with a dot. -/
lemma head?_dottedNames : ∀ c ∈ (dottedNames cs).1.head?, isNameRest c = false := by
  fun_induction dottedNames cs with
  | case1 c ds hc hle more ih =>
    intro d hd
    obtain rfl : '.' = d := by simpa using hd
    decide
  | case2 => simp
  | case3 => simp

/-- Further names are read again as they are. -/
lemma dottedNames_dottedNames (cs : Text) :
    dottedNames (dottedNames cs).1 = ((dottedNames cs).1, []) := by
  fun_induction dottedNames cs with
  | case1 c ds hc hle more ih =>
    have hhead : ∀ c ∈ more.1.head?, isNameRest c = false := head?_dottedNames
    have htake : (ds.takeWhile isNameRest).takeWhile isNameRest = ds.takeWhile isNameRest := by
      rw [List.takeWhile_takeWhile]
      simp
    have hdrop : (ds.takeWhile isNameRest).dropWhile isNameRest = [] := by
      rw [List.dropWhile_eq_nil_iff]
      exact fun c hc => List.mem_takeWhile_imp hc
    rw [List.cons_append, List.cons_append, dottedNames, if_pos hc]
    simp only [takeWhile_append _ hhead, dropWhile_append _ hhead, htake, hdrop, List.nil_append,
      more, ih]
    rfl
  | case2 => simp [dottedNames]
  | case3 => simp [dottedNames]

/-- What stands behind names after dots goes on with no name. -/
lemma endsName_dottedNames (h : ∀ c ∈ cs.head?, isNameRest c = false) :
    EndsName (dottedNames cs).2 := by
  fun_induction dottedNames cs with
  | case1 c ds hc hle more ih =>
    refine ih fun d hd => ?_
    have := List.head?_dropWhile_not isNameRest ds
    rw [Option.mem_def.mp hd] at this
    exact this
  | case2 c ds hc =>
    refine ⟨h, fun c' ds' heq => ?_⟩
    obtain ⟨rfl, -⟩ : c = c' ∧ _ := by simpa using heq
    simpa using hc
  | case3 cs hno => exact ⟨h, fun c ds heq => absurd heq (hno c ds)⟩

/-- Further names are characters inside names, and dots. -/
lemma forall_mem_dottedNames : ∀ c ∈ (dottedNames cs).1, isNameRest c = true ∨ c = '.' := by
  fun_induction dottedNames cs with
  | case1 c ds hc hle more ih =>
    intro d hd
    simp only [List.cons_append, List.mem_cons, List.mem_append] at hd
    rcases hd with rfl | rfl | hd | hd
    · exact Or.inr rfl
    · exact Or.inl (isNameRest_of_isNameStart hc)
    · exact Or.inl (List.mem_takeWhile_imp hd)
    · exact ih d hd
  | case2 => simp
  | case3 => simp

/-- The characters of a name behind its first one. -/
def IsNameTail (w : Text) : Prop :=
  (dottedNames (w.dropWhile isNameRest)).2 = []

lemma isNameTail_of_all (h : ∀ c ∈ cs, isNameRest c = true) : IsNameTail cs := by
  have hdrop : cs.dropWhile isNameRest = [] := by simpa using h
  simp [IsNameTail, hdrop, dottedNames]

/-- What the scanner takes as the characters of a name is all of them. -/
lemma isNameTail_takeWhile_append (cs : Text) :
    IsNameTail (cs.takeWhile isNameRest ++ (dottedNames (cs.dropWhile isNameRest)).1) := by
  have hdrop : (cs.takeWhile isNameRest).dropWhile isNameRest = [] := by
    rw [List.dropWhile_eq_nil_iff]
    exact fun c hc => List.mem_takeWhile_imp hc
  rw [IsNameTail, dropWhile_append _ head?_dottedNames, hdrop, List.nil_append,
    dottedNames_dottedNames]

/-- The rest of a name is found in front of what ends a name. -/
lemma IsNameTail.takeWhile_append {w : Text} (hw : IsNameTail w) (hrest : EndsName rest) :
    (w ++ rest).takeWhile isNameRest ++ (dottedNames ((w ++ rest).dropWhile isNameRest)).1 = w ∧
      (dottedNames ((w ++ rest).dropWhile isNameRest)).2 = rest := by
  have hsplit := dottedNames_fst_append_snd (w.dropWhile isNameRest)
  rw [IsNameTail] at hw
  rw [hw, List.append_nil] at hsplit
  rw [Token.takeWhile_append _ hrest.1, Token.dropWhile_append _ hrest.1,
    dottedNames_append hrest, hw, hsplit]
  exact ⟨List.takeWhile_append_dropWhile, rfl⟩

/-- The rest of a name is characters inside names, and dots. -/
lemma IsNameTail.forall_mem {w : Text} (hw : IsNameTail w) :
    ∀ c ∈ w, isNameRest c = true ∨ c = '.' := by
  intro c hc
  have hsplit := dottedNames_fst_append_snd (w.dropWhile isNameRest)
  rw [IsNameTail] at hw
  rw [hw, List.append_nil] at hsplit
  rw [← List.takeWhile_append_dropWhile (p := isNameRest) (l := w), ← hsplit] at hc
  rcases List.mem_append.mp hc with hc | hc
  · exact Or.inl (List.mem_takeWhile_imp hc)
  · exact forall_mem_dottedNames c hc

end

/-! ### One token -/

/-- The tokens that the scanner makes: the arrows, the texts between quotation marks or apostrophes,
the names and the marks. -/
inductive Lexical : Token → Prop
  | arrow {c : Char} : c = '-' ∨ c = '=' → Lexical ⟨.arrow, [c, '>']⟩
  | text {c : Char} {inner : Text} : c = '"' ∨ c = '\'' → c ∉ inner →
      Lexical ⟨.text, c :: inner ++ [c]⟩
  | name {c : Char} {w : Text} : isNameStart c = true ∨ c.isDigit = true → IsNameTail w →
      Lexical ⟨.name, c :: w⟩
  | mark {c : Char} : c ∈ marks → Lexical ⟨.mark, [c]⟩

/-- A text that does not go on with the token `t`. -/
def Ends (t : Token) (rest : Text) : Prop :=
  (t.kind = .name → EndsName rest) ∧ (t.text = "=" → rest.head? ≠ some '>')

lemma isNameRest_of_isDigit {c : Char} (h : c.isDigit = true) : isNameRest c = true := by
  have halnum : c.isAlphanum = true := by simp [Char.isAlphanum, h]
  have hlt : c.toNat < 128 := by
    have := Char.isAlphanum_iff.mp halnum
    omega
  simp [isNameRest, isWord, hlt, halnum]

/-- What a name or a number begins with may stand inside a name. -/
lemma isNameRest_of_first {c : Char} (h : isNameStart c = true ∨ c.isDigit = true) :
    isNameRest c = true :=
  h.elim isNameRest_of_isNameStart isNameRest_of_isDigit

/-- A mark starts no other token, the equals sign apart. -/
lemma ne_of_mem_marks {c : Char} (h : c ∈ marks) :
    ¬ (isNameStart c = true ∨ c.isDigit = true) ∧ ¬ (c = '"' ∨ c = '\'') ∧ c ≠ '-' ∧
      isBlank c = false := by
  have hall : (marks.all fun d => !(isNameStart d || d.isDigit) && d != '"' && d != '\'' &&
      d != '-' && !isBlank d) = true := by decide
  have hc := List.all_eq_true.mp hall c h
  simpa [and_assoc] using hc

/-- What the scanner takes from the start of a text is lexical, and the rest does not go on with it. -/
lemma lexical_of_first? {c : Char} {cs rest : Text} {t : Token} (h : first? c cs = some (t, rest)) :
    t.Lexical ∧ Ends t rest ∧ c :: cs = t.text ++ rest := by
  unfold first? at h
  split at h
  · next harrow =>
    simp only [Bool.and_eq_true, Bool.or_eq_true, decide_eq_true_eq] at harrow
    obtain ⟨ds, rfl⟩ : ∃ ds, cs = '>' :: ds := by
      cases cs <;> simp_all
    obtain ⟨rfl, rfl⟩ : (⟨.arrow, [c, '>']⟩ : Token) = t ∧ ds = rest := by simpa using h
    exact ⟨.arrow harrow.1, ⟨by simp, by simp⟩, rfl⟩
  · next harrow =>
    split at h
    · next hquote =>
      simp only [Bool.or_eq_true, decide_eq_true_eq] at hquote
      split at h
      · simp at h
      · next inner r hcut =>
        obtain ⟨hinner, rfl⟩ := Text.cutAt_eq_some.mp hcut
        obtain ⟨rfl, rfl⟩ : (⟨.text, c :: inner ++ [c]⟩ : Token) = t ∧ r = rest := by
          simpa using h
        exact ⟨.text hquote hinner, ⟨by simp, by simp⟩, by simp⟩
    · split at h
      · next hname =>
        obtain ⟨rfl, rfl⟩ := Prod.mk.inj (Option.some.inj h)
        rw [Bool.or_eq_true] at hname
        have hhead : ∀ d ∈ (cs.dropWhile isNameRest).head?, isNameRest d = false := by
          intro d hd
          have := List.head?_dropWhile_not isNameRest cs
          rw [Option.mem_def.mp hd] at this
          exact this
        have hne : c ≠ '=' := by rintro rfl; exact absurd hname (by decide)
        refine ⟨.name hname (isNameTail_takeWhile_append cs),
          ⟨fun _ => endsName_dottedNames hhead, fun heq => ?_⟩, ?_⟩
        · exact absurd (List.cons.inj heq).1 hne
        · simp [dottedNames_fst_append_snd]
      · split at h
        · next hmark =>
          obtain ⟨rfl, rfl⟩ := Prod.mk.inj (Option.some.inj h)
          refine ⟨.mark (by simpa using hmark), ⟨by simp, fun heq => ?_⟩, rfl⟩
          obtain rfl : c = '=' := (List.cons.inj heq).1
          simpa using harrow
        · simp at h

/-- The scanner takes a lexical token from the start of a text that does not go on with it. -/
lemma first?_of_lexical {c : Char} {cs rest : Text} {t : Token} (hlex : t.Lexical)
    (hends : Ends t rest) (heq : c :: cs = t.text ++ rest) : first? c cs = some (t, rest) := by
  cases hlex with
  | @arrow d hd =>
    obtain ⟨rfl, rfl⟩ : c = d ∧ cs = '>' :: rest := by simpa using heq
    simp [first?, hd]
  | @text d inner hd hinner =>
    obtain ⟨rfl, rfl⟩ : c = d ∧ cs = inner ++ d :: rest := by simpa using heq
    have hne : ¬ (c = '-' ∨ c = '=') := by rcases hd with rfl | rfl <;> decide
    have hcut : Text.cutAt c (inner ++ c :: rest) = (inner, some rest) :=
      Text.cutAt_eq_some.mpr ⟨hinner, rfl⟩
    simp [first?, hne, hd, hcut]
  | @name d w hd hw =>
    obtain ⟨rfl, rfl⟩ : c = d ∧ cs = w ++ rest := by simpa using heq
    obtain ⟨htake, hdrop⟩ := hw.takeWhile_append (hends.1 rfl)
    have hrest := isNameRest_of_first hd
    have harrow : ¬ (c = '-' ∨ c = '=') := by
      rintro (rfl | rfl) <;> exact absurd hrest (by decide)
    have hquote : ¬ (c = '"' ∨ c = '\'') := by
      rintro (rfl | rfl) <;> exact absurd hrest (by decide)
    simp [first?, harrow, hquote, hd, htake, hdrop]
  | @mark d hd =>
    obtain ⟨rfl, rfl⟩ : c = d ∧ cs = rest := by simpa using heq
    obtain ⟨hname, hquote, hdash, -⟩ := ne_of_mem_marks hd
    have harrow : ¬ (c = '=' ∧ cs.head? = some '>') := by
      rintro ⟨rfl, hhead⟩
      exact hends.2 rfl hhead
    simp [first?, hname, hquote, hdash, harrow, hd]

/-- The scanner takes a token from the start of a text exactly if it is lexical and the rest of the
text does not go on with it. -/
theorem first?_eq_some {c : Char} {cs rest : Text} {t : Token} :
    first? c cs = some (t, rest) ↔ t.Lexical ∧ Ends t rest ∧ c :: cs = t.text ++ rest :=
  ⟨lexical_of_first?, fun ⟨hlex, hends, heq⟩ => first?_of_lexical hlex hends heq⟩

/-- The texts of the marks and of the arrows. -/
def signs : List Text :=
  marks.map ([·]) ++ [['-', '>'], ['=', '>']]

/-- A name or a quoted text is spelt like no mark and no arrow. -/
def Proper (t : Token) : Prop :=
  t.kind = .name ∨ t.kind = .text → t.text ∉ signs

instance : DecidablePred Proper :=
  fun _ => inferInstanceAs (Decidable (_ → _))

/-- What the scanner makes of a name or of quoted text is spelt like no mark. -/
lemma Lexical.proper {t : Token} (h : t.Lexical) : t.Proper := by
  have hsigns : (signs.all fun s => s.head?.all fun c => !isNameRest c && c != '"' && c != '\'')
      = true := by decide
  have hfirst : ∀ c w, c :: w ∈ signs → isNameRest c = false ∧ c ≠ '"' ∧ c ≠ '\'' := by
    intro c w hmem
    have := List.all_eq_true.mp hsigns _ hmem
    simpa [and_assoc] using this
  intro hkind hmem
  cases h with
  | arrow => simp at hkind
  | mark => simp at hkind
  | text hc =>
    obtain ⟨-, hdouble, hsingle⟩ := hfirst _ _ hmem
    exact hc.elim hdouble hsingle
  | name hc =>
    have hrest := (hfirst _ _ hmem).1
    rw [isNameRest_of_first hc] at hrest
    exact absurd hrest (by decide)

/-- A lexical token starts and ends with no white space. -/
lemma Lexical.isBlank_eq_false {t : Token} (h : t.Lexical) :
    (∃ c w, t.text = c :: w ∧ isBlank c = false) ∧
      ∃ w c, t.text = w ++ [c] ∧ isBlank c = false := by
  have hname : ∀ c, isNameRest c = true → isBlank c = false := by
    intro c hc
    cases hb : isBlank c with
    | false => rfl
    | true =>
      rw [isNameRest_of_isBlank hb] at hc
      exact absurd hc (by decide)
  cases h with
  | @arrow c hc =>
    refine ⟨⟨c, ['>'], rfl, ?_⟩, ⟨[c], '>', rfl, by decide⟩⟩
    rcases hc with rfl | rfl <;> decide
  | @text c inner hc =>
    have hb : isBlank c = false := by rcases hc with rfl | rfl <;> decide
    exact ⟨⟨c, inner ++ [c], rfl, hb⟩, ⟨c :: inner, c, rfl, hb⟩⟩
  | @name c w hc hw =>
    have hb := hname c (isNameRest_of_first hc)
    refine ⟨⟨c, w, rfl, hb⟩, ?_⟩
    rcases w.eq_nil_or_concat with rfl | ⟨v, d, rfl⟩
    · exact ⟨[], c, rfl, hb⟩
    · refine ⟨c :: v, d, by simp, ?_⟩
      rcases hw.forall_mem d (by simp) with hd | rfl
      · exact hname d hd
      · decide
  | @mark c hc =>
    have hb := (ne_of_mem_marks hc).2.2.2
    exact ⟨⟨c, [], rfl, hb⟩, ⟨[], c, rfl, hb⟩⟩

/-! ### Texts of tokens -/

section

variable {c : Char} {cs rest v w : Text} {t : Token} {ts : List Token}

/-- White space has no tokens. -/
lemma scan_of_blank (h : w.dropWhile isBlank = []) : scan w = .ok [] := by
  rw [scan]
  split
  · rfl
  · next c ds hd =>
    rw [h] at hd
    simp at hd

/-- The first token is put in front of those of the rest. -/
lemma scan_of_token (h : w.dropWhile isBlank = c :: cs) (ht : first? c cs = some (t, rest)) :
    scan w = (scan rest).map (t :: ·) := by
  rw [scan]
  split
  · next hd =>
    rw [h] at hd
    simp at hd
  · next d ds hd =>
    obtain ⟨rfl, rfl⟩ := List.cons.inj (h.symm.trans hd)
    split
    · next hnone =>
      rw [ht] at hnone
      simp at hnone
    · next u r hu =>
      obtain ⟨rfl, rfl⟩ := Prod.mk.inj (Option.some.inj (ht.symm.trans hu))
      cases scan rest <;> rfl

/-- Where no token begins the scanner raises a fault about the character. -/
lemma scan_of_fault (h : w.dropWhile isBlank = c :: cs) (ht : first? c cs = none) :
    scan w = .error (.unexpectedCharacter [c]) := by
  rw [scan]
  split
  · next hd =>
    rw [h] at hd
    simp at hd
  · next d ds hd =>
    obtain ⟨rfl, rfl⟩ := List.cons.inj (h.symm.trans hd)
    split
    · rfl
    · next u r hu =>
      rw [ht] at hu
      simp at hu

/-- The scanner passes over white space in front of a text. -/
lemma scan_dropWhile (w : Text) : scan (w.dropWhile isBlank) = scan w := by
  have hdrop : (w.dropWhile isBlank).dropWhile isBlank = w.dropWhile isBlank := by
    rw [List.dropWhile_idempotent]
  cases h : w.dropWhile isBlank with
  | nil => rw [scan_of_blank h, scan_of_blank rfl]
  | cons c cs =>
    rw [h] at hdrop
    cases ht : first? c cs with
    | none => rw [scan_of_fault h ht, scan_of_fault hdrop ht]
    | some r =>
      obtain ⟨t, rest⟩ := r
      rw [scan_of_token h ht, scan_of_token hdrop ht]

/-- White space in front of a text makes no difference. -/
lemma scan_blank (hc : isBlank c = true) : scan (c :: cs) = scan cs := by
  rw [← scan_dropWhile, ← scan_dropWhile cs, List.dropWhile_cons_of_pos hc]

/-- The text `w` is the tokens `ts` with white space around them where a token would otherwise go
on. -/
inductive Spells : List Token → Text → Prop
  | nil : Spells [] []
  | blank {c : Char} {ts : List Token} {w : Text} : isBlank c = true → Spells ts w →
      Spells ts (c :: w)
  | token {t : Token} {ts : List Token} {w : Text} : t.Lexical → Ends t w → Spells ts w →
      Spells (t :: ts) (t.text ++ w)

/-- The scanner reads exactly the tokens that a text spells. -/
theorem scan_eq_ok_iff : scan w = .ok ts ↔ Spells ts w := by
  constructor
  · intro h
    -- by induction on the length: white space or the first token makes the text shorter
    induction hk : w.length using Nat.strong_induction_on generalizing w ts with
    | _ k ih =>
    cases w with
    | nil =>
      rw [scan_of_blank rfl] at h
      obtain rfl : [] = ts := by simpa using h
      exact .nil
    | cons c cs =>
      rw [List.length_cons] at hk
      cases hc : isBlank c with
      | true =>
        rw [scan_blank hc] at h
        exact .blank hc (ih _ (by omega) h rfl)
      | false =>
        have hdrop : (c :: cs).dropWhile isBlank = c :: cs := by simp [hc]
        cases ht : first? c cs with
        | none => simp [scan_of_fault hdrop ht] at h
        | some r =>
          obtain ⟨t, rest⟩ := r
          obtain ⟨hlex, hends, heq⟩ := first?_eq_some.mp ht
          have hle := length_le_of_first? ht
          rw [scan_of_token hdrop ht] at h
          cases hs : scan rest with
          | error e => simp [hs, Except.map] at h
          | ok us =>
            obtain rfl : t :: us = ts := by simpa [hs, Except.map] using h
            rw [heq]
            exact .token hlex hends (ih _ (by omega) hs rfl)
  · intro h
    induction h with
    | nil => exact scan_of_blank rfl
    | blank hc _ ih => rw [scan_blank hc, ih]
    | @token t ts w hlex hends _ ih =>
      obtain ⟨⟨c, v, htext, hc⟩, -⟩ := hlex.isBlank_eq_false
      have ht : first? c (v ++ w) = some (t, w) :=
        first?_eq_some.mpr ⟨hlex, hends, by rw [htext, List.cons_append]⟩
      have hdrop : (c :: (v ++ w)).dropWhile isBlank = c :: (v ++ w) := by simp [hc]
      rw [htext, List.cons_append, scan_of_token hdrop ht, ih]
      rfl

/-- A text is spelt by tokens that the scanner makes. -/
lemma Spells.lexical (h : Spells ts w) : ∀ t ∈ ts, t.Lexical := by
  induction h with
  | nil => simp
  | blank _ _ ih => exact ih
  | token hlex _ _ ih => exact List.forall_mem_cons.mpr ⟨hlex, ih⟩

/-- A text ends a token whatever stands behind it, white space at its end included. -/
lemma Ends.append_blank (h : Ends t w) (hv : ∀ c ∈ v, isBlank c = true) : Ends t (w ++ v) := by
  cases w with
  | nil =>
    cases v with
    | nil => exact h
    | cons c v =>
      have hc := hv c (List.mem_cons_self ..)
      refine ⟨fun _ => ⟨?_, ?_⟩, fun _ hhead => ?_⟩
      · intro d hd
        obtain rfl : c = d := by simpa using hd
        exact isNameRest_of_isBlank hc
      · intro d ds heq
        obtain rfl : c = '.' := (List.cons.inj heq).1
        exact absurd hc (by decide)
      · obtain rfl : c = '>' := by simpa using hhead
        exact absurd hc (by decide)
  | cons c w =>
    refine ⟨fun hkind => ⟨(h.1 hkind).1, fun d ds heq => ?_⟩, h.2⟩
    obtain ⟨rfl, htail⟩ := List.cons.inj heq
    cases w with
    | cons e w =>
      obtain ⟨rfl, -⟩ := List.cons.inj htail
      exact (h.1 hkind).2 e w rfl
    | nil =>
      obtain rfl : v = d :: ds := htail
      have hd := isNameRest_of_isBlank (hv d (List.mem_cons_self ..))
      cases hstart : isNameStart d with
      | false => rfl
      | true =>
        rw [isNameRest_of_isNameStart hstart] at hd
        exact absurd hd (by decide)

/-- A token that ends in front of a text ends in front of the beginning of the text. -/
lemma Ends.of_append (h : Ends t (w ++ v)) : Ends t w := by
  cases w with
  | nil => exact ⟨fun _ => ⟨by simp, by simp⟩, by simp⟩
  | cons c w =>
    refine ⟨fun hkind => ⟨(h.1 hkind).1, fun d ds heq => ?_⟩, h.2⟩
    exact (h.1 hkind).2 d (ds ++ v) (by rw [heq]; rfl)

/-- White space at the end of a text spells nothing. -/
lemma spells_append_blank (hv : ∀ c ∈ v, isBlank c = true) : Spells ts (w ++ v) ↔ Spells ts w := by
  constructor
  · intro h
    generalize hx : w ++ v = x at h
    induction h generalizing w v with
    | nil =>
      obtain ⟨rfl, -⟩ := List.append_eq_nil_iff.mp hx
      exact .nil
    | @blank c ts x hc _ ih =>
      cases w with
      | nil =>
        obtain rfl : v = c :: x := hx
        exact ih (w := []) (fun d hd => hv d (List.mem_cons_of_mem c hd)) rfl
      | cons d w =>
        obtain ⟨rfl, rfl⟩ := List.cons.inj hx
        exact .blank hc (ih hv rfl)
    | @token t ts x hlex hends _ ih =>
      -- the token ends in front of the white space, since no token ends with any
      rcases List.append_eq_append_iff.mp hx with ⟨u, htext, rfl⟩ | ⟨u, rfl, rfl⟩
      · obtain ⟨-, p, d, htext', hd⟩ := hlex.isBlank_eq_false
        rcases u.eq_nil_or_concat with rfl | ⟨u, e, rfl⟩
        · obtain rfl : t.text = w := by simpa using htext
          simpa using Spells.token (w := []) hlex ⟨fun _ => ⟨by simp, by simp⟩, by simp⟩
            (ih (w := []) hv rfl)
        · have hlast : p ++ [d] = (w ++ u) ++ [e] := by
            rw [← htext', htext]
            simp
          obtain rfl : d = e := by simpa using congrArg List.getLast? hlast
          rw [hv d (by simp)] at hd
          exact absurd hd (by decide)
      · exact .token hlex hends.of_append (ih hv rfl)
  · intro h
    induction h with
    | nil =>
      rw [List.nil_append]
      induction v with
      | nil => exact .nil
      | cons c v ih =>
        exact .blank (hv c (List.mem_cons_self ..)) (ih fun d hd => hv d (List.mem_cons_of_mem c hd))
    | blank hc _ ih => exact .blank hc ih
    | token hlex hends _ ih =>
      rw [List.append_assoc]
      exact .token hlex (hends.append_blank hv) ih

/-- The tokens of a text are those that spell it. -/
theorem tokens_eq_ok_iff : tokens w = .ok ts ↔ Spells ts w := by
  obtain ⟨v, hv, hw⟩ := Text.exists_trimEnd_append w
  rw [tokens, scan_eq_ok_iff, ← spells_append_blank hv, ← hw]

/-- White space at the end makes no difference to the tokens. -/
lemma tokens_trimEnd (w : Text) : tokens w.trimEnd = tokens w := by
  rw [tokens, tokens, Text.trimEnd_trimEnd]

lemma tokens_cons_of_blank (h : isBlank c = true) : tokens (c :: w) = tokens w := by
  rw [tokens, tokens, Text.trimEnd_cons_of_blank h]
  split
  · next hw => rw [hw]
  · exact scan_blank h

/-- White space at either end of a text holds no tokens. -/
lemma tokens_trim (w : Text) : tokens w.trim = tokens w := by
  rw [Text.trim_eq, tokens_trimEnd]
  induction w with
  | nil => rfl
  | cons c w ih =>
    cases hc : isBlank c with
    | true => rw [List.dropWhile_cons_of_pos hc, tokens_cons_of_blank hc, ih]
    | false => rw [List.dropWhile_cons_of_neg (by simp [hc])]

end

end Token

end Ambient

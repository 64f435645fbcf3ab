import Mathlib
import Ambient.Proofs.Json.Grammar
import Ambient.Proofs.Text.Letter
import Ambient.Proofs.Text.Lines
import Ambient.Proofs.Text.Trim

/-!
# Space between the tokens

`Respaced` relates two texts that are the same but for the separators at their ends and in gaps: runs of
separators of which one at least is no space.  No text between quotation marks holds such a gap, so both
are read as the same value (`read_of_respaced`).  The induction over the value shows as well which
characters a text that is read can hold (`isReadable_of_read`).

A text is respaced to its lines that show something (`BeginsWith.respaced`), so texts whose lines show
the same are read as the same value (`read_of_shown`), whatever the indentation of the lines, the white
space at their ends and the empty lines between them.
-/

namespace Ambient

namespace Json

variable {α : Type} {c d : Char} {cs cs' ds s s' t t' rest u g g' : Text} {ps : Points}
  {v : Json Points} {n : ℕ}

/-- Separators that stand in no text between quotation marks, as one at least is no space. -/
structure IsGap (g : Text) : Prop where
  separates : ∀ c ∈ g, isSeparator c = true
  breaks : ∃ c ∈ g, c ≠ ' '

/-- Two texts with other separators at their ends and in gaps. -/
inductive Respaced : Text → Text → Prop
  | done {s s' : Text} : (∀ c ∈ s, isSeparator c = true) → (∀ c ∈ s', isSeparator c = true) →
      Respaced s s'
  | keep (c : Char) {t t' : Text} : Respaced t t' → Respaced (c :: t) (c :: t')
  | gap {g g' t t' : Text} : IsGap g → IsGap g' → Respaced t t' → Respaced (g ++ t) (g' ++ t')

lemma Respaced.symm (h : Respaced t t') : Respaced t' t := by
  induction h with
  | done hs hs' => exact .done hs' hs
  | keep c _ ih => exact .keep c ih
  | gap hg hg' _ ih => exact .gap hg' hg ih

/-- Texts stay respaced behind the same text. -/
lemma Respaced.append (u : Text) (h : Respaced t t') : Respaced (u ++ t) (u ++ t') := by
  induction u with
  | nil => exact h
  | cons c u ih => exact .keep c ih

lemma isBlank_of_isSeparator (h : isSeparator c = true) : isBlank c = true := by
  simp only [isSeparator, Bool.or_eq_true, beq_iff_eq] at h
  rcases h with ((rfl | rfl) | rfl) | rfl <;> decide

lemma skip_of_forall (h : ∀ c ∈ s, isSeparator c = true) : skip s = [] :=
  List.dropWhile_eq_nil_iff.mpr h

lemma skip_append (h : ∀ c ∈ s, isSeparator c = true) (t : Text) : skip (s ++ t) = skip t :=
  List.dropWhile_append_of_pos h

/-- Texts stay respaced when their separators are skipped. -/
lemma Respaced.skip (h : Respaced t t') : Respaced (skip t) (Json.skip t') := by
  induction h with
  | done hs hs' =>
    rw [skip_of_forall hs, skip_of_forall hs']
    exact .done (by simp) (by simp)
  | @keep c t t' h ih =>
    cases hc : isSeparator c with
    | true => rwa [Json.skip, Json.skip, List.dropWhile_cons_of_pos hc, List.dropWhile_cons_of_pos hc]
    | false =>
      have hneg : ¬ isSeparator c = true := by simp [hc]
      rw [Json.skip, Json.skip, List.dropWhile_cons_of_neg hneg, List.dropWhile_cons_of_neg hneg]
      exact .keep c h
  | gap hg hg' _ ih => rwa [skip_append hg.separates, skip_append hg'.separates]

/-- What is no separator is the same in both texts. -/
lemma Respaced.exists_cons (h : Respaced (c :: t) t') (hc : isSeparator c = false) :
    ∃ u, t' = c :: u ∧ Respaced t u := by
  generalize heq : c :: t = cs at h
  cases h with
  | done hs =>
    subst heq
    rw [hs c List.mem_cons_self] at hc
    cases hc
  | keep d h =>
    obtain ⟨rfl, rfl⟩ := List.cons.inj heq
    exact ⟨_, rfl, h⟩
  | @gap g g' t _ hg =>
    obtain ⟨d, g, rfl⟩ := List.exists_cons_of_ne_nil (l := g) (by
      rintro rfl
      obtain ⟨e, he, -⟩ := hg.breaks
      cases he)
    obtain rfl := (List.cons.inj heq).1
    rw [hg.separates c List.mem_cons_self] at hc
    cases hc

/-- The characters of words and numbers. -/
def isScalarChar (c : Char) : Bool :=
  c.isAlphanum || c == '.' || c == '+' || c == '-'

/-- Two texts begin with the same characters of a word or a number, and are respaced behind them. -/
structure Ahead (used t t' u u' : Text) : Prop where
  left : t = used ++ u
  right : t' = used ++ u'
  plain : ∀ c ∈ used, isScalarChar c = true
  respaced : Respaced u u'

/-- Of two texts nothing is read, or of both the same, and they are respaced behind it. -/
def Agree (t t' : Text) (x x' : Option (α × Text)) : Prop :=
  (x = none ∧ x' = none) ∨
    ∃ a used u u', x = some (a, u) ∧ x' = some (a, u') ∧ Ahead used t t' u u'

/-- A text is empty or begins with a separator. -/
def AtEnd (t : Text) : Prop :=
  ∀ c ∈ t.head?, isSeparator c = true

lemma isSeparator_of_isScalarChar (h : isScalarChar c = true) : isSeparator c = false := by
  rw [← Bool.not_eq_true]
  intro hseparates
  simp only [isSeparator, Bool.or_eq_true, beq_iff_eq] at hseparates
  rcases hseparates with ((rfl | rfl) | rfl) | rfl <;> exact absurd h (by decide)

lemma isScalarChar_of_isDigit (h : c.isDigit = true) : isScalarChar c = true := by
  simp [isScalarChar, Char.isAlphanum, h]

lemma AtEnd.head?_ne (h : AtEnd t) (hc : isScalarChar c = true) (u : Text) : t ≠ c :: u := by
  rintro rfl
  have hseparates := h c rfl
  rw [isSeparator_of_isScalarChar hc] at hseparates
  cases hseparates

/-- Two respaced texts begin with the same character, or both are at an end. -/
lemma Respaced.head_or (h : Respaced t t') :
    (∃ c u u', t = c :: u ∧ t' = c :: u' ∧ Respaced u u') ∨ (AtEnd t ∧ AtEnd t') := by
  have hend : ∀ {s : Text}, (∀ c ∈ s, isSeparator c = true) → AtEnd s := fun hs c hc =>
    hs c (List.mem_of_head? hc)
  have hgap : ∀ {g : Text} (t), IsGap g → AtEnd (g ++ t) := by
    intro g t hg c hc
    obtain ⟨d, hd, -⟩ := hg.breaks
    rw [List.head?_append_of_ne_nil _ (List.ne_nil_of_mem hd)] at hc
    exact hg.separates c (List.mem_of_head? hc)
  cases h with
  | done hs hs' => exact Or.inr ⟨hend hs, hend hs'⟩
  | keep c h => exact Or.inl ⟨c, _, _, rfl, rfl, h⟩
  | gap hg hg' _ => exact Or.inr ⟨hgap _ hg, hgap _ hg'⟩

/-- Respaced texts have nothing in common that must be read. -/
lemma Respaced.ahead (h : Respaced t t') : Ahead [] t t' t t' :=
  ⟨rfl, rfl, by simp, h⟩

/-- What two texts begin with, and what their rests begin with, they begin with in a row. -/
lemma Ahead.trans {used used' w w' : Text} (h : Ahead used t t' u u') (h' : Ahead used' u u' w w') :
    Ahead (used ++ used') t t' w w' := by
  obtain ⟨rfl, rfl, hused, -⟩ := h
  obtain ⟨rfl, rfl, hused', hrest⟩ := h'
  exact ⟨by simp, by simp, List.forall_mem_append.mpr ⟨hused, hused'⟩, hrest⟩

lemma Respaced.ahead_cons (hc : isScalarChar c = true) (h : Respaced t t') :
    Ahead [c] (c :: t) (c :: t') t t' :=
  ⟨rfl, rfl, by simpa using hc, h⟩

/-- Agreement is kept by what is made of a value. -/
lemma Agree.map {β : Type} {f : α → β} {x x' : Option (α × Text)} (h : Agree t t' x x') :
    Agree t t' (x.map fun y => (f y.1, y.2)) (x'.map fun y => (f y.1, y.2)) := by
  rcases h with ⟨rfl, rfl⟩ | ⟨a, used, u, u', rfl, rfl, h⟩
  · exact Or.inl ⟨rfl, rfl⟩
  · exact Or.inr ⟨f a, used, u, u', rfl, rfl, h⟩

/-- If two ways of reading agree, their alternative does. -/
lemma Agree.or {x x' y y' : Option (α × Text)} (h : Agree t t' x x') (h' : Agree t t' y y') :
    Agree t t' (x.or y) (x'.or y') := by
  rcases h with ⟨rfl, rfl⟩ | ⟨a, used, u, u', rfl, rfl, h⟩
  · exact h'
  · exact Or.inr ⟨a, used, u, u', rfl, rfl, h⟩

/-- What agrees behind a common beginning agrees on the whole. -/
lemma Agree.behind {w w' used : Text} {x x' : Option (α × Text)} (h : Ahead used t t' w w')
    (hx : Agree w w' x x') : Agree t t' x x' := by
  rcases hx with hnone | ⟨a, used', u, u', hx, hx', hrest⟩
  · exact Or.inl hnone
  · exact Or.inr ⟨a, _, u, u', hx, hx', h.trans hrest⟩

lemma digits_cons (hc : c.isDigit = true) (t : Text) :
    digits (c :: t) = (c :: (digits t).1, (digits t).2) := by
  simp [digits, hc]

lemma digits_of_head? (h : ∀ c ∈ t.head?, c.isDigit = false) : digits t = ([], t) := by
  cases t with
  | nil => rfl
  | cons c t => simp [digits, h c rfl]

lemma AtEnd.isDigit (h : AtEnd t) : ∀ c ∈ t.head?, c.isDigit = false := by
  intro c hc
  rw [← Bool.not_eq_true]
  intro hdigit
  have hseparates := isSeparator_of_isScalarChar (isScalarChar_of_isDigit hdigit)
  rw [h c hc] at hseparates
  cases hseparates

/-- The same digits are read. -/
lemma Respaced.digits (h : Respaced t t') :
    ∃ ds u u', Json.digits t = (ds, u) ∧ Json.digits t' = (ds, u') ∧ Ahead ds t t' u u' := by
  induction t generalizing t' with
  | nil =>
    rcases h.head_or with ⟨c, u, u', heq, -, -⟩ | ⟨hend, hend'⟩
    · cases heq
    · exact ⟨[], [], t', rfl, digits_of_head? hend'.isDigit, h.ahead⟩
  | cons c t ih =>
    rcases h.head_or with ⟨_, _, u', heq, rfl, hrest⟩ | ⟨hend, hend'⟩
    · obtain ⟨rfl, rfl⟩ := List.cons.inj heq
      cases hc : c.isDigit with
      | true =>
        obtain ⟨ds, w, w', hw, hw', hahead⟩ := ih hrest
        refine ⟨c :: ds, w, w', ?_, ?_, (hrest.ahead_cons (isScalarChar_of_isDigit hc)).trans hahead⟩
        · rw [digits_cons hc, hw]
        · rw [digits_cons hc, hw']
      | false =>
        have hhead : ∀ v, ∀ d ∈ (c :: v).head?, d.isDigit = false := by
          intro v d hd
          rwa [← Option.some.inj hd]
        exact ⟨[], _, _, digits_of_head? (hhead _), digits_of_head? (hhead _), h.ahead⟩
    · exact ⟨[], _, _, digits_of_head? hend.isDigit, digits_of_head? hend'.isDigit, h.ahead⟩

lemma Respaced.wholeDigits? (h : Respaced t t') :
    Agree t t' (Json.wholeDigits? t) (Json.wholeDigits? t') := by
  have hnone : ∀ {t}, AtEnd t → Json.wholeDigits? t = none := by
    intro t hend
    unfold Json.wholeDigits?
    split
    · next cs => exact absurd rfl (hend.head?_ne (by decide) cs)
    · next c cs _ => simp [hend.isDigit c rfl]
    · rfl
  rcases h.head_or with ⟨c, u, u', rfl, rfl, hrest⟩ | ⟨hend, hend'⟩
  · by_cases hzero : c = '0'
    · subst hzero
      exact Or.inr ⟨['0'], _, u, u', rfl, rfl, hrest.ahead_cons (by decide)⟩
    · rw [Json.wholeDigits?.eq_2 _ _ hzero, Json.wholeDigits?.eq_2 _ _ hzero]
      split_ifs with hc
      · obtain ⟨ds, w, w', hw, hw', hahead⟩ := hrest.digits
        rw [hw, hw']
        exact Or.inr ⟨c :: ds, _, w, w', rfl, rfl,
          (hrest.ahead_cons (isScalarChar_of_isDigit hc)).trans hahead⟩
      · exact Or.inl ⟨rfl, rfl⟩
  · exact Or.inl ⟨hnone hend, hnone hend'⟩

lemma Respaced.fraction? (h : Respaced t t') :
    Agree t t' (Json.fraction? t) (Json.fraction? t') := by
  have hnone : ∀ {t}, (∀ u, t ≠ '.' :: u) → Json.fraction? t = none := by
    intro t ht
    unfold Json.fraction?
    split
    · next cs => exact absurd rfl (ht cs)
    · rfl
  rcases h.head_or with ⟨c, u, u', rfl, rfl, hrest⟩ | ⟨hend, hend'⟩
  · by_cases hpoint : c = '.'
    · subst hpoint
      obtain ⟨ds, w, w', hw, hw', hahead⟩ := hrest.digits
      rw [Json.fraction?, Json.fraction?, hw, hw']
      split_ifs
      · exact Or.inl ⟨rfl, rfl⟩
      · exact Or.inr ⟨ds, _, w, w', rfl, rfl, (hrest.ahead_cons (by decide)).trans hahead⟩
    · have hne : ∀ v w, c :: v ≠ '.' :: w := fun v w heq => hpoint (List.cons.inj heq).1
      exact Or.inl ⟨hnone (hne u), hnone (hne u')⟩
  · exact Or.inl ⟨hnone (hend.head?_ne (by decide)), hnone (hend'.head?_ne (by decide))⟩

/-- The same sign is read of respaced texts. -/
lemma Respaced.sign (h : Respaced t t') :
    ∃ negative used u u', Json.sign t = (negative, u) ∧ Json.sign t' = (negative, u') ∧
      Ahead used t t' u u' := by
  have hnone : ∀ {t}, (∀ u, t ≠ '-' :: u) → (∀ u, t ≠ '+' :: u) → Json.sign t = (false, t) := by
    intro t hminus hplus
    unfold Json.sign
    split
    · next cs => exact absurd rfl (hminus cs)
    · next cs => exact absurd rfl (hplus cs)
    · rfl
  rcases h.head_or with ⟨c, u, u', rfl, rfl, hrest⟩ | ⟨hend, hend'⟩
  · by_cases hminus : c = '-'
    · subst hminus
      exact ⟨true, _, u, u', rfl, rfl, hrest.ahead_cons (by decide)⟩
    by_cases hplus : c = '+'
    · subst hplus
      exact ⟨false, _, u, u', rfl, rfl, hrest.ahead_cons (by decide)⟩
    have hne : ∀ v, Json.sign (c :: v) = (false, c :: v) := fun v =>
      hnone (fun w heq => hminus (List.cons.inj heq).1) fun w heq => hplus (List.cons.inj heq).1
    exact ⟨false, [], _, _, hne u, hne u', h.ahead⟩
  · exact ⟨false, [], t, t', hnone (hend.head?_ne (by decide)) (hend.head?_ne (by decide)),
      hnone (hend'.head?_ne (by decide)) (hend'.head?_ne (by decide)), h.ahead⟩

lemma Respaced.power? (h : Respaced t t') : Agree t t' (Json.power? t) (Json.power? t') := by
  have hnone : ∀ {t}, AtEnd t → Json.power? t = none := by
    intro t hend
    cases t with
    | nil => rfl
    | cons c t =>
      have hmark : ¬ (c = 'e' ∨ c = 'E') := by
        rintro (rfl | rfl)
        · exact hend.head?_ne (by decide) t rfl
        · exact hend.head?_ne (by decide) t rfl
      simp [Json.power?, hmark]
  rcases h.head_or with ⟨c, u, u', rfl, rfl, hrest⟩ | ⟨hend, hend'⟩
  · by_cases hmark : c = 'e' ∨ c = 'E'
    · have hc : isScalarChar c = true := by rcases hmark with rfl | rfl <;> decide
      obtain ⟨negative, used, w, w', hw, hw', hsign⟩ := hrest.sign
      obtain ⟨ds, x, x', hx, hx', hdigits⟩ := hsign.respaced.digits
      have hahead := ((hrest.ahead_cons hc).trans hsign).trans hdigits
      simp only [Json.power?, Bool.or_eq_true, decide_eq_true_eq, hmark, if_true, hw, hw', hx, hx']
      by_cases hnil : ds.isEmpty = true
      · simp only [hnil, if_true]
        exact Or.inl ⟨rfl, rfl⟩
      · simp only [hnil, Bool.false_eq_true, if_false]
        exact Or.inr ⟨_, _, x, x', rfl, rfl, hahead⟩
    · simp only [Json.power?, Bool.or_eq_true, decide_eq_true_eq, hmark, if_false]
      exact Or.inl ⟨rfl, rfl⟩
  · exact Or.inl ⟨hnone hend, hnone hend'⟩

/-- The same number is read of respaced texts. -/
lemma Respaced.unsigned? (h : Respaced t t') (negative : Bool) :
    Agree t t' (Json.unsigned? negative t) (Json.unsigned? negative t') := by
  rcases h.wholeDigits? with ⟨hw, hw'⟩ | ⟨whole, used, u, u', hw, hw', hwhole⟩
  · refine Or.inl ⟨?_, ?_⟩
    · rw [Json.unsigned?, hw]
      rfl
    · rw [Json.unsigned?, hw']
      rfl
  obtain ⟨tenths, digits, x, x', hx, hx', htenths⟩ :
      ∃ tenths digits x x', (Json.fraction? u).elim ([], u) id = (tenths, x) ∧
        (Json.fraction? u').elim ([], u') id = (tenths, x') ∧ Ahead digits u u' x x' := by
    rcases hwhole.respaced.fraction? with ⟨hno, hno'⟩ | ⟨ds, digits, x, x', hx, hx', hahead⟩
    · exact ⟨[], [], u, u', by rw [hno]; rfl, by rw [hno']; rfl, hwhole.respaced.ahead⟩
    · exact ⟨ds, digits, x, x', by rw [hx]; rfl, by rw [hx']; rfl, hahead⟩
  have hboth := hwhole.trans htenths
  rcases htenths.respaced.power? with ⟨hp, hp'⟩ | ⟨e, mark, y, y', hp, hp', hpower⟩
  · simp only [Json.unsigned?, hw, hw', Option.bind_eq_bind, Option.bind_some, hx, hx', hp, hp',
      Option.isNone_none, Bool.and_true]
    by_cases hwhole : tenths.isEmpty = true
    · simp only [hwhole, if_true]
      exact Or.inr ⟨_, _, x, x', rfl, rfl, hboth⟩
    · simp only [hwhole, Bool.false_eq_true, if_false]
      exact Or.inr ⟨_, _, x, x', rfl, rfl, hboth⟩
  · simp only [Json.unsigned?, hw, hw', Option.bind_eq_bind, Option.bind_some, hx, hx', hp, hp',
      Option.isNone_some, Bool.and_false, Bool.false_eq_true, if_false]
    exact Or.inr ⟨_, _, y, y', rfl, rfl, hboth.trans hpower⟩

/-- The same word is read, if it is made of the characters of words. -/
lemma Respaced.after? {w : Text} (hw : ∀ c ∈ w, isScalarChar c = true) (h : Respaced t t') :
    (Text.after? w t = none ∧ Text.after? w t' = none) ∨
      ∃ u u', Text.after? w t = some u ∧ Text.after? w t' = some u' ∧ Ahead w t t' u u' := by
  induction w generalizing t t' with
  | nil => exact Or.inr ⟨t, t', rfl, rfl, h.ahead⟩
  | cons a w ih =>
    obtain ⟨ha, hw⟩ := List.forall_mem_cons.mp hw
    have hnone : ∀ {t}, (∀ u, t ≠ a :: u) → Text.after? (a :: w) t = none := by
      intro t ht
      cases t with
      | nil => rfl
      | cons b t => exact if_neg fun hab => ht t (by rw [hab])
    rcases h.head_or with ⟨c, u, u', rfl, rfl, hrest⟩ | ⟨hend, hend'⟩
    · by_cases hac : a = c
      · subst hac
        have hafter : ∀ v, Text.after? (a :: w) (a :: v) = Text.after? w v := fun v => if_pos rfl
        rw [hafter, hafter]
        rcases ih hw hrest with hno | ⟨x, x', hx, hx', hahead⟩
        · exact Or.inl hno
        · exact Or.inr ⟨x, x', hx, hx', (hrest.ahead_cons ha).trans hahead⟩
      · exact Or.inl ⟨if_neg hac, if_neg hac⟩
    · exact Or.inl ⟨hnone (hend.head?_ne ha), hnone (hend'.head?_ne ha)⟩

lemma Respaced.word? (h : Respaced t t') : Agree t t' (Json.word? t) (Json.word? t') := by
  have hwords : ∀ entry ∈ words, ∀ c ∈ entry.1, isScalarChar c = true := by
    simp [words, isScalarChar, Char.isAlphanum, Char.isAlpha, Char.isUpper, Char.isLower]
  unfold Json.word?
  generalize words = entries at hwords ⊢
  induction entries with
  | nil => exact Or.inl ⟨rfl, rfl⟩
  | cons entry entries ih =>
    obtain ⟨hentry, hentries⟩ := List.forall_mem_cons.mp hwords
    specialize ih hentries
    rw [List.findSome?_cons, List.findSome?_cons]
    rcases h.after? hentry with ⟨hno, hno'⟩ | ⟨u, u', hu, hu', hahead⟩
    · rw [hno, hno']
      exact ih
    · rw [hu, hu']
      exact Or.inr ⟨entry.2, _, u, u', rfl, rfl, hahead⟩

/-- The characters that a text which is read can hold. -/
def isReadable (c : Char) : Bool :=
  isSeparator c || 32 ≤ c.toNat

/-- Readable characters in front of a rest. -/
def ReadsTo (cs rest : Text) : Prop :=
  ∃ used, cs = used ++ rest ∧ ∀ c ∈ used, isReadable c = true

lemma ReadsTo.trans (h : ReadsTo t u) (h' : ReadsTo u rest) : ReadsTo t rest := by
  obtain ⟨used, rfl, hused⟩ := h
  obtain ⟨used', rfl, hused'⟩ := h'
  exact ⟨used ++ used', by simp, List.forall_mem_append.mpr ⟨hused, hused'⟩⟩

lemma Respaced.refl (t : Text) : Respaced t t := by
  have hnil : Respaced [] [] := .done (by simp) (by simp)
  have h := hnil.append t
  rwa [List.append_nil] at h

/-- Further lines behind one. -/
def further : List Text → Text
  | [] => []
  | l :: ls => '\n' :: Text.unlines (l :: ls)

lemma unlines_cons (l : Text) (ls : List Text) : Text.unlines (l :: ls) = l ++ further ls := by
  cases ls with
  | nil => exact (List.append_nil l).symm
  | cons k ls => exact Text.unlines_cons_cons l k ls

/-- A text begins with the first line that shows something, with separators in front of it, and is
respaced behind it; or it holds separators only. -/
def BeginsWith (t : Text) : List Text → Prop
  | [] => ∀ c ∈ t, isSeparator c = true
  | l :: ls => ∃ front u, t = front ++ (l ++ u) ∧ (∀ c ∈ front, isSeparator c = true) ∧
      (∀ c ∈ l.head?, isBlank c = false) ∧ l ≠ [] ∧ Respaced u (further ls)

/-- Separators in front of a text leave the line that it begins with. -/
lemma BeginsWith.append {ls : List Text} (h : BeginsWith t ls) (hs : ∀ c ∈ s, isSeparator c = true) :
    BeginsWith (s ++ t) ls := by
  cases ls with
  | nil => exact List.forall_mem_append.mpr ⟨hs, h⟩
  | cons l ls =>
    obtain ⟨front, u, rfl, hfront, hrest⟩ := h
    exact ⟨s ++ front, u, by simp, List.forall_mem_append.mpr ⟨hs, hfront⟩, hrest⟩

/-- A text is respaced to the lines that it begins with. -/
lemma BeginsWith.respaced {ls : List Text} (h : BeginsWith t ls) :
    Respaced (Json.skip t) (Text.unlines ls) := by
  cases ls with
  | nil =>
    rw [skip_of_forall h]
    exact .done (by simp) (by simp [Text.unlines, Text.joinWith])
  | cons l ls =>
    obtain ⟨front, u, rfl, hfront, hhead, hne, hu⟩ := h
    obtain ⟨c, l, rfl⟩ := List.exists_cons_of_ne_nil hne
    have hc : ¬ isSeparator c = true := fun hseparates =>
      absurd (isBlank_of_isSeparator hseparates) (Bool.eq_false_iff.mp (hhead c rfl))
    rw [skip_append hfront, Json.skip, List.cons_append, List.dropWhile_cons_of_neg hc,
      ← List.cons_append, unlines_cons]
    exact hu.append (c :: l)

end Json

end Ambient

import Mathlib
import Ambient.Html.Event
import Ambient.Proofs.Markdown.LineBreak

/-!
# Line breaks and tags

A tag goes from an opening bracket, behind which stand a letter or a slash, to the next closing
bracket, and has no other bracket within.  No break reaches over the border of a tag
(`breakFrom_append_tag`): what becomes of a text is put together of what becomes of its tags and of the
pieces of text between them.  No tag is made but those that breaks are written as
(`Breaks.isInfix_of_isInfix`).

A piece of text with its breaks written as tags is still text at both ends.  A tag, however, may hold a
break itself, where its attributes stand on lines of their own: nothing but the two characters next to
a gap tells prose from markup.  That break is written as a tag within the tag.  So the tags of a text
are kept if none of them holds a break (`keepsTags_of_breakFree`), and only then (`KeepsTags.breakFree`).
-/

namespace Ambient

namespace Markdown

/-! ### Tags -/

/-- The start of a tag behind its opening bracket. -/
def opensTag (t : Text) : Bool :=
  t.head?.elim false fun c => c == '/' || Html.isTagStart c

/-- Whether a tag goes on with a character. -/
def staysInTag (c : Char) : Bool :=
  !(c == '<' || c == '>')

/-- A tag with its brackets. -/
def IsTag (p : Text) : Prop :=
  ∃ body, p = '<' :: (body ++ ['>']) ∧ opensTag body = true ∧ ∀ c ∈ body, staysInTag c = true

/-- A tag at the start of a text, and what follows it. -/
def tag? (t : Text) : Option (Text × Text) :=
  match t with
  | '<' :: t =>
    if opensTag t then
      match t.dropWhile staysInTag with
      | '>' :: rest => some ('<' :: (t.takeWhile staysInTag ++ ['>']), rest)
      | _ => none
    else none
  | _ => none

/-- The tag that a line break is written as. -/
def breakTag : Stretch :=
  ⟨true, "<br>"⟩

/-- Pieces of text with line breaks between them. -/
inductive Interrupted : List Stretch → Prop
  | text {t : Text} : t ≠ [] → Interrupted [⟨false, t⟩]
  | breaks {t : Text} {ss : List Stretch} (n : ℕ) : t ≠ [] → Interrupted ss →
      Interrupted (⟨false, t⟩ :: (List.replicate (n + 1) breakTag ++ ss))

/-- A tag that is kept as it is, or a piece of text that is interrupted by line breaks. -/
inductive Keeps : Stretch → List Stretch → Prop
  | tag (p : Text) : Keeps ⟨true, p⟩ [⟨true, p⟩]
  | text (t : Text) {ss : List Stretch} : Interrupted ss → Keeps ⟨false, t⟩ ss

/-- The tags of a text are kept in their order, and no tag is added but line breaks between two pieces
of text. -/
def KeepsTags (s o : Text) : Prop :=
  ∃ groups, List.Forall₂ Keeps (cut tag? s) groups ∧ cut tag? o = groups.flatten

variable {before : Option Char} {c : Char} {s o t u p w rest body : Text}

/-- The body of a tag is taken up to its closing bracket. -/
lemma takeWhile_staysInTag (hbody : ∀ c ∈ body, staysInTag c = true) (rest : Text) :
    (body ++ '>' :: rest).takeWhile staysInTag = body ∧
      (body ++ '>' :: rest).dropWhile staysInTag = '>' :: rest := by
  rw [List.takeWhile_append_of_pos hbody, List.dropWhile_append_of_pos hbody]
  exact ⟨List.append_nil body, rfl⟩

/-- What opens a tag does so whatever follows. -/
lemma opensTag_append (h : opensTag body = true) (u : Text) : opensTag (body ++ u) = true := by
  cases body with
  | nil => cases h
  | cons c body => exact h

/-- A tag is found whatever follows it. -/
lemma tag?_append (hp : IsTag p) (rest : Text) : tag? (p ++ rest) = some (p, rest) := by
  obtain ⟨body, rfl, hopens, hbody⟩ := hp
  obtain ⟨htake, hdrop⟩ := takeWhile_staysInTag hbody rest
  have htext : '<' :: (body ++ ['>']) ++ rest = '<' :: (body ++ '>' :: rest) := by simp
  rw [htext, tag?, if_pos (opensTag_append hopens _), hdrop, htake]
  rfl

/-- A tag is found at the start of a text exactly if it stands there. -/
lemma tag?_eq_some_iff : tag? t = some (p, rest) ↔ IsTag p ∧ t = p ++ rest := by
  constructor
  · intro h
    unfold tag? at h
    split at h
    · next t =>
      split_ifs at h with hopens
      split at h
      · next rest' hdrop =>
        obtain ⟨rfl, rfl⟩ := Prod.mk.inj (Option.some.inj h)
        have hsplit : t = t.takeWhile staysInTag ++ '>' :: rest' := by
          rw [← hdrop, List.takeWhile_append_dropWhile]
        refine ⟨⟨t.takeWhile staysInTag, rfl, ?_, fun c hc => List.mem_takeWhile_imp hc⟩, ?_⟩
        · -- a bracket does not open a tag, so that its first character belongs to it
          cases t with
          | nil => cases hopens
          | cons c t =>
            have hc : staysInTag c = true := by
              by_contra hno
              rw [staysInTag, Bool.not_eq_true, Bool.not_eq_false', Bool.or_eq_true, beq_iff_eq,
                beq_iff_eq] at hno
              rcases hno with rfl | rfl
              · exact Bool.false_ne_true hopens
              · exact Bool.false_ne_true hopens
            rw [List.takeWhile_cons_of_pos hc]
            exact hopens
        · simpa using hsplit
      · cases h
    · cases h
  · rintro ⟨hp, rfl⟩
    exact tag?_append hp rest

/-- Tags are found at the start of a text, whatever follows them. -/
lemma isFinder_tag : IsFinder tag? where
  eq_append h := (tag?_eq_some_iff.mp h).2
  ne_nil h := by
    obtain ⟨⟨body, rfl, -⟩, -⟩ := tag?_eq_some_iff.mp h
    exact List.cons_ne_nil _ _
  anywhere h := tag?_append (tag?_eq_some_iff.mp h).1

lemma IsTag.bracket_notMem_tail (hp : IsTag p) : '<' ∉ p.tail := by
  obtain ⟨body, rfl, -, hbody⟩ := hp
  intro hmem
  rcases List.mem_append.mp hmem with hmem | hmem
  · exact absurd (hbody '<' hmem) (by decide)
  · exact absurd (List.mem_singleton.mp hmem) (by decide)

lemma IsTag.exists_cons (hp : IsTag p) : ∃ u, p = '<' :: u := by
  obtain ⟨body, rfl, -⟩ := hp
  exact ⟨_, rfl⟩

/-- No tag goes on over an opening bracket. -/
lemma tag?_append_bracket (h : tag? (c :: s) = none) (v : Text) :
    tag? (c :: s ++ '<' :: v) = none := by
  rw [Option.eq_none_iff_forall_ne_some]
  rintro ⟨p, rest⟩ hsome
  obtain ⟨hp, heq⟩ := tag?_eq_some_iff.mp hsome
  have hnot : ∀ w, c :: s ≠ p ++ w := by
    intro w hw
    rw [hw, tag?_append hp] at h
    cases h
  obtain ⟨w, rfl, hw⟩ | ⟨w, hw, -⟩ := List.append_eq_append_iff.mp heq
  · cases w with
    | nil => exact hnot [] (by simp)
    | cons d w =>
      obtain ⟨rfl, -⟩ := List.cons.inj hw
      exact hp.bracket_notMem_tail (List.mem_append_right s List.mem_cons_self)
  · exact hnot w hw

/-- If no tag begins in a text by itself, none does in front of a bracket. -/
lemma pieceFree_bracket (hs : PieceFree tag? [] s) (v : Text) : PieceFree tag? ('<' :: v) s := by
  induction s with
  | nil => trivial
  | cons c s ih =>
    have hno := hs.1
    rw [List.append_nil] at hno
    exact ⟨tag?_append_bracket hno v, ih hs.2⟩

/-- A text that a tag follows is cut in front of the tag. -/
lemma cut_append_tag (hp : IsTag p) (x w : Text) :
    cut tag? (x ++ (p ++ w)) = cut tag? x ++ ⟨true, p⟩ :: cut tag? w := by
  have hfind := tag?_append hp w
  induction x using cut_induction isFinder_tag with
  | last s hs =>
    obtain ⟨u, hu⟩ := hp.exists_cons
    have hfree : PieceFree tag? (p ++ w) s := by
      rw [hu]
      exact pieceFree_bracket hs _
    rw [cut_append_piece isFinder_tag hfind hfree, cut_of_pieceFree isFinder_tag hs]
  | piece s q v hq hs ih =>
    obtain ⟨hqtag, -⟩ := tag?_eq_some_iff.mp hq
    obtain ⟨u, hu⟩ := hqtag.exists_cons
    have hfree : PieceFree tag? (q ++ (v ++ (p ++ w))) s := by
      rw [hu]
      exact pieceFree_bracket (hs.mono isFinder_tag) _
    have hassoc : s ++ (q ++ v) ++ (p ++ w) = s ++ (q ++ (v ++ (p ++ w))) := by simp
    rw [hassoc, cut_append_piece isFinder_tag (tag?_append hqtag _) hfree, ih,
      cut_append_piece isFinder_tag hq hs]
    simp

/-- The tags that a text is cut at are the tags that stand in it. -/
lemma mem_cut_tag_iff : ⟨true, p⟩ ∈ cut tag? t ↔ IsTag p ∧ p <:+: t := by
  constructor
  · intro hmem
    induction t using cut_induction isFinder_tag with
    | last s hs =>
      rw [cut_of_pieceFree isFinder_tag hs] at hmem
      exact absurd hmem (mem_between s)
    | piece s q w hq hs ih =>
      rw [cut_append_piece isFinder_tag hq hs] at hmem
      rcases List.mem_append.mp hmem with hmem | hmem
      · exact absurd hmem (mem_between s)
      · obtain ⟨hqtag, -⟩ := tag?_eq_some_iff.mp hq
        rcases List.mem_cons.mp hmem with heq | hmem
        · obtain rfl : p = q := congrArg Stretch.text heq
          exact ⟨hqtag, s, w, List.append_assoc ..⟩
        · obtain ⟨hp, x, y, rfl⟩ := ih hmem
          exact ⟨hp, s ++ (q ++ x), y, by simp⟩
  · rintro ⟨hp, x, y, rfl⟩
    rw [List.append_assoc, cut_append_tag hp]
    exact List.mem_append_right _ List.mem_cons_self

/-! ### Breaks and the border of a tag -/

/-- No break reaches over the border between two texts. -/
def Borders (s t : Text) : Prop :=
  t = [] ∨ t.head? = some '<' ∨ s.getLast? = some '>'

/-- A break in front of a border does not reach over it. -/
lemma BreaksAt.of_append (hborder : Borders s t) (h : BreaksAt before (s ++ t)) (hs : s ≠ []) :
    BreaksAt before s := by
  obtain ⟨x, gap, c, u, hx, hprose, hgap, hfeed, hc, heq⟩ := h
  -- the gap and the character behind it stand in front of the border
  have hnot : ∀ w, gap = s ++ w → t ≠ w ++ c :: u := by
    rintro w rfl rfl
    rcases hborder with hnil | hhead | hlast
    · simp at hnil
    · cases w with
      | nil =>
        obtain rfl : c = '<' := Option.some.inj hhead
        exact absurd hc (by decide)
      | cons d w =>
        obtain rfl : d = '<' := Option.some.inj hhead
        exact absurd (hgap '<' (by simp)) (by decide)
    · have hmem : '>' ∈ s ++ w := List.mem_append_left w (List.mem_of_getLast? hlast)
      exact absurd (hgap '>' hmem) (by decide)
  obtain ⟨w, hgaps, hw⟩ | ⟨w, rfl, hw⟩ := List.append_eq_append_iff.mp heq
  · exact absurd hw (hnot w hgaps)
  · cases w with
    | nil => exact absurd hw.symm (hnot [] (by simp))
    | cons d w =>
      obtain ⟨rfl, -⟩ := List.cons.inj hw
      exact ⟨x, gap, c, w, hx, hprose, hgap, hfeed, hc, rfl⟩

lemma borders_of_cons (h : Borders (c :: s) t) (hs : s ≠ []) : Borders s t := by
  obtain ⟨d, s, rfl⟩ := List.exists_cons_of_ne_nil hs
  rwa [Borders, List.getLast?_cons_cons] at h

/-- Behind what is no prose it does not matter what it is. -/
lemma breakFrom_of_not_endsProse {y : Char} (hy : endsProse y = false) (t : Text) :
    breakFrom (some y) 0 t = breakFrom none 0 t := by
  cases t with
  | nil => rfl
  | cons c t =>
    rw [breakFrom_keep (not_breaksAt_of_endsProse hy _), breakFrom_keep (not_breaksAt_none _)]

/-- What becomes of two texts with no break between them is put together of what becomes of each. -/
lemma Breaks.breakFrom_append (hborder : Borders s t) (h : Breaks before s o) :
    breakFrom before 0 (s ++ t) = o ++ breakFrom (s.getLast?.or before) 0 t := by
  induction h with
  | nil => rfl
  | @keep before c s o hno hrest ih =>
    have hkeep : ¬ BreaksAt before (c :: (s ++ t)) :=
      fun hbreak => hno (hbreak.of_append hborder (List.cons_ne_nil c s))
    rw [List.cons_append, breakFrom_keep hkeep, getLast?_cons_or]
    by_cases hs : s = []
    · subst hs
      rw [hrest.eq_nil_iff.mpr rfl]
      rfl
    · rw [ih (borders_of_cons hborder hs)]
      rfl
  | @gap x y c gap s o hx hgap hfeed hc hy _ ih =>
    have hlast := List.getLast?_eq_some_getLast (List.ne_nil_of_mem hfeed)
    have hz := endsProse_of_isGap (hgap _ (List.mem_of_getLast? hlast))
    rw [Borders, List.getLast?_append_of_ne_nil _ (List.cons_ne_nil c s)] at hborder
    have hrest := ih hborder
    rw [breakFrom_of_not_endsProse hy, getLast?_cons_or] at hrest
    rw [List.append_assoc, List.cons_append, breakFrom_break hx hgap hfeed hc, hlast,
      breakFrom_of_not_endsProse hz, ← List.cons_append, hrest, List.append_assoc,
      List.getLast?_append_of_ne_nil _ (List.cons_ne_nil c s), getLast?_cons_or]

/-- What stands in front of a bracket has no part in the breaks behind it. -/
lemma breakFrom_bracket (before : Option Char) (t : Text) :
    breakFrom before 0 ('<' :: t) = breakFrom none 0 ('<' :: t) := by
  have hno : ∀ before, ¬ BreaksAt before ('<' :: t) := by
    intro before hbreak
    exact absurd (isGap_of_breaksAt hbreak) (by decide)
  rw [breakFrom_keep (hno before), breakFrom_keep (hno none)]

/-- No break reaches over the border of a tag. -/
lemma breakFrom_append_tag (hp : IsTag p) (x w : Text) :
    breakFrom none 0 (x ++ (p ++ w)) =
      breakFrom none 0 x ++ (breakFrom none 0 p ++ breakFrom none 0 w) := by
  obtain ⟨body, rfl, -⟩ := hp
  have hlast : ('<' :: (body ++ ['>'])).getLast? = some '>' := by
    rw [List.getLast?_cons, List.getLast?_append_of_ne_nil _ (List.cons_ne_nil _ _)]
    rfl
  have hfront := (breaks_breakFrom none x).breakFrom_append
    (t := '<' :: (body ++ ['>']) ++ w) (Or.inr (Or.inl rfl))
  have hbehind := (breaks_breakFrom none ('<' :: (body ++ ['>']))).breakFrom_append
    (t := w) (Or.inr (Or.inr hlast))
  rw [hlast, Option.some_or, breakFrom_of_not_endsProse (by decide)] at hbehind
  rw [hfront, List.cons_append, breakFrom_bracket, ← List.cons_append, hbehind]

/-- What becomes of a text is put together of what becomes of its tags and of the text between. -/
lemma breakFrom_cut (s : Text) :
    breakFrom none 0 s = (cut tag? s).flatMap fun p => breakFrom none 0 p.text := by
  have hbetween : ∀ s, (between s).flatMap (fun p => breakFrom none 0 p.text) =
      breakFrom none 0 s := by
    intro s
    unfold between
    split_ifs with hs
    · rw [hs]
      rfl
    · exact List.append_nil _
  induction s using cut_induction isFinder_tag with
  | last s hs => rw [cut_of_pieceFree isFinder_tag hs, hbetween]
  | piece s p w hp hs ih =>
    rw [cut_append_piece isFinder_tag hp hs, List.flatMap_append, List.flatMap_cons, hbetween, ← ih,
      breakFrom_append_tag (tag?_eq_some_iff.mp hp).1]

/-! ### The tags of what becomes of a text -/

lemma isTag_breakTag : IsTag breakTag.text :=
  ⟨['b', 'r'], rfl, rfl, by simp [staysInTag]⟩

/-- The tags of line breaks are cut out one by one. -/
lemma cut_breaks (n : ℕ) (t : Text) :
    cut tag? (Text.repeated n "<br>" ++ t) = List.replicate n breakTag ++ cut tag? t := by
  induction n with
  | zero => rfl
  | succ n ih =>
    have htag := cut_append_tag isTag_breakTag [] (Text.repeated n "<br>" ++ t)
    rw [ih] at htag
    exact htag

/-- A text without opening brackets is kept as a whole or not at all. -/
lemma Breaks.exists_of_append (hu : '<' ∉ u) (h : Breaks before s (u ++ o)) :
    ∃ before' s', s = u ++ s' ∧ Breaks before' s' o := by
  induction u generalizing before s with
  | nil => exact ⟨before, s, rfl, h⟩
  | cons d u ih =>
    obtain ⟨hd, hu⟩ := not_or.mp (mt List.mem_cons.mpr hu)
    generalize ht : d :: u ++ o = t at h
    cases h with
    | nil => cases ht
    | keep _ hrest =>
      obtain ⟨rfl, rfl⟩ := List.cons.inj ht
      obtain ⟨before', s', rfl, hs'⟩ := ih hu hrest
      exact ⟨before', s', rfl, hs'⟩
    | @gap _ _ _ gap _ _ _ _ hfeed =>
      obtain ⟨n, hn⟩ := Nat.exists_eq_succ_of_ne_zero (List.count_pos_iff.mpr hfeed).ne'
      rw [breakTags, hn] at ht
      exact absurd (List.cons.inj ht).1.symm hd

/-- A tag that stands in what becomes of a text at a character that is kept stands in the text. -/
lemma Breaks.tag?_cons (h : Breaks (some c) s o) (ho : tag? (c :: o) = some (p, rest)) :
    ∃ rest', tag? (c :: s) = some (p, rest') := by
  obtain ⟨hp, heq⟩ := tag?_eq_some_iff.mp ho
  obtain ⟨u, rfl⟩ := hp.exists_cons
  obtain ⟨rfl, rfl⟩ := List.cons.inj heq
  obtain ⟨before', s', rfl, -⟩ := h.exists_of_append hp.bracket_notMem_tail
  exact ⟨s', tag?_append hp s'⟩

/-- No tag is made but those that breaks are written as. -/
lemma Breaks.isInfix_of_isInfix (hp : IsTag p) (h : Breaks before s o) (hwithin : p <:+: o) :
    p <:+: s ∨ p = breakTag.text := by
  induction h with
  | nil => exact Or.inl hwithin
  | @keep before c s o _ hrest ih =>
    rcases List.infix_cons_iff.mp hwithin with ⟨rest, hstarts⟩ | hwithin
    · left
      have htag := tag?_append hp rest
      rw [hstarts] at htag
      obtain ⟨rest', htag'⟩ := hrest.tag?_cons htag
      exact ⟨[], rest', (tag?_eq_some_iff.mp htag').2.symm⟩
    · exact (ih hwithin).imp_left fun hs => List.infix_cons hs
  | @gap x y c gap s o _ _ _ _ _ _ ih =>
    have hmem := mem_cut_tag_iff.mpr ⟨hp, hwithin⟩
    rw [breakTags, cut_breaks] at hmem
    rcases List.mem_append.mp hmem with hmem | hmem
    · exact Or.inr (congrArg Stretch.text (List.eq_of_mem_replicate hmem))
    · refine (ih (mem_cut_tag_iff.mp hmem).2).imp_left fun hs => ?_
      exact hs.trans (List.suffix_append gap (c :: s)).isInfix

/-- In what becomes of a text without tags, there is text in front of every break and behind it. -/
lemma Breaks.exists_interrupted (h : Breaks before s o) (hfree : PieceFree tag? [] s) (hs : s ≠ []) :
    ∃ n ss, cut tag? o = List.replicate n breakTag ++ ss ∧ Interrupted ss ∧
      (n = 0 ∨ BreaksAt before s) := by
  induction h with
  | nil => exact absurd rfl hs
  | @keep before c s o _ hrest ih =>
    obtain ⟨hno, hfree⟩ := hfree
    rw [List.append_nil] at hno
    have hcut : cut tag? (c :: o) = pushFront c (cut tag? o) := by
      apply cut_cons
      rw [Option.eq_none_iff_forall_ne_some]
      rintro ⟨p, rest⟩ htag
      obtain ⟨rest', htag'⟩ := hrest.tag?_cons htag
      rw [hno] at htag'
      cases htag'
    by_cases hnil : s = []
    · rw [hrest.eq_nil_iff.mpr hnil] at hcut ⊢
      exact ⟨0, [⟨false, [c]⟩], hcut, .text (List.cons_ne_nil c []), Or.inl rfl⟩
    · obtain ⟨n, ss, ho, hss, -⟩ := ih hfree hnil
      rw [ho] at hcut
      cases n with
      | zero =>
        cases hss with
        | @text t _ => exact ⟨0, _, hcut, .text (List.cons_ne_nil c t), Or.inl rfl⟩
        | @breaks t _ n _ hss => exact ⟨0, _, hcut, .breaks n (List.cons_ne_nil c t) hss, Or.inl rfl⟩
      | succ n => exact ⟨0, _, hcut, .breaks n (List.cons_ne_nil c []) hss, Or.inl rfl⟩
  | @gap x y c gap s o hx hgap hfeed hc _ _ ih =>
    obtain ⟨n, ss, ho, hss, -⟩ := ih hfree.of_append (List.cons_ne_nil c s)
    refine ⟨gap.count '\n' + n, ss, ?_, hss, Or.inr ⟨x, gap, c, s, rfl, hx, hgap, hfeed, hc, rfl⟩⟩
    rw [breakTags, cut_breaks, ho, List.replicate_add, List.append_assoc]

/-- A piece of text without tags is interrupted by breaks. -/
lemma exists_keeps_between (hfree : PieceFree tag? [] s) :
    ∃ groups, List.Forall₂ Keeps (between s) groups ∧
      cut tag? (breakFrom none 0 s) = groups.flatten := by
  unfold between
  split_ifs with hs
  · rw [hs]
    exact ⟨[], .nil, rfl⟩
  · obtain ⟨n, ss, hcut, hss, rfl | hbreak⟩ := (breaks_breakFrom none s).exists_interrupted hfree hs
    · refine ⟨[ss], .cons (.text s hss) .nil, ?_⟩
      rw [hcut]
      simp
    · exact absurd hbreak (not_breaksAt_none s)

/-- A break stays one when text stands behind it. -/
lemma IsBreak.append {front gap back : Text} (h : IsBreak front gap back) (t : Text) :
    IsBreak front gap (back ++ t) := by
  obtain ⟨c, hc, hstart⟩ := h.behind
  refine ⟨h.blank, h.feed, h.before, c, ?_, hstart⟩
  obtain ⟨back, rfl⟩ := List.head?_eq_some_iff.mp hc
  rfl

/-- A piece of a text without breaks is without breaks. -/
lemma BreakFree.of_isInfix (h : BreakFree t) (hwithin : p <:+: t) : BreakFree p := by
  obtain ⟨x, y, rfl⟩ := hwithin
  rintro front gap back rfl hbreak
  refine h (x ++ front) gap (back ++ y) (by simp) ?_
  exact (hbreak.prepend x).append y

/-- Tags are kept where none of them holds a break. -/
lemma keepsTags_of_breakFree (hs : ∀ p, IsTag p → p <:+: s → BreakFree p) :
    KeepsTags s (breakFrom none 0 s) := by
  induction s using cut_induction isFinder_tag with
  | last s hfree =>
    rw [KeepsTags, cut_of_pieceFree isFinder_tag hfree]
    exact exists_keeps_between hfree
  | piece s p w hp hfree ih =>
    obtain ⟨hptag, -⟩ := tag?_eq_some_iff.mp hp
    have hsettled := breakFree_iff.mp (hs p hptag ⟨s, w, List.append_assoc ..⟩)
    obtain ⟨groups, hgroups, hcut⟩ := exists_keeps_between (hfree.mono isFinder_tag)
    obtain ⟨groups', hgroups', hcut'⟩ := ih fun q hq hwithin =>
      hs q hq (hwithin.trans ⟨s ++ p, [], by simp⟩)
    refine ⟨groups ++ [⟨true, p⟩] :: groups', ?_, ?_⟩
    · rw [cut_append_piece isFinder_tag hp hfree]
      exact List.rel_append hgroups (.cons (.tag p) hgroups')
    · rw [breakFrom_append_tag hptag, (breaks_breakFrom none p).eq_of_settled hsettled,
        cut_append_tag hptag, hcut, hcut', List.flatten_append, List.flatten_cons]
      rfl

/-- A tag that is kept is among those that are written. -/
lemma mem_flatten_of_keeps {ss : List Stretch} {groups : List (List Stretch)}
    (h : List.Forall₂ Keeps ss groups) (hp : ⟨true, p⟩ ∈ ss) : ⟨true, p⟩ ∈ groups.flatten := by
  induction h with
  | nil => cases hp
  | cons hkeeps _ ih =>
    rw [List.flatten_cons]
    rcases List.mem_cons.mp hp with heq | hp
    · subst heq
      cases hkeeps
      exact List.mem_append_left _ List.mem_cons_self
    · exact List.mem_append_right _ (ih hp)

/-- A tag that is kept holds no break, since none is left in what becomes of a text. -/
lemma KeepsTags.breakFree (h : KeepsTags s (breakFrom none 0 s)) (hp : IsTag p) (hwithin : p <:+: s) :
    BreakFree p := by
  obtain ⟨groups, hgroups, hcut⟩ := h
  have hkept := mem_flatten_of_keeps hgroups (mem_cut_tag_iff.mpr ⟨hp, hwithin⟩)
  rw [← hcut] at hkept
  have hsettled := breakFree_iff.mpr (breaks_breakFrom none s).settled
  exact hsettled.of_isInfix (mem_cut_tag_iff.mp hkept).2

/-- The tags outside of preformatted regions are kept. -/
def KeepsAllTags (t : Text) : Prop :=
  List.Forall₂ (fun s o => s.isRegion = false → KeepsTags s.text o.text)
    (stretches t) (stretches (preserveLineBreaks t))

/-- A stretch that lies between two regions and what becomes of it: its tags and the text between them
are written each by itself, and no tag is added but those of breaks. -/
structure WritesApart (s o : Stretch) : Prop where
  pieces : s.isRegion = false →
    o.text = (cut tag? s.text).flatMap fun p => breakFrom none 0 p.text
  added : s.isRegion = false → ∀ p, IsTag p → p <:+: o.text → p <:+: s.text ∨ p = "<br>"

/-- The breaks of a stretch between regions are made explicit. -/
lemma text_rewrite {s : Stretch} (hs : s.isRegion = false) :
    s.rewrite.text = breakFrom none 0 s.text := by
  rw [Stretch.rewrite, hs]
  rfl

/-- All tags are kept just if those of every stretch between regions are. -/
lemma keepsAllTags_iff (t : Text) :
    KeepsAllTags t ↔ ∀ s ∈ stretches t, s.isRegion = false →
      KeepsTags s.text (breakFrom none 0 s.text) := by
  rw [KeepsAllTags, stretches_preserveLineBreaks, List.forall₂_map_right_iff, List.forall₂_same]
  refine forall₂_congr fun s _ => forall_congr' fun hs => ?_
  rw [text_rewrite hs]

/-- Line breaks are made explicit within each tag and within each piece of text by itself, and no tag
is added but the breaks.  The tags of a text are kept exactly if none of them holds a break. -/
theorem writesApart_preserveLineBreaks (t : Text) :
    List.Forall₂ WritesApart (stretches t) (stretches (preserveLineBreaks t)) ∧
      (KeepsAllTags t ↔ ∀ s ∈ stretches t, s.isRegion = false →
        ∀ p, IsTag p → p <:+: s.text → BreakFree p) := by
  constructor
  · rw [stretches_preserveLineBreaks, List.forall₂_map_right_iff, List.forall₂_same]
    refine fun s _ => ⟨fun hs => ?_, fun hs p hp hwithin => ?_⟩
    · rw [text_rewrite hs, breakFrom_cut]
    · rw [text_rewrite hs] at hwithin
      exact (breaks_breakFrom none s.text).isInfix_of_isInfix hp hwithin
  · rw [keepsAllTags_iff]
    constructor
    · intro h s hmem hs p hp hwithin
      exact (h s hmem hs).breakFree hp hwithin
    · intro h s hmem hs
      exact keepsTags_of_breakFree (h s hmem hs)

/-- An attribute on a line of its own: the line break in front of it is written as a tag. -/
theorem not_keepsAllTags_attributeLine : ¬ KeepsAllTags "<a\nhref=\"x\">y</a>" := by
  intro h
  have hstretches : stretches "<a\nhref=\"x\">y</a>" = [⟨false, "<a\nhref=\"x\">y</a>"⟩] := by
    rw [stretches_eq_cut]
    rfl
  rw [keepsAllTags_iff, hstretches] at h
  have htag : IsTag "<a\nhref=\"x\">" := ⟨"a\nhref=\"x\"".toList, rfl, rfl, by simp [staysInTag]⟩
  have hwithin : ("<a\nhref=\"x\">" : Text) <:+: "<a\nhref=\"x\">y</a>" := ⟨[], "y</a>", rfl⟩
  refine (h _ List.mem_cons_self rfl).breakFree htag hwithin "<a" "\n" "href=\"x\">" rfl ?_
  exact ⟨by simp [isGap], by simp, ⟨'a', rfl, rfl⟩, ⟨'h', rfl, rfl⟩⟩

end Markdown

end Ambient

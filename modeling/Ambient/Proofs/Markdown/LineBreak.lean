import Mathlib
import Ambient.Proofs.Markdown.Cut
import Ambient.Proofs.Markdown.Gap

/-!
# Line breaks around preformatted regions

Making line breaks explicit neither makes a preformatted region nor takes one away: the tags that are
written begin no region and end none, and no start or end of a region reaches over a break
(`Breaks.pieceFree`).  So the text that is given has the same regions, and between them what becomes of
the text between them (`stretches_preserveLineBreaks`).  Since no break is left there, a second time
changes nothing.

A gap at the start of what lies between two regions follows a closing bracket, and one at its end
stands in front of an opening one, so that neither is a break of the whole text.
-/

namespace Ambient

namespace Text

variable {piece t rest : Text}

/-- A phrase is found letter by letter, in either case. -/
lemma afterFolded?_cons (p c : Char) (piece t : Text) :
    afterFolded? (p :: piece) (c :: t) = if isSameLetter p c then afterFolded? piece t else none :=
  rfl

/-- A phrase that stands at the start of a text is found there whatever follows it. -/
lemma exists_of_afterFolded? (h : afterFolded? piece t = some rest) :
    ∃ start, t = start ++ rest ∧ start.length = piece.length ∧
      ∀ u, afterFolded? piece (start ++ u) = some u := by
  induction piece generalizing t with
  | nil =>
    obtain rfl := Option.some.inj h
    exact ⟨[], rfl, rfl, fun u => rfl⟩
  | cons p piece ih =>
    cases t with
    | nil => cases h
    | cons c t =>
      rw [afterFolded?_cons] at h
      split_ifs at h with hc
      obtain ⟨start, rfl, hlength, hstart⟩ := ih h
      refine ⟨c :: start, rfl, congrArg Nat.succ hlength, fun u => ?_⟩
      rw [List.cons_append, afterFolded?_cons, if_pos hc, hstart]

/-- Whether a phrase stands at the start of a text that is long enough does not hang on what follows. -/
lemma isSome_afterFolded?_append (h : piece.length ≤ t.length) (u v : Text) :
    (afterFolded? piece (t ++ u)).isSome = (afterFolded? piece (t ++ v)).isSome := by
  induction piece generalizing t with
  | nil => rfl
  | cons p piece ih =>
    cases t with
    | nil => cases h
    | cons c t =>
      simp only [List.cons_append, afterFolded?_cons]
      split_ifs
      · exact ih (Nat.le_of_succ_le_succ h)
      · rfl

end Text

/-- The opening bracket has no other case. -/
lemma eq_of_isSameLetter_bracket {c : Char} (h : isSameLetter '<' c = true) : c = '<' := by
  have hlower : c.toLower = '<' → c = '<' := by
    intro hc
    unfold Char.toLower at hc
    split at hc
    · next hrange =>
      have hval : c.val + 32 = 60 := congrArg Char.val hc
      have hsum := congrArg UInt32.toNat hval
      have hlow : 65 ≤ c.val.toNat := hrange.1
      have hhigh : c.val.toNat ≤ 90 := hrange.2
      have htoNat : UInt32.toNat 32 = 32 ∧ UInt32.toNat 60 = 60 := ⟨rfl, rfl⟩
      rw [UInt32.toNat_add] at hsum
      omega
    · exact hc
  simpa [isSameLetter, or_iff_left_of_imp hlower] using h

namespace Markdown

variable {before : Option Char} {b c : Char} {s o t u inner rest rest' piece : Text}

/-! ### Preformatted regions -/

/-- Whether the phrase `piece` stands at the start of a text. -/
def Opens (piece t : Text) : Prop :=
  (Text.afterFolded? piece t).isSome = true

lemma opens_cons {p : Char} : Opens (p :: piece) (c :: t) ↔ isSameLetter p c = true ∧ Opens piece t := by
  rw [Opens, Text.afterFolded?_cons]
  split_ifs with h
  · simp [h, Opens]
  · simp [h]

lemma startTag_eq : ("<pre" : Text) = ['<', 'p', 'r', 'e'] :=
  rfl

lemma endTag_eq : ("</pre>" : Text) = ['<', '/', 'p', 'r', 'e', '>'] :=
  rfl

/-- A tag is opened by its bracket alone. -/
lemma not_opens_of_ne (hc : c ≠ '<') : ¬ Opens ('<' :: piece) (c :: t) := by
  rw [opens_cons]
  exact fun h => hc (eq_of_isSameLetter_bracket h.1)

/-- The body of a region ends at the first end tag. -/
lemma regionBody?_cons (c : Char) (t : Text) :
    regionBody? (c :: t) =
      match Text.afterFolded? "</pre>" (c :: t) with
      | some rest => some ((c :: t).take 6, rest)
      | none => (regionBody? t).map fun parts => (c :: parts.1, parts.2) :=
  rfl

/-- A region ends in a text if its end tag stands there somewhere. -/
lemma isSome_regionBody?_cons :
    (regionBody? (c :: t)).isSome = true ↔
      Opens "</pre>" (c :: t) ∨ (regionBody? t).isSome = true := by
  rw [regionBody?_cons, Opens]
  split
  · next heq => simp [heq, -String.reduceToList]
  · next heq => simp [heq, -String.reduceToList]

/-- A region that ends somewhere ends if text is put in front. -/
lemma isSome_regionBody?_append (h : (regionBody? t).isSome = true) (u : Text) :
    (regionBody? (u ++ t)).isSome = true := by
  induction u with
  | nil => exact h
  | cons c u ih => exact isSome_regionBody?_cons.mpr (Or.inr ih)

/-- The rest of a region is read up to its end tag, whatever follows it. -/
lemma exists_of_regionBody? (h : regionBody? t = some (inner, rest)) :
    t = inner ++ rest ∧ 6 ≤ inner.length ∧ ∀ u, regionBody? (inner ++ u) = some (inner, u) := by
  induction t generalizing inner with
  | nil => cases h
  | cons c t ih =>
    rw [regionBody?_cons] at h
    split at h
    · next r hr =>
      obtain ⟨rfl, rfl⟩ := Prod.mk.inj (Option.some.inj h)
      obtain ⟨start, hstart, hlength, hall⟩ := Text.exists_of_afterFolded? hr
      have hsix : start.length = 6 := hlength
      have htake : (c :: t).take 6 = start := by
        rw [hstart, ← hsix, List.take_left]
      rw [htake]
      refine ⟨hstart, hsix.ge, fun u => ?_⟩
      obtain ⟨d, start, rfl⟩ := List.exists_cons_of_length_pos (by omega : 0 < start.length)
      have hu := hall u
      rw [List.cons_append] at hu ⊢
      rw [regionBody?_cons, hu, ← List.cons_append, ← hsix, List.take_left]
    · next hno =>
      obtain ⟨⟨inner', rest'⟩, hbody, heq⟩ := Option.map_eq_some_iff.mp h
      obtain ⟨rfl, rfl⟩ := Prod.mk.inj heq
      obtain ⟨rfl, hlength, hall⟩ := ih hbody
      refine ⟨rfl, by simp only [List.length_cons]; omega, fun u => ?_⟩
      have hno' : Text.afterFolded? "</pre>" (c :: (inner' ++ u)) = none := by
        have hlong : ("</pre>" : Text).length ≤ (c :: inner').length := Nat.le_succ_of_le hlength
        have hsame := Text.isSome_afterFolded?_append hlong rest' u
        rw [List.cons_append, hno] at hsame
        exact Option.isNone_iff_eq_none.mp (by simpa using hsame.symm)
      rw [List.cons_append, regionBody?_cons, hno', hall]
      rfl

/-- The start of a region, and a rest that ends it. -/
lemma isSome_region?_iff :
    (region? t).isSome = true ↔ ∃ r, Text.afterFolded? "<pre" t = some r ∧
      r.head?.elim false isWord = false ∧ (regionBody? r).isSome = true := by
  rw [region?]
  split
  · next hno => simp [hno, -String.reduceToList]
  · next r hr =>
    split_ifs with hword
    · simp [hr, hword, -String.reduceToList]
    · simp [hr, hword, -String.reduceToList]

/-- A region ends with an end tag. -/
lemma isSome_regionBody?_of_region? (h : (region? t).isSome = true) :
    (regionBody? t).isSome = true := by
  obtain ⟨r, hr, -, hbody⟩ := isSome_region?_iff.mp h
  obtain ⟨start, rfl, -⟩ := Text.exists_of_afterFolded? hr
  exact isSome_regionBody?_append hbody start

/-- A region begins with an opening bracket and is read up to its end tag, whatever follows it. -/
lemma exists_of_region? (h : region? t = some (inner, rest)) :
    t = inner ++ rest ∧ inner.head? = some '<' ∧ ∀ u, region? (inner ++ u) = some (inner, u) := by
  rw [region?] at h
  split at h
  · cases h
  · next r hr =>
    split_ifs at h with hword
    obtain ⟨⟨inner', rest'⟩, hbody, heq⟩ := Option.map_eq_some_iff.mp h
    obtain ⟨rfl, rfl⟩ := Prod.mk.inj heq
    obtain ⟨start, rfl, hlength, hall⟩ := Text.exists_of_afterFolded? hr
    obtain ⟨rfl, hsix, hbodies⟩ := exists_of_regionBody? hbody
    have hfour : start.length = 4 := hlength
    have htake : ∀ u : Text, (start ++ u).take 4 = start := by
      intro u
      rw [← hfour, List.take_left]
    obtain ⟨d, inner', rfl⟩ := List.exists_cons_of_length_pos (lt_of_lt_of_le (Nat.succ_pos 5) hsix)
    dsimp only
    rw [htake]
    refine ⟨(List.append_assoc ..).symm, ?_, fun u => ?_⟩
    · obtain ⟨e, start, rfl⟩ := List.exists_cons_of_length_pos (by omega : 0 < start.length)
      have hopens : Opens "<pre" (e :: (start ++ [])) := by
        have hnil := hall []
        rw [List.cons_append] at hnil
        rw [Opens, hnil]
        rfl
      exact congrArg some (eq_of_isSameLetter_bracket (opens_cons.mp hopens).1)
    · have hword' : (d :: inner' ++ u).head?.elim false isWord = false := by simpa using hword
      rw [List.append_assoc, region?, hall]
      dsimp only
      rw [hword', hbodies, htake]
      rfl

/-- Regions are found at the start of a text, whatever follows them. -/
lemma isFinder_region : IsFinder region? where
  eq_append h := (exists_of_region? h).1
  ne_nil h := by
    rintro rfl
    cases (exists_of_region? h).2.1
  anywhere h := (exists_of_region? h).2.2

/-- The stretches of a text are its cut at the regions. -/
lemma stretches_eq_cut (t : Text) : stretches t = cut region? t := by
  induction hlength : t.length using Nat.strong_induction_on generalizing t with
  | _ n ih =>
    subst hlength
    cases t with
    | nil => rw [stretches, cut_nil]
    | cons c t =>
      rw [stretches]
      split
      · next inner rest h =>
        rw [cut_piece isFinder_region h, ih rest.length (length_of_region? h) rest rfl]
      · next h => rw [cut_cons h, ih t.length (Nat.lt_succ_self _) t rfl]

/-! ### Regions and breaks -/

/-- The rests behind a text and behind what becomes of it begin alike, with an opening bracket if at
all, and a region that ends in the second one ends in the first one. -/
structure Tails (rest rest' : Text) : Prop where
  head : rest'.head? = rest.head?
  bracket : ∀ c, rest.head? = some c → c = '<'
  body : (regionBody? rest').isSome = true → (regionBody? rest).isSome = true

/-- A phrase without brackets is made of kept characters. -/
lemma Breaks.exists_of_afterFolded? (hpiece : ∀ p ∈ piece, isSameLetter p '<' = false)
    (htails : Tails rest rest') (h : Breaks before s o) {r : Text}
    (hr : Text.afterFolded? piece (o ++ rest') = some r) :
    ∃ before' s' o', r = o' ++ rest' ∧ Text.afterFolded? piece (s ++ rest) = some (s' ++ rest) ∧
      Breaks before' s' o' := by
  induction piece generalizing before s o with
  | nil => exact ⟨before, s, o, (Option.some.inj hr).symm, rfl, h⟩
  | cons p piece ih =>
    obtain ⟨hp, hpiece⟩ := List.forall_mem_cons.mp hpiece
    have hbracket : ∀ u, Text.afterFolded? (p :: piece) ('<' :: u) = none := by
      intro u
      rw [Text.afterFolded?_cons, if_neg (by simp [hp])]
    cases h with
    -- the phrase would go on in the rest, which begins with a bracket if at all
    | nil =>
      exfalso
      cases hrest' : rest' with
      | nil =>
        rw [hrest'] at hr
        cases hr
      | cons c u =>
        have hhead := htails.head
        rw [hrest'] at hhead
        rw [hrest', htails.bracket c hhead.symm, List.nil_append, hbracket] at hr
        cases hr
    | keep _ hrest =>
      rw [List.cons_append, Text.afterFolded?_cons] at hr
      split_ifs at hr with hc
      obtain ⟨before', s', o', rfl, hs', hbreaks⟩ := ih hpiece hrest hr
      refine ⟨before', s', o', rfl, ?_, hbreaks⟩
      rw [List.cons_append, Text.afterFolded?_cons, if_pos hc, hs']
    | @gap _ _ _ gap _ _ _ _ hfeed =>
      -- a gap is written as tags, and a tag begins with a bracket
      obtain ⟨n, hn⟩ := Nat.exists_eq_succ_of_ne_zero (List.count_pos_iff.mpr hfeed).ne'
      have htags : breakTags gap = '<' :: ("br>" ++ Text.repeated n "<br>") := by
        rw [breakTags, hn]
        rfl
      rw [htags, List.cons_append, List.cons_append, hbracket] at hr
      cases hr

/-- No region ends in the tags of a break. -/
lemma isSome_regionBody?_of_breaks (n : ℕ)
    (h : (regionBody? (Text.repeated n "<br>" ++ t)).isSome = true) :
    (regionBody? t).isSome = true := by
  induction n with
  | zero => exact h
  | succ n ih =>
    apply ih
    have hno : ∀ d u, d ≠ '<' → (regionBody? (d :: u)).isSome = true →
        (regionBody? u).isSome = true := by
      intro d u hd hu
      refine (isSome_regionBody?_cons.mp hu).resolve_left ?_
      rw [endTag_eq]
      exact not_opens_of_ne hd
    have hopen : ¬ Opens "</pre>" ('<' :: 'b' :: 'r' :: '>' :: (Text.repeated n "<br>" ++ t)) := by
      rw [endTag_eq, opens_cons, opens_cons]
      rintro ⟨-, hletter, -⟩
      exact absurd hletter (by decide)
    have htag := (isSome_regionBody?_cons.mp h).resolve_left hopen
    exact hno _ _ (by decide) (hno _ _ (by decide) (hno _ _ (by decide) htag))

/-- Where a region ends in what becomes of a text, it ends in the text. -/
lemma Breaks.isSome_regionBody? (htails : Tails rest rest') (h : Breaks before s o)
    (hbody : (regionBody? (o ++ rest')).isSome = true) : (regionBody? (s ++ rest)).isSome = true := by
  induction h with
  | nil => exact htails.body hbody
  | keep _ hrest ih =>
    rw [List.cons_append, isSome_regionBody?_cons] at hbody ⊢
    rcases hbody with hopens | hbody
    · left
      have hpiece : ∀ p ∈ ['/', 'p', 'r', 'e', '>'], isSameLetter p '<' = false := by
        simp [isSameLetter]
      rw [endTag_eq] at hopens ⊢
      obtain ⟨hc, hopens⟩ := opens_cons.mp hopens
      obtain ⟨r, hr⟩ := Option.isSome_iff_exists.mp hopens
      obtain ⟨-, s', -, -, hs', -⟩ := hrest.exists_of_afterFolded? hpiece htails hr
      refine opens_cons.mpr ⟨hc, ?_⟩
      rw [Opens, hs']
      rfl
    · exact Or.inr (ih hbody)
  | @gap _ _ _ gap _ o _ _ _ _ _ _ ih =>
    rw [List.append_assoc]
    apply isSome_regionBody?_append
    apply ih
    rw [List.append_assoc] at hbody
    exact isSome_regionBody?_of_breaks _ hbody

/-- A character of a gap is no letter. -/
lemma isWord_of_isGap (h : isGap c = true) : isWord c = false := by
  simp only [isGap, Bool.or_eq_true, beq_iff_eq] at h
  rcases h with (rfl | rfl) | rfl <;> decide

/-- Where a region begins in what becomes of a text, it begins in the text. -/
lemma Breaks.isSome_region? (htails : Tails rest rest') (h : Breaks (some c) s o)
    (hregion : (region? (c :: o ++ rest')).isSome = true) :
    (region? (c :: s ++ rest)).isSome = true := by
  obtain ⟨r, hr, hword, hbody⟩ := isSome_region?_iff.mp hregion
  have hpiece : ∀ p ∈ ['p', 'r', 'e'], isSameLetter p '<' = false := by simp [isSameLetter]
  have hsplit : ∀ u : Text, Text.afterFolded? "<pre" (c :: u) =
      if isSameLetter '<' c then Text.afterFolded? ['p', 'r', 'e'] u else none := fun u => rfl
  rw [List.cons_append, hsplit] at hr
  split_ifs at hr with hc
  obtain ⟨before', s', o', rfl, hs', hbreaks⟩ := h.exists_of_afterFolded? hpiece htails hr
  refine isSome_region?_iff.mpr ⟨s' ++ rest, ?_, ?_, hbreaks.isSome_regionBody? htails hbody⟩
  · rw [List.cons_append, hsplit, if_pos hc, hs']
  · cases hbreaks with
    | nil => rwa [List.nil_append, ← htails.head]
    | keep => exact hword
    | @gap _ _ _ gap _ _ _ hgap hfeed =>
      -- a gap ends a word, as the tag does that is written for it
      obtain ⟨d, gap, rfl⟩ := List.exists_cons_of_ne_nil (List.ne_nil_of_mem hfeed)
      exact isWord_of_isGap (hgap d List.mem_cons_self)

lemma region?_of_ne (hc : c ≠ '<') : region? (c :: t) = none := by
  rw [← Option.not_isSome_iff_eq_none, isSome_region?_iff, startTag_eq]
  rintro ⟨r, hr, -⟩
  have hopens : Opens ['<', 'p', 'r', 'e'] (c :: t) := by
    rw [Opens, hr]
    rfl
  exact not_opens_of_ne hc hopens

/-- No region begins in a text without brackets. -/
lemma pieceFree_of_not_mem (h : '<' ∉ s) (rest : Text) : PieceFree region? rest s := by
  induction s with
  | nil => trivial
  | cons c s ih =>
    obtain ⟨hc, hs⟩ := not_or.mp (mt List.mem_cons.mpr h)
    exact ⟨region?_of_ne (Ne.symm hc), ih hs⟩

/-- The tags of breaks open no region. -/
lemma pieceFree_breaks (n : ℕ) (h : PieceFree region? rest o) :
    PieceFree region? rest (Text.repeated n "<br>" ++ o) := by
  induction n with
  | zero => exact h
  | succ n ih =>
    refine ⟨?_, region?_of_ne (by decide), region?_of_ne (by decide), region?_of_ne (by decide), ih⟩
    rw [← Option.not_isSome_iff_eq_none, isSome_region?_iff, startTag_eq]
    rintro ⟨r, hr, -⟩
    have hopens : Opens ['<', 'p', 'r', 'e']
        ('<' :: 'b' :: 'r' :: '>' :: (Text.repeated n "<br>" ++ o) ++ rest) := by
      rw [Opens]
      exact Option.isSome_iff_exists.mpr ⟨r, hr⟩
    rw [List.cons_append, List.cons_append, opens_cons, opens_cons] at hopens
    exact absurd hopens.2.1 (by decide)

/-- No region begins in what becomes of a text in which none begins. -/
lemma Breaks.pieceFree (htails : Tails rest rest') (h : Breaks before s o)
    (hs : PieceFree region? rest s) : PieceFree region? rest' o := by
  induction h with
  | nil => trivial
  | keep _ hrest ih =>
    refine ⟨?_, ih hs.2⟩
    rw [← Option.not_isSome_iff_eq_none]
    intro hregion
    have hsource := hrest.isSome_region? htails hregion
    have hnone := hs.1
    rw [List.cons_append] at hsource hnone
    rw [hnone] at hsource
    cases hsource
  | gap _ _ _ _ _ _ ih => exact pieceFree_breaks _ (ih hs.of_append)

/-! ### What becomes of the stretches -/

/-- A stretch with its line breaks made explicit if it lies between two regions. -/
def Stretch.rewrite (s : Stretch) : Stretch :=
  if s.isRegion then s else ⟨false, breakFrom none 0 s.text⟩

/-- Something becomes of a text just if it is not empty. -/
lemma Breaks.eq_nil_iff (h : Breaks before s o) : o = [] ↔ s = [] := by
  induction h with
  | nil => exact Iff.rfl
  | keep => simp
  | gap _ _ _ _ _ _ ih => simp [ih]

/-- A stretch between regions is rewritten as a whole. -/
lemma map_rewrite_between (s : Text) :
    (between s).map Stretch.rewrite = between (breakFrom none 0 s) := by
  have hnil := (breaks_breakFrom none s).eq_nil_iff
  unfold between
  by_cases hs : s = []
  · rw [if_pos hs, if_pos (hnil.mpr hs), List.map_nil]
  · rw [if_neg hs, if_neg (mt hnil.mp hs)]
    rfl

/-- Line breaks are made explicit stretch by stretch. -/
lemma preserveLineBreaks_eq (t : Text) :
    preserveLineBreaks t = ((cut region? t).map Stretch.rewrite).flatMap Stretch.text := by
  rw [preserveLineBreaks, stretches_eq_cut, List.flatMap_map]
  refine List.flatMap_congr fun s _ => ?_
  rw [Stretch.rewrite]
  split_ifs <;> rfl

/-- What becomes of a text has the same regions, and between them what becomes of the text there. -/
lemma stretches_preserveLineBreaks (t : Text) :
    stretches (preserveLineBreaks t) = (stretches t).map Stretch.rewrite := by
  rw [stretches_eq_cut, stretches_eq_cut]
  induction t using cut_induction isFinder_region with
  | last s hs =>
    have htails : Tails [] [] := ⟨rfl, fun c hc => (nomatch hc), id⟩
    have hfree := (breaks_breakFrom none s).pieceFree htails hs
    rw [preserveLineBreaks_eq, cut_of_pieceFree isFinder_region hs, map_rewrite_between,
      flatMap_text_between, cut_of_pieceFree isFinder_region hfree]
  | piece s r w hregion hs ih =>
    obtain ⟨-, hhead, hall⟩ := exists_of_region? hregion
    have hregion' := hall (preserveLineBreaks w)
    obtain ⟨r, rfl⟩ := List.head?_eq_some_iff.mp hhead
    have htails : Tails ('<' :: r ++ w) ('<' :: r ++ preserveLineBreaks w) := by
      refine ⟨rfl, fun c hc => (Option.some.inj hc).symm, fun _ => ?_⟩
      exact isSome_regionBody?_of_region? (by rw [hregion]; rfl)
    have hfree := (breaks_breakFrom none s).pieceFree htails hs
    have hcut := cut_append_piece isFinder_region hregion hs
    have hwritten : preserveLineBreaks (s ++ ('<' :: r ++ w)) =
        breakFrom none 0 s ++ ('<' :: r ++ preserveLineBreaks w) := by
      rw [preserveLineBreaks_eq, hcut, List.map_append, map_rewrite_between, List.flatMap_append,
        flatMap_text_between, List.map_cons, List.flatMap_cons, ← preserveLineBreaks_eq]
      rfl
    rw [hwritten, hcut, cut_append_piece isFinder_region hregion' hfree, ih, List.map_append,
      map_rewrite_between, List.map_cons]
    rfl

/-- A stretch and what becomes of it: a region stays as it is, and between two regions the breaks are
made explicit, so that none is left. -/
structure Conserves (s o : Stretch) : Prop where
  isRegion : o.isRegion = s.isRegion
  region : s.isRegion = true → o.text = s.text
  between : s.isRegion = false → ∃ ps, MadeExplicit s.text o.text ps
  settled : s.isRegion = false → BreakFree o.text

/-- Every stretch is conserved by what becomes of it. -/
lemma conserves_rewrite (s : Stretch) : Conserves s s.rewrite := by
  obtain ⟨isRegion, s⟩ := s
  cases isRegion with
  | true => exact ⟨rfl, fun _ => rfl, Bool.noConfusion, Bool.noConfusion⟩
  | false =>
    refine ⟨rfl, Bool.noConfusion, fun _ => exists_madeExplicit s, fun _ => ?_⟩
    exact breakFree_iff.mpr (breaks_breakFrom none s).settled

/-- A stretch without breaks stays as it is. -/
lemma rewrite_of_breakFree {s : Stretch} (h : BreakFree s.text) : s.rewrite = s := by
  obtain ⟨isRegion, s⟩ := s
  cases isRegion with
  | true => rfl
  | false =>
    have hsettled := breakFree_iff.mp h
    exact congrArg (Stretch.mk false) ((breaks_breakFrom none s).eq_of_settled hsettled)

/-- What becomes of a stretch stays as it is. -/
lemma rewrite_rewrite (s : Stretch) : s.rewrite.rewrite = s.rewrite := by
  obtain ⟨isRegion, s⟩ := s
  cases isRegion with
  | true => rfl
  | false => exact rewrite_of_breakFree (breakFree_iff.mpr (breaks_breakFrom none s).settled)

/-- The stretches of a text make it up. -/
lemma flatMap_text_stretches (t : Text) : (stretches t).flatMap Stretch.text = t := by
  rw [stretches_eq_cut]
  exact flatMap_text_cut isFinder_region t

/-- Line breaks are made explicit between the preformatted regions and nowhere else: the text that is
given is cut into stretches where the first one is, its regions are the same, and between them it has
kept all characters but those of the breaks, of which none is left.  A second time changes nothing. -/
theorem conserves_preserveLineBreaks (t : Text) :
    (stretches t).flatMap Stretch.text = t ∧
      (stretches (preserveLineBreaks t)).flatMap Stretch.text = preserveLineBreaks t ∧
      List.Forall₂ Conserves (stretches t) (stretches (preserveLineBreaks t)) ∧
      preserveLineBreaks (preserveLineBreaks t) = preserveLineBreaks t := by
  have hwhole := flatMap_text_stretches (preserveLineBreaks t)
  refine ⟨flatMap_text_stretches t, hwhole, ?_, ?_⟩
  · rw [stretches_preserveLineBreaks, List.forall₂_map_right_iff]
    exact List.forall₂_same.mpr fun s _ => conserves_rewrite s
  · have hstretches := stretches_preserveLineBreaks (preserveLineBreaks t)
    have htwice : (stretches (preserveLineBreaks t)).map Stretch.rewrite =
        stretches (preserveLineBreaks t) := by
      rw [stretches_preserveLineBreaks, List.map_map]
      exact List.map_congr_left fun s _ => rewrite_rewrite s
    calc preserveLineBreaks (preserveLineBreaks t)
        = (stretches (preserveLineBreaks (preserveLineBreaks t))).flatMap Stretch.text :=
          (flatMap_text_stretches _).symm
      _ = (stretches (preserveLineBreaks t)).flatMap Stretch.text := by rw [hstretches, htwice]
      _ = preserveLineBreaks t := hwhole

end Markdown

end Ambient

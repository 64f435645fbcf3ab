import Mathlib
import Ambient.Proofs.Html.Markup
import Ambient.Proofs.Markdown.Conversion
import Ambient.Proofs.Markdown.LineBreak
import Ambient.Proofs.Text.Words

/-!
# Plain prose

Prose without markup is made of pieces of lines with gaps between them (`exists_pieces`), and every
stage of the conversion is a function of these: each line feed of a gap is written as a tag
(`breakFrom_source`), read as an element (`isMarkup_tagged`), and shown as a line break again
(`ofNodes_nodes`).  Where the parts meet no line feed is lost, since none of them starts with one, so
what is shown has the lines of the prose (`map_trimEnd_lines`).  In the end white space between two words
is one space, and several empty lines are one (`ofHtml_plainProse`).
-/

namespace Ambient

namespace Markdown

open Html

variable {before : Option Char} {c d : Char} {g l p q rest t u last : Text} {ls : List Text}

/-! ### Pieces and gaps -/

/-- The characters of plain prose: none of markup, and no white space but that of gaps. -/
structure IsPlainChar (c : Char) : Prop where
  gap : isBlank c = true → isGap c = true
  plain : c ≠ '<' ∧ c ≠ '>' ∧ c ≠ '&'

/-- Prose that holds no markup and neither starts nor ends with white space. -/
structure IsPlainProse (t : Text) : Prop where
  head : ∃ c, t.head? = some c ∧ isBlank c = false
  last : ∃ c, t.getLast? = some c ∧ isBlank c = false
  plain : ∀ c ∈ t, IsPlainChar c

/-- Plain prose on one line. -/
structure IsPiece (p : Text) : Prop extends IsPlainProse p where
  newline : '\n' ∉ p

/-- The space between two lines that are not blank. -/
structure IsGapText (g : Text) : Prop where
  gap : ∀ c ∈ g, isGap c = true
  feed : '\n' ∈ g

/-- Pieces with the gaps behind them. -/
def ArePieces (ps : List (Text × Text)) : Prop :=
  ∀ q ∈ ps, IsPiece q.1 ∧ IsGapText q.2

/-- The prose that is made of some pieces with the gaps behind them, and a last piece. -/
def source (ps : List (Text × Text)) (last : Text) : Text :=
  ps.flatMap (fun q => q.1 ++ q.2) ++ last

lemma source_cons (p g : Text) (ps : List (Text × Text)) (last : Text) :
    source ((p, g) :: ps) last = p ++ (g ++ source ps last) := by
  simp [source]

lemma IsPlainProse.ne_nil (h : IsPlainProse t) : t ≠ [] := by
  obtain ⟨c, hc, -⟩ := h.head
  rintro rfl
  cases hc

/-- What follows white space in plain prose is plain prose. -/
lemma isPlainProse_append_right (h : IsPlainProse (u ++ c :: t)) (hc : isBlank c = false) :
    IsPlainProse (c :: t) := by
  refine ⟨⟨c, rfl, hc⟩, ?_, fun d hd => h.plain d (List.mem_append_right u hd)⟩
  obtain ⟨d, hd, hsolid⟩ := h.last
  exact ⟨d, by rwa [List.getLast?_append_of_ne_nil _ (List.cons_ne_nil c t)] at hd, hsolid⟩

/-- The first line of plain prose, without the white space at its end. -/
lemma IsPlainProse.isPiece_trimEnd {line : Text} (h : IsPlainProse (line ++ '\n' :: t))
    (hline : '\n' ∉ line) : IsPiece (Text.trimEnd line) := by
  obtain ⟨c, hc, hsolid⟩ := h.head
  cases line with
  | nil =>
    obtain rfl : '\n' = c := Option.some.inj hc
    cases hsolid
  | cons d line =>
    obtain rfl : d = c := Option.some.inj hc
    have hstart := Text.trimEnd_cons_of_not_blank hsolid line
    have hsubset := (Text.trimEnd_isPrefix (d :: line)).subset
    refine ⟨⟨⟨d, by rw [hstart]; rfl, hsolid⟩, ?_, fun e he => ?_⟩, fun hmem => hline (hsubset hmem)⟩
    · have hne : Text.trimEnd (d :: line) ≠ [] := by
        rw [hstart]
        exact List.cons_ne_nil _ _
      have hlast := List.getLast?_eq_some_getLast hne
      exact ⟨_, hlast, Text.of_getLast?_dropEndWhile hlast⟩
    · exact h.plain e (List.mem_append_left _ (hsubset he))

/-- Behind a line feed the prose goes on with a gap and then with more prose. -/
lemma IsPlainProse.exists_gap (h : IsPlainProse (u ++ '\n' :: t)) :
    ∃ g rest, t = g ++ rest ∧ (∀ c ∈ g, isGap c = true) ∧ IsPlainProse rest := by
  obtain ⟨d, hd, hsolid⟩ := h.last
  have hsplit := List.takeWhile_append_dropWhile (p := isGap) (l := t)
  have hgap : ∀ c ∈ t.takeWhile isGap, isGap c = true := fun c hc => List.mem_takeWhile_imp hc
  cases hrest : t.dropWhile isGap with
  | nil =>
    have hall : ∀ c ∈ '\n' :: t, isGap c = true :=
      List.forall_mem_cons.mpr ⟨rfl, List.dropWhile_eq_nil_iff.mp hrest⟩
    rw [List.getLast?_append_of_ne_nil _ (List.cons_ne_nil _ _)] at hd
    rw [isBlank_of_isGap (hall d (List.mem_of_getLast? hd))] at hsolid
    cases hsolid
  | cons c rest =>
    have hc : isGap c = false := by
      have hhead := List.head?_dropWhile_not isGap t
      rwa [hrest] at hhead
    rw [hrest] at hsplit
    have htext : u ++ '\n' :: t = u ++ '\n' :: t.takeWhile isGap ++ c :: rest := by
      conv_lhs => rw [← hsplit]
      simp
    rw [htext] at h
    refine ⟨t.takeWhile isGap, c :: rest, hsplit.symm, hgap, isPlainProse_append_right h ?_⟩
    rw [← Bool.not_eq_true]
    intro hblank
    rw [(h.plain c (by simp)).gap hblank] at hc
    cases hc

/-- Plain prose is made of pieces and gaps. -/
lemma exists_pieces (h : IsPlainProse t) :
    ∃ ps last, t = source ps last ∧ ArePieces ps ∧ IsPiece last := by
  induction hlength : t.length using Nat.strong_induction_on generalizing t with
  | _ n ih =>
    subst hlength
    by_cases hfeed : '\n' ∈ t
    · obtain ⟨line, behind, rfl, hline⟩ := List.eq_append_cons_of_mem hfeed
      obtain ⟨g, rest, rfl, hg, hrest⟩ := h.exists_gap
      obtain ⟨v, hv, hsplit⟩ := Text.exists_trimEnd_append line
      obtain ⟨ps, last, rfl, hps, hlast⟩ := ih rest.length (by simp; omega) hrest rfl
      refine ⟨(Text.trimEnd line, v ++ '\n' :: g) :: ps, last, ?_, ?_, hlast⟩
      · rw [source_cons]
        conv_lhs => rw [hsplit]
        simp
      · refine List.forall_mem_cons.mpr ⟨⟨h.isPiece_trimEnd hline, ?_, by simp⟩, hps⟩
        have hfront : ∀ c ∈ v, isGap c = true := fun c hc =>
          (h.plain c (List.mem_append_left _ (hsplit ▸ List.mem_append_right _ hc))).gap (hv c hc)
        simpa [or_imp, forall_and] using ⟨hfront, rfl, hg⟩
    · exact ⟨[], t, rfl, by simp [ArePieces], ⟨h, hfeed⟩⟩

/-! ### Line breaks made explicit -/

/-- The prose with its line feeds written as tags. -/
def tagged (ps : List (Text × Text)) (last : Text) : Text :=
  ps.flatMap (fun q => q.1 ++ breakTags q.2) ++ last

lemma tagged_cons (p g : Text) (ps : List (Text × Text)) (last : Text) :
    tagged ((p, g) :: ps) last = p ++ (breakTags g ++ tagged ps last) := by
  simp [tagged]

/-- A gap within a text whose last character belongs to no gap ends there. -/
lemma takeWhile_isGap_append (hne : p ≠ []) (hlast : ∀ c ∈ p.getLast?, isGap c = false) (rest : Text) :
    (p ++ rest).takeWhile isGap = p.takeWhile isGap := by
  rw [List.takeWhile_append, if_neg]
  intro hlength
  have hall := List.takeWhile_eq_self_iff.mp ((List.takeWhile_prefix isGap).eq_of_length hlength)
  have hnot := hlast _ (List.getLast?_eq_some_getLast hne)
  rw [hall _ (List.getLast_mem hne)] at hnot
  cases hnot

/-- No break begins within a piece. -/
lemma breakFrom_append (hlast : ∀ c ∈ p.getLast?, isGap c = false) (hline : '\n' ∉ p)
    (before : Option Char) (rest : Text) :
    breakFrom before 0 (p ++ rest) = p ++ breakFrom (p.getLast?.or before) 0 rest := by
  induction p generalizing before with
  | nil => rfl
  | cons c p ih =>
    have hkeep : ¬ BreaksAt before (c :: (p ++ rest)) := by
      rintro ⟨x, gap, d, s, -, -, hgap, hfeed, hd, heq⟩
      obtain ⟨htake, -⟩ := takeWhile_isGap hgap (isGap_of_startsProse hd) s
      rw [← heq, ← List.cons_append, takeWhile_isGap_append (List.cons_ne_nil c p) hlast] at htake
      exact hline ((List.takeWhile_prefix isGap).subset (htake ▸ hfeed))
    have hlast' : ∀ e ∈ p.getLast?, isGap e = false := by
      intro e he
      apply hlast
      cases p with
      | nil => cases he
      | cons d p => rwa [List.getLast?_cons_cons]
    have hline' : '\n' ∉ p := fun hmem => hline (List.mem_cons_of_mem c hmem)
    rw [List.cons_append, breakFrom_keep hkeep, ih hlast' hline', getLast?_cons_or, List.cons_append]

lemma isGap_of_not_blank (h : isBlank c = false) : isGap c = false := by
  rw [← Bool.not_eq_true]
  intro hgap
  rw [isBlank_of_isGap hgap] at h
  cases h

/-- No break begins in a piece. -/
lemma breakFrom_piece (hp : IsPiece p) (before : Option Char) (rest : Text) :
    breakFrom before 0 (p ++ rest) = p ++ breakFrom p.getLast? 0 rest := by
  obtain ⟨c, hc, hsolid⟩ := hp.last
  have hlast : ∀ d ∈ p.getLast?, isGap d = false := by
    intro d hd
    obtain rfl : c = d := Option.some.inj (hc.symm.trans hd)
    exact isGap_of_not_blank hsolid
  rw [breakFrom_append hlast hp.newline, hc]
  rfl

/-- The prose behind a gap starts with a character of prose. -/
lemma exists_source_cons {ps : List (Text × Text)} (hps : ArePieces ps) (hlast : IsPiece last) :
    ∃ c rest, source ps last = c :: rest ∧ startsProse c = true := by
  have hpiece : ∀ {p : Text}, IsPiece p → ∀ rest, ∃ c rest', p ++ rest = c :: rest' ∧
      startsProse c = true := by
    intro p hp rest
    obtain ⟨c, hc, hsolid⟩ := hp.head
    obtain ⟨p, rfl⟩ := List.head?_eq_some_iff.mp hc
    have hplain := (hp.plain c List.mem_cons_self).plain.1
    exact ⟨c, p ++ rest, rfl, by simp [startsProse, hplain, hsolid]⟩
  cases ps with
  | nil =>
    obtain ⟨c, rest, heq, hc⟩ := hpiece hlast []
    exact ⟨c, rest, (List.append_nil last).symm.trans heq, hc⟩
  | cons q ps =>
    obtain ⟨p, g⟩ := q
    rw [source_cons]
    exact hpiece (List.forall_mem_cons.mp hps).1.1 _

/-- The line feeds of the gaps are made explicit. -/
lemma breakFrom_source {ps : List (Text × Text)} (hps : ArePieces ps) (hlast : IsPiece last)
    (before : Option Char) : breakFrom before 0 (source ps last) = tagged ps last := by
  induction ps generalizing before with
  | nil =>
    have hpiece := breakFrom_piece hlast before []
    rwa [List.append_nil, breakFrom, List.append_nil] at hpiece
  | cons q ps ih =>
    obtain ⟨p, g⟩ := q
    obtain ⟨⟨hp, hg⟩, hps⟩ := List.forall_mem_cons.mp hps
    obtain ⟨c, rest, heq, hc⟩ := exists_source_cons hps hlast
    obtain ⟨x, hx, hsolid⟩ := hp.last
    have hprose : endsProse x = true := by
      have hplain := (hp.plain x (List.mem_of_getLast? hx)).plain.2.1
      simp [endsProse, hplain, hsolid]
    have hrest := ih hps g.getLast?
    rw [heq] at hrest
    rw [source_cons, tagged_cons, breakFrom_piece hp, hx, heq, breakFrom_break hprose hg.gap hg.feed hc,
      hrest]

/-- A text without an opening bracket has no preformatted region. -/
lemma preserveLineBreaks_of_no_bracket (h : '<' ∉ t) : preserveLineBreaks t = breakFrom none 0 t := by
  have hfree := pieceFree_of_not_mem h []
  rw [preserveLineBreaks_eq, cut_of_pieceFree isFinder_region hfree, map_rewrite_between,
    flatMap_text_between]

/-! ### The elements -/

/-- The element that a line break is. -/
def breakNode : Node :=
  .element "br" [] []

/-- The pieces as text, and an element for each line feed between them. -/
def nodes (ps : List (Text × Text)) (last : Text) : List Node :=
  ps.flatMap (fun q => .text q.1 :: List.replicate (q.2.count '\n') breakNode) ++ [.text last]

lemma nodes_cons (p g : Text) (ps : List (Text × Text)) (last : Text) :
    nodes ((p, g) :: ps) last =
      .text p :: (List.replicate (g.count '\n') breakNode ++ nodes ps last) := by
  simp [nodes]

lemma IsPiece.isPlainText (hp : IsPiece p) : IsPlainText p := by
  obtain ⟨c, hc, hsolid⟩ := hp.head
  refine isPlainText_of_mem (fun d hd => ⟨?_, ?_⟩) (List.mem_of_head? hc) hsolid
  · exact (hp.plain d hd).plain.1
  · exact (hp.plain d hd).plain.2.2

/-- Tags of breaks in front of markup are markup. -/
lemma isMarkup_breakNodes {ns : List Node} (h : IsMarkup ns t) (n : ℕ) :
    IsMarkup (List.replicate n breakNode ++ ns) (Text.repeated n "<br>" ++ t) := by
  induction n with
  | zero => exact h
  | succ n ih =>
    have htag : IsTagName "br" := ⟨by decide, List.all_eq_true.mp (by decide), by decide⟩
    exact .void htag (by decide) ih

/-- The tagged prose is read as its pieces with elements between them. -/
lemma isMarkup_tagged {ps : List (Text × Text)} (hps : ArePieces ps) (hlast : IsPiece last) :
    IsMarkup (nodes ps last) (tagged ps last) := by
  induction ps with
  | nil =>
    have hmarkup : IsMarkup [.text last] (last ++ []) :=
      .text hlast.isPlainText (by simp [BeginsWithTag]) .nil
    rwa [List.append_nil] at hmarkup
  | cons q ps ih =>
    obtain ⟨p, g⟩ := q
    obtain ⟨⟨hp, hg⟩, hps⟩ := List.forall_mem_cons.mp hps
    obtain ⟨n, hn⟩ := Nat.exists_eq_succ_of_ne_zero (List.count_pos_iff.mpr hg.feed).ne'
    rw [nodes_cons, tagged_cons]
    refine .text hp.isPlainText ?_ (isMarkup_breakNodes (ih hps) _)
    rw [hn]
    simp [BeginsWithTag, List.replicate_succ, breakNode]

/-! ### The words of a line -/

/-- The words of a line with a space between two of them. -/
def respaced (l : Text) : Text :=
  Text.joinWith [' '] (Text.words l)

lemma words_ne_nil (hc : c ∈ t) (h : isBlank c = false) : Text.words t ≠ [] := by
  rw [ne_eq, Text.words_eq_nil_iff, Text.blank_of_mem hc h]
  exact Bool.false_ne_true

lemma isWord_of_mem_words (h : u ∈ Text.words t) : IsWord u :=
  ⟨(Text.of_mem_wordsBy h).1, (Text.of_mem_wordsBy h).2⟩

/-- White space at the end of a line is left out. -/
lemma respaced_append_of_blank (h : ∀ c ∈ g, isBlank c = true) (l : Text) :
    respaced (l ++ g) = respaced l :=
  congrArg (Text.joinWith [' ']) (Text.wordsBy_append_all h l)

lemma respaced_cons_of_blank (h : isBlank c = true) (l : Text) : respaced (c :: l) = respaced l :=
  congrArg (Text.joinWith [' ']) (Text.wordsBy_cons_of_pos h l)

/-- A word of one character with more words behind it. -/
lemma respaced_cons_of_sep (hc : isBlank c = false) (hhead : l.head?.all isBlank = true)
    (hwords : Text.words l ≠ []) : respaced (c :: l) = c :: ' ' :: respaced l := by
  have hfirst : Text.words (c :: l) = [c] :: Text.words l := Text.wordsBy_cons_of_sep hc hhead
  obtain ⟨w, ws, hws⟩ := List.exists_cons_of_ne_nil hwords
  rw [respaced, respaced, hfirst, hws]
  rfl

lemma respaced_cons_of_not_blank (hc : isBlank c = false) (hd : isBlank d = false) (l : Text) :
    respaced (c :: d :: l) = c :: respaced (d :: l) := by
  have hfirst : Text.words (c :: d :: l) =
      (c :: (Text.words (d :: l)).headD []) :: (Text.words (d :: l)).tail :=
    Text.wordsBy_cons_cons hc hd l
  obtain ⟨w, ws, hws⟩ := List.exists_cons_of_ne_nil (Text.wordsBy_ne_nil hd l)
  have hrest : Text.words (d :: l) = w :: ws := hws
  rw [respaced, respaced, hfirst, hrest]
  cases ws <;> rfl

/-- A line whose spaces are changed is empty or tidy. -/
lemma respaced_eq_nil_or (l : Text) : respaced l = [] ∨ IsTidyLine (respaced l) := by
  by_cases hnil : Text.words l = []
  · exact Or.inl (by rw [respaced, hnil]; rfl)
  · exact Or.inr (isTidyLine_joinWith hnil fun w hw => isWord_of_mem_words hw)

/-- Spaces and tabs within a line collapse to one space, and at its start as well. -/
lemma collapse_cons_eq (hspace : ∀ d ∈ c :: t, isBlank d = true → d = ' ' ∨ d = '\t')
    (hlast : ∀ d ∈ (c :: t).getLast?, isBlank d = false) :
    collapse (c :: t) = (if isBlank c then [' '] else []) ++ respaced (c :: t) := by
  induction t generalizing c with
  | nil =>
    have hc : isBlank c = false := hlast c rfl
    rw [collapse_cons_of_not (isCollapsing_of_not_blank hc), if_neg (by simp [hc])]
    simp [collapse, respaced, Text.words, Text.wordsBy, hc, Text.joinWith]
  | cons d t ih =>
    obtain ⟨hc, hmore⟩ := List.forall_mem_cons.mp hspace
    rw [List.getLast?_cons_cons] at hlast
    have hrest := ih hmore hlast
    have hwords : Text.words (d :: t) ≠ [] :=
      words_ne_nil (List.getLast_mem _) (hlast _ (List.getLast?_eq_some_getLast (List.cons_ne_nil d t)))
    cases hblank : isBlank c with
    | false =>
      rw [collapse_cons_of_not (isCollapsing_of_not_blank hblank), hrest]
      cases hd : isBlank d with
      | false => rw [respaced_cons_of_not_blank hblank hd]; rfl
      | true =>
        rw [respaced_cons_of_sep (l := d :: t) hblank hd hwords]
        rfl
    | true =>
      rw [collapse_space (hc hblank), hrest, respaced_cons_of_blank hblank]
      cases hd : isBlank d with
      | false => simp [isCollapsing_of_not_blank hd]
      | true =>
        have hcollapsing : isCollapsing d = true := by
          rcases hmore d List.mem_cons_self hd with rfl | rfl <;> rfl
        simp [hcollapsing]

/-- Of a piece its words are shown. -/
lemma IsPiece.collapse_eq (hp : IsPiece p) : collapse p = respaced p := by
  obtain ⟨c, hc, hsolid⟩ := hp.head
  obtain ⟨d, hd, hsolid'⟩ := hp.last
  obtain ⟨t, rfl⟩ := List.head?_eq_some_iff.mp hc
  have hspace : ∀ e ∈ c :: t, isBlank e = true → e = ' ' ∨ e = '\t' := by
    intro e he hblank
    have hgap := (hp.plain e he).gap hblank
    simp only [isGap, Bool.or_eq_true, beq_iff_eq] at hgap
    rcases hgap with (rfl | rfl) | rfl
    · exact Or.inl rfl
    · exact Or.inr rfl
    · exact absurd he hp.newline
  have hlast : ∀ e ∈ (c :: t).getLast?, isBlank e = false := by
    intro e he
    obtain rfl : d = e := Option.some.inj (hd.symm.trans he)
    exact hsolid'
  rw [collapse_cons_eq hspace hlast, if_neg (by simp [hsolid])]
  rfl

lemma IsPiece.isTidyLine (hp : IsPiece p) : IsTidyLine (respaced p) := by
  obtain ⟨c, hc, hsolid⟩ := hp.head
  exact isTidyLine_joinWith (words_ne_nil (List.mem_of_head? hc) hsolid) fun w hw =>
    isWord_of_mem_words hw

/-! ### The lines -/

/-- The lines of prose: the words of each piece, and the empty lines of each gap. -/
def proseLines (ps : List (Text × Text)) (last : Text) : List Text :=
  ps.flatMap (fun q => respaced q.1 :: List.replicate (q.2.count '\n' - 1) []) ++ [respaced last]

lemma proseLines_cons (p g : Text) (ps : List (Text × Text)) (last : Text) :
    proseLines ((p, g) :: ps) last =
      respaced p :: (List.replicate (g.count '\n' - 1) [] ++ proseLines ps last) := by
  simp [proseLines]

lemma IsPiece.unbroken (hp : IsPiece p) : ∀ c ∈ p, isLineBreak c = false := by
  intro c hc
  rw [← Bool.not_eq_true]
  intro hbreak
  have hgap := (hp.plain c hc).gap (isBlank_of_isLineBreak hbreak)
  simp only [isGap, Bool.or_eq_true, beq_iff_eq] at hgap
  rcases hgap with (rfl | rfl) | rfl
  · cases hbreak
  · cases hbreak
  · exact hp.newline hc

/-- In front of more prose, a gap has an empty line for each of its line feeds. -/
lemma map_respaced_lines_gap (hg : ∀ c ∈ g, isGap c = true) (ht : t ≠ []) :
    (Text.lines (g ++ t)).map respaced =
      List.replicate (g.count '\n') [] ++ (Text.lines t).map respaced := by
  induction g with
  | nil => rfl
  | cons c g ih =>
    obtain ⟨hc, hg'⟩ := List.forall_mem_cons.mp hg
    by_cases hfeed : c = '\n'
    · subst hfeed
      rw [List.cons_append, Text.lines_newline, List.map_cons, ih hg', List.count_cons_self]
      rfl
    · have hbreak : isLineBreak c = false := by
        simp only [isGap, Bool.or_eq_true, beq_iff_eq, hfeed, or_false] at hc
        rcases hc with rfl | rfl <;> rfl
      have hne : g ++ t ≠ [] := List.append_ne_nil_of_right_ne_nil g ht
      obtain ⟨l, ls, hls⟩ := List.exists_cons_of_ne_nil (Text.lines_ne_nil hne)
      rw [hls] at ih
      rw [List.cons_append, Text.lines_cons hbreak, hls, List.count_cons_of_ne hfeed, ← ih hg']
      simp [respaced_cons_of_blank (isBlank_of_isGap hc)]

/-- The first line is the first piece, and the empty lines are those of its gap. -/
lemma map_respaced_lines_append (hp : IsPiece p) (hg : IsGapText g) (ht : t ≠ []) :
    (Text.lines (p ++ (g ++ t))).map respaced =
      respaced p :: (List.replicate (g.count '\n' - 1) [] ++ (Text.lines t).map respaced) := by
  obtain ⟨s, g, rfl, hs⟩ := List.eq_append_cons_of_mem hg.feed
  obtain ⟨hspace, hgap⟩ := List.forall_mem_append.mp hg.gap
  have hunbroken : ∀ c ∈ p ++ s, isLineBreak c = false := by
    refine List.forall_mem_append.mpr ⟨hp.unbroken, fun c hc => ?_⟩
    have hgap := hspace c hc
    simp only [isGap, Bool.or_eq_true, beq_iff_eq] at hgap
    rcases hgap with (rfl | rfl) | rfl
    · rfl
    · rfl
    · exact absurd hc hs
  have htext : p ++ (s ++ '\n' :: g ++ t) = (p ++ s) ++ '\n' :: (g ++ t) := by simp
  have hcount : (s ++ '\n' :: g).count '\n' - 1 = g.count '\n' := by
    rw [List.count_append, List.count_eq_zero.mpr hs, List.count_cons_self]
    omega
  rw [htext, Text.lines_line hunbroken, List.map_cons, hcount,
    map_respaced_lines_gap (List.forall_mem_cons.mp hgap).2 ht,
    respaced_append_of_blank fun c hc => isBlank_of_isGap (hspace c hc)]

/-- The lines of prose are those of its pieces and gaps. -/
lemma map_respaced_lines {ps : List (Text × Text)} (hps : ArePieces ps) (hlast : IsPiece last) :
    (Text.lines (source ps last)).map respaced = proseLines ps last := by
  induction ps with
  | nil =>
    have hlines : Text.lines (source [] last) = [last] :=
      Text.lines_of_forall hlast.ne_nil hlast.unbroken
    rw [hlines]
    rfl
  | cons q ps ih =>
    obtain ⟨p, g⟩ := q
    obtain ⟨⟨hp, hg⟩, hps⟩ := List.forall_mem_cons.mp hps
    obtain ⟨c, rest, heq, -⟩ := exists_source_cons hps hlast
    have hne : source ps last ≠ [] := heq ▸ List.cons_ne_nil c rest
    rw [source_cons, proseLines_cons, map_respaced_lines_append hp hg hne, ih hps]

/-! ### What is shown -/

/-- What is shown of a line break. -/
def shownBreak : Text :=
  "  \n"

/-- What is shown of the pieces and of the elements between them. -/
def parts (ps : List (Text × Text)) (last : Text) : List Text :=
  ps.flatMap (fun q => respaced q.1 :: List.replicate (q.2.count '\n') shownBreak) ++ [respaced last]

lemma parts_cons (p g : Text) (ps : List (Text × Text)) (last : Text) :
    parts ((p, g) :: ps) last =
      respaced p :: (List.replicate (g.count '\n') shownBreak ++ parts ps last) := by
  simp [parts]

lemma IsGapText.exists_count (hg : IsGapText g) : ∃ n, g.count '\n' = n + 1 :=
  Nat.exists_eq_succ_of_ne_zero (List.count_pos_iff.mpr hg.feed).ne'

/-- A line break is shown in front of what follows it. -/
lemma ofNodes_breakNodes {all ns : List Node} {ts : List Text}
    (h : ∀ before, stripsOutside before.head? = false → ofNodes [document all] before ns = ts) (n : ℕ)
    {before : List Node} (hbefore : stripsOutside before.head? = false) :
    ofNodes [document all] before (List.replicate n breakNode ++ ns) =
      List.replicate n shownBreak ++ ts := by
  induction n generalizing before with
  | zero => exact h before hbefore
  | succ n ih =>
    have happly : ∀ before after, applyRule [document all] before after "br" [] [] [] = shownBreak :=
      fun _ _ => rfl
    have hbreak : ∀ after, ofNode [document all] before after breakNode = shownBreak := by
      intro after
      rw [breakNode, ofNode]
      exact happly before after
    have hrest : ofNodes [document all] (breakNode :: before) (List.replicate n breakNode ++ ns) =
        List.replicate n shownBreak ++ ts := ih rfl
    have hsilent : ∀ inBlock b a, isSilent inBlock b a breakNode = false := fun _ _ _ => rfl
    rw [List.replicate_succ, List.cons_append, ofNodes, hsilent, if_neg Bool.false_ne_true, hrest,
      hbreak, List.replicate_succ, List.cons_append]

/-- Each piece is shown as its words. -/
lemma ofNodes_nodes (all : List Node) {ps : List (Text × Text)} (hps : ArePieces ps)
    (hlast : IsPiece last) {before : List Node} (hbefore : stripsOutside before.head? = false) :
    ofNodes [document all] before (nodes ps last) = parts ps last := by
  have hblock : isBlock (document all).name = false := rfl
  have hpre : isInside "pre" [document all] = false := rfl
  have htext : ∀ {p : Text} {before ns : List Node}, IsPiece p →
      stripsOutside before.head? = false → stripsOutside ns.head? = false →
      ofNodes [document all] before (.text p :: ns) =
        respaced p :: ofNodes [document all] (.text p :: before) ns := by
    intro p before ns hp hbefore hafter
    simp [ofNodes, ofNode, isSilent, textNode, hpre, hblock, hbefore, hafter, hp.collapse_eq,
      -String.reduceToList]
  induction ps generalizing before with
  | nil => exact htext hlast hbefore rfl
  | cons q ps ih =>
    obtain ⟨p, g⟩ := q
    obtain ⟨⟨hp, hg⟩, hps⟩ := List.forall_mem_cons.mp hps
    obtain ⟨n, hn⟩ := hg.exists_count
    rw [nodes_cons, parts_cons, htext hp hbefore (by rw [hn]; rfl),
      ofNodes_breakNodes (fun _ hbefore => ih hps hbefore) _ rfl]

lemma flatten_parts_cons (p g : Text) (ps : List (Text × Text)) (last : Text) :
    (parts ((p, g) :: ps) last).flatten =
      respaced p ++ (Text.repeated (g.count '\n') shownBreak ++ (parts ps last).flatten) := by
  rw [parts_cons, List.flatten_cons, List.flatten_append]
  rfl

/-- Two spaces at the end of a line go with the white space there. -/
lemma map_trimEnd_lines_repeated (n : ℕ) (t : Text) :
    (Text.lines (Text.repeated n shownBreak ++ t)).map Text.trimEnd =
      List.replicate n [] ++ (Text.lines t).map Text.trimEnd := by
  induction n with
  | zero => rfl
  | succ n ih =>
    have htext : Text.repeated (n + 1) shownBreak ++ t =
        [' ', ' '] ++ '\n' :: (Text.repeated n shownBreak ++ t) := rfl
    rw [htext, Text.lines_line (by simp [isLineBreak]), List.map_cons, ih]
    rfl

/-- What is shown has the lines of the prose. -/
lemma map_trimEnd_lines {ps : List (Text × Text)} (hps : ArePieces ps) (hlast : IsPiece last) :
    (Text.lines (parts ps last).flatten).map Text.trimEnd = proseLines ps last := by
  induction ps with
  | nil =>
    have htidy := hlast.isTidyLine
    have hlines : Text.lines (parts [] last).flatten = [respaced last] := by
      rw [show (parts [] last).flatten = respaced last ++ [] from rfl, List.append_nil]
      exact Text.lines_of_forall htidy.ne_nil htidy.unbroken
    rw [hlines, List.map_singleton, htidy.trimEnd]
    rfl
  | cons q ps ih =>
    obtain ⟨p, g⟩ := q
    obtain ⟨⟨hp, hg⟩, hps⟩ := List.forall_mem_cons.mp hps
    obtain ⟨n, hn⟩ := hg.exists_count
    have htidy := hp.isTidyLine
    have hunbroken : ∀ c ∈ respaced p ++ [' ', ' '], isLineBreak c = false :=
      List.forall_mem_append.mpr ⟨htidy.unbroken, by simp [isLineBreak]⟩
    have hend : Text.trimEnd (respaced p ++ [' ', ' ']) = respaced p := by
      rw [Text.trimEnd_append_of_blank (by simp [isBlank]), htidy.trimEnd]
    have htext : ∀ t, respaced p ++ (Text.repeated (n + 1) shownBreak ++ t) =
        (respaced p ++ [' ', ' ']) ++ '\n' :: (Text.repeated n shownBreak ++ t) := by
      intro t
      rw [List.append_assoc]
      rfl
    rw [flatten_parts_cons, proseLines_cons, hn, htext, Text.lines_line hunbroken, List.map_cons, hend,
      map_trimEnd_lines_repeated, ih hps]
    rfl

/-! ### The prose -/

/-- What is shown neither starts nor ends with a line feed. -/
lemma isBare_parts {ps : List (Text × Text)} (hps : ArePieces ps) (hlast : IsPiece last) :
    IsBare (parts ps last).flatten := by
  have hend : respaced last <:+ (parts ps last).flatten :=
    ⟨_, by rw [parts, List.flatten_append, List.flatten_singleton]⟩
  have hstart : ∃ l, IsBare l ∧ l <+: (parts ps last).flatten := by
    cases ps with
    | nil => exact ⟨respaced last, hlast.isTidyLine.isBare, [], rfl⟩
    | cons q ps =>
      obtain ⟨p, g⟩ := q
      obtain ⟨⟨hp, -⟩, -⟩ := List.forall_mem_cons.mp hps
      exact ⟨respaced p, hp.isTidyLine.isBare, _, (flatten_parts_cons p g ps last).symm⟩
  obtain ⟨l, hl, hstart⟩ := hstart
  exact hl.of_isPrefix_of_isSuffix hlast.isTidyLine.isBare hstart hend

/-- The elements are shown as the words of the pieces with line breaks between them. -/
lemma ofForest_nodes {ps : List (Text × Text)} (hps : ArePieces ps) (hlast : IsPiece last) :
    ofForest (nodes ps last) = (parts ps last).flatten := by
  have hpart : ∀ {p}, IsPiece p → ∃ u b, IsBare u ∧ respaced p = padded 0 u b := fun {p} hp =>
    ⟨respaced p, 0, hp.isTidyLine.isBare, by simp [padded]⟩
  have hparts : ∀ t ∈ parts ps last, ∃ u b, IsBare u ∧ t = padded 0 u b := by
    intro t ht
    rcases List.mem_append.mp ht with ht | ht
    · obtain ⟨q, hq, ht⟩ := List.mem_flatMap.mp ht
      rcases List.mem_cons.mp ht with rfl | ht
      · exact hpart (hps q hq).1
      · rw [List.eq_of_mem_replicate ht]
        exact ⟨[' ', ' '], 1, isBare_of_not_mem (by decide) (by decide), rfl⟩
    · rw [List.mem_singleton.mp ht]
      exact hpart hlast
  rw [ofForest, ofNodes_nodes _ hps hlast rfl, merge_flatten hparts]
  simpa [padded] using trimBy_padded (isBare_parts hps hlast) 0 0

lemma getLast?_proseLines (ps : List (Text × Text)) (hlast : IsPiece last) :
    (proseLines ps last).getLast? ≠ some [] := by
  rw [proseLines, List.getLast?_append_of_ne_nil _ (List.cons_ne_nil _ _)]
  exact fun hnil => hlast.isTidyLine.ne_nil (Option.some.inj hnil)

/-- What is shown is tidied into the lines of prose. -/
lemma tidy_parts {ps : List (Text × Text)} (hps : ArePieces ps) (hlast : IsPiece last) :
    tidy (parts ps last).flatten = Text.unlines (squeezed (proseLines ps last)) := by
  have hlines := map_trimEnd_lines hps hlast
  have hend := getLast?_proseLines ps hlast
  have hstart : ∃ l ls, proseLines ps last = l :: ls ∧ l ≠ [] := by
    cases ps with
    | nil => exact ⟨respaced last, [], rfl, hlast.isTidyLine.ne_nil⟩
    | cons q ps =>
      obtain ⟨p, g⟩ := q
      obtain ⟨⟨hp, -⟩, -⟩ := List.forall_mem_cons.mp hps
      exact ⟨respaced p, _, proseLines_cons p g ps last, hp.isTidyLine.ne_nil⟩
  obtain ⟨l, ls, hcons, hl⟩ := hstart
  rw [hcons] at hlines hend ⊢
  exact tidy_of_lines hlines hl hend

/-- Plain prose is shown line by line. -/
lemma ofHtml_plainProse (h : IsPlainProse t) :
    ofHtml t = Text.unlines (squeezed ((Text.lines t).map respaced)) ∧
      ((Text.lines t).map respaced).getLast? ≠ some [] := by
  have hbracket : '<' ∉ t := fun hmem => (h.plain '<' hmem).plain.1 rfl
  have hblank : Text.blank t = false := by
    obtain ⟨c, hc, hsolid⟩ := h.head
    exact Text.blank_of_mem (List.mem_of_head? hc) hsolid
  obtain ⟨ps, last, rfl, hps, hlast⟩ := exists_pieces h
  rw [ofHtml, hblank, if_neg Bool.false_ne_true, preserveLineBreaks_of_no_bracket hbracket,
    breakFrom_source hps hlast, (isMarkup_tagged hps hlast).parse_eq, ofForest_nodes hps hlast,
    tidy_parts hps hlast, map_respaced_lines hps hlast]
  exact ⟨rfl, getLast?_proseLines ps hlast⟩

/-- Plain prose is shown line by line, with one space where a line has white space within it, and one
empty line where it has several lines without words.  On one line it is its words with a space between
two of them. -/
theorem ofHtml_eq_and_inline_eq_of_isPlainProse (h : IsPlainProse t) :
    ofHtml t = Text.unlines (squeezed ((Text.lines t).map respaced)) ∧
      inline t = Text.joinWith [' '] (Text.words t) := by
  obtain ⟨hshown, hlast⟩ := ofHtml_plainProse h
  refine ⟨hshown, ?_⟩
  set ls := (Text.lines t).map respaced with hls
  have htidy : ∀ l ∈ ls, l = [] ∨ IsTidyLine l := by
    intro l hl
    obtain ⟨m, -, rfl⟩ := List.mem_map.mp hl
    exact respaced_eq_nil_or m
  have hlines : Text.lines (Text.unlines (squeezed ls)) = squeezed ls := by
    refine Text.lines_unlines (by rwa [getLast?_squeezed hlast]) fun l hl c hc => ?_
    rcases htidy l (mem_of_mem_squeezed hl) with rfl | hline
    · cases hc
    · exact hline.unbroken c hc
  have htrim : ls.map Text.trim = ls := by
    refine (List.map_congr_left (g := id) fun l hl => ?_).trans (List.map_id _)
    rcases htidy l hl with rfl | hline
    · rfl
    · exact hline.trim
  calc inline t = Text.joinWith [' '] (ls.filter fun l => !l.isEmpty) := by
        rw [inline, hshown, hlines, filter_map_squeezed rfl, htrim]
    _ = Text.joinWith [' '] ((Text.lines t).map Text.words).flatten := by
        rw [← Text.joinWith_joinWith, List.map_map]
        · rfl
        · intro ws hws w hw
          obtain ⟨l, -, rfl⟩ := List.mem_map.mp hws
          exact (isWord_of_mem_words hw).ne_nil
    _ = Text.joinWith [' '] (Text.words t) := by
        rw [← List.flatMap_def, Text.flatMap_words_lines]

/-- Two paragraphs with a line between them that holds white space alone. -/
def twoParagraphs : Text :=
  "First  line,\n second.\n \t\n\n  Third\tline."

/-- Two paragraphs, with tabs and spaces between their words and lines. -/
theorem ofHtml_eq_and_inline_eq_of_isPlainProse_twoParagraphs :
    ofHtml twoParagraphs = "First line,\nsecond.\n\nThird line." ∧
      inline twoParagraphs = "First line, second. Third line." := by
  have hplain : ∀ c ∈ twoParagraphs,
      ((!isBlank c || isGap c) && c != '<' && c != '>' && c != '&') = true :=
    List.all_eq_true.mp (by decide)
  refine ofHtml_eq_and_inline_eq_of_isPlainProse ⟨⟨'F', rfl, rfl⟩, ⟨'.', rfl, rfl⟩, fun c hc => ?_⟩
  have hchar := hplain c hc
  simp only [Bool.and_eq_true, Bool.or_eq_true, Bool.not_eq_true', bne_iff_ne] at hchar
  obtain ⟨⟨⟨hgap, hopen⟩, hclose⟩, hreference⟩ := hchar
  exact ⟨fun hblank => hgap.resolve_left (by simp [hblank]), hopen, hclose, hreference⟩

end Markdown

end Ambient

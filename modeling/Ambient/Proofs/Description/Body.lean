import Mathlib
import Ambient.Description
import Ambient.Proofs.Description.Lines
import Ambient.Proofs.Prose.Block
import Ambient.Proofs.Prose.Plain
import Ambient.Proofs.Prose.Wrap
import Ambient.Proofs.Run

/-!
# The documentation in a comment

The blocks of a documentation stand in a comment one after another, those about a deprecation behind
all others; two phrases tell them (`IsDeprecated`).  Code is taken over line by line.  Any other block
is cut into lines, each of which is wrapped on its own, so its words stay in their order and a long line
is one run (`shows_of_wraps`).  At every positive width this gives the lines of each block, and there is
an empty line between two blocks (`bodyLines_split`).
-/

namespace Ambient

namespace Description

open Prose (Block)

variable {width : ℤ} {lines g : List Text} {parts groups : List (List Text)} {b : Block}

/-! ### Wrapped lines -/

/-- Lines that are wrapped on their own have their words in their order. -/
lemma flatMap_words_parts (h : List.Forall₂ (Prose.Wraps width) lines parts) :
    parts.flatten.flatMap Text.words = lines.flatMap Text.words := by
  induction h with
  | nil => rfl
  | cons hwraps _ ih => rw [List.flatten_cons, List.flatMap_append, hwraps.words, ih, List.flatMap_cons]

/-- Every positive width gives each line its own lines. -/
lemma exists_wrapLines (hwidth : 1 ≤ width) (lines : List Text) :
    ∃ parts, wrapLines width lines = .ok parts.flatten ∧
      List.Forall₂ (Prose.Wraps width) lines parts := by
  have hline : ∀ l ∈ lines, ∃ ls, wrapLine width l = .ok ls ∧ Prose.Wraps width l ls := by
    intro l _
    obtain ⟨ls, hls⟩ := Prose.exists_softWrap? l hwidth
    refine ⟨ls, ?_, Prose.wraps_of_softWrap? hls⟩
    rw [wrapLine, hls]
  obtain ⟨parts, hparts, hwraps⟩ := Except.exists_mapM_eq_ok hline
  refine ⟨parts, ?_, hwraps⟩
  rw [wrapLines, hparts]
  rfl

/-! ### The lines of a block -/

/-- A block that is no code and says in one of two phrases that something is deprecated. -/
def IsDeprecated (b : Block) : Prop :=
  b.isCode = false ∧
    (("Deprecated in version" : Text) <:+: b.text ∨ ("DeprecatedVersion " : Text) <:+: b.text)

instance (b : Block) : Decidable (IsDeprecated b) :=
  inferInstanceAs (Decidable (_ ∧ _))

/-- The blocks that are moved behind all others are those with one of the two phrases. -/
lemma isDeprecation_eq (b : Block) : isDeprecation b = decide (IsDeprecated b) := by
  rw [Bool.eq_iff_iff, decide_eq_true_eq, isDeprecation, Prose.saysDeprecated, Bool.and_eq_true,
    Bool.or_eq_true, Text.has_iff_isInfix, Text.has_iff_isInfix, Bool.not_eq_true', IsDeprecated]

/-- What stands in front of a block: a mark if it says that something is deprecated. -/
def leadOf (b : Block) : Text :=
  if IsDeprecated b then "@deprecated " else []

/-- The lines of a block before they are wrapped, with the mark of a deprecation in front of the first
one. -/
def sourceLines (b : Block) : List Text :=
  match b.text.lines with
  | [] => []
  | l :: ls => (leadOf b ++ l) :: ls

/-- The lines that a block is shown by at a width. -/
structure Shows (width : ℤ) (b : Block) (g : List Text) : Prop where
  code : b.isCode = true → g = b.text.lines
  wraps : b.isCode = false → ∃ parts, List.Forall₂ (Prose.Wraps width) (sourceLines b) parts ∧
    g = parts.flatten
  words : b.isCode = false →
    g.flatMap Text.words = Text.words (leadOf b) ++ Text.words b.text
  fits : b.isCode = false → ∀ l ∈ g, l.length ≤ width ∨ ∃ k ∈ sourceLines b, Prose.IsRunOf k l

/-- The mark of a deprecation stands in the first line of a block. -/
lemma lines_lead (h : b.text.lines ≠ []) : Text.lines (leadOf b ++ b.text) = sourceLines b := by
  have hlead : ∀ c ∈ leadOf b, isLineBreak c = false := by
    unfold leadOf
    split_ifs
    · have hmark : ("@deprecated " : Text).all (fun c => !isLineBreak c) = true := by decide
      intro c hc
      simpa using List.all_eq_true.mp hmark c hc
    · simp
  have hne : b.text ≠ [] := by
    intro hnil
    exact h (by rw [hnil]; rfl)
  obtain ⟨l, ls, hls⟩ := List.exists_cons_of_ne_nil h
  rw [Text.lines_append_of_forall hlead hne, sourceLines, hls]
  rfl

/-- A mark in front of a text is a word of its own. -/
lemma words_lead_append (b : Block) (t : Text) :
    Text.words (leadOf b ++ t) = Text.words (leadOf b) ++ Text.words t := by
  unfold leadOf
  split_ifs
  · have hmark : Text.words ("@deprecated " : Text) = Text.words ("@deprecated" : Text) := by decide
    have happend : ("@deprecated " : Text) ++ t = "@deprecated" ++ ' ' :: t := rfl
    rw [hmark, happend]
    exact Text.wordsBy_append_cons (by decide) _ t
  · rfl

/-- Code is shown line by line as it stands. -/
lemma shows_of_code (h : b.isCode = true) : Shows width b b.text.lines := by
  constructor
  · exact fun _ => rfl
  all_goals
    intro hno
    rw [h] at hno
    cases hno

lemma words_ne_nil {l : Text} (h : l.blank = false) : l.words ≠ [] := by
  rw [ne_eq, Text.words_eq_nil_iff, h]
  exact Bool.false_ne_true

/-- A block of lines with words is shown by these lines, each of them wrapped on its own. -/
lemma shows_of_wraps (hcode : b.isCode = false) (hne : b.text.lines ≠ [])
    (hlines : ∀ l ∈ b.text.lines, l.blank = false)
    (h : List.Forall₂ (Prose.Wraps width) (sourceLines b) parts) : Shows width b parts.flatten := by
  have hwords : ∀ k ∈ sourceLines b, Text.words k ≠ [] := by
    intro k hk
    obtain ⟨l, ls, hls⟩ := List.exists_cons_of_ne_nil hne
    rw [hls] at hlines
    rw [sourceLines, hls] at hk
    obtain ⟨hl, hrest⟩ := List.forall_mem_cons.mp hlines
    rcases List.mem_cons.mp hk with rfl | hk
    · rw [words_lead_append]
      exact List.append_ne_nil_of_right_ne_nil _ (words_ne_nil hl)
    · exact words_ne_nil (hrest k hk)
  refine ⟨fun hno => ?_, fun _ => ⟨parts, h, rfl⟩, fun _ => ?_, fun _ l hl => ?_⟩
  · rw [hcode] at hno
    cases hno
  · rw [flatMap_words_parts h, ← lines_lead hne, Text.flatMap_words_lines, words_lead_append]
  · obtain ⟨part, hpart, hl⟩ := List.mem_flatten.mp hl
    obtain ⟨k, hk, hwraps⟩ := exists_of_mem_forall₂ h hpart
    rcases hwraps.fits l hl with hfits | hrun | hnone
    · exact Or.inl hfits
    · exact Or.inr ⟨k, hk, hrun⟩
    · exact absurd hnone (hwords k hk)

/-- Every block of a text has lines that show it. -/
lemma exists_blockLines (hwidth : 1 ≤ width) {t : Text} (hb : b ∈ Block.split t) :
    ∃ g, blockLines width (leadOf b) b = .ok g ∧ Shows width b g := by
  cases hcode : b.isCode with
  | true =>
    refine ⟨b.text.lines, ?_, shows_of_code hcode⟩
    rw [blockLines, if_pos hcode]
    rfl
  | false =>
    obtain ⟨hne, hlines⟩ := Block.lines_of_mem_split hb hcode
    obtain ⟨parts, hparts, hwraps⟩ := exists_wrapLines hwidth (sourceLines b)
    refine ⟨parts.flatten, ?_, shows_of_wraps hcode hne (fun l hl => (hlines l hl).1) hwraps⟩
    rw [blockLines, if_neg (by simp [hcode]), lines_lead hne, hparts]

/-! ### All blocks -/

/-- Groups are put together with an empty line between two of them. -/
lemma separated_eq (groups : List (List Text)) :
    bodyLines.separated groups = List.intercalate [[]] groups := by
  fun_induction bodyLines.separated groups with
  | case1 => rfl
  | case2 g => simp
  | case3 g groups hne ih =>
    obtain ⟨g', groups, rfl⟩ := List.exists_cons_of_ne_nil hne
    rw [ih, List.intercalate_cons_cons]
    simp

/-- The blocks in the order in which they are shown: those about a deprecation come last. -/
def shownOrder (blocks : List Block) : List Block :=
  blocks.filter (fun b => ¬ IsDeprecated b) ++ blocks.filter (fun b => IsDeprecated b)

/-- The documentation shows every block of a text, in order and those about a deprecation behind all
others, with an empty line between two blocks. -/
theorem bodyLines_split (t : Text) (hwidth : 1 ≤ width) :
    ∃ groups, bodyLines width (Block.split t) = .ok (List.intercalate [[]] groups) ∧
      List.Forall₂ (Shows width) (shownOrder (Block.split t)) groups := by
  have hblocks : ∀ (p : Block → Bool) (lead : Text), (∀ b, p b = true → leadOf b = lead) →
      ∃ groups, ((Block.split t).filter p).mapM (blockLines width lead) = .ok groups ∧
        List.Forall₂ (Shows width) ((Block.split t).filter p) groups := by
    intro p lead hlead
    refine Except.exists_mapM_eq_ok fun b hb => ?_
    obtain ⟨hb, hp⟩ := List.mem_filter.mp hb
    exact hlead b hp ▸ exists_blockLines hwidth hb
  obtain ⟨prose, hprose, hshown⟩ :=
    hblocks (fun b => ¬ IsDeprecated b) [] fun b hb => if_neg (of_decide_eq_true hb)
  obtain ⟨deprecations, hdeprecations, hdeprecated⟩ :=
    hblocks (fun b => IsDeprecated b) "@deprecated " fun b hb => if_pos (of_decide_eq_true hb)
  refine ⟨prose ++ deprecations, ?_, List.rel_append hshown hdeprecated⟩
  have hphrases : isDeprecation = fun b => decide (IsDeprecated b) := funext isDeprecation_eq
  simp only [decide_not] at hprose
  rw [← separated_eq, bodyLines, hphrases, hprose, hdeprecations]
  rfl

/-- A deprecation in front of code and of a paragraph. -/
def deprecatedFirst : Text :=
  "Deprecated in version 1.4, do not use it.\n\n" ++
    "```\nlet box = new Box(1, 2, 3)\n\n```\nSee also extraordinary things."

/-- A deprecation in front of code and of a paragraph, at a width of twelve. -/
theorem bodyLines_split_deprecatedFirst :
    (1 : ℤ) ≤ 12 ∧
    (shownOrder (Block.split deprecatedFirst)).map leadOf = [[], [], "@deprecated "] ∧
    ∃ groups, bodyLines 12 (Block.split deprecatedFirst) = .ok (List.intercalate [[]] groups) ∧
      List.Forall₂ (Shows 12) (shownOrder (Block.split deprecatedFirst)) groups :=
  ⟨by decide, by decide, bodyLines_split deprecatedFirst (by decide)⟩

end Description

end Ambient

import Mathlib
import Ambient.Proofs.Text.Lines
import Ambient.Proofs.Text.Trim

/-!
# Where a comment ends

A comment ends at the first `*/` behind its start, so documentation that holds these two characters
must not bring them into the comment.  A text is *unclosed* if no asterisk in it has a slash right
behind it.  Escaping makes every line so, and none of the later steps brings an asterisk and a slash
together again: each line gets `" * "` in front of it, trimming only takes characters away, and a line
feed stands between two lines.

Indenting a comment cuts it into lines once more, and at more places than it was put together from,
since documentation may hold line breaks of its own.  A line is a piece of the text
(`Text.isInfix_of_mem_lines`), which is all that has to be known of the cuts.
-/

namespace Ambient

namespace Comment

variable {t u margin : Text} {ls : List Text}

/-! ### Texts without the closing mark -/

/-- No asterisk of a text has a slash right behind it. -/
def Unclosed (t : Text) : Prop :=
  t.IsChain fun c d => ¬ (c = '*' ∧ d = '/')

instance : DecidablePred Unclosed :=
  fun t => inferInstanceAs (Decidable (t.IsChain _))

/-- Two texts in a row are unclosed just if both are and the mark does not stand across them. -/
lemma unclosed_append : Unclosed (t ++ u) ↔
    Unclosed t ∧ Unclosed u ∧ ∀ c ∈ t.getLast?, ∀ d ∈ u.head?, ¬ (c = '*' ∧ d = '/') :=
  List.isChain_append

/-- A piece of an unclosed text is unclosed. -/
lemma Unclosed.of_isInfix (h : Unclosed t) (hpiece : u <:+: t) : Unclosed u :=
  List.IsChain.infix h hpiece

/-- A text without asterisks may stand in front of any other. -/
lemma Unclosed.append_of_not_mem (ht : '*' ∉ t) (hu : Unclosed u) : Unclosed (t ++ u) := by
  induction t with
  | nil => exact hu
  | cons c t ih =>
    have hc : c ≠ '*' := fun heq => ht (heq ▸ List.mem_cons_self)
    exact List.isChain_cons.mpr
      ⟨fun d _ h => hc h.1, ih fun hmem => ht (List.mem_cons_of_mem c hmem)⟩

/-- Unclosed texts with a line feed between them are unclosed together. -/
lemma Unclosed.append_newline (ht : Unclosed t) (hu : Unclosed u) : Unclosed (t ++ '\n' :: u) := by
  refine unclosed_append.mpr ⟨ht, Unclosed.append_of_not_mem (t := ['\n']) (by decide) hu, ?_⟩
  rintro c - d hd ⟨-, rfl⟩
  simp at hd

/-- Lines that are unclosed make a text that is, since a line feed ends each. -/
lemma unclosed_unlines (h : ∀ l ∈ ls, Unclosed l) : Unclosed (Text.unlines ls) := by
  induction ls with
  | nil => exact List.isChain_nil
  | cons l ls ih =>
    obtain ⟨hl, hls⟩ := List.forall_mem_cons.mp h
    cases ls with
    | nil => exact hl
    | cons l' ls =>
      rw [Text.unlines, Text.joinWith_cons_cons, List.append_assoc]
      exact hl.append_newline (ih hls)

/-! ### Escaped lines -/

lemma head?_escaped (t : Text) : (escaped t).head? = t.head? := by
  fun_cases escaped t <;> rfl

/-- An escaped text does not hold the mark. -/
lemma unclosed_escaped (t : Text) : Unclosed (escaped t) := by
  fun_induction escaped t with
  | case1 => exact List.isChain_nil
  | case2 t ih =>
    exact List.isChain_cons_cons.mpr ⟨by decide,
      Unclosed.append_of_not_mem (t := ['\\', '/']) (by decide) ih⟩
  | case3 c t hpair ih =>
    refine List.isChain_cons.mpr ⟨fun d hd => ?_, ih⟩
    rintro ⟨rfl, rfl⟩
    -- the slash is that of the line itself, and the pair would have been escaped
    rw [head?_escaped, Option.mem_def, List.head?_eq_some_iff] at hd
    obtain ⟨v, rfl⟩ := hd
    exact hpair v rfl rfl

/-- A line of a comment does not hold the mark. -/
lemma unclosed_line (t : Text) : Unclosed (line t) := by
  have hspaced : Unclosed (" * " ++ escaped t) := by
    refine unclosed_append.mpr ⟨by decide, unclosed_escaped t, ?_⟩
    rintro c hc d - ⟨rfl, -⟩
    simp at hc
  have hfront : line t <+: " * " ++ escaped t := Text.trimEnd_isPrefix _
  exact hspaced.of_isInfix hfront.isInfix

/-! ### Texts that the closing mark ends -/

/-- A text ends with `*/`, and these two characters occur nowhere else in it. -/
structure ClosesAtEnd (t : Text) : Prop where
  closes : ("*/" : Text) <:+ t
  onlyThere : ∀ before behind : Text, t = before ++ "*/" ++ behind → behind = []

/-- If the mark stands nowhere in front of its own slash, it stands at the end alone. -/
lemma Unclosed.closesAtEnd (h : Unclosed (t ++ ['*'])) : ClosesAtEnd (t ++ "*/") := by
  refine ⟨List.suffix_append t _, fun before behind heq => ?_⟩
  -- otherwise the mark occurs in front of the last slash
  rcases behind.eq_nil_or_concat with rfl | ⟨v, c, rfl⟩
  · rfl
  · have hsplit : t ++ ['*'] ++ ['/'] = (before ++ "*/" ++ v) ++ [c] := by
      simpa using heq
    have hfront : t ++ ['*'] = before ++ "*/" ++ v := (List.append_inj' hsplit rfl).1
    have hmark : ("*/" : Text) <:+: t ++ ['*'] := ⟨before, v, hfront.symm⟩
    exact absurd (h.of_isInfix hmark) (by decide)

/-! ### Comments -/

/-- A comment in front of the asterisk and the slash that end it. -/
def openPart (lines : List Text) : Text :=
  "/**\n" ++ Text.unlines (lines.map line)

/-- A comment is its open part and the line that ends it. -/
lemma ofLines_eq {lines : List Text} (h : lines ≠ []) :
    ofLines lines = openPart lines ++ '\n' :: " */" := by
  rw [ofLines, if_neg (by simpa using h), openPart]
  rfl

/-- Nothing in front of its last line ends a comment. -/
lemma unclosed_openPart (lines : List Text) : Unclosed (openPart lines) := by
  have hlines : Unclosed (Text.unlines (lines.map line)) :=
    unclosed_unlines (List.forall_mem_map.mpr fun t _ => unclosed_line t)
  have hstart : Unclosed "/**" := by decide
  exact hstart.append_newline hlines

/-- A margin without asterisks brings no mark into a line. -/
lemma unclosed_indentLine (hstar : '*' ∉ margin) (ht : Unclosed t) :
    Unclosed (Text.indentLine margin t) := by
  rw [Text.indentLine]
  split_ifs
  · exact List.isChain_nil
  · exact ht.append_of_not_mem hstar

/-- The last line of an indented comment stands behind its margin. -/
lemma indent_ofLines {lines : List Text} (h : lines ≠ []) (margin : Text) :
    Text.indent margin (ofLines lines) =
      Text.unlines ((Text.lines (openPart lines ++ ['\n'])).map (Text.indentLine margin)) ++
        '\n' :: (margin ++ " */") := by
  have hfront : (Text.lines (openPart lines ++ ['\n'])).map (Text.indentLine margin) ≠ [] := by
    simpa using Text.lines_ne_nil (t := openPart lines ++ ['\n']) (by simp)
  have hlast : Text.lines " */" = [" */"] := by decide
  rw [ofLines_eq h, Text.indent_eq, Text.lines_append_newline, hlast, List.map_append, Text.unlines,
    Text.joinWith_append hfront (by simp)]
  simp [Text.joinWith, Text.indentLine, Text.unlines]

/-- The last line of a comment closes it, if nothing in front of that line does. -/
lemma Unclosed.closesAtEnd_behind (h : Unclosed t) (hstar : '*' ∉ margin) :
    ClosesAtEnd (t ++ '\n' :: (margin ++ " */")) := by
  have hlast : Unclosed (margin ++ " *") :=
    Unclosed.append_of_not_mem hstar (by decide)
  have hall : Unclosed (t ++ '\n' :: (margin ++ [' ']) ++ ['*']) := by
    simpa using h.append_newline hlast
  simpa using hall.closesAtEnd

/-- The comment of any lines starts with `/**` and ends with `*/`, and these two characters occur
nowhere else in it.  So it is behind a margin too; only an asterisk in the margin could do harm, while
a slash stands at the start of a line. -/
theorem closesAtEnd_ofLines {lines : List Text} (h : lines ≠ []) :
    ("/**" : Text) <+: ofLines lines ∧ ClosesAtEnd (ofLines lines) ∧
      ∀ margin : Text, '*' ∉ margin → ClosesAtEnd (Text.indent margin (ofLines lines)) := by
  have hopen := unclosed_openPart lines
  refine ⟨?_, ?_, fun margin hstar => ?_⟩
  · rw [ofLines_eq h, openPart, List.append_assoc]
    exact ⟨_, rfl⟩
  · rw [ofLines_eq h]
    have hstar : '*' ∉ ([] : Text) := List.not_mem_nil
    exact hopen.closesAtEnd_behind hstar
  · rw [indent_ofLines h margin]
    refine Unclosed.closesAtEnd_behind (unclosed_unlines (List.forall_mem_map.mpr ?_)) hstar
    intro l hl
    have hnewline : Unclosed (openPart lines ++ ['\n']) := hopen.append_newline List.isChain_nil
    exact unclosed_indentLine hstar (hnewline.of_isInfix (Text.isInfix_of_mem_lines hl))

/-- Two lines that would end a comment, the second one behind a line break in the documentation. -/
theorem closesAtEnd_ofLines_closing :
    ClosesAtEnd (ofLines ["**//", "a*\n/b"]) ∧
      ClosesAtEnd (Text.indent "\t" (ofLines ["**//", "a*\n/b"])) := by
  have hne : (["**//", "a*\n/b"] : List Text) ≠ [] := by decide
  obtain ⟨-, hplain, hindented⟩ := closesAtEnd_ofLines hne
  exact ⟨hplain, hindented "\t" (by decide)⟩

end Comment

end Ambient

import Mathlib
import Ambient.Prose.Wrap
import Ambient.Proofs.Text.Words

/-!
# What wrapping makes of a line

Wrapping cuts a line into chunks and puts them on lines one after another.  The chunks are the line
with spaces for its white space, put together again (`flatten_chunks`), and of two neighbours one holds
spaces only (`chunked_chunks`), so their words are those of the line.  Each step takes the chunks of a
line off the front and keeps the rest (`isInfix_nextLine`), and only blank chunks get lost at the ends.
What holds of the lines is proved by the recursion of `fillLines`: they have the words of the chunks in
their order, they fit unless they are one run, and all but the first one begin with the indentation
(`exists_wraps`).
-/

namespace Ambient

namespace Prose

variable {width room : ℕ} {isFirst : Bool} {c : Char} {chunk t l line indent : Text}
  {cs ds : List Text}

/-! ### Chunks -/

/-- A character in front of chunks is one in front of their text. -/
lemma flatten_consChunk (c : Char) (cs : List Text) :
    (consChunk c cs).flatten = c :: cs.flatten := by
  fun_cases consChunk c cs <;> simp

/-- Cutting a text into chunks loses nothing. -/
lemma flatten_chunks (t : Text) : (chunks t).flatten = t := by
  induction t with
  | nil => rfl
  | cons c t ih =>
    have hchunks : chunks (c :: t) = consChunk c (chunks t) := rfl
    rw [hchunks, flatten_consChunk, ih]

/-- White space of layout other than the space does not stay. -/
lemma not_mem_spaced (hblank : isAsciiBlank c = true) (hspace : c ≠ ' ') : c ∉ spaced t := by
  intro hmem
  obtain ⟨d, -, hd⟩ := List.mem_map.mp hmem
  split_ifs at hd with hdblank
  · exact hspace hd.symm
  · rw [hd] at hdblank
    exact hdblank hblank

/-- Chunks that hold either spaces only or none, where one of two neighbours holds spaces. -/
structure Chunked (cs : List Text) : Prop where
  uniform : ∀ chunk ∈ cs, chunk ≠ [] ∧ ((∀ c ∈ chunk, c = ' ') ∨ ' ' ∉ chunk)
  apart : cs.IsChain fun a b => (∀ c ∈ a, c = ' ') ∨ ∀ c ∈ b, c = ' '

lemma Chunked.of_isInfix (h : Chunked cs) (hds : ds <:+: cs) : Chunked ds :=
  ⟨fun chunk hchunk => h.uniform chunk (hds.subset hchunk), h.apart.infix hds⟩

lemma chunked_consChunk (c : Char) (h : Chunked cs) : Chunked (consChunk c cs) := by
  -- the character joins the first chunk, or it begins one of its own
  fun_cases consChunk c cs with
  | case1 d chunk cs hsame =>
    have hc : c = ' ' ↔ d = ' ' := by simpa using hsame
    have hall : (∀ e ∈ d :: chunk, e = ' ') → ∀ e ∈ c :: d :: chunk, e = ' ' := by
      intro hspaces
      exact List.forall_mem_cons.mpr ⟨hc.mpr (hspaces d List.mem_cons_self), hspaces⟩
    obtain ⟨⟨-, huniform⟩, hrest⟩ := List.forall_mem_cons.mp h.uniform
    constructor
    · refine List.forall_mem_cons.mpr ⟨⟨List.cons_ne_nil _ _, ?_⟩, hrest⟩
      refine huniform.imp hall fun hnone => ?_
      have hd : d ≠ ' ' := fun heq => hnone (heq ▸ List.mem_cons_self)
      rw [List.mem_cons, not_or]
      exact ⟨fun heq => hd (hc.mp heq.symm), hnone⟩
    · obtain ⟨hhead, htail⟩ := List.isChain_cons.mp h.apart
      exact List.isChain_cons.mpr ⟨fun next hnext => (hhead next hnext).imp hall id, htail⟩
  | case2 d chunk cs hdiffer =>
    have hc : ¬ (c = ' ' ↔ d = ' ') := by simpa using hdiffer
    obtain ⟨⟨-, huniform⟩, -⟩ := List.forall_mem_cons.mp h.uniform
    constructor
    · refine List.forall_mem_cons.mpr ⟨⟨List.cons_ne_nil _ _, ?_⟩, h.uniform⟩
      by_cases hspace : c = ' '
      · exact Or.inl (by simpa using hspace)
      · exact Or.inr (by simpa using Ne.symm hspace)
    · refine List.isChain_cons_cons.mpr ⟨?_, h.apart⟩
      by_cases hspace : c = ' '
      · exact Or.inl (by simpa using hspace)
      · have hd : d = ' ' := by
          by_contra hno
          exact hc ⟨fun heq => absurd heq hspace, fun heq => absurd heq hno⟩
        exact Or.inr (huniform.resolve_right fun hnone => hnone (hd ▸ List.mem_cons_self))
  | case3 cs hcs =>
    cases cs with
    | nil =>
      refine ⟨?_, List.isChain_singleton _⟩
      by_cases hspace : c = ' '
      · simp [hspace]
      · simp [hspace, Ne.symm hspace]
    | cons chunk cs =>
      cases chunk with
      | nil => exact absurd rfl (h.uniform [] List.mem_cons_self).1
      | cons d chunk => exact absurd rfl (hcs d chunk cs)

/-- A text is cut into chunks. -/
lemma chunked_chunks (t : Text) : Chunked (chunks t) := by
  induction t with
  | nil => exact ⟨by simp [chunks], by simp [chunks]⟩
  | cons c t ih => exact chunked_consChunk c ih

lemma isBlank_of_spaces (h : ∀ c ∈ t, c = ' ') : ∀ c ∈ t, isBlank c = true := by
  intro c hc
  rw [h c hc]
  decide

/-- The words of chunks are those of each chunk, since there are spaces between two of them. -/
lemma Chunked.words_flatten (h : Chunked cs) : Text.words cs.flatten = cs.flatMap Text.words := by
  induction cs with
  | nil => rfl
  | cons a cs ih =>
    have hwords := ih (h.of_isInfix (List.suffix_cons a cs).isInfix)
    rw [List.flatten_cons, List.flatMap_cons, ← hwords]
    cases cs with
    | nil => simp [Text.words, Text.wordsBy]
    | cons b cs =>
      obtain ⟨hne, -⟩ := h.uniform b (by simp)
      obtain ⟨hnext, -⟩ := List.isChain_cons_cons.mp h.apart
      rcases hnext with ha | hb
      · rw [Text.words, Text.wordsBy_append_of_all (isBlank_of_spaces ha), Text.words,
          Text.wordsBy_of_all (isBlank_of_spaces ha)]
        rfl
      · rw [List.flatten_cons, ← List.append_assoc, Text.words,
          Text.wordsBy_append_append hne (isBlank_of_spaces hb), Text.words, Text.words,
          Text.wordsBy_append_of_all (isBlank_of_spaces hb)]

/-! ### Words -/

/-- Filling up tabs keeps the words, and white space at the start stays white space. -/
lemma words_expandTabs (column : ℕ) (t : Text) :
    Text.words (expandTabs column t) = t.words ∧
      (expandTabs column t).head?.all isBlank = t.head?.all isBlank := by
  induction t generalizing column with
  | nil => exact ⟨rfl, rfl⟩
  | cons c t ih =>
    rw [expandTabs]
    split_ifs with htab
    · obtain ⟨n, hn⟩ : ∃ n, 8 - column % 8 = n + 1 := ⟨7 - column % 8, by omega⟩
      have hblank : ∀ c ∈ List.replicate (n + 1) ' ', isBlank c = true :=
        isBlank_of_spaces fun c hc => List.eq_of_mem_replicate hc
      dsimp only
      rw [hn]
      refine ⟨?_, by rw [htab]; rfl⟩
      rw [Text.words, Text.wordsBy_append_of_all hblank, Text.words, htab,
        Text.wordsBy_cons_of_pos (by decide)]
      exact (ih _).1
    · exact ⟨Text.wordsBy_cons_congr c (ih 0).1 (ih 0).2, rfl⟩
    · exact ⟨Text.wordsBy_cons_congr c (ih (column + 1)).1 (ih (column + 1)).2, rfl⟩

/-- Cutting a line into chunks keeps its words. -/
lemma flatMap_words_chunks (t : Text) : (chunks (spaced t)).flatMap Text.words = t.words := by
  have hspace : ∀ c, (if isAsciiBlank c then ' ' else c) = c ∨
      isBlank c = true ∧ isBlank (if isAsciiBlank c then ' ' else c) = true := by
    intro c
    split_ifs with hc
    · exact Or.inr ⟨isBlank_of_isAsciiBlank hc, by decide⟩
    · exact Or.inl rfl
  rw [← (chunked_chunks (spaced t)).words_flatten, flatten_chunks, spaced]
  exact (Text.wordsBy_map hspace _).trans (words_expandTabs 0 t).1

/-! ### Lines -/

/-- Chunks that fill a line and those behind them are all that there are. -/
lemma fill_append (room : ℕ) (cs : List Text) : (fill room cs).1 ++ (fill room cs).2 = cs := by
  induction cs generalizing room with
  | nil => rfl
  | cons chunk cs ih =>
    rw [fill]
    split_ifs
    · exact congrArg (chunk :: ·) (ih (room - chunk.length))
    · rfl

/-- The next line and what is left of the chunks are all of them. -/
lemma nextLine_append (room : ℕ) (chunk : Text) (cs : List Text) :
    (nextLine room chunk cs).1 ++ (nextLine room chunk cs).2 = chunk :: cs := by
  unfold nextLine
  split
  · rfl
  · exact fill_append room (chunk :: cs)

/-- Spaces are dropped at the end of a line alone. -/
lemma dropBlankEnd_isPrefix (cs : List Text) : dropBlankEnd cs <+: cs := by
  unfold dropBlankEnd
  split
  · split_ifs
    · exact List.dropLast_prefix cs
    · exact List.prefix_rfl
  · exact List.prefix_rfl

/-- Spaces are dropped at the start of a line alone. -/
lemma lineStart_isSuffix (isFirst : Bool) (cs : List Text) : lineStart isFirst cs <:+ cs := by
  cases isFirst with
  | true => exact List.suffix_rfl
  | false =>
    change dropBlankStart cs <:+ cs
    fun_cases dropBlankStart cs with
    | case1 => exact List.suffix_rfl
    | case2 chunk cs => exact List.suffix_cons chunk cs
    | case3 chunk cs => exact List.suffix_rfl

/-- A blank chunk that is dropped holds no words. -/
lemma flatMap_words_dropBlankEnd (cs : List Text) :
    (dropBlankEnd cs).flatMap Text.words = cs.flatMap Text.words := by
  unfold dropBlankEnd
  split
  · next chunk hlast =>
    split_ifs with hblank
    · obtain ⟨front, rfl⟩ := List.getLast?_eq_some_iff.mp hlast
      simp [Text.words_eq_nil_iff.mpr hblank]
    · rfl
  · rfl

/-- Dropping spaces at the start loses no word. -/
lemma flatMap_words_lineStart (isFirst : Bool) (cs : List Text) :
    (lineStart isFirst cs).flatMap Text.words = cs.flatMap Text.words := by
  cases isFirst with
  | true => rfl
  | false =>
    change (dropBlankStart cs).flatMap Text.words = cs.flatMap Text.words
    fun_cases dropBlankStart cs with
    | case1 => rfl
    | case2 chunk cs hblank =>
      rw [List.flatMap_cons, Text.words_eq_nil_iff.mpr hblank]
      rfl
    | case3 chunk cs => rfl

/-- The chunks of the next line follow one another in those that are left, and the rest is the end of
them. -/
lemma isInfix_nextLine (hstart : lineStart isFirst cs = chunk :: ds) (room : ℕ) :
    (nextLine room chunk ds).1 <:+: cs ∧ (nextLine room chunk ds).2 <:+ cs := by
  have hcs : chunk :: ds <:+ cs := hstart ▸ lineStart_isSuffix isFirst cs
  have hsplit := nextLine_append room chunk ds
  constructor
  · exact (hsplit ▸ List.prefix_append _ _ :
      (nextLine room chunk ds).1 <+: chunk :: ds).isInfix.trans hcs.isInfix
  · exact (hsplit ▸ List.suffix_append _ _ : (nextLine room chunk ds).2 <:+ chunk :: ds).trans hcs

/-- The words of the chunks are those of the next line and of what is left. -/
lemma flatMap_words_nextLine (hstart : lineStart isFirst cs = chunk :: ds) (room : ℕ) :
    cs.flatMap Text.words = (dropBlankEnd (nextLine room chunk ds).1).flatMap Text.words ++
      (nextLine room chunk ds).2.flatMap Text.words := by
  rw [← flatMap_words_lineStart isFirst cs, hstart, ← nextLine_append room chunk ds,
    List.flatMap_append, flatMap_words_dropBlankEnd]

/-- What stands on the lines behind a margin of white space are the words of the chunks. -/
lemma flatMap_words_fillLines (hindent : ∀ c ∈ indent, isBlank c = true) (h : Chunked cs) :
    (fillLines width indent isFirst cs).flatMap Text.words = cs.flatMap Text.words := by
  fun_induction fillLines width indent isFirst cs with
  | case1 isFirst cs hstart =>
    rw [← flatMap_words_lineStart isFirst cs, hstart]
  | case2 isFirst cs d ds hstart margin filled _ hnil ih =>
    obtain ⟨-, hrest⟩ := isInfix_nextLine hstart (width - margin.length)
    rw [ih (h.of_isInfix hrest.isInfix), flatMap_words_nextLine hstart (width - margin.length), hnil]
    rfl
  | case3 isFirst cs d ds hstart margin filled _ hne ih =>
    obtain ⟨hline, hrest⟩ := isInfix_nextLine hstart (width - margin.length)
    have hmargin : ∀ c ∈ margin, isBlank c = true := by
      cases isFirst with
      | true => simp [margin]
      | false => exact hindent
    have hdropped : Chunked (dropBlankEnd filled.1) :=
      h.of_isInfix ((dropBlankEnd_isPrefix _).isInfix.trans hline)
    rw [List.flatMap_cons, ih (h.of_isInfix hrest.isInfix), Text.words,
      Text.wordsBy_append_of_all hmargin, flatMap_words_nextLine hstart (width - margin.length)]
    exact congrArg (· ++ _) hdropped.words_flatten

/-- The chunks that fill a line fit into it. -/
lemma length_flatten_fill_le (room : ℕ) (cs : List Text) :
    (fill room cs).1.flatten.length ≤ room := by
  induction cs generalizing room with
  | nil => exact Nat.zero_le room
  | cons chunk cs ih =>
    rw [fill]
    split_ifs with hfits
    · have hrest := ih (room - chunk.length)
      rw [List.flatten_cons, List.length_append]
      omega
    · exact Nat.zero_le room

/-- The chunks of a line fit into the room, unless there is only one. -/
lemma fits_nextLine (room : ℕ) (chunk : Text) (cs : List Text) :
    (nextLine room chunk cs).1.flatten.length ≤ room ∨ (nextLine room chunk cs).1 = [chunk] := by
  unfold nextLine
  split
  · exact Or.inr rfl
  · exact Or.inl (length_flatten_fill_le room (chunk :: cs))

/-- Chunks that are no spaces and fill no line with others are one run without spaces. -/
lemma not_mem_of_not_blank (h : Chunked cs) (hchunk : chunk ∈ cs) (hblank : chunk.blank = false) :
    ' ' ∉ chunk := by
  refine ((h.uniform chunk hchunk).2).resolve_left fun hspaces => ?_
  have hall : chunk.blank = true := List.all_eq_true.mpr (isBlank_of_spaces hspaces)
  rw [hblank] at hall
  cases hall

/-- A single chunk is dropped or kept as a whole. -/
lemma dropBlankEnd_singleton (h : dropBlankEnd [chunk] ≠ []) :
    chunk.blank = false ∧ dropBlankEnd [chunk] = [chunk] := by
  have hsingle : dropBlankEnd [chunk] = if chunk.blank then [] else [chunk] := rfl
  rw [hsingle] at h ⊢
  split_ifs at h ⊢ with hblank
  · exact absurd rfl h
  · exact ⟨Bool.eq_false_iff.mpr hblank, rfl⟩

/-- A line fits unless it is one chunk without spaces, behind the margin or alone. -/
lemma fits_of_mem_fillLines (h : Chunked cs) (hl : l ∈ fillLines width indent isFirst cs) :
    l.length ≤ width ∨ ∃ run ∈ cs, ' ' ∉ run ∧ (l = run ∨ l = indent ++ run) := by
  fun_induction fillLines width indent isFirst cs with
  | case1 => simp at hl
  | case2 isFirst cs d ds hstart margin filled _ hnil ih =>
    obtain ⟨-, hrest⟩ := isInfix_nextLine hstart (width - margin.length)
    exact (ih (h.of_isInfix hrest.isInfix) hl).imp id fun ⟨run, hrun, hspec⟩ =>
      ⟨run, hrest.subset hrun, hspec⟩
  | case3 isFirst cs d ds hstart margin filled _ hne ih =>
    obtain ⟨hline, hrest⟩ := isInfix_nextLine hstart (width - margin.length)
    rcases List.mem_cons.mp hl with rfl | hl
    -- the chunks of the line fit, or the line is the one chunk that is too long
    · rcases fits_nextLine (width - margin.length) d ds with hfits | hone
      · left
        obtain ⟨run, line, hdropped⟩ := List.exists_cons_of_ne_nil hne
        have hkept := dropBlankEnd_isPrefix filled.1
        have hmem : run ∈ filled.1 := hkept.subset (hdropped ▸ List.mem_cons_self)
        have hrun : run ≠ [] := (h.uniform run (hline.subset hmem)).1
        have hpositive : 0 < (dropBlankEnd filled.1).flatten.length := by
          rw [hdropped, List.flatten_cons, List.length_append]
          have := List.length_pos_of_ne_nil hrun
          omega
        have hlength : (dropBlankEnd filled.1).flatten.length ≤ width - margin.length :=
          (List.IsPrefix.flatten hkept).length_le.trans hfits
        rw [List.length_append]
        omega
      · right
        have hone : filled.1 = [d] := hone
        rw [hone] at hne ⊢
        obtain ⟨hblank, hkept⟩ := dropBlankEnd_singleton hne
        have hd : d ∈ cs := hline.subset (hone ▸ List.mem_cons_self)
        refine ⟨d, hd, not_mem_of_not_blank h hd hblank, ?_⟩
        rw [hkept, List.flatten_singleton]
        cases isFirst with
        | true => exact Or.inl rfl
        | false => exact Or.inr rfl
    · exact (ih (h.of_isInfix hrest.isInfix) hl).imp id fun ⟨run, hrun, hspec⟩ =>
        ⟨run, hrest.subset hrun, hspec⟩

/-- Every line but the first one that is written begins with the indentation. -/
lemma isPrefix_of_mem_fillLines (hl : l ∈ fillLines width indent false cs) : indent <+: l := by
  generalize hfirst : false = isFirst at hl
  fun_induction fillLines width indent isFirst cs with
  | case1 => simp at hl
  | case2 isFirst cs d ds hstart margin filled _ hnil ih => exact ih hfirst hl
  | case3 isFirst cs d ds hstart margin filled _ hne ih =>
    rcases List.mem_cons.mp hl with rfl | hl
    · subst hfirst
      exact List.prefix_append _ _
    · exact ih rfl hl

/-- Every line but the first begins with the indentation. -/
lemma isPrefix_of_mem_tail_fillLines (hl : l ∈ (fillLines width indent isFirst cs).tail) :
    indent <+: l := by
  fun_induction fillLines width indent isFirst cs with
  | case1 => simp at hl
  | case2 isFirst cs d ds hstart margin filled _ hnil ih => exact ih hl
  | case3 isFirst cs d ds hstart margin filled _ hne ih => exact isPrefix_of_mem_fillLines hl

/-- A character of a line is one of the indentation or of a chunk. -/
lemma mem_of_mem_fillLines (hl : l ∈ fillLines width indent isFirst cs) (hc : c ∈ l) :
    c ∈ indent ∨ c ∈ cs.flatten := by
  have hflatten : ∀ {es cs : List Text}, es ⊆ cs → c ∈ es.flatten → c ∈ cs.flatten := by
    intro es cs hes hmem
    obtain ⟨e, he, hc⟩ := List.mem_flatten.mp hmem
    exact List.mem_flatten.mpr ⟨e, hes he, hc⟩
  fun_induction fillLines width indent isFirst cs with
  | case1 => simp at hl
  | case2 isFirst cs d ds hstart margin filled _ hnil ih =>
    obtain ⟨-, hrest⟩ := isInfix_nextLine hstart (width - margin.length)
    exact (ih hl).imp id (hflatten hrest.subset)
  | case3 isFirst cs d ds hstart margin filled _ hne ih =>
    obtain ⟨hline, hrest⟩ := isInfix_nextLine hstart (width - margin.length)
    rcases List.mem_cons.mp hl with rfl | hl
    · rcases List.mem_append.mp hc with hmargin | hmem
      · left
        cases isFirst with
        | true => simp [margin] at hmargin
        | false => simpa [margin] using hmargin
      · right
        exact hflatten (fun e he => hline.subset ((dropBlankEnd_isPrefix _).subset he)) hmem
    · exact (ih hl).imp id (hflatten hrest.subset)

/-! ### Wrapped lines -/

/-- One run without white space of layout, alone or behind the indentation of a line. -/
def IsRunOf (line l : Text) : Prop :=
  ∃ run ≠ [], (∀ c ∈ run, isAsciiBlank c = false) ∧ (l = run ∨ l = line.takeWhile isBlank ++ run)

/-- The lines of a line that is wrapped at a width. -/
structure Wraps (width : ℤ) (line : Text) (ls : List Text) : Prop where
  words : ls.flatMap Text.words = line.words
  whole : line.length ≤ width → ls = [line]
  indented : ∀ l ∈ ls.tail, line.takeWhile isBlank <+: l
  fits : ∀ l ∈ ls, l.length ≤ width ∨ IsRunOf line l ∨ line.words = []

/-- A line that is short or shows nothing may stay as it is. -/
lemma wraps_self {width : ℤ} (h : line.length ≤ width ∨ line.words = []) : Wraps width line [line] := by
  refine ⟨List.append_nil _, fun _ => rfl, by simp, ?_⟩
  intro l hl
  obtain rfl := List.mem_singleton.mp hl
  exact h.imp id Or.inr

/-- A chunk without spaces holds no other white space of layout. -/
lemma isRunOf_chunk {run : Text} (hrun : run ∈ chunks (spaced line)) (hspace : ' ' ∉ run)
    (hl : l = run ∨ l = line.takeWhile isBlank ++ run) : IsRunOf line l := by
  refine ⟨run, ((chunked_chunks _).uniform run hrun).1, fun c hc => ?_, hl⟩
  by_contra hblank
  have hne : c ≠ ' ' := fun heq => hspace (heq ▸ hc)
  have hmem : c ∈ (chunks (spaced line)).flatten := List.mem_flatten.mpr ⟨run, hrun, hc⟩
  rw [flatten_chunks] at hmem
  exact not_mem_spaced (by simpa using hblank) hne hmem

/-- Wrapping a line keeps its words, begins the further lines with its indentation, and makes a line
longer than the width of one run only. -/
lemma wraps_wrapped (h : width < line.length) : Wraps width line (wrapped width line) := by
  have hindent : ∀ c ∈ line.takeWhile isBlank, isBlank c = true := fun c hc =>
    List.mem_takeWhile_imp hc
  have hchunked := chunked_chunks (spaced line)
  have hwords : (fillLines width (line.takeWhile isBlank) true (chunks (spaced line))).flatMap
      Text.words = line.words :=
    (flatMap_words_fillLines hindent hchunked).trans (flatMap_words_chunks line)
  unfold wrapped
  split
  · next hnil =>
    rw [hnil] at hwords
    exact wraps_self (Or.inr hwords.symm)
  · refine ⟨hwords, fun hshort => by omega, fun l hl => isPrefix_of_mem_tail_fillLines hl, ?_⟩
    intro l hl
    rcases fits_of_mem_fillLines hchunked hl with hfits | ⟨run, hrun, hspace, hl⟩
    · exact Or.inl (by exact_mod_cast hfits)
    · exact Or.inr (Or.inl (isRunOf_chunk hrun hspace hl))

lemma wraps_of_softWrap? {width : ℤ} {ls : List Text} (h : softWrap? width line = some ls) :
    Wraps width line ls := by
  unfold softWrap? at h
  split_ifs at h with hshort hwidth
  · obtain rfl := Option.some.inj h
    exact wraps_self (Or.inl hshort)
  · obtain rfl := Option.some.inj h
    obtain ⟨n, rfl⟩ := Int.eq_ofNat_of_zero_le (by omega : 0 ≤ width)
    exact wraps_wrapped (by omega)

/-- Every line can be wrapped at a width of one or more. -/
lemma exists_softWrap? (line : Text) {width : ℤ} (hwidth : 1 ≤ width) :
    ∃ ls, softWrap? width line = some ls := by
  unfold softWrap?
  split_ifs with hshort hnone
  · exact ⟨_, rfl⟩
  · omega
  · exact ⟨_, rfl⟩

/-- Wrapping a line brings no line feeds in. -/
lemma newline_not_mem_softWrap? {width : ℤ} {ls : List Text} (h : softWrap? width line = some ls)
    (hline : '\n' ∉ line) : ∀ l ∈ ls, '\n' ∉ l := by
  have hself : ∀ l ∈ [line], '\n' ∉ l := by simpa using hline
  unfold softWrap? at h
  split_ifs at h
  · obtain rfl := Option.some.inj h
    exact hself
  · obtain rfl := Option.some.inj h
    unfold wrapped
    split
    · exact hself
    · intro l hl hmem
      rcases mem_of_mem_fillLines hl hmem with hindent | hchunks
      · exact hline ((List.takeWhile_prefix isBlank).subset hindent)
      · rw [flatten_chunks] at hchunks
        exact not_mem_spaced (by decide) (by decide) hchunks

/-- A line is wrapped at every positive width, into lines with its words in their order. -/
theorem exists_wraps (line : Text) {width : ℤ} (hwidth : 1 ≤ width) :
    ∃ ls, softWrap? width line = some ls ∧ Wraps width line ls := by
  obtain ⟨ls, hls⟩ := exists_softWrap? line hwidth
  exact ⟨ls, hls, wraps_of_softWrap? hls⟩

/-- An indented line with a word that is longer than the width. -/
theorem exists_wraps_indented :
    (1 : ℤ) ≤ 5 ∧ ∃ ls, softWrap? 5 "\tan  extraordinary line" = some ls ∧
      Wraps 5 "\tan  extraordinary line" ls :=
  ⟨by decide, exists_wraps _ (by decide)⟩

example : softWrap? 5 "\tan  extraordinary line" =
    some [("an" : Text), ("\textraordinary" : Text), ("\tline" : Text)] := by
  decide +kernel

end Prose

end Ambient

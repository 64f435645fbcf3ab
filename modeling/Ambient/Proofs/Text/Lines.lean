import Mathlib
import Ambient.Comment

/-!
# Lines and indentation

A text is cut into its lines at every line feed, whatever stands before and behind
(`lines_append_newline`), so pieces with an empty line between them are indented one by one
(`indent_append`, `indent_joinWith`).  A piece has to end in a character that is no line break: a
line break at the end of a text opens no line, while in front of an empty line it does.
-/

namespace Ambient

namespace Text

variable {margin t u : Text} {c : Char}

/-! ### Lines -/

/-- A line break ends a line, unless it is the first half of one. -/
lemma lines_break (hbreak : isLineBreak c = true) (h : ∀ v, c = '\r' → t ≠ '\n' :: v) :
    lines (c :: t) = [] :: lines t := by
  rw [lines.eq_3 c t h, if_pos hbreak]

/-- A character that is no line break stands at the start of a line. -/
lemma lines_cons (hbreak : isLineBreak c = false) :
    lines (c :: t) = (c :: (lines t).headD []) :: (lines t).tail := by
  have hc : c ≠ '\r' := by
    rintro rfl
    exact absurd hbreak (by decide)
  rw [lines.eq_3 c t fun v hv => absurd hv hc, if_neg (by simp [hbreak])]
  cases lines t <;> rfl

lemma lines_newline (t : Text) : lines ('\n' :: t) = [] :: lines t :=
  lines_break (by decide) (by simp)

lemma lines_ne_nil (h : t ≠ []) : lines t ≠ [] := by
  cases t with
  | nil => exact absurd rfl h
  | cons c t =>
    rw [lines.eq_def]
    split
    · next hnil => cases hnil
    · exact List.cons_ne_nil _ _
    · split_ifs
      · exact List.cons_ne_nil _ _
      · split <;> exact List.cons_ne_nil _ _

/-- Whether a text goes on in more lines can be seen from any of its characters on. -/
lemma lines_append {d : Char} {v : Text} {ls : List Text}
    (h : lines (d :: u) = lines (d :: v) ++ ls) :
    lines (t ++ d :: u) = lines (t ++ d :: v) ++ ls := by
  have hcons : ∀ c t, isLineBreak c = false →
      lines (t ++ d :: u) = lines (t ++ d :: v) ++ ls →
      lines (c :: (t ++ d :: u)) = lines (c :: (t ++ d :: v)) ++ ls := by
    intro c t hbreak ih
    obtain ⟨l, ls', hls⟩ := List.exists_cons_of_ne_nil (lines_ne_nil (t := t ++ d :: v) (by simp))
    rw [lines_cons hbreak, lines_cons hbreak, ih, hls]
    rfl
  fun_induction lines t with
  | case1 => exact h
  | case2 t ih => simp only [List.cons_append, lines, ih]
  | case3 c t hside hbreak ih =>
    by_cases hpair : c = '\r' ∧ t = [] ∧ d = '\n'
    · obtain ⟨rfl, rfl, rfl⟩ := hpair
      rw [lines_newline, lines_newline] at h
      exact h
    · have hside' : ∀ w x, c = '\r' → t ++ d :: w ≠ '\n' :: x := by
        rintro w x hc heq
        cases t with
        | nil => exact hpair ⟨hc, rfl, (List.cons.inj heq).1⟩
        | cons e t => exact hside t hc (by rw [(List.cons.inj heq).1])
      rw [List.cons_append, List.cons_append, lines_break hbreak (hside' u),
        lines_break hbreak (hside' v), ih, List.cons_append]
  | case4 c t _ hbreak _ ih => exact hcons c t (by simpa using hbreak) ih
  | case5 c t _ hbreak _ _ _ ih => exact hcons c t (by simpa using hbreak) ih

/-- A line feed ends a line wherever it stands. -/
lemma lines_append_newline (t u : Text) :
    lines (t ++ '\n' :: u) = lines (t ++ ['\n']) ++ lines u :=
  lines_append (by rw [lines_newline, lines_newline]; rfl)

/-- Behind a character that is no line break, a line feed opens the next line. -/
lemma lines_append_cons_newline (hbreak : isLineBreak c = false) (t u : Text) :
    lines (t ++ c :: '\n' :: u) = lines (t ++ [c]) ++ lines u := by
  refine lines_append ?_
  rw [lines_cons hbreak, lines_cons hbreak, lines_newline]
  rfl

/-- A text starts with its first line. -/
lemma headD_lines_isPrefix (t : Text) : (lines t).headD [] <+: t := by
  fun_induction lines t with
  | case1 => exact List.nil_prefix
  | case2 => exact List.nil_prefix
  | case3 => exact List.nil_prefix
  | case4 c t _ _ hnil _ => exact ⟨t, rfl⟩
  | case5 c t _ _ l ls hls ih =>
    rw [hls] at ih
    exact List.cons_prefix_cons.mpr ⟨rfl, ih⟩

/-- Every line is a piece of the text. -/
lemma isInfix_of_mem_lines {l : Text} (h : l ∈ lines t) : l <:+: t := by
  have hfirst := headD_lines_isPrefix t
  fun_induction lines t with
  | case1 => simp at h
  | case2 t ih =>
    rcases List.mem_cons.mp h with rfl | h
    · exact List.nil_infix
    · exact (ih h (headD_lines_isPrefix t)).trans ⟨['\r', '\n'], [], by simp⟩
  | case3 c t _ _ ih =>
    rcases List.mem_cons.mp h with rfl | h
    · exact List.nil_infix
    · exact (ih h (headD_lines_isPrefix t)).trans (List.infix_cons (List.infix_refl t))
  | case4 c t _ _ hnil _ =>
    obtain rfl := List.mem_singleton.mp h
    exact hfirst.isInfix
  | case5 c t _ _ l ls hls ih =>
    rcases List.mem_cons.mp h with rfl | h
    · exact hfirst.isInfix
    · have hmem := ih (hls ▸ List.mem_cons_of_mem l h) (headD_lines_isPrefix t)
      exact hmem.trans (List.infix_cons (List.infix_refl t))

/-- No line holds a line break. -/
lemma not_isLineBreak_of_mem_lines (t : Text) : ∀ l ∈ lines t, ∀ c ∈ l, isLineBreak c = false := by
  fun_induction lines t with
  | case1 => simp
  | case2 t ih => exact List.forall_mem_cons.mpr ⟨by simp, ih⟩
  | case3 c t _ _ ih => exact List.forall_mem_cons.mpr ⟨by simp, ih⟩
  | case4 c t _ hbreak hnil _ => simpa using hbreak
  | case5 c t _ hbreak l ls hls ih =>
    rw [hls] at ih
    obtain ⟨hl, hrest⟩ := List.forall_mem_cons.mp ih
    refine List.forall_mem_cons.mpr ⟨?_, hrest⟩
    exact List.forall_mem_cons.mpr ⟨by simpa using hbreak, hl⟩

/-- No line holds a line feed. -/
lemma newline_not_mem_lines (t : Text) : ∀ l ∈ lines t, '\n' ∉ l := by
  intro l hl hmem
  exact absurd (not_isLineBreak_of_mem_lines t l hl '\n' hmem) (by decide)

/-! ### Lines put together -/

/-- What holds no line break belongs to the first line. -/
lemma lines_append_of_forall (hu : ∀ c ∈ u, isLineBreak c = false) (ht : t ≠ []) :
    lines (u ++ t) = (u ++ (lines t).headD []) :: (lines t).tail := by
  induction u with
  | nil =>
    obtain ⟨l, ls, hls⟩ := List.exists_cons_of_ne_nil (lines_ne_nil ht)
    simp [hls]
  | cons c u ih =>
    obtain ⟨hc, hu⟩ := List.forall_mem_cons.mp hu
    rw [List.cons_append, lines_cons hc, ih hu]
    rfl

/-- A text without line breaks is one line. -/
lemma lines_of_forall (ht : t ≠ []) (h : ∀ c ∈ t, isLineBreak c = false) : lines t = [t] := by
  obtain ⟨c, u, rfl⟩ := List.exists_cons_of_ne_nil ht
  induction u generalizing c with
  | nil => exact lines_cons (h c List.mem_cons_self)
  | cons d u ih =>
    obtain ⟨hc, hu⟩ := List.forall_mem_cons.mp h
    rw [lines_cons hc, ih d (List.cons_ne_nil d u) hu]
    rfl

lemma unlines_cons_cons (l l' : Text) (ls : List Text) :
    unlines (l :: l' :: ls) = l ++ '\n' :: unlines (l' :: ls) :=
  List.append_assoc ..

/-- What holds no line break is a line in front of a line feed. -/
lemma lines_line (hu : ∀ c ∈ u, isLineBreak c = false) (t : Text) :
    lines (u ++ '\n' :: t) = u :: lines t := by
  rw [lines_append_of_forall hu (List.cons_ne_nil _ _), lines_newline]
  simp

/-- Lines put together with a line feed behind the last one are read back. -/
lemma lines_unlines_newline {ls : List Text} (hne : ls ≠ [])
    (h : ∀ l ∈ ls, ∀ c ∈ l, isLineBreak c = false) : lines (unlines ls ++ ['\n']) = ls := by
  induction ls with
  | nil => exact absurd rfl hne
  | cons l ls ih =>
    obtain ⟨hl, hls⟩ := List.forall_mem_cons.mp h
    cases ls with
    | nil => exact lines_line hl []
    | cons l' ls =>
      rw [unlines_cons_cons, List.append_assoc, List.cons_append, lines_line hl,
        ih (List.cons_ne_nil l' ls) hls]

/-- Lines put together are read back unless the last one is empty. -/
lemma lines_unlines {ls : List Text} (hlast : ls.getLast? ≠ some [])
    (h : ∀ l ∈ ls, ∀ c ∈ l, isLineBreak c = false) : lines (unlines ls) = ls := by
  induction ls with
  | nil => rfl
  | cons l ls ih =>
    obtain ⟨hl, hls⟩ := List.forall_mem_cons.mp h
    cases ls with
    | nil =>
      have hne : l ≠ [] := by simpa using hlast
      exact lines_of_forall hne hl
    | cons l' ls =>
      have hrest : (l' :: ls).getLast? ≠ some [] := by
        rwa [List.getLast?_cons_cons] at hlast
      rw [unlines_cons_cons, lines_line hl, ih hrest hls]

lemma splitAt_ne_nil (c : Char) (t : Text) : splitAt c t ≠ [] := by
  cases t with
  | nil => exact List.cons_ne_nil _ _
  | cons d t =>
    rw [splitAt]
    split_ifs
    · exact List.cons_ne_nil _ _
    · split <;> exact List.cons_ne_nil _ _

lemma splitAt_cons_of_ne {d : Char} (h : d ≠ c) (t : Text) :
    splitAt c (d :: t) = (d :: (splitAt c t).headD []) :: (splitAt c t).tail := by
  rw [splitAt, if_neg h]
  cases splitAt c t <;> rfl

/-- What does not hold the character belongs to the first piece. -/
lemma splitAt_append (h : c ∉ u) (t : Text) :
    splitAt c (u ++ t) = (u ++ (splitAt c t).headD []) :: (splitAt c t).tail := by
  induction u with
  | nil =>
    obtain ⟨l, ls, hls⟩ := List.exists_cons_of_ne_nil (splitAt_ne_nil c t)
    simp [hls]
  | cons d u ih =>
    have hd : d ≠ c := fun heq => h (heq ▸ List.mem_cons_self)
    have hu : c ∉ u := fun hmem => h (List.mem_cons_of_mem d hmem)
    rw [List.cons_append, splitAt_cons_of_ne hd, ih hu]
    rfl

lemma splitAt_of_not_mem (h : c ∉ t) : splitAt c t = [t] := by
  simpa [splitAt] using splitAt_append h []

/-- The character ends a piece wherever it stands. -/
lemma splitAt_append_cons (c : Char) (t u : Text) :
    splitAt c (t ++ c :: u) = splitAt c t ++ splitAt c u := by
  induction t with
  | nil => simp [splitAt]
  | cons d t ih =>
    by_cases hd : d = c
    · subst hd
      simp [splitAt, ih]
    · obtain ⟨l, ls, hls⟩ := List.exists_cons_of_ne_nil (splitAt_ne_nil c t)
      rw [List.cons_append, splitAt_cons_of_ne hd, splitAt_cons_of_ne hd, ih, hls]
      rfl

/-- The first piece ends in front of the character. -/
lemma headD_splitAt (c : Char) (t : Text) : (splitAt c t).headD [] = t.takeWhile (· ≠ c) := by
  induction t with
  | nil => rfl
  | cons d t ih =>
    by_cases hd : d = c
    · simp [splitAt, hd]
    · rw [splitAt_cons_of_ne hd, List.headD_cons, ih, List.takeWhile_cons_of_pos (by simpa using hd)]

lemma cutAt_of_not_mem (h : c ∉ t) : cutAt c t = (t, none) := by
  have hdrop : t.dropWhile (· ≠ c) = [] := by
    rw [List.dropWhile_eq_nil_iff]
    intro d hd
    have hne : d ≠ c := fun heq => h (heq ▸ hd)
    simpa using hne
  rw [cutAt, hdrop]

/-- The first part of a cut ends in front of the first occurrence of the character. -/
lemma cutAt_eq_some {inner rest : Text} :
    cutAt c t = (inner, some rest) ↔ c ∉ inner ∧ t = inner ++ c :: rest := by
  induction t generalizing inner with
  | nil => simp [cutAt]
  | cons d t ih =>
    by_cases hd : d = c
    · subst hd
      have hcut : cutAt d (d :: t) = ([], some t) := by simp [cutAt]
      rw [hcut]
      cases inner with
      | nil => simp
      | cons e inner => simp; tauto
    · have hcut : cutAt c (d :: t) =
          (d :: (cutAt c t).1, (cutAt c t).2) := by
        have hdrop : (d :: t).dropWhile (· ≠ c) = t.dropWhile (· ≠ c) := by simp [hd]
        rw [cutAt, cutAt, hdrop]
        split <;> simp [hd]
      rw [hcut]
      cases inner with
      | nil => simp [hd]
      | cons e inner =>
        have := @ih inner
        grind

/-! ### Joining -/

/-- Joined texts of two lists have the separator between them. -/
lemma joinWith_append {separator : Text} {ts us : List Text} (ht : ts ≠ []) (hu : us ≠ []) :
    joinWith separator (ts ++ us) = joinWith separator ts ++ separator ++ joinWith separator us := by
  induction ts with
  | nil => exact absurd rfl ht
  | cons t ts ih =>
    cases ts with
    | nil =>
      obtain ⟨u, us, rfl⟩ := List.exists_cons_of_ne_nil hu
      rfl
    | cons t' ts =>
      rw [List.cons_append, List.cons_append, joinWith_cons_cons, ← List.cons_append,
        ih (List.cons_ne_nil _ _), joinWith_cons_cons]
      simp only [List.append_assoc]

lemma joinWith_ne_nil {separator : Text} {ts : List Text} (hne : ts ≠ []) (h : ∀ t ∈ ts, t ≠ []) :
    joinWith separator ts ≠ [] := by
  cases ts with
  | nil => exact absurd rfl hne
  | cons t ts =>
    have ht : t ≠ [] := h t List.mem_cons_self
    cases ts with
    | nil => exact ht
    | cons t' ts => simp [joinWith, ht]

/-- Texts that are not empty are joined to nothing just if there are none. -/
lemma joinWith_eq_nil_iff {separator : Text} {ts : List Text} (h : ∀ t ∈ ts, t ≠ []) :
    joinWith separator ts = [] ↔ ts = [] := by
  refine ⟨fun hnil => ?_, fun hnil => hnil ▸ rfl⟩
  by_contra hne
  exact joinWith_ne_nil hne h hnil

/-- Groups of texts may be joined first, where those that are empty are left out. -/
lemma joinWith_joinWith {separator : Text} {tss : List (List Text)}
    (h : ∀ ts ∈ tss, ∀ t ∈ ts, t ≠ []) :
    joinWith separator ((tss.map (joinWith separator)).filter fun t => !t.isEmpty) =
      joinWith separator tss.flatten := by
  induction tss with
  | nil => rfl
  | cons ts tss ih =>
    obtain ⟨hts, htss⟩ := List.forall_mem_cons.mp h
    specialize ih htss
    rw [List.map_cons, List.flatten_cons]
    by_cases hnil : ts = []
    · rw [hnil, List.nil_append, ← ih]
      rfl
    · rw [List.filter_cons_of_pos (by simpa using joinWith_ne_nil hnil hts)]
      set others := (tss.map (joinWith separator)).filter fun t => !t.isEmpty
      have hothers : ∀ t ∈ others, t ≠ [] := fun t ht => by simpa using (List.mem_filter.mp ht).2
      have hflat : ∀ t ∈ tss.flatten, t ≠ [] := by
        intro t ht
        obtain ⟨us, hus, ht⟩ := List.mem_flatten.mp ht
        exact htss us hus t ht
      have hiff : others = [] ↔ tss.flatten = [] := by
        rw [← joinWith_eq_nil_iff hothers, ih, joinWith_eq_nil_iff hflat]
      by_cases hrest : others = []
      · rw [hrest, hiff.mp hrest, List.append_nil]
        rfl
      · rw [joinWith_append hnil fun hflat => hrest (hiff.mpr hflat), ← ih]
        exact joinWith_append (List.cons_ne_nil _ []) hrest

/-- Every text stands in the joined ones. -/
lemma isInfix_joinWith {separator : Text} {ts : List Text} (h : t ∈ ts) :
    t <:+: joinWith separator ts := by
  induction ts with
  | nil => cases h
  | cons u ts ih =>
    cases ts with
    | nil =>
      obtain rfl := List.mem_singleton.mp h
      exact List.infix_refl t
    | cons u' ts =>
      rw [joinWith_cons_cons]
      rcases List.mem_cons.mp h with rfl | h
      · exact (List.prefix_append t separator).isInfix.trans (List.prefix_append _ _).isInfix
      · exact (ih h).trans (List.suffix_append _ _).isInfix

/-- A character of joined texts is one of the separator or of a text. -/
lemma mem_joinWith {separator : Text} {ts : List Text} (h : c ∈ joinWith separator ts) :
    c ∈ separator ∨ ∃ t ∈ ts, c ∈ t := by
  induction ts with
  | nil => cases h
  | cons u ts ih =>
    cases ts with
    | nil => exact Or.inr ⟨u, List.mem_cons_self, h⟩
    | cons u' ts =>
      rw [joinWith_cons_cons, List.mem_append, List.mem_append] at h
      rcases h with (h | h) | h
      · exact Or.inr ⟨u, List.mem_cons_self, h⟩
      · exact Or.inl h
      · rcases ih h with h | ⟨t, ht, h⟩
        · exact Or.inl h
        · exact Or.inr ⟨t, List.mem_cons_of_mem u ht, h⟩

/-! ### Indentation -/

/-- A line behind a margin; an empty line has none. -/
def indentLine (margin line : Text) : Text :=
  if line.isEmpty then [] else margin ++ line

lemma indent_eq (margin t : Text) : indent margin t = unlines (t.lines.map (indentLine margin)) :=
  rfl

/-- What stands in front of an empty line is indented for itself. -/
lemma indent_append (t : Text) (h : u ≠ []) :
    indent margin (t ++ "\n\n" ++ u) =
      unlines ((lines (t ++ ['\n'])).map (indentLine margin)) ++ "\n\n" ++ indent margin u := by
  have hlines : lines (t ++ "\n\n" ++ u) = lines (t ++ ['\n']) ++ ([[]] ++ lines u) := by
    rw [List.append_assoc]
    exact (lines_append_newline t ('\n' :: u)).trans (by rw [lines_newline]; rfl)
  have hfront : (lines (t ++ ['\n'])).map (indentLine margin) ≠ [] := by
    simpa using lines_ne_nil (t := t ++ ['\n']) (by simp)
  have hback : (lines u).map (indentLine margin) ≠ [] := by
    simpa using lines_ne_nil h
  rw [indent_eq, hlines, List.map_append, List.map_append, unlines, unlines,
    joinWith_append hfront (by simp), joinWith_append (by simp) hback, indent_eq, unlines]
  simp [joinWith, indentLine]

/-- Pieces that end in no line break are indented one by one. -/
lemma indent_joinWith {ts : List Text}
    (h : ∀ t ∈ ts, ∃ u c, t = u ++ [c] ∧ isLineBreak c = false) :
    indent margin (joinWith "\n\n" ts) = joinWith "\n\n" (ts.map (indent margin)) := by
  induction ts with
  | nil => rfl
  | cons t ts ih =>
    cases ts with
    | nil => rfl
    | cons t' ts =>
      obtain ⟨⟨u, c, rfl, hbreak⟩, hts⟩ := List.forall_mem_cons.mp h
      have hlines : lines (u ++ [c] ++ ['\n']) = lines (u ++ [c]) := by
        rw [List.append_assoc]
        exact (lines_append_cons_newline hbreak u []).trans (List.append_nil _)
      have hne : joinWith "\n\n" (t' :: ts) ≠ [] := by
        refine joinWith_ne_nil (List.cons_ne_nil _ _) fun t ht => ?_
        obtain ⟨v, d, rfl, -⟩ := hts t ht
        simp
      rw [joinWith_cons_cons, indent_append _ hne, ih hts, hlines]
      rfl

end Text

end Ambient

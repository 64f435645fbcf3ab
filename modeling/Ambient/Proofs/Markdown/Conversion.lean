import Mathlib
import Ambient.Markdown.Basic
import Ambient.Proofs.Text.Letter
import Ambient.Proofs.Text.Lines
import Ambient.Proofs.Text.Trim

/-!
# Paragraphs, lists and lines

What the rules make of the elements of a forest is put together by their line feeds: a part with line
feeds around it meets the one before it in as many line feeds as the rule of `meet` says
(`mergeFrom_padded`).  So a paragraph stands between empty lines, and the items of a list stand on lines
of their own (`merge_lines`).

What is made tidy is the lines without the white space at their ends and with one empty line in the
place of several (`tidy_of_lines`).
-/

namespace Ambient

namespace Markdown

open Html

variable {c : Char} {t u p w l k : Text} {ts ls : List Text} {ancestors : List Ancestor}

/-! ### Putting parts together -/

/-- A text that is not empty and neither starts nor ends with a line feed. -/
structure IsBare (t : Text) : Prop where
  ne_nil : t ≠ []
  head : t.head? ≠ some '\n'
  last : t.getLast? ≠ some '\n'

/-- A line that is not empty and neither starts nor ends with white space. -/
structure IsTidyLine (l : Text) : Prop where
  unbroken : ∀ c ∈ l, isLineBreak c = false
  head : ∃ c, l.head? = some c ∧ isBlank c = false
  last : ∃ c, l.getLast? = some c ∧ isBlank c = false

/-- A word: a text without white space. -/
structure IsWord (w : Text) : Prop where
  ne_nil : w ≠ []
  solid : ∀ c ∈ w, isBlank c = false

/-- A text with line feeds before and behind it. -/
def padded (a : ℕ) (t : Text) (b : ℕ) : Text :=
  List.replicate a '\n' ++ t ++ List.replicate b '\n'

/-- The number of line feeds between a part that ends in `feeds` of them and one that starts with `a`. -/
def meet (feeds a : ℕ) : ℕ :=
  if feeds = 0 || a = 0 then feeds + a else min 2 (max feeds a)

lemma isBlank_of_isCollapsing (h : isCollapsing c = true) : isBlank c = true := by
  simp only [isCollapsing, Bool.or_eq_true, beq_iff_eq] at h
  rcases h with ((rfl | rfl) | rfl) | rfl <;> decide

lemma isCollapsing_of_not_blank (h : isBlank c = false) : isCollapsing c = false := by
  rw [← Bool.not_eq_true]
  intro hcollapsing
  rw [isBlank_of_isCollapsing hcollapsing] at h
  cases h

lemma isLineBreak_of_not_blank (h : isBlank c = false) : isLineBreak c = false := by
  rw [← Bool.not_eq_true]
  intro hbreak
  rw [isBlank_of_isLineBreak hbreak] at h
  cases h

lemma IsTidyLine.ne_nil (h : IsTidyLine t) : t ≠ [] := by
  obtain ⟨c, hc, -⟩ := h.head
  rintro rfl
  cases hc

lemma IsTidyLine.not_mem_newline (h : IsTidyLine t) : '\n' ∉ t :=
  fun hmem => absurd (h.unbroken '\n' hmem) (by decide)

lemma IsTidyLine.blank (h : IsTidyLine t) : Text.blank t = false := by
  obtain ⟨c, hc, hsolid⟩ := h.head
  exact Text.blank_of_mem (List.mem_of_head? hc) hsolid

lemma IsTidyLine.trimEnd (h : IsTidyLine t) : t.trimEnd = t := by
  obtain ⟨c, hc, hsolid⟩ := h.last
  refine Text.dropEndWhile_of_getLast? fun d hd => ?_
  obtain rfl : c = d := Option.some.inj (hc.symm.trans hd)
  exact hsolid

lemma IsTidyLine.trim (h : IsTidyLine t) : t.trim = t := by
  obtain ⟨c, hc, hsolid⟩ := h.head
  obtain ⟨u, rfl⟩ := List.head?_eq_some_iff.mp hc
  rw [Text.trim_cons_of_not_blank hsolid, h.trimEnd]

lemma IsWord.isTidyLine (h : IsWord w) : IsTidyLine w := by
  refine ⟨fun c hc => isLineBreak_of_not_blank (h.solid c hc), ?_, ?_⟩
  · exact ⟨_, List.head?_eq_some_head h.ne_nil, h.solid _ (List.head_mem h.ne_nil)⟩
  · exact ⟨_, List.getLast?_eq_some_getLast h.ne_nil, h.solid _ (List.getLast_mem h.ne_nil)⟩

/-- Two lines on one with a space between them. -/
lemma IsTidyLine.append (hl : IsTidyLine l) (hk : IsTidyLine k) : IsTidyLine (l ++ ' ' :: k) := by
  refine ⟨?_, ?_, ?_⟩
  · intro c hc
    rcases List.mem_append.mp hc with hc | hc
    · exact hl.unbroken c hc
    · rcases List.mem_cons.mp hc with rfl | hc
      · decide
      · exact hk.unbroken c hc
  · rw [List.head?_append_of_ne_nil _ hl.ne_nil]
    exact hl.head
  · rw [List.getLast?_append_of_ne_nil _ (List.cons_ne_nil ' ' k), ← List.singleton_append,
      List.getLast?_append_of_ne_nil _ hk.ne_nil]
    exact hk.last

/-- Words with spaces between them. -/
lemma isTidyLine_joinWith {ws : List Text} (hne : ws ≠ []) (hws : ∀ w ∈ ws, IsWord w) :
    IsTidyLine (Text.joinWith [' '] ws) := by
  induction ws with
  | nil => exact absurd rfl hne
  | cons w ws ih =>
    obtain ⟨hw, hws⟩ := List.forall_mem_cons.mp hws
    cases ws with
    | nil => exact hw.isTidyLine
    | cons v ws =>
      rw [Text.joinWith_cons_cons, List.append_assoc]
      exact hw.isTidyLine.append (ih (List.cons_ne_nil v ws) hws)

/-- A text on one line is bare. -/
lemma isBare_of_not_mem (hne : t ≠ []) (h : '\n' ∉ t) : IsBare t :=
  ⟨hne, fun hhead => h (List.mem_of_head? hhead), fun hlast => h (List.mem_of_getLast? hlast)⟩

lemma IsTidyLine.isBare (h : IsTidyLine t) : IsBare t :=
  isBare_of_not_mem h.ne_nil h.not_mem_newline

/-- A text that begins with a bare one and ends with one is bare. -/
lemma IsBare.of_isPrefix_of_isSuffix (hl : IsBare l) (hk : IsBare k) (hstart : l <+: t)
    (hend : k <:+ t) : IsBare t := by
  obtain ⟨u, hu⟩ := hstart
  obtain ⟨v, hv⟩ := hend
  refine ⟨?_, ?_, ?_⟩
  · rw [← hu]
    exact List.append_ne_nil_of_left_ne_nil hl.ne_nil u
  · rw [← hu, List.head?_append_of_ne_nil _ hl.ne_nil]
    exact hl.head
  · rw [← hv, List.getLast?_append_of_ne_nil _ hk.ne_nil]
    exact hk.last

/-- Lines put together begin with the first one and end with the last one. -/
lemma isBare_unlines {l k : Text} (hhead : ls.head? = some l) (hl : IsBare l)
    (hlast : ls.getLast? = some k) (hk : IsBare k) : IsBare (Text.unlines ls) := by
  refine hl.of_isPrefix_of_isSuffix hk ?_ ?_
  · obtain ⟨ls, rfl⟩ := List.head?_eq_some_iff.mp hhead
    cases ls with
    | nil => exact List.prefix_refl l
    | cons m ls => exact ⟨_, (Text.unlines_cons_cons l m ls).symm⟩
  · clear hhead hl
    induction ls with
    | nil => cases hlast
    | cons m ls ih =>
      cases ls with
      | nil =>
        obtain rfl := Option.some.inj hlast
        exact List.suffix_refl _
      | cons n ls =>
        rw [List.getLast?_cons_cons] at hlast
        obtain ⟨u, hu⟩ := ih hlast
        exact ⟨m ++ '\n' :: u, by rw [Text.unlines_cons_cons, ← hu]; simp⟩

/-- The line feeds around a bare text are cut off as they were added. -/
lemma cutFeeds_padded (h : IsBare t) (a b : ℕ) : cutFeeds (padded a t b) = (a, t, b) := by
  obtain ⟨c, u, rfl⟩ := List.exists_cons_of_ne_nil h.ne_nil
  have hc : c ≠ '\n' := fun heq => h.head (congrArg some heq)
  have hfeeds : ∀ n, ∀ d ∈ List.replicate n '\n', decide (d = '\n') = true := by
    intro n d hd
    rw [List.eq_of_mem_replicate hd]
    rfl
  have hdrop : (padded a (c :: u) b).dropWhile (· = '\n') =
      c :: u ++ List.replicate b '\n' := by
    rw [padded, List.append_assoc, List.dropWhile_append_of_pos (hfeeds a), List.cons_append,
      List.dropWhile_cons_of_neg (by simp [hc])]
  have htake : (padded a (c :: u) b).takeWhile (· = '\n') = List.replicate a '\n' := by
    rw [padded, List.append_assoc, List.takeWhile_append_of_pos (hfeeds a), List.cons_append,
      List.takeWhile_cons_of_neg (by simp [hc]), List.append_nil]
  have hinner : Text.dropEndWhile (· = '\n') (c :: u ++ List.replicate b '\n') = c :: u := by
    rw [Text.dropEndWhile_append_of_all (hfeeds b)]
    refine Text.dropEndWhile_of_getLast? fun d hd => decide_eq_false fun heq => h.last ?_
    rw [← heq]
    exact hd
  have htrailing : Text.takeEndWhile (· = '\n') (c :: u ++ List.replicate b '\n') =
      List.replicate b '\n' := by
    have hsplit := Text.dropEndWhile_append_takeEndWhile (· = '\n') (c :: u ++ List.replicate b '\n')
    rw [hinner] at hsplit
    exact List.append_cancel_left hsplit
  simp only [cutFeeds, hdrop, htake, hinner, htrailing, List.length_replicate]

/-- Without the line feeds around it a bare text is left. -/
lemma trimBy_padded (h : IsBare t) (a b : ℕ) : Text.trimBy (· = '\n') (padded a t b) = t :=
  congrArg (fun parts => parts.2.1) (cutFeeds_padded h a b)

/-- A part is merged with as many line feeds in front of it as two parts keep between them. -/
lemma mergeFrom_padded (h : IsBare t) (feeds a b : ℕ) (ts : List Text) :
    mergeFrom feeds (padded a t b :: ts) =
      List.replicate (meet feeds a) '\n' ++ t ++ mergeFrom b ts := by
  rw [mergeFrom, cutFeeds_padded h]
  rfl

/-- Parts that start with no line feed are put together as they are. -/
lemma merge_flatten (hts : ∀ t ∈ ts, ∃ u b, IsBare u ∧ t = padded 0 u b) :
    merge false ts = ts.flatten := by
  have hkept : (ts.filter fun t => !t.isEmpty) = ts := by
    rw [List.filter_eq_self]
    intro t ht
    obtain ⟨u, b, hu, rfl⟩ := hts t ht
    simp [padded, hu.ne_nil]
  have hmerge : ∀ feeds, mergeFrom feeds ts = List.replicate feeds '\n' ++ ts.flatten := by
    clear hkept
    induction ts with
    | nil => simp [mergeFrom]
    | cons t ts ih =>
      obtain ⟨⟨u, b, hu, rfl⟩, hts'⟩ := List.forall_mem_cons.mp hts
      intro feeds
      have hmeet : meet feeds 0 = feeds := by
        rw [meet, if_pos (by simp), Nat.add_zero]
      rw [mergeFrom_padded hu, hmeet, ih hts']
      simp [padded]
  rw [merge, hkept]
  exact hmerge 0

lemma collapse_cons_of_not (h : isCollapsing c = false) : collapse (c :: t) = c :: collapse t := by
  rw [collapse, if_neg (by simp [h])]

lemma collapse_ne_nil (c : Char) (t : Text) : collapse (c :: t) ≠ [] := by
  cases hc : isCollapsing c with
  | false =>
    rw [collapse_cons_of_not hc]
    exact List.cons_ne_nil c _
  | true =>
    rw [collapse, if_pos hc]
    split
    · exact List.cons_ne_nil _ _
    · split_ifs <;> exact List.cons_ne_nil _ _

/-- A space or a tab goes with the white space behind it. -/
lemma collapse_space (hc : c = ' ' ∨ c = '\t') (t : Text) :
    collapse (c :: t) =
      if t.head?.elim false isCollapsing then collapse t else ' ' :: collapse t := by
  have hcollapsing : isCollapsing c = true := by rcases hc with rfl | rfl <;> rfl
  have hnobreak : ¬ (c = '\n' ∨ c = '\r') := by rcases hc with rfl | rfl <;> decide
  rw [collapse, if_pos hcollapsing]
  cases t with
  | nil => simp [collapse, hnobreak]
  | cons d t =>
    obtain ⟨e, u, heq⟩ := List.exists_cons_of_ne_nil (collapse_ne_nil d t)
    simp [heq, hnobreak]

/-- Where all white space is spaces, nothing new comes in. -/
lemma mem_collapse (h : ∀ c ∈ t, isCollapsing c = true → c = ' ') (hc : c ∈ collapse t) : c ∈ t := by
  induction t with
  | nil => exact hc
  | cons d t ih =>
    obtain ⟨hd, ht⟩ := List.forall_mem_cons.mp h
    cases hcollapsing : isCollapsing d with
    | true =>
      obtain rfl := hd hcollapsing
      rw [collapse_space (Or.inl rfl)] at hc
      split_ifs at hc
      · exact List.mem_cons_of_mem ' ' (ih ht hc)
      · rcases List.mem_cons.mp hc with rfl | hc
        · exact List.mem_cons_self
        · exact List.mem_cons_of_mem ' ' (ih ht hc)
    | false =>
      rw [collapse_cons_of_not hcollapsing] at hc
      rcases List.mem_cons.mp hc with rfl | hc
      · exact List.mem_cons_self
      · exact List.mem_cons_of_mem d (ih ht hc)

/-- A text with nothing to collapse stays. -/
lemma collapse_of_forall (h : ∀ c ∈ t, isCollapsing c = false) : collapse t = t := by
  induction t with
  | nil => rfl
  | cons c t ih =>
    obtain ⟨hc, ht⟩ := List.forall_mem_cons.mp h
    rw [collapse_cons_of_not hc, ih ht]

/-- A character that is no white space is kept at the start of a text. -/
lemma trimEnd_collapse_cons (hc : isBlank c = false) (t : Text) :
    Text.trimEnd (collapse (c :: t)) = c :: Text.trimEnd (collapse t) := by
  rw [collapse_cons_of_not (isCollapsing_of_not_blank hc), Text.trimEnd_cons_of_not_blank hc]

/-- What a block shows of the text in it. -/
def shownText (t : Text) : Text :=
  Text.trimEnd ((collapse t).dropWhile isCollapsing)

/-- A text that begins with a character of its own loses nothing in front. -/
lemma shownText_cons (hc : isBlank c = false) (t : Text) :
    shownText (c :: t) = Text.trimEnd (collapse (c :: t)) := by
  have hcollapsing := isCollapsing_of_not_blank hc
  rw [shownText, collapse_cons_of_not hcollapsing, List.dropWhile_cons_of_neg (by simp [hcollapsing])]

lemma IsWord.collapse (hw : IsWord w) : Markdown.collapse w = w :=
  collapse_of_forall fun c hc => isCollapsing_of_not_blank (hw.solid c hc)

/-- A word is shown as it stands. -/
lemma IsWord.shownText (hw : IsWord w) : Markdown.shownText w = w := by
  obtain ⟨c, w', rfl⟩ := List.exists_cons_of_ne_nil hw.ne_nil
  rw [shownText_cons (hw.solid c List.mem_cons_self), hw.collapse, Text.trimEnd_of_forall hw.solid]

lemma IsWord.not_mem_newline (hw : IsWord w) : '\n' ∉ w := by
  intro hmem
  exact absurd (hw.solid '\n' hmem) (by decide)

/-- What a block shows of a text of which white space at the start is no part. -/
lemma isTidyLine_trimEnd_collapse (hc : isBlank c = false)
    (hbreak : ∀ d ∈ collapse (c :: t), isLineBreak d = false) :
    IsTidyLine (Text.trimEnd (collapse (c :: t))) := by
  refine ⟨fun d hd => hbreak d ((Text.trimEnd_isPrefix _).subset hd), ⟨c, ?_, hc⟩, ?_⟩
  · rw [trimEnd_collapse_cons hc]
    rfl
  · have hne : Text.trimEnd (collapse (c :: t)) ≠ [] := by
      rw [trimEnd_collapse_cons hc]
      exact List.cons_ne_nil _ _
    have hlast := List.getLast?_eq_some_getLast hne
    exact ⟨_, hlast, Text.of_getLast?_dropEndWhile hlast⟩

/-- A line that is not empty ends the run of line feeds in front of it. -/
lemma limitFeeds_append (hne : u ≠ []) (hu : '\n' ∉ u) (n : ℕ) (t : Text) :
    limitFeeds n (u ++ t) = u ++ limitFeeds 0 t := by
  induction u generalizing n with
  | nil => exact absurd rfl hne
  | cons c u ih =>
    obtain ⟨hc, hu⟩ := not_or.mp (mt List.mem_cons.mpr hu)
    rw [List.cons_append, limitFeeds, if_neg (Ne.symm hc)]
    by_cases hnil : u = []
    · rw [hnil]
      rfl
    · rw [ih hnil hu]
      rfl

/-- The lines with one empty line in the place of several in a row. -/
def squeezed (ls : List Text) : List Text :=
  ls.destutter fun l k => l ≠ [] ∨ k ≠ []

lemma mem_of_mem_squeezed (h : l ∈ squeezed ls) : l ∈ ls :=
  (List.destutter_sublist _ ls).subset h

lemma squeezed_cons (h : l ≠ [] ∨ k ≠ []) (ls : List Text) :
    squeezed (l :: k :: ls) = l :: squeezed (k :: ls) := by
  rw [squeezed, List.destutter_cons_cons, if_pos h]
  rfl

lemma squeezed_nil_nil (ls : List Text) : squeezed ([] :: [] :: ls) = squeezed ([] :: ls) := by
  rw [squeezed, List.destutter_cons_cons, if_neg (by simp)]
  rfl

/-- Leaving out empty lines makes no difference where none of them is kept. -/
lemma filter_map_squeezed {f : Text → Text} (hf : f [] = []) (ls : List Text) :
    ((squeezed ls).map f).filter (fun l => !l.isEmpty) = (ls.map f).filter fun l => !l.isEmpty := by
  induction ls with
  | nil => rfl
  | cons l ls ih =>
    cases ls with
    | nil => rfl
    | cons k ls =>
      by_cases hlk : l ≠ [] ∨ k ≠ []
      · rw [squeezed_cons hlk, List.map_cons, List.map_cons, List.filter_cons, List.filter_cons, ih]
      · obtain ⟨rfl, rfl⟩ : l = [] ∧ k = [] := by simpa using hlk
        have hnil : (([] :: [] :: ls).map f).filter (fun l => !l.isEmpty) =
            (([] :: ls).map f).filter fun l => !l.isEmpty := by
          rw [List.map_cons, hf]
          rfl
        rw [squeezed_nil_nil, ih, hnil]

/-- The first line is the first one still. -/
lemma exists_squeezed_cons (hl : l ≠ []) (ls : List Text) : ∃ ks, squeezed (l :: ls) = l :: ks := by
  cases ls with
  | nil => exact ⟨[], rfl⟩
  | cons k ls => exact ⟨_, squeezed_cons (Or.inl hl) ls⟩

lemma squeezed_ne_nil (l : Text) (ls : List Text) : squeezed (l :: ls) ≠ [] :=
  List.destutter'_ne_nil ls _

/-- A last line that is not empty stays the last one. -/
lemma getLast?_squeezed (h : ls.getLast? ≠ some []) : (squeezed ls).getLast? = ls.getLast? := by
  induction ls with
  | nil => rfl
  | cons l ls ih =>
    cases ls with
    | nil => rfl
    | cons k ls =>
      rw [List.getLast?_cons_cons] at h ⊢
      by_cases hlk : l ≠ [] ∨ k ≠ []
      · rw [squeezed_cons hlk, ← ih h]
        obtain ⟨m, ks, heq⟩ := List.exists_cons_of_ne_nil (squeezed_ne_nil k ls)
        rw [heq, List.getLast?_cons_cons]
      · obtain ⟨rfl, rfl⟩ : l = [] ∧ k = [] := by simpa using hlk
        rw [squeezed_nil_nil, ih h]

/-- The line feeds of the lines are limited by leaving out empty lines.  In front of an empty line there
is the line feed that ends the line before it. -/
lemma limitFeeds_unlines (hls : ∀ k ∈ l :: ls, '\n' ∉ k) (hlast : (l :: ls).getLast? ≠ some [])
    {n : ℕ} (hn : l = [] → n = 1) :
    limitFeeds n (Text.unlines (l :: ls)) = Text.unlines (squeezed (l :: ls)) := by
  induction ls generalizing l n with
  | nil =>
    have hnil : l ≠ [] := by simpa using hlast
    simpa [limitFeeds, Text.unlines, Text.joinWith, squeezed] using
      limitFeeds_append hnil (hls l List.mem_cons_self) n []
  | cons k ls ih =>
    obtain ⟨hl, hmore⟩ := List.forall_mem_cons.mp hls
    rw [List.getLast?_cons_cons] at hlast
    obtain ⟨m, ks, hsqueezed⟩ := List.exists_cons_of_ne_nil (squeezed_ne_nil k ls)
    rw [Text.unlines_cons_cons]
    by_cases hnil : l = []
    · obtain rfl := hn hnil
      subst hnil
      by_cases hk : k = []
      · -- the line feed of an empty line behind another one is one too many
        subst hk
        have hrest := ih hmore hlast fun _ => rfl
        obtain ⟨e, es, rfl⟩ : ∃ e es, ls = e :: es := by
          cases ls with
          | nil => exact absurd rfl hlast
          | cons e es => exact ⟨e, es, rfl⟩
        rw [squeezed_nil_nil, ← hrest, Text.unlines_cons_cons]
        rfl
      · have hrest := ih hmore hlast (n := 2) fun h => absurd h hk
        rw [squeezed_cons (Or.inr hk), hsqueezed, Text.unlines_cons_cons, ← hsqueezed, ← hrest]
        rfl
    · have hrest := ih hmore hlast (n := 1) fun _ => rfl
      rw [squeezed_cons (Or.inl hnil), hsqueezed, Text.unlines_cons_cons, ← hsqueezed, ← hrest,
        limitFeeds_append hnil hl]
      rfl

/-- What is made tidy is the lines without the white space at their ends. -/
lemma tidy_of_lines (hlines : (Text.lines t).map Text.trimEnd = l :: ls) (hl : l ≠ [])
    (hlast : (l :: ls).getLast? ≠ some []) : tidy t = Text.unlines (squeezed (l :: ls)) := by
  have hfeeds : ∀ k ∈ l :: ls, '\n' ∉ k := by
    rw [← hlines]
    intro k hk hmem
    obtain ⟨m, hm, rfl⟩ := List.mem_map.mp hk
    exact Text.newline_not_mem_lines t m hm ((Text.trimEnd_isPrefix m).subset hmem)
  rw [tidy, hlines, limitFeeds_unlines hfeeds hlast fun h => absurd h hl]
  set k := (l :: ls).getLast (List.cons_ne_nil l ls)
  have hk : (l :: ls).getLast? = some k := List.getLast?_eq_some_getLast _
  have hne : k ≠ [] := fun hnil => hlast (hk.trans (congrArg some hnil))
  obtain ⟨ks, hcons⟩ := exists_squeezed_cons hl ls
  have hbare : IsBare (Text.unlines (squeezed (l :: ls))) := by
    refine isBare_unlines (congrArg List.head? hcons)
      (isBare_of_not_mem hl (hfeeds l List.mem_cons_self)) ((getLast?_squeezed hlast).trans hk)
      (isBare_of_not_mem hne (hfeeds k (List.getLast_mem _)))
  simpa [padded] using trimBy_padded hbare 0 0

end Markdown

end Ambient

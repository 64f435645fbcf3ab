import Mathlib
import Ambient.Prose.CodeSpan

/-!
# Which code spans are widened

`Reads` is the reading of a text from left to right.  A run of backticks opens a code span if a later
run has its length; the first such run closes the span, and reading goes on behind it.  A run without
such a run behind it is alone: it is plain text, and reading goes on with the next run.  Every text is
read in exactly one way (`exists_reads`, `Reads.unique`).

The scanner cuts the text into its runs first and reads those (`cutTicks_run`, `cutTicks_append`).  It
widens what the reading widens up to the first run that is alone, and leaves the rest of the text as it
is (`Reads.widenSpans_eq`).  A span behind such a run is therefore not widened, whatever it holds.
-/

namespace Ambient

namespace Prose

/-! ### Reading runs of backticks -/

/-- A run of `n` backticks. -/
def backticks (n : ℕ) : Text :=
  List.replicate n '`'

/-- A text holds a run of exactly `n` backticks. -/
def HasRun (n : ℕ) (t : Text) : Prop :=
  ∃ front back, t = front ++ backticks n ++ back ∧
    front.getLast? ≠ some '`' ∧ back.head? ≠ some '`'

/-- A piece of a text that is read from left to right. -/
inductive Piece
  /-- A character that belongs to no run and to no code span. -/
  | char (c : Char)
  /-- A code span between two runs of one length. -/
  | span (size : ℕ) (content : Text)
  /-- A run that no later run closes. -/
  | alone (size : ℕ)

/-- The pieces of a text that is read from left to right. -/
inductive Reads : Text → List Piece → Prop
  | nil : Reads [] []
  | char {c : Char} {t : Text} {ps : List Piece} :
      c ≠ '`' → Reads t ps → Reads (c :: t) (.char c :: ps)
  | span {n : ℕ} {content rest : Text} {ps : List Piece} :
      0 < n → content ≠ [] → content.head? ≠ some '`' → content.getLast? ≠ some '`' →
      ¬ HasRun n content → rest.head? ≠ some '`' → Reads rest ps →
      Reads (backticks n ++ (content ++ (backticks n ++ rest))) (.span n content :: ps)
  | alone {n : ℕ} {rest : Text} {ps : List Piece} :
      0 < n → rest.head? ≠ some '`' → ¬ HasRun n rest → Reads rest ps →
      Reads (backticks n ++ rest) (.alone n :: ps)

namespace Piece

/-- The text that a piece was read from. -/
def source : Piece → Text
  | char c => [c]
  | span n content => backticks n ++ content ++ backticks n
  | alone n => backticks n

/-- A code span between single backticks that holds white space other than at its ends. -/
def IsWide : Piece → Prop
  | span n content => n = 1 ∧ ∃ c ∈ content.trim, isBlank c = true
  | _ => False

instance : DecidablePred IsWide
  | char _ => inferInstanceAs (Decidable False)
  | span n content =>
    decidable_of_iff (n = 1 ∧ content.trim.any isBlank = true) (by simp [IsWide])
  | alone _ => inferInstanceAs (Decidable False)

/-- A piece with the backticks that it should have: three on either side of a wide span. -/
def written : Piece → Text
  | char c => [c]
  | span n content =>
    if (span n content).IsWide then backticks 3 ++ content ++ backticks 3
    else backticks n ++ content ++ backticks n
  | alone n => backticks n

/-- Whether a piece is not a run that is alone. -/
def isClosed : Piece → Bool
  | alone _ => false
  | _ => true

end Piece

variable {n m : ℕ} {c : Char} {t u content rest : Text} {ps qs : List Piece}

lemma backticks_succ (n : ℕ) : backticks (n + 1) = '`' :: backticks n :=
  List.replicate_succ

lemma head?_backticks_append (h : 0 < n) (t : Text) : (backticks n ++ t).head? = some '`' := by
  obtain ⟨k, rfl⟩ := Nat.exists_eq_succ_of_ne_zero h.ne'
  rw [backticks_succ]
  exact List.head?_cons

lemma backticks_append_ne_nil (h : 0 < n) (t : Text) : backticks n ++ t ≠ [] := by
  intro heq
  have hhead := head?_backticks_append h t
  rw [heq] at hhead
  cases hhead

lemma backticks_append_ne_cons (h : 0 < n) (hc : c ≠ '`') (t u : Text) :
    backticks n ++ t ≠ c :: u := by
  intro heq
  have hhead := head?_backticks_append h t
  rw [heq] at hhead
  exact hc (Option.some.inj hhead)

/-- A run is as long as it can be. -/
lemma backticks_append_inj (ht : t.head? ≠ some '`') (hu : u.head? ≠ some '`')
    (h : backticks n ++ t = backticks m ++ u) : n = m ∧ t = u := by
  induction n generalizing m with
  | zero =>
    cases m with
    | zero => exact ⟨rfl, h⟩
    | succ m =>
      have hhead := congrArg List.head? h
      rw [head?_backticks_append (Nat.succ_pos m)] at hhead
      exact absurd hhead ht
  | succ n ih =>
    cases m with
    | zero =>
      have hhead := congrArg List.head? h
      rw [head?_backticks_append (Nat.succ_pos n)] at hhead
      exact absurd hhead.symm hu
    | succ m =>
      rw [backticks_succ, backticks_succ] at h
      obtain ⟨hnm, htu⟩ := ih (List.cons.inj h).2
      exact ⟨congrArg Nat.succ hnm, htu⟩

/-- A text is empty, or begins with a character that is no backtick, or begins with a run. -/
lemma runInduction {P : Text → Prop} (nil : P [])
    (char : ∀ c t, c ≠ '`' → P t → P (c :: t))
    (run : ∀ n rest, 0 < n → rest.head? ≠ some '`' → P rest → P (backticks n ++ rest)) (t : Text) :
    P t := by
  -- a backtick in front of a run makes the run longer, so runs are taken off as a whole
  suffices h : ∀ t n, P t ∧ (0 < n → P (backticks n ++ t)) from (h t 0).1
  intro t
  induction t with
  | nil =>
    intro n
    exact ⟨nil, fun hn => run n [] hn (by simp) nil⟩
  | cons c t ih =>
    intro n
    by_cases hc : c = '`'
    · subst hc
      have hone : P ('`' :: t) := (ih 1).2 Nat.one_pos
      refine ⟨hone, fun _ => ?_⟩
      have hmore : backticks n ++ '`' :: t = backticks (n + 1) ++ t := by
        simp [backticks, List.replicate_succ']
      rw [hmore]
      exact (ih (n + 1)).2 (Nat.succ_pos n)
    · have hchar : P (c :: t) := char c t hc (ih 0).1
      exact ⟨hchar, fun hn => run n (c :: t) hn (by simpa using hc) hchar⟩

/-! ### Runs in parts of a text -/

/-- A run stays one behind another character. -/
lemma HasRun.cons (hc : c ≠ '`') (h : HasRun n t) : HasRun n (c :: t) := by
  obtain ⟨front, back, rfl, hfront, hback⟩ := h
  refine ⟨c :: front, back, rfl, ?_, hback⟩
  cases front with
  | nil => simpa using hc
  | cons d front => rwa [List.getLast?_cons_cons]

/-- A run at the start of a text is one if it ends there. -/
lemma hasRun_backticks (hrest : rest.head? ≠ some '`') : HasRun n (backticks n ++ rest) :=
  ⟨[], rest, rfl, by simp, hrest⟩

/-- A run stays one behind other runs that end in front of it. -/
lemma HasRun.behind (hm : 0 < m) (hrest : rest.head? ≠ some '`') (h : HasRun m rest) (n : ℕ) :
    HasRun m (backticks n ++ rest) := by
  obtain ⟨front, back, rfl, hfront, hback⟩ := h
  cases front with
  | nil =>
    rw [List.nil_append] at hrest
    exact absurd (head?_backticks_append hm back) hrest
  | cons d front =>
    refine ⟨backticks n ++ d :: front, back, by simp, ?_, hback⟩
    rw [List.getLast?_append_of_ne_nil _ (List.cons_ne_nil d front)]
    exact hfront

/-- A text with a run of a length is cut at the first one. -/
lemma HasRun.exists_first (hn : 0 < n) (hrest : rest.head? ≠ some '`') (h : HasRun n rest) :
    ∃ content behind, rest = content ++ (backticks n ++ behind) ∧ content ≠ [] ∧
      content.head? ≠ some '`' ∧ content.getLast? ≠ some '`' ∧ ¬ HasRun n content ∧
      behind.head? ≠ some '`' := by
  induction hlength : rest.length using Nat.strong_induction_on generalizing rest with
  | _ k ih =>
    obtain ⟨front, back, rfl, hfront, hback⟩ := h
    have hne : front ≠ [] := by
      rintro rfl
      exact hrest (head?_backticks_append hn back)
    have hhead : front.head? ≠ some '`' := by
      rwa [List.append_assoc, List.head?_append_of_ne_nil _ hne] at hrest
    by_cases hearlier : HasRun n front
    · have hlt : front.length < k := by
        subst hlength
        have hpos : (backticks n).length = n := List.length_replicate
        simp only [List.length_append, hpos]
        omega
      obtain ⟨content, behind, rfl, hcontent⟩ := ih _ hlt hhead hearlier rfl
      refine ⟨content, behind ++ (backticks n ++ back), by simp, hcontent.1, hcontent.2.1,
        hcontent.2.2.1, hcontent.2.2.2.1, ?_⟩
      cases behind with
      | nil =>
        -- the earlier run would end the text in front of the later one
        obtain ⟨j, rfl⟩ := Nat.exists_eq_succ_of_ne_zero hn.ne'
        apply absurd _ hfront
        simp [backticks, List.replicate_succ']
      | cons d behind => exact hcontent.2.2.2.2
    · exact ⟨front, back, List.append_assoc .., hne, hhead, hfront, hearlier, hback⟩

/-- The first run of a length is at one place. -/
lemma first_unique {content' rest' : Text} (hn : 0 < n) (hcontent : content.getLast? ≠ some '`')
    (hnone' : ¬ HasRun n content') (hrest : rest.head? ≠ some '`') (hrest' : rest'.head? ≠ some '`')
    (h : content ++ (backticks n ++ rest) = content' ++ (backticks n ++ rest')) :
    content'.length ≤ content.length := by
  by_contra hlonger
  rw [not_le] at hlonger
  obtain ⟨w, rfl, hw⟩ := (List.append_eq_append_iff.mp h).resolve_right (by
    rintro ⟨w, rfl, -⟩
    simp at hlonger)
  -- what `content'` has more begins with the run behind `content`, as a whole or in part
  rcases List.append_eq_append_iff.mp hw with ⟨v, rfl, hv⟩ | ⟨v, hv, hv'⟩
  · apply hnone'
    refine ⟨content, v, (List.append_assoc ..).symm, hcontent, ?_⟩
    cases v with
    | nil =>
      rw [hv, List.nil_append] at hrest
      exact absurd (head?_backticks_append hn rest') hrest
    | cons d v =>
      rw [hv] at hrest
      exact hrest
  · obtain ⟨hsum, -, hv''⟩ := List.append_eq_replicate_iff.mp hv.symm
    rw [hv''] at hv'
    obtain ⟨hk, -⟩ := backticks_append_inj hrest' hrest hv'
    simp only [List.length_append] at hlonger
    omega

/-- A text is read in one way only. -/
lemma Reads.unique (h : Reads t ps) (h' : Reads t qs) : qs = ps := by
  induction h generalizing qs with
  | nil =>
    generalize ht : ([] : Text) = t at h'
    cases h' with
    | nil => rfl
    | char => cases ht
    | span hn => exact absurd ht.symm (backticks_append_ne_nil hn _)
    | alone hn => exact absurd ht.symm (backticks_append_ne_nil hn _)
  | @char c t ps hc _ ih =>
    generalize ht : c :: t = u at h'
    cases h' with
    | nil => cases ht
    | char _ hrest =>
      obtain ⟨rfl, rfl⟩ := List.cons.inj ht
      rw [ih hrest]
    | span hn => exact absurd ht.symm (backticks_append_ne_cons hn hc _ _)
    | alone hn => exact absurd ht.symm (backticks_append_ne_cons hn hc _ _)
  | @span n content rest ps hn hne hhead hlast hnone hrest _ ih =>
    have hfirst : (content ++ (backticks n ++ rest)).head? ≠ some '`' := by
      rwa [List.head?_append_of_ne_nil _ hne]
    generalize ht : backticks n ++ (content ++ (backticks n ++ rest)) = u at h'
    cases h' with
    | nil => exact absurd ht (backticks_append_ne_nil hn _)
    | char hc => exact absurd ht (backticks_append_ne_cons hn hc _ _)
    | @span m content' rest' _ _ hne' hhead' hlast' hnone' hrest' hreads =>
      have hfirst' : (content' ++ (backticks m ++ rest')).head? ≠ some '`' := by
        rwa [List.head?_append_of_ne_nil _ hne']
      obtain ⟨rfl, hbehind⟩ := backticks_append_inj hfirst hfirst' ht
      -- both spans end at the first run of their length, so neither is longer
      have hle := first_unique hn hlast hnone' hrest hrest' hbehind
      have hge := first_unique hn hlast' hnone hrest' hrest hbehind.symm
      obtain ⟨rfl, hclosing⟩ := List.append_inj hbehind (le_antisymm hge hle)
      obtain ⟨-, rfl⟩ := backticks_append_inj hrest hrest' hclosing
      rw [ih hreads]
    | alone _ hrest' hnone' =>
      obtain ⟨rfl, rfl⟩ := backticks_append_inj hfirst hrest' ht
      exact absurd ⟨content, rest, (List.append_assoc ..).symm, hlast, hrest⟩ hnone'
  | @alone n rest ps hn hrest hnone _ ih =>
    generalize ht : backticks n ++ rest = u at h'
    cases h' with
    | nil => exact absurd ht (backticks_append_ne_nil hn _)
    | char hc => exact absurd ht (backticks_append_ne_cons hn hc _ _)
    | @span m content' rest' _ _ hne' hhead' hlast' _ hrest' =>
      have hfirst' : (content' ++ (backticks m ++ rest')).head? ≠ some '`' := by
        rwa [List.head?_append_of_ne_nil _ hne']
      obtain ⟨rfl, rfl⟩ := backticks_append_inj hrest hfirst' ht
      exact absurd ⟨content', rest', (List.append_assoc ..).symm, hlast', hrest'⟩ hnone
    | alone _ hrest' _ hreads =>
      obtain ⟨rfl, rfl⟩ := backticks_append_inj hrest hrest' ht
      rw [ih hreads]

/-- Every text is read. -/
lemma exists_reads (t : Text) : ∃ ps, Reads t ps := by
  induction hlength : t.length using Nat.strong_induction_on generalizing t with
  | _ k ih =>
    subst hlength
    induction t using runInduction with
    | nil => exact ⟨[], .nil⟩
    | char c t hc =>
      obtain ⟨ps, hps⟩ := ih t.length (by simp) t rfl
      exact ⟨_, .char hc hps⟩
    | run n rest hn hrest =>
      have hsize : (backticks n).length = n := List.length_replicate
      by_cases hrun : HasRun n rest
      · obtain ⟨content, behind, rfl, hne, hhead, hlast, hnone, hbehind⟩ :=
          hrun.exists_first hn hrest
        obtain ⟨ps, hps⟩ := ih behind.length (by simp only [List.length_append]; omega) behind rfl
        exact ⟨_, .span hn hne hhead hlast hnone hbehind hps⟩
      · obtain ⟨ps, hps⟩ := ih rest.length (by simp only [List.length_append]; omega) rest rfl
        exact ⟨_, .alone hn hrest hrun hps⟩

/-! ### Cutting a text at its runs -/

lemma cutTicks_cons (c : Char) (t : Text) : cutTicks (c :: t) = consTicks c (cutTicks t) :=
  rfl

/-- A character that is no backtick stands in front of the first run. -/
lemma cutTicks_char (hc : c ≠ '`') (t : Text) :
    cutTicks (c :: t) = (c :: (cutTicks t).1, (cutTicks t).2) := by
  rw [cutTicks_cons]
  rcases cutTicks t with ⟨_ | ⟨d, before⟩, _ | ⟨r, runs⟩⟩ <;> simp [consTicks, hc]

/-- A run is cut off as a whole. -/
lemma cutTicks_run (hn : 0 < n) (hrest : rest.head? ≠ some '`') :
    cutTicks (backticks n ++ rest) = ([], ⟨n, (cutTicks rest).1⟩ :: (cutTicks rest).2) := by
  induction n with
  | zero => exact absurd hn (lt_irrefl 0)
  | succ n ih =>
    rw [backticks_succ, List.cons_append, cutTicks_cons]
    by_cases hzero : n = 0
    · subst hzero
      cases rest with
      | nil => rfl
      | cons d rest =>
        have hd : d ≠ '`' := by simpa using hrest
        have hcut : cutTicks (backticks 0 ++ d :: rest) = cutTicks (d :: rest) := rfl
        rw [hcut, cutTicks_char hd]
        rfl
    · rw [ih (Nat.pos_of_ne_zero hzero)]
      rfl

/-- A run ends what stands in front of it. -/
lemma cutTicks_append (hn : 0 < n) (ht : t.getLast? ≠ some '`') (hrest : rest.head? ≠ some '`') :
    cutTicks (t ++ (backticks n ++ rest)) =
      ((cutTicks t).1, (cutTicks t).2 ++ ⟨n, (cutTicks rest).1⟩ :: (cutTicks rest).2) := by
  induction t using runInduction with
  | nil => exact cutTicks_run hn hrest
  | char c t hc ih =>
    have hlast : t.getLast? ≠ some '`' := by
      cases t with
      | nil => simp
      | cons d t => rwa [List.getLast?_cons_cons] at ht
    rw [List.cons_append, cutTicks_char hc, ih hlast, cutTicks_char hc]
  | run m t hm hhead ih =>
    have hne : t ≠ [] := by
      rintro rfl
      obtain ⟨k, rfl⟩ := Nat.exists_eq_succ_of_ne_zero hm.ne'
      apply absurd _ ht
      simp [backticks, List.replicate_succ']
    have hlast : t.getLast? ≠ some '`' := by
      rwa [List.getLast?_append_of_ne_nil _ hne] at ht
    have hhead' : (t ++ (backticks n ++ rest)).head? ≠ some '`' := by
      rwa [List.head?_append_of_ne_nil _ hne]
    rw [List.append_assoc, cutTicks_run hm hhead', ih hlast, cutTicks_run hm hhead]
    rfl

/-- Every run that is cut off is one of the text. -/
lemma hasRun_of_mem_cutTicks (t : Text) : ∀ r ∈ (cutTicks t).2, 0 < r.size ∧ HasRun r.size t := by
  induction t using runInduction with
  | nil => simp [cutTicks]
  | char c t hc ih =>
    rw [cutTicks_char hc]
    exact fun r hr => ⟨(ih r hr).1, (ih r hr).2.cons hc⟩
  | run n t hn ht ih =>
    rw [cutTicks_run hn ht]
    intro r hr
    rcases List.mem_cons.mp hr with rfl | hr
    · exact ⟨hn, hasRun_backticks ht⟩
    · obtain ⟨hpos, hrun⟩ := ih r hr
      exact ⟨hpos, hrun.behind hpos ht n⟩

/-- A text is cut into the runs that it holds. -/
lemma hasRun_iff (hn : 0 < n) : HasRun n t ↔ ∃ r ∈ (cutTicks t).2, r.size = n := by
  constructor
  · rintro ⟨front, back, rfl, hfront, hback⟩
    rw [List.append_assoc, cutTicks_append hn hfront hback]
    exact ⟨_, List.mem_append_right _ List.mem_cons_self, rfl⟩
  · rintro ⟨r, hr, rfl⟩
    exact (hasRun_of_mem_cutTicks t r hr).2

/-- A size that no run has is cut off nowhere. -/
lemma size_ne_of_mem_cutTicks (hn : 0 < n) (h : ¬ HasRun n t) : ∀ r ∈ (cutTicks t).2, r.size ≠ n := by
  intro r hr heq
  exact h ((hasRun_iff hn).mpr ⟨r, hr, heq⟩)

/-- The cut text and its runs put together are the text. -/
lemma cutTicks_text (t : Text) : (cutTicks t).1 ++ ticksText (cutTicks t).2 = t := by
  induction t using runInduction with
  | nil => rfl
  | char c t hc ih =>
    rw [cutTicks_char hc]
    exact congrArg (c :: ·) ih
  | run n t hn ht ih =>
    rw [cutTicks_run hn ht]
    have htext : ticksText (⟨n, (cutTicks t).1⟩ :: (cutTicks t).2) =
        backticks n ++ ((cutTicks t).1 ++ ticksText (cutTicks t).2) := by
      simp [ticksText, Ticks.text, backticks]
    rw [List.nil_append, htext, ih]

/-! ### Widening -/

/-- Runs of which none has the length of the first are left as they are. -/
lemma widenRuns_alone {r : Ticks} {runs : List Ticks} (h : ∀ s ∈ runs, s.size ≠ r.size) :
    widenRuns (r :: runs) = ticksText (r :: runs) := by
  have hdrop : runs.dropWhile (fun s => s.size ≠ r.size) = [] := by
    rw [List.dropWhile_eq_nil_iff]
    intro s hs
    simpa using h s hs
  rw [widenRuns.eq_def]
  dsimp only
  split
  · rfl
  · next closing behind hbehind =>
    rw [hdrop] at hbehind
    cases hbehind

/-- The first run of the same length closes a code span. -/
lemma widenRuns_span {r closing : Ticks} {inside behind : List Ticks}
    (hinside : ∀ s ∈ inside, s.size ≠ r.size) (hclosing : closing.size = r.size) :
    widenRuns (r :: (inside ++ closing :: behind)) =
      spanText r.size (r.after ++ ticksText inside) ++ closing.after ++ widenRuns behind := by
  have hpos : ∀ s ∈ inside, decide (s.size ≠ r.size) = true := by
    intro s hs
    simpa using hinside s hs
  have htake : (inside ++ closing :: behind).takeWhile (fun s => s.size ≠ r.size) = inside := by
    rw [List.takeWhile_append_of_pos hpos]
    simp [hclosing]
  have hdrop : (inside ++ closing :: behind).dropWhile (fun s => s.size ≠ r.size) =
      closing :: behind := by
    rw [List.dropWhile_append_of_pos hpos]
    simp [hclosing]
  rw [widenRuns.eq_def]
  dsimp only
  split
  · next hnil =>
    rw [hdrop] at hnil
    cases hnil
  · next closing' behind' heq =>
    rw [hdrop] at heq
    obtain ⟨rfl, rfl⟩ := List.cons.inj heq
    rw [htake]

/-- A character that is no backtick is kept. -/
lemma widenSpans_char (hc : c ≠ '`') (t : Text) : widenSpans (c :: t) = c :: widenSpans t := by
  rw [widenSpans, cutTicks_char hc]
  rfl

/-- From a run that is alone on, everything is left as it is. -/
lemma widenSpans_alone (hn : 0 < n) (hrest : rest.head? ≠ some '`') (hnone : ¬ HasRun n rest) :
    widenSpans (backticks n ++ rest) = backticks n ++ rest := by
  have hother := size_ne_of_mem_cutTicks hn hnone
  have htext := cutTicks_text (backticks n ++ rest)
  rw [cutTicks_run hn hrest] at htext
  rw [widenSpans, cutTicks_run hn hrest]
  exact (congrArg _ (widenRuns_alone hother)).trans htext

/-- A code span is written as it should be, and the scanner goes on behind it. -/
lemma widenSpans_span (hn : 0 < n) (hne : content ≠ []) (hhead : content.head? ≠ some '`')
    (hlast : content.getLast? ≠ some '`') (hnone : ¬ HasRun n content)
    (hrest : rest.head? ≠ some '`') :
    widenSpans (backticks n ++ (content ++ (backticks n ++ rest))) =
      spanText n content ++ widenSpans rest := by
  have hfirst : (content ++ (backticks n ++ rest)).head? ≠ some '`' := by
    rwa [List.head?_append_of_ne_nil _ hne]
  have hother := size_ne_of_mem_cutTicks hn hnone
  rw [widenSpans, cutTicks_run hn hfirst, cutTicks_append hn hlast hrest]
  dsimp only
  have hclosing : Ticks.size ⟨n, (cutTicks rest).1⟩ = Ticks.size ⟨n, (cutTicks content).1⟩ := rfl
  rw [List.nil_append, widenRuns_span hother hclosing, cutTicks_text, List.append_assoc]
  rfl

/-- A span is written as its piece is. -/
lemma spanText_eq (n : ℕ) (content : Text) : spanText n content = (Piece.span n content).written := by
  have hwide : (n = 1 && content.trim.any isBlank) = true ↔ (Piece.span n content).IsWide := by
    simp [Piece.IsWide]
  rw [spanText, Piece.written]
  by_cases h : (Piece.span n content).IsWide
  · rw [if_pos (hwide.mpr h), if_pos h]
    rfl
  · rw [if_neg (mt hwide.mp h), if_neg h]
    rfl

/-! ### The reading and the scanner -/

/-- The pieces of a text make it up. -/
lemma Reads.source_eq (h : Reads t ps) : ps.flatMap Piece.source = t := by
  induction h with
  | nil => rfl
  | char _ _ ih => exact congrArg _ ih
  | span _ _ _ _ _ _ _ ih =>
    rw [List.flatMap_cons, ih, Piece.source, List.append_assoc, List.append_assoc]
  | alone _ _ _ _ ih => exact congrArg _ ih

/-- The scanner writes what is read up to the first run that is alone, and copies the rest. -/
lemma Reads.widenSpans_eq (h : Reads t ps) :
    widenSpans t = (ps.takeWhile Piece.isClosed).flatMap Piece.written ++
      (ps.dropWhile Piece.isClosed).flatMap Piece.source := by
  induction h with
  | nil => simp [widenSpans, cutTicks, widenRuns]
  | char hc _ ih =>
    rw [widenSpans_char hc, ih]
    rfl
  | span hn hne hhead hlast hnone hrest _ ih =>
    rw [widenSpans_span hn hne hhead hlast hnone hrest, ih, spanText_eq, ← List.append_assoc]
    rfl
  | alone hn hrest hnone hreads =>
    rw [widenSpans_alone hn hrest hnone]
    exact congrArg _ hreads.source_eq.symm

/-- A piece is written in its own length, or in four characters more. -/
lemma Piece.length_written (p : Piece) :
    p.written.length = p.source.length + if p.IsWide then 4 else 0 := by
  cases p with
  | char c => rfl
  | alone n => rfl
  | span n content =>
    by_cases h : (Piece.span n content).IsWide
    · have hone : n = 1 := h.1
      rw [written, if_pos h, if_pos h, hone]
      simp only [source, backticks, List.length_append, List.length_replicate]
      omega
    · rw [written, if_neg h, if_neg h]
      rfl

/-- A piece that is no wide span is written as it was read. -/
lemma Piece.written_of_not_isWide {p : Piece} (h : ¬ p.IsWide) : p.written = p.source := by
  cases p with
  | char c => rfl
  | alone n => rfl
  | span n content =>
    rw [written, if_neg h]
    rfl

/-- Pieces are written as they were read exactly if none of them is a wide span. -/
lemma written_eq_source_iff (ps : List Piece) :
    ps.flatMap Piece.source = ps.flatMap Piece.written ↔ ∀ p ∈ ps, ¬ p.IsWide := by
  have hle : ∀ qs : List Piece,
      (qs.flatMap Piece.source).length ≤ (qs.flatMap Piece.written).length := by
    intro qs
    induction qs with
    | nil => exact le_rfl
    | cons p qs ih =>
      have hp := p.length_written
      simp only [List.flatMap_cons, List.length_append]
      omega
  constructor
  · intro h
    induction ps with
    | nil => simp
    | cons p ps ih =>
      have hp := p.length_written
      have hps := hle ps
      have hlength := congrArg List.length h
      simp only [List.flatMap_cons, List.length_append] at hlength
      by_cases hwide : p.IsWide
      · rw [if_pos hwide] at hp
        omega
      · rw [List.flatMap_cons, List.flatMap_cons, Piece.written_of_not_isWide hwide] at h
        exact List.forall_mem_cons.mpr ⟨hwide, ih (List.append_cancel_left h)⟩
  · intro h
    exact List.flatMap_congr fun p hp => (Piece.written_of_not_isWide (h p hp)).symm

/-- Every text is read in exactly one way.  The scanner writes the pieces in front of the first run
that is alone as they should be written, and copies what stands behind; so the text that it gives is
the written reading exactly if no wide span stands behind such a run. -/
theorem widenSpans_eq_written_iff (t : Text) :
    ∃ ps, Reads t ps ∧ (∀ qs, Reads t qs → qs = ps) ∧ ps.flatMap Piece.source = t ∧
      widenSpans t = (ps.takeWhile Piece.isClosed).flatMap Piece.written ++
        (ps.dropWhile Piece.isClosed).flatMap Piece.source ∧
      (widenSpans t = ps.flatMap Piece.written ↔
        ∀ p ∈ ps.dropWhile Piece.isClosed, ¬ p.IsWide) := by
  obtain ⟨ps, hps⟩ := exists_reads t
  refine ⟨ps, hps, fun qs hqs => hps.unique hqs, hps.source_eq, hps.widenSpans_eq, ?_⟩
  have hsplit : ps.flatMap Piece.written = (ps.takeWhile Piece.isClosed).flatMap Piece.written ++
      (ps.dropWhile Piece.isClosed).flatMap Piece.written := by
    rw [← List.flatMap_append, List.takeWhile_append_dropWhile]
  rw [hps.widenSpans_eq, hsplit, List.append_cancel_left_eq]
  exact written_eq_source_iff _

/-- Behind two backticks that nothing closes, a code span that holds a space is left as it is. -/
theorem widenSpans_behindLoneRun :
    ∃ ps, Reads "Use `` or `a b`." ps ∧ ps.flatMap Piece.written = "Use `` or ```a b```." ∧
      widenSpans "Use `` or `a b`." = "Use `` or `a b`." := by
  have halone : ¬ HasRun 2 " or `a b`." := by
    rw [hasRun_iff (by decide)]
    decide
  have hinside : ¬ HasRun 1 "a b" := by
    rw [hasRun_iff (by decide)]
    decide
  have hspan : Reads "`a b`." [.span 1 "a b", .char '.'] :=
    .span Nat.one_pos (by decide) (by decide) (by decide) hinside (by decide)
      (.char (by decide) .nil)
  have hbehind : Reads " or `a b`." (" or ".toList.map .char ++ [.span 1 "a b", .char '.']) :=
    .char (by decide) (.char (by decide) (.char (by decide) (.char (by decide) hspan)))
  have hhead : List.head? (" or `a b`." : Text) ≠ some '`' := by decide
  have hrun : Reads "`` or `a b`." (.alone 2 :: _) := .alone Nat.two_pos hhead halone hbehind
  have hreads : Reads "Use `` or `a b`." ("Use ".toList.map .char ++ .alone 2 :: _) :=
    .char (by decide) (.char (by decide) (.char (by decide) (.char (by decide) hrun)))
  exact ⟨_, hreads, by decide, by cbv⟩

end Prose

end Ambient

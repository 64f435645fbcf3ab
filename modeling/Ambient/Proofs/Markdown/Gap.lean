import Mathlib
import Ambient.Markdown.Basic

/-!
# Gaps between pieces of prose

A gap is a run of spaces, tabs and line feeds.  One that holds a line feed and stands between two
pieces of prose is a break, and each of its line feeds is written as a tag.

`Breaks` says what becomes of a text: characters are kept where no break begins, and breaks are
written as tags.  Going through a text character by character gives just that (`breaks_breakFrom`), so
what holds of the text that it gives is proved by induction on `Breaks`: the text is put together of
kept characters and breaks (`exists_madeExplicit`), and no break is left in it (`Breaks.settled`).
-/

namespace Ambient

namespace Markdown

/-! ### Breaks -/

/-- The characters of a gap. -/
def isGap (c : Char) : Bool :=
  c == ' ' || c == '\t' || c == '\n'

/-- Whether a character of prose may follow a line break. -/
def startsProse (c : Char) : Bool :=
  !(c == '<' || isBlank c)

/-- A gap that holds a line feed, between prose at the end of `front` and prose at the start of
`back`. -/
structure IsBreak (front gap back : Text) : Prop where
  blank : ∀ c ∈ gap, isGap c = true
  feed : '\n' ∈ gap
  before : ∃ c, front.getLast? = some c ∧ endsProse c = true
  behind : ∃ c, back.head? = some c ∧ startsProse c = true

/-- No break is left in a text. -/
def BreakFree (t : Text) : Prop :=
  ∀ front gap back, t = front ++ gap ++ back → ¬ IsBreak front gap back

/-- A break begins behind the character `before`. -/
def BreaksAt (before : Option Char) (t : Text) : Prop :=
  ∃ x gap c cs, before = some x ∧ endsProse x = true ∧ (∀ d ∈ gap, isGap d = true) ∧ '\n' ∈ gap ∧
    startsProse c = true ∧ t = gap ++ c :: cs

/-- The line feeds of a gap, each of them written as a tag. -/
def breakTags (gap : Text) : Text :=
  Text.repeated (gap.count '\n') "<br>"

/-- A text behind the character `before`, and what becomes of it. -/
inductive Breaks : Option Char → Text → Text → Prop
  | nil {before : Option Char} : Breaks before [] []
  | keep {before : Option Char} {c : Char} {s o : Text} :
      ¬ BreaksAt before (c :: s) → Breaks (some c) s o → Breaks before (c :: s) (c :: o)
  | gap {x y c : Char} {gap s o : Text} :
      endsProse x = true → (∀ d ∈ gap, isGap d = true) → '\n' ∈ gap → startsProse c = true →
      endsProse y = false → Breaks (some y) (c :: s) o →
      Breaks (some x) (gap ++ c :: s) (breakTags gap ++ o)

variable {before : Option Char} {c x y : Char} {gap s o t front back : Text}

lemma isBlank_of_isGap (h : isGap c = true) : isBlank c = true := by
  simp only [isGap, Bool.or_eq_true, beq_iff_eq] at h
  rcases h with (rfl | rfl) | rfl <;> decide

lemma endsProse_of_isGap (h : isGap c = true) : endsProse c = false := by
  simp [endsProse, isBlank_of_isGap h]

lemma isGap_of_startsProse (h : startsProse c = true) : isGap c = false := by
  by_contra hgap
  rw [Bool.not_eq_false] at hgap
  simp [startsProse, isBlank_of_isGap hgap] at h

/-- A break begins with a character of a gap. -/
lemma isGap_of_breaksAt (h : BreaksAt before (c :: t)) : isGap c = true := by
  obtain ⟨x, gap, d, s, -, -, hgap, hfeed, -, heq⟩ := h
  cases gap with
  | nil => cases hfeed
  | cons e gap =>
    obtain ⟨rfl, -⟩ := List.cons.inj heq
    exact hgap c List.mem_cons_self

/-- No break begins at the start of a text. -/
lemma not_breaksAt_none (t : Text) : ¬ BreaksAt none t := by
  rintro ⟨x, gap, c, s, hbefore, -⟩
  cases hbefore

/-- No break begins behind a character that does not end prose. -/
lemma not_breaksAt_of_endsProse (h : endsProse y = false) (t : Text) : ¬ BreaksAt (some y) t := by
  rintro ⟨x, gap, c, s, hbefore, hx, -⟩
  obtain rfl := Option.some.inj hbefore
  rw [h] at hx
  cases hx

/-! ### Going through a text -/

/-- A gap goes on up to the character behind it. -/
lemma takeWhile_isGap (hgap : ∀ d ∈ gap, isGap d = true) (hc : isGap c = false) (s : Text) :
    (gap ++ c :: s).takeWhile isGap = gap ∧ (gap ++ c :: s).dropWhile isGap = c :: s := by
  rw [List.takeWhile_append_of_pos hgap, List.dropWhile_append_of_pos hgap,
    List.takeWhile_cons_of_neg (by simp [hc]), List.dropWhile_cons_of_neg (by simp [hc])]
  exact ⟨List.append_nil gap, rfl⟩

/-- A run of line feeds is found behind a gap, if prose follows it. -/
lemma feedRun?_eq (t : Text) :
    feedRun? t =
      match t.dropWhile isGap with
      | [] => none
      | c :: rest =>
        if (t.takeWhile isGap).count '\n' = 0 || c = '<' || isBlank c then none
        else some ((t.takeWhile isGap).count '\n', c :: rest) :=
  rfl

/-- A gap with a line feed in front of prose is a run of its line feeds. -/
lemma feedRun?_break (hgap : ∀ d ∈ gap, isGap d = true) (hfeed : '\n' ∈ gap)
    (hc : startsProse c = true) (s : Text) :
    feedRun? (gap ++ c :: s) = some (gap.count '\n', c :: s) := by
  obtain ⟨htake, hdrop⟩ := takeWhile_isGap hgap (isGap_of_startsProse hc) s
  have hcount : gap.count '\n' ≠ 0 := (List.count_pos_iff.mpr hfeed).ne'
  rw [feedRun?_eq, htake, hdrop]
  simp only [startsProse, Bool.not_eq_true', Bool.or_eq_false_iff, beq_eq_false_iff_ne] at hc
  simp [hcount, hc.1, hc.2]

/-- A run of line feeds that is found is a break if prose stands in front of it. -/
lemma exists_of_feedRun? {count : ℕ} {rest : Text} (h : feedRun? t = some (count, rest)) :
    ∃ gap c s, t = gap ++ c :: s ∧ (∀ d ∈ gap, isGap d = true) ∧ '\n' ∈ gap ∧
      startsProse c = true ∧ count = gap.count '\n' ∧ rest = c :: s := by
  rw [feedRun?_eq] at h
  split at h
  · cases h
  · next c s hdrop =>
    split_ifs at h with hnone
    · obtain ⟨rfl, rfl⟩ := Prod.mk.inj (Option.some.inj h)
      simp only [Bool.or_eq_true, decide_eq_true_eq, not_or, Bool.not_eq_true] at hnone
      refine ⟨t.takeWhile isGap, c, s, ?_, ?_, ?_, ?_, rfl, rfl⟩
      · rw [← hdrop, List.takeWhile_append_dropWhile]
      · exact fun d hd => List.mem_takeWhile_imp hd
      · exact List.count_pos_iff.mp (Nat.pos_of_ne_zero hnone.1.1)
      · simp [startsProse, hnone.1.2, hnone.2]

/-- A break begins just where prose ends in front of a run of line feeds. -/
lemma breaksAt_iff : BreaksAt (some x) t ↔ endsProse x = true ∧ (feedRun? t).isSome := by
  constructor
  · rintro ⟨x', gap, c, s, hx', hx, hgap, hfeed, hc, rfl⟩
    obtain rfl := Option.some.inj hx'
    rw [feedRun?_break hgap hfeed hc]
    exact ⟨hx, rfl⟩
  · rintro ⟨hx, hrun⟩
    obtain ⟨⟨count, rest⟩, hrun⟩ := Option.isSome_iff_exists.mp hrun
    obtain ⟨gap, c, s, rfl, hgap, hfeed, hc, -⟩ := exists_of_feedRun? hrun
    exact ⟨x, gap, c, s, rfl, hx, hgap, hfeed, hc, rfl⟩

/-- The character in front of what follows a text that begins with `c`. -/
lemma getLast?_cons_or (before : Option Char) (c : Char) (t : Text) :
    (c :: t).getLast?.or before = t.getLast?.or (some c) := by
  cases t with
  | nil => rfl
  | cons d t =>
    rw [List.getLast?_cons_cons, List.getLast?_eq_some_getLast (List.cons_ne_nil d t)]
    rfl

/-- Within a gap that was written as tags nothing is left to do. -/
lemma breakFrom_skip (before : Option Char) (gap t : Text) :
    breakFrom before gap.length (gap ++ t) = breakFrom (gap.getLast?.or before) 0 t := by
  induction gap generalizing before with
  | nil => rfl
  | cons d gap ih => rw [List.length_cons, List.cons_append, breakFrom, ih, getLast?_cons_or]

/-- A character at which no break begins is kept. -/
lemma breakFrom_keep (h : ¬ BreaksAt before (c :: s)) :
    breakFrom before 0 (c :: s) = c :: breakFrom (some c) 0 s := by
  have hnone : (if before.elim false endsProse then feedRun? (c :: s) else none) = none := by
    cases before with
    | none => rfl
    | some x =>
      rw [breaksAt_iff, not_and, Option.not_isSome_iff_eq_none] at h
      split_ifs with hx
      · exact h hx
      · rfl
  rw [breakFrom, hnone]

/-- A break is written as tags, and what follows it is gone on with. -/
lemma breakFrom_break (hx : endsProse x = true) (hgap : ∀ d ∈ gap, isGap d = true)
    (hfeed : '\n' ∈ gap) (hc : startsProse c = true) (s : Text) :
    breakFrom (some x) 0 (gap ++ c :: s) = breakTags gap ++ breakFrom gap.getLast? 0 (c :: s) := by
  have hrun := feedRun?_break hgap hfeed hc s
  obtain ⟨d, gap, rfl⟩ := List.exists_cons_of_ne_nil (List.ne_nil_of_mem hfeed)
  have hlength : (d :: (gap ++ c :: s)).length - (c :: s).length - 1 = gap.length := by
    simp only [List.length_cons, List.length_append]
    omega
  have hlast : (d :: gap).getLast? = gap.getLast?.or (some d) := by
    rw [← getLast?_cons_or none, Option.or_none]
  rw [List.cons_append] at hrun ⊢
  rw [breakFrom, Option.elim_some, if_pos hx, hrun, hlast, ← breakFrom_skip]
  dsimp only
  rw [hlength]
  rfl

/-- Going through a text keeps it but for its breaks. -/
lemma breaks_breakFrom (before : Option Char) (t : Text) : Breaks before t (breakFrom before 0 t) := by
  induction hlength : t.length using Nat.strong_induction_on generalizing before t with
  | _ n ih =>
    subst hlength
    by_cases hbreak : BreaksAt before t
    · obtain ⟨x, gap, c, s, rfl, hx, hgap, hfeed, hc, rfl⟩ := hbreak
      obtain ⟨y, hy⟩ : ∃ y, gap.getLast? = some y :=
        ⟨_, List.getLast?_eq_some_getLast (List.ne_nil_of_mem hfeed)⟩
      have hpos : 0 < gap.length := List.length_pos_of_mem hfeed
      rw [breakFrom_break hx hgap hfeed hc, hy]
      refine .gap hx hgap hfeed hc (endsProse_of_isGap (hgap y (List.mem_of_getLast? hy))) ?_
      exact ih _ (by simp only [List.length_append]; omega) (some y) (c :: s) rfl
    · cases t with
      | nil => exact .nil
      | cons c s =>
        rw [breakFrom_keep hbreak]
        exact .keep hbreak (ih _ (by simp) (some c) s rfl)

/-! ### What becomes of a text -/

/-- Behind what is no prose the next character is kept. -/
lemma Breaks.of_not_endsProse (hy : endsProse y = false) (h : Breaks (some y) (c :: s) t) :
    ∃ o, t = c :: o ∧ Breaks (some c) s o := by
  generalize hu : c :: s = u at h
  cases h with
  | nil => cases hu
  | keep _ hrest =>
    obtain ⟨rfl, rfl⟩ := List.cons.inj hu
    exact ⟨_, rfl, hrest⟩
  | gap hx =>
    rw [hy] at hx
    cases hx

/-- A gap behind what is no prose is kept with the character that follows it. -/
lemma Breaks.exists_of_gap (hy : endsProse y = false) (hgap : ∀ d ∈ gap, isGap d = true)
    (h : Breaks (some y) s (gap ++ c :: t)) : ∃ u, s = gap ++ c :: u := by
  induction gap generalizing y s with
  | nil =>
    generalize ho : [] ++ c :: t = o at h
    cases h with
    | nil => cases ho
    | keep =>
      obtain ⟨rfl, -⟩ := List.cons.inj ho
      exact ⟨_, rfl⟩
    | gap hx =>
      rw [hy] at hx
      cases hx
  | cons d gap ih =>
    obtain ⟨hd, hgap⟩ := List.forall_mem_cons.mp hgap
    generalize ho : d :: gap ++ c :: t = o at h
    cases h with
    | nil => cases ho
    | keep _ hrest =>
      obtain ⟨rfl, rfl⟩ := List.cons.inj ho
      obtain ⟨u, rfl⟩ := ih (endsProse_of_isGap hd) hgap hrest
      exact ⟨u, rfl⟩
    | gap hx =>
      rw [hy] at hx
      cases hx

/-- No break begins anywhere in a text behind the character `before`. -/
def Settled (before : Option Char) : Text → Prop
  | [] => True
  | c :: t => ¬ BreaksAt before (c :: t) ∧ Settled (some c) t

/-- A text is settled just if no break begins at any place in it. -/
lemma settled_iff (before : Option Char) (t : Text) :
    Settled before t ↔
      ∀ front back, t = front ++ back → ¬ BreaksAt (front.getLast?.or before) back := by
  induction t generalizing before with
  | nil =>
    refine ⟨fun _ front back heq hbreak => ?_, fun _ => trivial⟩
    obtain ⟨-, rfl⟩ := List.append_eq_nil_iff.mp heq.symm
    obtain ⟨_, gap, c, s, _, _, _, _, _, hnil⟩ := hbreak
    simp at hnil
  | cons c t ih =>
    rw [Settled, ih]
    constructor
    · rintro ⟨hhere, hrest⟩ front back heq
      cases front with
      | nil =>
        rw [List.nil_append] at heq
        rw [← heq]
        exact hhere
      | cons d front =>
        obtain ⟨rfl, htail⟩ := List.cons.inj heq
        rw [getLast?_cons_or]
        exact hrest front back htail
    · intro h
      refine ⟨h [] (c :: t) rfl, fun front back heq => ?_⟩
      rw [← getLast?_cons_or before]
      exact h (c :: front) back (by rw [heq, List.cons_append])

/-- A text is free of breaks just if it is settled by itself. -/
lemma breakFree_iff : BreakFree t ↔ Settled none t := by
  rw [settled_iff]
  constructor
  · rintro h front back rfl ⟨x, gap, c, s, hx, hprose, hgap, hfeed, hc, rfl⟩
    rw [Option.or_none] at hx
    exact h front gap (c :: s) (List.append_assoc ..).symm ⟨hgap, hfeed, ⟨x, hx, hprose⟩, ⟨c, rfl, hc⟩⟩
  · rintro h front gap back rfl ⟨hgap, hfeed, ⟨x, hx, hprose⟩, ⟨c, hc, hstart⟩⟩
    obtain ⟨s, rfl⟩ := List.head?_eq_some_iff.mp hc
    apply h front (gap ++ c :: s) (List.append_assoc ..)
    exact ⟨x, gap, c, s, by rw [hx, Option.or_none], hprose, hgap, hfeed, hstart, rfl⟩

/-- A text in which no break begins stays as it is. -/
lemma Breaks.eq_of_settled (h : Breaks before s o) (hs : Settled before s) : o = s := by
  induction h with
  | nil => rfl
  | keep _ _ ih => rw [ih hs.2]
  | @gap x y c gap s o hx hgap hfeed hc =>
    exfalso
    obtain ⟨d, gap, rfl⟩ := List.exists_cons_of_ne_nil (List.ne_nil_of_mem hfeed)
    exact hs.1 ⟨x, d :: gap, c, s, rfl, hx, hgap, hfeed, hc, rfl⟩

/-- The tags of breaks bring in no break. -/
lemma settled_breakTags (h : ∀ before, Settled before o) (gap : Text) :
    ∀ before, Settled before (breakTags gap ++ o) := by
  have hno : ∀ before c t, isGap c = false → ¬ BreaksAt before (c :: t) := by
    intro before c t hc hbreak
    rw [isGap_of_breaksAt hbreak] at hc
    cases hc
  unfold breakTags
  induction gap.count '\n' with
  | zero => exact h
  | succ n ih =>
    intro before
    refine ⟨hno _ _ _ (by decide), hno _ _ _ (by decide), hno _ _ _ (by decide),
      hno _ _ _ (by decide), ?_⟩
    exact ih _

/-- No break is left in what becomes of a text. -/
lemma Breaks.settled (h : Breaks before s o) : Settled before o := by
  induction h with
  | nil => trivial
  | keep hno hrest ih =>
    refine ⟨fun hbreak => hno ?_, ih⟩
    -- a break in the text that is given would be one in the text it comes from
    obtain ⟨x, gap, d, u, rfl, hx, hgap, hfeed, hd, heq⟩ := hbreak
    cases gap with
    | nil => cases hfeed
    | cons e gap =>
      obtain ⟨rfl, rfl⟩ := List.cons.inj heq
      obtain ⟨hc, hgap'⟩ := List.forall_mem_cons.mp hgap
      obtain ⟨v, rfl⟩ := hrest.exists_of_gap (endsProse_of_isGap hc) hgap'
      exact ⟨x, _, d, v, rfl, hx, hgap, hfeed, hd, rfl⟩
  | gap _ _ _ hc hy hrest ih =>
    obtain ⟨o, rfl, -⟩ := hrest.of_not_endsProse hy
    refine settled_breakTags (o := _ :: o) (fun before => ⟨fun hbreak => ?_, ih.2⟩) _ _
    have hgap := isGap_of_breaksAt hbreak
    rw [isGap_of_startsProse hc] at hgap
    cases hgap

/-! ### The parts of a text -/

/-- A part of a text: a character that is kept, or a gap that is written as tags. -/
inductive Part
  | kept (c : Char)
  | gap (t : Text)

namespace Part

/-- The text of a part. -/
def source : Part → Text
  | .kept c => [c]
  | .gap t => t

/-- What is kept of a part. -/
def keptText : Part → Text
  | .kept c => [c]
  | .gap _ => []

/-- The number of tags that a part is written as. -/
def tagCount : Part → ℕ
  | .kept _ => 0
  | .gap t => t.count '\n'

/-- A part with its line feeds written as tags. -/
def written : Part → Text
  | .kept c => [c]
  | .gap t => Text.repeated (t.count '\n') "<br>"

end Part

/-- A text and what becomes of it, by their parts: every gap that is written as tags is a break, all
characters but white space are kept, and there are as many tags as line feeds that are gone. -/
structure MadeExplicit (s o : Text) (ps : List Part) : Prop where
  source : ps.flatMap Part.source = s
  written : ps.flatMap Part.written = o
  breaks : ∀ front gap back, ps = front ++ .gap gap :: back →
    IsBreak (front.flatMap Part.source) gap (back.flatMap Part.source)
  prose : (ps.flatMap Part.keptText).filter (fun c => !isBlank c) = s.filter (fun c => !isBlank c)
  feeds : s.count '\n' = o.count '\n' + (ps.map Part.tagCount).sum

/-- A break stays one when text stands in front of it. -/
lemma IsBreak.prepend (h : IsBreak front gap back) (t : Text) : IsBreak (t ++ front) gap back := by
  obtain ⟨x, hx, hprose⟩ := h.before
  have hne : front ≠ [] := by
    rintro rfl
    cases hx
  refine ⟨h.blank, h.feed, ⟨x, ?_, hprose⟩, h.behind⟩
  rw [List.getLast?_append_of_ne_nil _ hne]
  exact hx

/-- What stands in front of a break and is no prose does not matter. -/
lemma IsBreak.tail (hy : endsProse y = false) (h : IsBreak (y :: front) gap back) :
    IsBreak front gap back := by
  obtain ⟨x, hx, hprose⟩ := h.before
  refine ⟨h.blank, h.feed, ⟨x, ?_, hprose⟩, h.behind⟩
  cases front with
  | nil =>
    have hxy : y = x := Option.some.inj hx
    rw [← hxy, hy] at hprose
    cases hprose
  | cons d front => rwa [List.getLast?_cons_cons] at hx

/-- What becomes of a text is made of its parts, where every gap is a break. -/
lemma Breaks.exists_parts (h : Breaks before s o) :
    ∃ ps : List Part, ps.flatMap Part.source = s ∧ ps.flatMap Part.written = o ∧
      ∀ front gap back, ps = front ++ .gap gap :: back →
        IsBreak (before.toList ++ front.flatMap Part.source) gap (back.flatMap Part.source) := by
  induction h with
  | nil => exact ⟨[], rfl, rfl, by simp⟩
  | @keep before c s o _ _ ih =>
    obtain ⟨ps, rfl, rfl, hps⟩ := ih
    refine ⟨.kept c :: ps, rfl, rfl, fun front gap back heq => ?_⟩
    cases front with
    | nil => cases heq
    | cons p front =>
      obtain ⟨rfl, htail⟩ := List.cons.inj heq
      exact (hps front gap back htail).prepend before.toList
  | @gap x y c gap s o hx hgap hfeed hc hy _ ih =>
    obtain ⟨ps, hsource, rfl, hps⟩ := ih
    refine ⟨.gap gap :: ps, congrArg (gap ++ ·) hsource, rfl, fun front gap' back heq => ?_⟩
    cases front with
    | nil =>
      obtain ⟨hhere, rfl⟩ := List.cons.inj heq
      obtain rfl := Part.gap.inj hhere
      rw [hsource]
      exact ⟨hgap, hfeed, ⟨x, rfl, hx⟩, ⟨c, rfl, hc⟩⟩
    | cons p front =>
      obtain ⟨rfl, htail⟩ := List.cons.inj heq
      have hrest := (hps front gap' back htail).tail hy
      have htext : (some x).toList ++ (Part.gap gap :: front).flatMap Part.source =
          x :: gap ++ front.flatMap Part.source := rfl
      rw [htext]
      exact hrest.prepend (x :: gap)

lemma count_breakTags (n : ℕ) : (Text.repeated n "<br>").count '\n' = 0 := by
  induction n with
  | zero => rfl
  | succ n ih =>
    have hsucc : Text.repeated (n + 1) "<br>" = "<br>" ++ Text.repeated n "<br>" := rfl
    rw [hsucc, List.count_append, ih]
    rfl

/-- Going through a text makes its breaks explicit. -/
lemma exists_madeExplicit (s : Text) : ∃ ps, MadeExplicit s (breakFrom none 0 s) ps := by
  obtain ⟨ps, hsource, hwritten, hbreaks⟩ := (breaks_breakFrom none s).exists_parts
  have hgap : ∀ t, .gap t ∈ ps → ∀ c ∈ t, isGap c = true := by
    intro t ht
    obtain ⟨front, back, heq⟩ := List.append_of_mem ht
    exact (hbreaks front t back heq).blank
  refine ⟨ps, hsource, hwritten, hbreaks, ?_, ?_⟩
  · rw [← hsource, List.filter_flatMap, List.filter_flatMap]
    refine List.flatMap_congr fun p hp => ?_
    cases p with
    | kept c => rfl
    | gap t =>
      refine (List.filter_eq_nil_iff.mpr fun c hc => ?_).symm
      simp [isBlank_of_isGap (hgap t hp c hc)]
  · rw [← hwritten, ← hsource]
    clear hsource hwritten hbreaks hgap
    induction ps with
    | nil => rfl
    | cons p ps ih =>
      have hp : p.source.count '\n' = p.written.count '\n' + p.tagCount := by
        cases p with
        | kept c => rfl
        | gap t =>
          rw [Part.written, count_breakTags, Nat.zero_add]
          rfl
      simp only [List.flatMap_cons, List.count_append, List.map_cons, List.sum_cons]
      omega

end Markdown

end Ambient

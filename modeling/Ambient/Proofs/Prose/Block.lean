import Mathlib
import Ambient.Prose.Block
import Ambient.Proofs.Text.Lines
import Ambient.Proofs.Text.Trim

/-!
# How lines fall into blocks

`Cuts` says which blocks some lines fall into: blank lines between blocks belong to none of them, a
paragraph goes on up to a blank line or a fence, and fenced code goes up to the next fence or to the end.
Cutting line by line gives such blocks (`exists_cuts_goOn`), and the only ones there are
(`Cuts.goOn_eq`), so what holds of the blocks of a text is proved by induction on `Cuts`, and blocks
that are put together and cut again are the same blocks because their lines fall into them
(`Cuts.join`).

Putting lines together and cutting the text into lines gives them back unless the last one is empty,
and that happens only in code whose fence is left open.
-/

namespace Ambient

namespace Prose

variable {l : Text}

lemma isFence_of_blank (h : l.blank = true) : isFence l = false := by
  have hall : l.dropWhile isBlank = [] :=
    List.dropWhile_eq_nil_iff.mpr (List.all_eq_true.mp h)
  rw [isFence, Text.trim_eq, hall]
  rfl

lemma ne_nil_of_isFence (h : isFence l = true) : l ≠ [] := by
  rintro rfl
  exact absurd h (by decide)

namespace Block

/-! ### Lines and blocks -/

/-- A line of a paragraph or a list. -/
def IsProseLine (l : Text) : Prop :=
  l.blank = false ∧ isFence l = false

/-- Lines and the blocks that they fall into; `isOpen` says whether the last block is code whose fence
is left open. -/
inductive Cuts : Bool → List Text → List Block → Prop
  | nil : Cuts false [] []
  | blank {isOpen : Bool} {l : Text} {ls : List Text} {bs : List Block} :
      l.blank = true → Cuts isOpen ls bs → Cuts isOpen (l :: ls) bs
  | prose {isOpen : Bool} {para ls : List Text} {bs : List Block} :
      para ≠ [] → (∀ l ∈ para, IsProseLine l) → (∀ l ∈ ls.head?, ¬ IsProseLine l) →
      Cuts isOpen ls bs → Cuts isOpen (para ++ ls) (⟨Text.unlines para, false⟩ :: bs)
  | closed {isOpen : Bool} {opening closing : Text} {inner ls : List Text} {bs : List Block} :
      isFence opening = true → (∀ l ∈ inner, isFence l = false) → isFence closing = true →
      Cuts isOpen ls bs →
      Cuts isOpen (opening :: inner ++ closing :: ls)
        (⟨Text.unlines (opening :: inner ++ [closing]), true⟩ :: bs)
  | opened {opening : Text} {inner : List Text} :
      isFence opening = true → (∀ l ∈ inner, isFence l = false) →
      Cuts true (opening :: inner) [⟨Text.unlines (opening :: inner), true⟩]

/-- The lines of a block that is begun: those of a paragraph, or a fence and the code behind it. -/
inductive Begun : Bool → List Text → Prop
  | prose {current : List Text} : (∀ l ∈ current, IsProseLine l) → Begun false current
  | code {opening : Text} {inner : List Text} :
      isFence opening = true → (∀ l ∈ inner, isFence l = false) → Begun true (opening :: inner)

/-- The lines without the blank ones outside fenced code; `isCode` says whether the first line stands
in such code. -/
def contentLines (isCode : Bool) : List Text → List Text
  | [] => []
  | l :: ls =>
    if isFence l then l :: contentLines (!isCode) ls
    else if !isCode && l.blank then contentLines isCode ls
    else l :: contentLines isCode ls

/-- A block of code, given its lines: a fence, the code, and another fence unless the first one is left
open. -/
structure Fenced (b : Block) (opening : Text) (inner : List Text) (closing : Option Text) : Prop where
  lines : b.text.lines = opening :: inner ++ closing.toList
  opens : isFence opening = true
  holds : ∀ l ∈ inner, isFence l = false
  closes : ∀ l ∈ closing, isFence l = true
  code : b.code = Text.unlines inner

/-- Lines that are read back from a text of blocks: they are lines, and code whose fence is left open
does not end in an empty one. -/
structure Readable (isOpen : Bool) (ls : List Text) : Prop where
  lines : ∀ l ∈ ls, ∀ c ∈ l, isLineBreak c = false
  last : isOpen = true → ls.getLast? ≠ some []

variable {isCode isOpen : Bool} {t opening closing : Text} {b : Block} {bs front back : List Block}
  {ls ls' current para inner : List Text}

/-! ### Cutting line by line -/

lemma ofLines_nil (isCode : Bool) : ofLines isCode [] = [] :=
  rfl

lemma ofLines_of_ne_nil (h : ls ≠ []) : ofLines isCode ls = [⟨Text.unlines ls, isCode⟩] := by
  rw [ofLines, if_neg (by simpa using h)]

/-- A fence ends the paragraph in front of it and opens code. -/
lemma goOn_opening (h : isFence l = true) :
    goOn false current (l :: ls) = ofLines false current ++ goOn true [l] ls := by
  rw [goOn, if_pos h]
  rfl

/-- A fence in code ends it. -/
lemma goOn_closing (h : isFence l = true) :
    goOn true current (l :: ls) = ofLines true (current ++ [l]) ++ goOn false [] ls := by
  rw [goOn, if_pos h]
  rfl

/-- A blank line ends the paragraph in front of it. -/
lemma goOn_blank (h : l.blank = true) :
    goOn false current (l :: ls) = ofLines false current ++ goOn false [] ls := by
  rw [goOn, if_neg (by simp [isFence_of_blank h]), if_pos (by simp [h])]

/-- Every other line goes on with its block. -/
lemma goOn_line (hfence : isFence l = false) (hblank : isCode = false → l.blank = false) :
    goOn isCode current (l :: ls) = goOn isCode (current ++ [l]) ls := by
  rw [goOn, if_neg (by simp [hfence]), if_neg]
  cases isCode with
  | true => simp
  | false => simp [hblank rfl]

lemma begun_nil : Begun false [] :=
  .prose (by simp)

lemma begun_fence (h : isFence l = true) : Begun true [l] :=
  .code h (by simp)

/-- The lines of a paragraph that is begun end in front of what is none. -/
lemma Cuts.flush (hcurrent : ∀ l ∈ current, IsProseLine l) (hend : ∀ l ∈ ls.head?, ¬ IsProseLine l)
    (h : Cuts isOpen ls bs) : Cuts isOpen (current ++ ls) (ofLines false current ++ bs) := by
  by_cases hnil : current = []
  · subst hnil
    exact h
  · rw [ofLines_of_ne_nil hnil]
    exact .prose hnil hcurrent hend h

/-- Cutting line by line gives blocks that the lines fall into. -/
lemma exists_cuts_goOn (h : Begun isCode current) (ls : List Text) :
    ∃ isOpen, Cuts isOpen (current ++ ls) (goOn isCode current ls) := by
  -- `current` holds the lines of the block that is begun
  induction ls generalizing isCode current with
  | nil =>
    cases h with
    | prose hcurrent =>
      refine ⟨false, ?_⟩
      simpa [goOn] using Cuts.flush hcurrent (by simp) .nil
    | code hopening hinner =>
      refine ⟨true, ?_⟩
      rw [List.append_nil, goOn, ofLines_of_ne_nil (List.cons_ne_nil _ _)]
      exact .opened hopening hinner
  | cons l ls ih =>
    cases hfence : isFence l with
    | true =>
      cases h with
      | prose hcurrent =>
        obtain ⟨isOpen, hcuts⟩ := ih (begun_fence hfence)
        refine ⟨isOpen, ?_⟩
        rw [goOn_opening hfence]
        refine Cuts.flush hcurrent ?_ hcuts
        simp [IsProseLine, hfence]
      | code hopening hinner =>
        obtain ⟨isOpen, hcuts⟩ := ih begun_nil
        refine ⟨isOpen, ?_⟩
        rw [goOn_closing hfence, ofLines_of_ne_nil (by simp)]
        exact .closed hopening hinner hfence hcuts
    | false =>
      cases h with
      | prose hcurrent =>
        cases hblank : l.blank with
        | true =>
          obtain ⟨isOpen, hcuts⟩ := ih begun_nil
          refine ⟨isOpen, ?_⟩
          rw [goOn_blank hblank]
          refine Cuts.flush hcurrent ?_ (.blank hblank hcuts)
          simp [IsProseLine, hblank]
        | false =>
          have hline : ∀ k ∈ current ++ [l], IsProseLine k :=
            List.forall_mem_append.mpr ⟨hcurrent, by simpa using ⟨hblank, hfence⟩⟩
          obtain ⟨isOpen, hcuts⟩ := ih (.prose hline)
          refine ⟨isOpen, ?_⟩
          rw [goOn_line hfence fun _ => hblank]
          simpa using hcuts
      | code hopening hinner =>
        rename_i opening inner
        have hline : ∀ k ∈ inner ++ [l], isFence k = false :=
          List.forall_mem_append.mpr ⟨hinner, by simpa using hfence⟩
        obtain ⟨isOpen, hcuts⟩ := ih (.code hopening hline)
        refine ⟨isOpen, ?_⟩
        rw [goOn_line hfence (by simp)]
        simpa using hcuts

/-- Lines that end no block are taken over into it. -/
lemma goOn_append (isCode : Bool) (hpara : ∀ l ∈ para, isFence l = false)
    (hblank : isCode = false → ∀ l ∈ para, l.blank = false) (current ls : List Text) :
    goOn isCode current (para ++ ls) = goOn isCode (current ++ para) ls := by
  induction para generalizing current with
  | nil => rw [List.append_nil, List.nil_append]
  | cons l para ih =>
    obtain ⟨hl, hpara⟩ := List.forall_mem_cons.mp hpara
    have hline : isCode = false → l.blank = false := fun hcode =>
      hblank hcode l List.mem_cons_self
    have hrest : isCode = false → ∀ k ∈ para, k.blank = false := fun hcode k hk =>
      hblank hcode k (List.mem_cons_of_mem l hk)
    rw [List.cons_append, goOn_line hl hline, ih hpara hrest, List.append_assoc]
    rfl

/-- A line that belongs to no paragraph ends the one that is begun. -/
lemma goOn_flush (hend : ∀ l ∈ ls.head?, ¬ IsProseLine l) (current : List Text) :
    goOn false current ls = ofLines false current ++ goOn false [] ls := by
  cases ls with
  | nil => simp [goOn, ofLines_nil]
  | cons l ls =>
    have hl : ¬ IsProseLine l := hend l rfl
    cases hfence : isFence l with
    | true => simp [goOn_opening hfence, ofLines_nil]
    | false =>
      have hblank : l.blank = true := by
        by_contra hno
        exact hl ⟨by simpa using hno, hfence⟩
      simp [goOn_blank hblank, ofLines_nil]

/-- Lines fall into one list of blocks only. -/
lemma Cuts.goOn_eq (h : Cuts isOpen ls bs) : goOn false [] ls = bs := by
  induction h with
  | nil => rfl
  | blank hblank _ ih => rw [goOn_blank hblank, ih, ofLines_nil, List.nil_append]
  | prose hne hpara hend _ ih =>
    rw [goOn_append false (fun l hl => (hpara l hl).2) (fun _ l hl => (hpara l hl).1),
      goOn_flush hend, ih, List.nil_append, ofLines_of_ne_nil hne]
    rfl
  | @closed _ opening _ inner _ _ hopening hinner hclosing _ ih =>
    rw [List.cons_append, goOn_opening hopening, goOn_append true hinner (by simp),
      goOn_closing hclosing, ih, ofLines_nil, List.nil_append, ofLines_of_ne_nil (by simp)]
    rfl
  | @opened opening inner hopening hinner =>
    have happend := goOn_append true hinner (by simp) [opening] []
    rw [List.append_nil] at happend
    rw [goOn_opening hopening, happend, goOn, ofLines_nil, List.nil_append,
      ofLines_of_ne_nil (by simp)]
    rfl

/-- A fence is left open exactly if the number of fences is odd. -/
lemma Cuts.isOpen_iff (h : Cuts isOpen ls bs) : isOpen = true ↔ Odd (ls.countP isFence) := by
  have hnone : ∀ {ks : List Text}, (∀ l ∈ ks, isFence l = false) → ks.countP isFence = 0 := by
    intro ks hks
    exact List.countP_eq_zero.mpr fun l hl => by simp [hks l hl]
  induction h with
  | nil => simp
  | blank hblank _ ih => rwa [List.countP_cons_of_neg (by simp [isFence_of_blank hblank])]
  | prose _ hpara _ _ ih => rwa [List.countP_append, hnone fun l hl => (hpara l hl).2, Nat.zero_add]
  | closed hopening hinner hclosing _ ih =>
    refine ih.trans ?_
    rw [List.cons_append, List.countP_cons_of_pos hopening, List.countP_append, hnone hinner,
      List.countP_cons_of_pos hclosing]
    simp [Nat.odd_add_one]
  | opened hopening hinner => simp [List.countP_cons_of_pos hopening, hnone hinner]

lemma Cuts.isOpen_of_nil (h : Cuts isOpen ls []) : isOpen = false := by
  generalize hbs : ([] : List Block) = bs at h
  induction h with
  | nil => rfl
  | blank _ _ ih => exact ih hbs
  | _ => cases hbs

/-! ### The lines of blocks -/

/-- What is readable from a line on is readable from every later one. -/
lemma Readable.of_isSuffix (h : Readable isOpen ls) (hls : ls' <:+ ls) : Readable isOpen ls' := by
  refine ⟨fun l hl => h.lines l (hls.subset hl), fun hopen hlast => h.last hopen ?_⟩
  obtain ⟨front, rfl⟩ := hls
  rw [List.getLast?_append, hlast]
  rfl

/-- The lines of a paragraph are read back. -/
lemma lines_prose (hls : ∀ l ∈ para, ∀ c ∈ l, isLineBreak c = false)
    (hpara : ∀ l ∈ para, IsProseLine l) : Text.lines (Text.unlines para) = para := by
  refine Text.lines_unlines (fun hlast => ?_) hls
  exact absurd (hpara [] (List.mem_of_getLast? hlast)).1 (by decide)

/-- The lines of closed code are read back. -/
lemma lines_closed (hls : ∀ l ∈ opening :: inner ++ [closing], ∀ c ∈ l, isLineBreak c = false)
    (hclosing : isFence closing = true) :
    Text.lines (Text.unlines (opening :: inner ++ [closing])) = opening :: inner ++ [closing] := by
  refine Text.lines_unlines (fun hlast => ne_nil_of_isFence hclosing ?_) hls
  rw [List.getLast?_concat] at hlast
  exact Option.some.inj hlast

/-- A fence is kept, and changes whether code follows. -/
lemma contentLines_fence (h : isFence l = true) (isCode : Bool) (ls : List Text) :
    contentLines isCode (l :: ls) = l :: contentLines (!isCode) ls := by
  rw [contentLines, if_pos h]

/-- The lines of a paragraph or of code are kept. -/
lemma contentLines_append (isCode : Bool) (hpara : ∀ l ∈ para, isFence l = false)
    (hblank : isCode = false → ∀ l ∈ para, l.blank = false) (ls : List Text) :
    contentLines isCode (para ++ ls) = para ++ contentLines isCode ls := by
  induction para with
  | nil => rfl
  | cons l para ih =>
    obtain ⟨hl, hpara⟩ := List.forall_mem_cons.mp hpara
    have hrest := ih hpara fun hcode k hk => hblank hcode k (List.mem_cons_of_mem l hk)
    rw [List.cons_append, contentLines, if_neg (by simp [hl]), if_neg, hrest]
    · rfl
    · cases isCode with
      | true => simp
      | false => simp [hblank rfl l List.mem_cons_self]

/-- The lines of the blocks are all lines but the blank ones outside code. -/
lemma Cuts.flatMap_lines (h : Cuts isOpen ls bs) (hls : Readable isOpen ls) :
    bs.flatMap (fun b => b.text.lines) = contentLines false ls := by
  induction h with
  | nil => rfl
  | @blank _ l ls _ hblank _ ih =>
    rw [ih (hls.of_isSuffix (List.suffix_cons l ls)), contentLines,
      if_neg (by simp [isFence_of_blank hblank]), if_pos (by simp [hblank])]
  | @prose _ para ls _ _ hpara _ _ ih =>
    have hrest := ih (hls.of_isSuffix (List.suffix_append para ls))
    have hlines := lines_prose (fun l hl => hls.lines l (List.mem_append_left ls hl)) hpara
    rw [List.flatMap_cons, hlines, hrest,
      contentLines_append false (fun l hl => (hpara l hl).2) fun _ l hl => (hpara l hl).1]
  | @closed _ opening closing inner ls _ hopening hinner hclosing _ ih =>
    have hsplit : opening :: inner ++ closing :: ls = opening :: inner ++ [closing] ++ ls := by simp
    rw [hsplit] at hls
    have hrest := ih (hls.of_isSuffix (List.suffix_append _ ls))
    have hlines := lines_closed (fun l hl => hls.lines l (List.mem_append_left ls hl)) hclosing
    have hcontent : contentLines false (opening :: (inner ++ closing :: ls)) =
        opening :: (inner ++ closing :: contentLines false ls) := by
      rw [contentLines_fence hopening, Bool.not_false, contentLines_append true hinner (by simp),
        contentLines_fence hclosing, Bool.not_true]
    rw [List.flatMap_cons, hlines, hrest]
    simp only [List.cons_append, List.append_assoc, List.nil_append, hcontent]
  | @opened opening inner hopening hinner =>
    have hlines := Text.lines_unlines (hls.last rfl) hls.lines
    have hcontent : contentLines true inner = inner := by
      simpa [contentLines] using contentLines_append true hinner (by simp) []
    rw [List.flatMap_singleton, hlines, contentLines_fence hopening]
    exact congrArg (opening :: ·) hcontent.symm

/-- A block that is no code holds lines of a paragraph only. -/
lemma Cuts.lines_of_prose (h : Cuts isOpen ls bs) (hls : ∀ l ∈ ls, ∀ c ∈ l, isLineBreak c = false)
    (hb : b ∈ bs) (hcode : b.isCode = false) :
    b.text.lines ≠ [] ∧ ∀ l ∈ b.text.lines, IsProseLine l := by
  induction h with
  | nil => cases hb
  | blank _ _ ih => exact ih (List.forall_mem_cons.mp hls).2 hb
  | prose hne hpara _ _ ih =>
    obtain ⟨hlines, hrest⟩ := List.forall_mem_append.mp hls
    rcases List.mem_cons.mp hb with rfl | hb
    · rw [lines_prose hlines hpara]
      exact ⟨hne, hpara⟩
    · exact ih hrest hb
  | closed _ _ _ _ ih =>
    rcases List.mem_cons.mp hb with rfl | hb
    · cases hcode
    · exact ih (List.forall_mem_cons.mp (List.forall_mem_append.mp hls).2).2 hb
  | opened =>
    obtain rfl := List.mem_singleton.mp hb
    cases hcode

/-- The content of a block of code is what stands between its fences. -/
lemma code_of_lines {end? : Option Text} (hlines : b.text.lines = opening :: inner ++ end?.toList)
    (hopening : isFence opening = true) (hinner : ∀ l ∈ inner, isFence l = false)
    (hclosing : ∀ l ∈ end?, isFence l = true) : Fenced b opening inner end? := by
  refine ⟨hlines, hopening, hinner, hclosing, ?_⟩
  have hcode : b.codeLines = inner := by
    unfold codeLines
    rw [hlines]
    simp only [List.cons_append, hopening, if_true]
    cases end? with
    | some closing => simp [hclosing closing rfl]
    | none =>
      rw [Option.toList_none, List.append_nil]
      split
      · next l hlast =>
        rw [if_neg (by simp [hinner l (List.mem_of_getLast? hlast)])]
      · rfl
  rw [code, hcode]

/-- A block of code stands between fences; only the last one may lack the second fence. -/
lemma Cuts.fenced (h : Cuts isOpen ls (front ++ b :: back)) (hls : Readable isOpen ls)
    (hcode : b.isCode = true) :
    ∃ opening inner closing, Fenced b opening inner closing ∧
      (closing = none ↔ back = [] ∧ isOpen = true) := by
  -- `b` is the block that comes first, or one of those behind it
  generalize hbs : front ++ b :: back = bs at h
  induction h generalizing front with
  | nil => simp at hbs
  | @blank _ l ls _ _ _ ih => exact ih (hls.of_isSuffix (List.suffix_cons l ls)) hbs
  | @prose _ para ls _ _ _ _ _ ih =>
    cases front with
    | nil =>
      obtain ⟨rfl, -⟩ := List.cons.inj hbs
      cases hcode
    | cons b' front =>
      exact ih (hls.of_isSuffix (List.suffix_append para ls)) (List.cons.inj hbs).2
  | @closed _ opening closing inner ls _ hopening hinner hclosing hcuts ih =>
    have hsplit : opening :: inner ++ closing :: ls = opening :: inner ++ [closing] ++ ls := by simp
    rw [hsplit] at hls
    cases front with
    | nil =>
      obtain ⟨rfl, rfl⟩ := List.cons.inj hbs
      have hlines := lines_closed (fun l hl => hls.lines l (List.mem_append_left ls hl)) hclosing
      refine ⟨opening, inner, some closing, code_of_lines hlines hopening hinner ?_, ?_⟩
      · simpa using hclosing
      · constructor
        · intro hnone
          cases hnone
        · rintro ⟨rfl, hopen⟩
          rw [hcuts.isOpen_of_nil] at hopen
          cases hopen
    | cons b' front =>
      exact ih (hls.of_isSuffix (List.suffix_append _ ls)) (List.cons.inj hbs).2
  | @opened opening inner hopening hinner =>
    cases front with
    | nil =>
      obtain ⟨rfl, rfl⟩ := List.cons.inj hbs
      have hlines := Text.lines_unlines (hls.last rfl) hls.lines
      refine ⟨opening, inner, none, code_of_lines ?_ hopening hinner (by simp), by simp⟩
      rw [hlines, Option.toList_none, List.append_nil]
    | cons b' front => simp at hbs

/-! ### Blocks put together -/

/-- The lines behind a block that others follow: an empty one and theirs. -/
def behind (bs : List Block) : List Text :=
  if bs.isEmpty then [] else [] :: (join bs).lines

/-- An empty line in front of blocks belongs to none. -/
lemma Cuts.behind (h : Cuts isOpen (join bs).lines bs) : Cuts isOpen (behind bs) bs := by
  cases bs with
  | nil => exact h
  | cons b bs => exact .blank rfl h

/-- What follows a block does not go on with its paragraph. -/
lemma head?_behind (bs : List Block) : ∀ l ∈ (behind bs).head?, ¬ IsProseLine l := by
  cases bs with
  | nil => simp [behind]
  | cons b bs => simp [behind, IsProseLine, Text.blank]

/-- The lines of blocks that are put together. -/
lemma lines_join_cons (isCode : Bool) (hne : ls ≠ [])
    (hls : ∀ l ∈ ls, ∀ c ∈ l, isLineBreak c = false) (hlines : Text.lines (Text.unlines ls) = ls)
    (bs : List Block) : (join (⟨Text.unlines ls, isCode⟩ :: bs)).lines = ls ++ behind bs := by
  cases bs with
  | nil => simpa [join, Text.joinWith, behind] using hlines
  | cons b bs =>
    have hjoin : join (⟨Text.unlines ls, isCode⟩ :: b :: bs) =
        Text.unlines ls ++ '\n' :: '\n' :: join (b :: bs) :=
      List.append_assoc ..
    rw [hjoin, Text.lines_append_newline, Text.lines_newline, Text.lines_unlines_newline hne hls]
    rfl

/-- Lines of blocks that are put together fall into these blocks. -/
lemma Cuts.join (h : Cuts isOpen ls bs) (hls : Readable isOpen ls) :
    Cuts isOpen (Block.join bs).lines bs := by
  induction h with
  | nil => exact .nil
  | @blank _ l ls _ _ _ ih => exact ih (hls.of_isSuffix (List.suffix_cons l ls))
  | @prose _ para ls bs hne hpara _ _ ih =>
    have hlines := fun l hl => hls.lines l (List.mem_append_left ls hl)
    rw [lines_join_cons false hne hlines (lines_prose hlines hpara)]
    exact .prose hne hpara (head?_behind bs) (ih (hls.of_isSuffix (List.suffix_append para ls))).behind
  | @closed _ opening closing inner ls bs hopening hinner hclosing _ ih =>
    have hsplit : opening :: inner ++ closing :: ls = opening :: inner ++ [closing] ++ ls := by simp
    rw [hsplit] at hls
    have hlines := fun l hl => hls.lines l (List.mem_append_left ls hl)
    rw [lines_join_cons true (by simp) hlines (lines_closed hlines hclosing), List.append_assoc]
    exact .closed hopening hinner hclosing (ih (hls.of_isSuffix (List.suffix_append _ ls))).behind
  | @opened opening inner hopening hinner =>
    rw [lines_join_cons true (by simp) hls.lines (Text.lines_unlines (hls.last rfl) hls.lines)]
    exact (List.append_nil (opening :: inner)).symm ▸ .opened hopening hinner

/-! ### The blocks of a text -/

/-- The lines of a text fall into its blocks. -/
lemma exists_cuts_split (t : Text) : ∃ isOpen, Cuts isOpen t.lines (split t) :=
  exists_cuts_goOn begun_nil t.lines

/-- A paragraph or a list of a text holds lines that are neither blank nor fences, at least one. -/
lemma lines_of_mem_split (hb : b ∈ split t) (hcode : b.isCode = false) :
    b.text.lines ≠ [] ∧ ∀ l ∈ b.text.lines, IsProseLine l := by
  obtain ⟨isOpen, hcuts⟩ := exists_cuts_split t
  exact hcuts.lines_of_prose (Text.not_isLineBreak_of_mem_lines t) hb hcode

/-- Cutting a text into blocks loses nothing but the blank lines outside code, tells paragraphs and
fenced code apart, and may be done again with the blocks put together, unless code that is left open at
the end of the text ends in an empty line. -/
theorem split_lossless (t : Text)
    (hopen : Odd (t.lines.countP isFence) → t.lines.getLast? ≠ some []) :
    (split t).flatMap (fun b => b.text.lines) = contentLines false t.lines ∧
    (∀ b ∈ split t, b.isCode = false → ∀ l ∈ b.text.lines, l.blank = false ∧ isFence l = false) ∧
    (∀ front b back, split t = front ++ b :: back → b.isCode = true →
      ∃ opening inner closing, Fenced b opening inner closing ∧
        (closing = none ↔ back = [] ∧ Odd (t.lines.countP isFence))) ∧
    split (join (split t)) = split t := by
  obtain ⟨isOpen, hcuts⟩ := exists_cuts_split t
  have hread : Readable isOpen t.lines :=
    ⟨Text.not_isLineBreak_of_mem_lines t, fun h => hopen (hcuts.isOpen_iff.mp h)⟩
  refine ⟨hcuts.flatMap_lines hread, fun b hb hcode => (lines_of_mem_split hb hcode).2, ?_, ?_⟩
  · intro front b back hsplit hcode
    rw [← hcuts.isOpen_iff]
    exact (hsplit ▸ hcuts).fenced hread hcode
  · exact (hcuts.join hread).goOn_eq

/-- A paragraph in front of code with an empty line, and code that is left open. -/
def codeBehindProse : Text :=
  "Two\nlines\n```\ncode\n\nmore\n```\n \n\n```\nopen"

/-- A paragraph, code with an empty line, and code that is left open. -/
theorem split_lossless_codeBehindProse :
    (Odd (codeBehindProse.lines.countP isFence) → codeBehindProse.lines.getLast? ≠ some []) ∧
    (split codeBehindProse).flatMap (fun b => b.text.lines) = contentLines false codeBehindProse.lines ∧
    split (join (split codeBehindProse)) = split codeBehindProse ∧
    ∃ b ∈ split codeBehindProse, ∃ opening inner, Fenced b opening inner none := by
  have hlast : codeBehindProse.lines.getLast? ≠ some [] := by decide
  obtain ⟨hlines, -, hcode, hjoin⟩ := split_lossless codeBehindProse fun _ => hlast
  refine ⟨fun _ => hlast, hlines, hjoin, ?_⟩
  have hsplit : split codeBehindProse =
      [⟨"Two\nlines", false⟩, ⟨"```\ncode\n\nmore\n```", true⟩] ++ ⟨"```\nopen", true⟩ :: [] := by
    decide
  obtain ⟨opening, inner, closing, hfenced, hiff⟩ := hcode _ _ _ hsplit rfl
  obtain rfl : closing = none := hiff.mpr ⟨rfl, by decide⟩
  exact ⟨_, by simp [hsplit], opening, inner, hfenced⟩

end Block

end Prose

end Ambient

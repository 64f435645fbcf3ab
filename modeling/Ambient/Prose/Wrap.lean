import Ambient.Text.Blank

/-!
# Wrapping lines

A line that is longer than a given width is broken at white space, never inside a word.  Tabs are
expanded to columns of eight, and the text is cut into runs of spaces and words; each line takes as
many of these as fit, at least one, and drops the spaces at its ends.  Further lines repeat the
indentation of the first one.
-/

namespace Ambient

namespace Prose

/-! ### Spaces and words -/

/-- The text with every tab filled up to the next column of eight; `column` is that of its start. -/
def expandTabs (column : Nat) : Text → Text
  | [] => []
  | c :: t =>
    if c = '\t' then
      let n := 8 - column % 8
      List.replicate n ' ' ++ expandTabs (column + n) t
    else if c = '\n' || c = '\r' then c :: expandTabs 0 t
    else c :: expandTabs (column + 1) t

/-- The text with a space for every white space of layout. -/
def spaced (t : Text) : Text :=
  (expandTabs 0 t).map fun c => if isAsciiBlank c then ' ' else c

/-- A character in front of a text that is cut into chunks. -/
def consChunk (c : Char) : List Text → List Text
  | (d :: chunk) :: chunks =>
    if (c == ' ') = (d == ' ') then (c :: d :: chunk) :: chunks
    else [c] :: (d :: chunk) :: chunks
  | chunks => [c] :: chunks

/-- The text as its chunks, which are runs of spaces and runs of other characters. -/
def chunks (t : Text) : List Text :=
  t.foldr consChunk []

/-! ### Filling lines -/

/-- As many chunks as fit into `room`, and those behind them. -/
def fill (room : Nat) : List Text → List Text × List Text
  | [] => ([], [])
  | c :: cs =>
    if c.length ≤ room then
      let (line, rest) := fill (room - c.length) cs
      (c :: line, rest)
    else ([], c :: cs)

/-- The chunks of the next line, of which there is at least one, and those behind them. -/
def nextLine (room : Nat) (c : Text) (cs : List Text) : List Text × List Text :=
  match fill room (c :: cs) with
  | ([], _) => ([c], cs)
  | filled => filled

/-- Filling a line leaves no more chunks than there were. -/
theorem length_fill_le (room : Nat) (cs : List Text) : (fill room cs).2.length ≤ cs.length := by
  induction cs generalizing room with
  | nil => exact Nat.le_refl 0
  | cons c cs ih =>
    unfold fill
    split
    · exact Nat.le_succ_of_le (ih _)
    · exact Nat.le_refl _

/-- The next line takes one chunk at least. -/
theorem length_nextLine_le (room : Nat) (c : Text) (cs : List Text) :
    (nextLine room c cs).2.length ≤ cs.length := by
  unfold nextLine
  split
  · exact Nat.le_refl _
  · next hne =>
    unfold fill at hne ⊢
    split
    · exact length_fill_le _ _
    · next h =>
      rw [if_neg h] at hne
      exact absurd rfl (hne _)

/-- Chunks without the last one if it is blank. -/
def dropBlankEnd (cs : List Text) : List Text :=
  match cs.getLast? with
  | some c => if c.blank then cs.dropLast else cs
  | none => cs

/-- Chunks without the first one if it is blank. -/
def dropBlankStart : List Text → List Text
  | [] => []
  | c :: cs => if c.blank then cs else c :: cs

theorem length_dropBlankStart_le (cs : List Text) :
    (dropBlankStart cs).length ≤ cs.length := by
  cases cs with
  | nil => exact Nat.le_refl 0
  | cons c cs =>
    simp only [dropBlankStart]
    split
    · exact Nat.le_succ _
    · exact Nat.le_refl _

/-- The chunks that the next line starts from. -/
def lineStart (isFirst : Bool) (cs : List Text) : List Text :=
  if isFirst then cs else dropBlankStart cs

/-- Dropping spaces at the start of a line adds no chunk. -/
theorem length_lineStart_le (isFirst : Bool) (cs : List Text) :
    (lineStart isFirst cs).length ≤ cs.length := by
  cases isFirst
  · exact length_dropBlankStart_le cs
  · exact Nat.le_refl _

/-- The lines that chunks fill.  Only the first line that is written has no indentation and keeps
the spaces it starts with. -/
def fillLines (width : Nat) (indent : Text) (isFirst : Bool) (cs : List Text) : List Text :=
  match h : lineStart isFirst cs with
  | [] => []
  | d :: ds =>
    let margin := if isFirst then [] else indent
    let filled := nextLine (width - margin.length) d ds
    have : filled.2.length < cs.length := by
      have h₁ := length_nextLine_le (width - margin.length) d ds
      have h₂ := length_lineStart_le isFirst cs
      rw [h] at h₂
      exact Nat.lt_of_le_of_lt h₁ h₂
    match dropBlankEnd filled.1 with
    | [] => fillLines width indent isFirst filled.2
    | line => (margin ++ line.flatten) :: fillLines width indent false filled.2
termination_by cs.length

/-- The lines of a line that is longer than the width. -/
def wrapped (width : Nat) (line : Text) : List Text :=
  match fillLines width (line.takeWhile isBlank) true (chunks (spaced line)) with
  | [] => [line]
  | lines => lines

/-- The lines of a line; there are none for a width of zero or less, unless the line is that short. -/
def softWrap? (width : Int) (line : Text) : Option (List Text) :=
  if line.length ≤ width then some [line]
  else if width ≤ 0 then none
  else some (wrapped width.toNat line)

end Prose

end Ambient

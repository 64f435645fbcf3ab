import Ambient.Text.Basic

/-!
# White space and lines

Three classes of characters separate text.  `isBlank` is white space in the sense of Unicode
together with the four information separators; `isAsciiBlank` is the white space of markup and of
layout; `isLineBreak` ends a line.  `lines` cuts a text into its lines, where a carriage return
followed by a line feed is one break and a break at the very end opens no further line.
-/

namespace Ambient

/-! ### The classes -/

/-- White space of running text. -/
def isBlank (c : Char) : Bool :=
  let n := c.toNat
  (9 ≤ n && n ≤ 13) || (28 ≤ n && n ≤ 32) || n == 0x85 || n == 0xA0 || n == 0x1680
    || (0x2000 ≤ n && n ≤ 0x200A) || n == 0x2028 || n == 0x2029 || n == 0x202F || n == 0x205F
    || n == 0x3000

/-- White space of layout: space, tab, line feed, vertical tab, form feed, carriage return. -/
def isAsciiBlank (c : Char) : Bool :=
  c == ' ' || (9 ≤ c.toNat && c.toNat ≤ 13)

/-- Characters that end a line. -/
def isLineBreak (c : Char) : Bool :=
  let n := c.toNat
  (10 ≤ n && n ≤ 13) || (28 ≤ n && n ≤ 30) || n == 0x85 || n == 0x2028 || n == 0x2029

/-- White space of layout is white space. -/
theorem isBlank_of_isAsciiBlank {c : Char} (h : isAsciiBlank c) : isBlank c := by
  simp only [isAsciiBlank, Bool.or_eq_true, beq_iff_eq, Bool.and_eq_true, decide_eq_true_eq] at h
  rcases h with rfl | ⟨h₁, h₂⟩
  · decide
  · simp [isBlank, h₁, h₂]

/-- Line breaks are white space. -/
theorem isBlank_of_isLineBreak {c : Char} (h : isLineBreak c) : isBlank c := by
  simp only [isLineBreak, Bool.or_eq_true, beq_iff_eq, Bool.and_eq_true, decide_eq_true_eq] at h
  simp only [isBlank, Bool.or_eq_true, beq_iff_eq, Bool.and_eq_true, decide_eq_true_eq]
  omega

namespace Text

/-! ### Trimming white space -/

/-- The text without white space at its start. -/
def trimStart (t : Text) : Text :=
  t.dropWhile isBlank

/-- The text without white space at its end. -/
def trimEnd (t : Text) : Text :=
  dropEndWhile isBlank t

/-- The text without white space at either end. -/
def trim (t : Text) : Text :=
  trimBy isBlank t

/-- Whether a text holds nothing but white space. -/
def blank (t : Text) : Bool :=
  t.all isBlank

/-! ### Lines and words -/

/-- The lines of a text, without their breaks. -/
def lines : Text → List Text
  | [] => []
  | '\r' :: '\n' :: t => [] :: lines t
  | c :: t =>
    if isLineBreak c then [] :: lines t
    else
      match lines t with
      | [] => [[c]]
      | l :: ls => (c :: l) :: ls

/-- The lines put together again, one line feed between two of them. -/
def unlines (ls : List Text) : Text :=
  joinWith ['\n'] ls

/-- The maximal runs of characters outside `p`. -/
def wordsBy (p : Char → Bool) : Text → List Text
  | [] => []
  | c :: t =>
    if p c then wordsBy p t
    else
      match t with
      | [] => [[c]]
      | d :: _ =>
        if p d then [c] :: wordsBy p t
        else
          match wordsBy p t with
          | [] => [[c]]
          | w :: ws => (c :: w) :: ws

/-- The words of a text, white space between them. -/
def words (t : Text) : List Text :=
  wordsBy isBlank t

/-- The text as a file holds it once read: a carriage return, alone or before a line feed, is a
line feed. -/
def unifyBreaks : Text → Text
  | [] => []
  | '\r' :: '\n' :: t => '\n' :: unifyBreaks t
  | c :: t => (if c = '\r' then '\n' else c) :: unifyBreaks t

end Text

end Ambient

import Ambient.Markdown.Element
import Ambient.Text.Fold

/-!
# Markdown of documentation

Documentation is written in markup, or in plain prose whose line breaks matter.  A line break between
two pieces of prose is made explicit before the conversion; line breaks in preformatted regions and
next to a tag are left as they are.  After the conversion no line ends in white space and no more
than one blank line stands between two others.
-/

namespace Ambient

namespace Markdown

/-! ### Line breaks -/

/-- The rest of a preformatted region up to and with its end tag, and what follows it. -/
def regionBody? : Text → Option (Text × Text)
  | [] => none
  | c :: cs =>
    match Text.afterFolded? "</pre>" (c :: cs) with
    | some rest => some ((c :: cs).take 6, rest)
    | none => (regionBody? cs).map fun parts => (c :: parts.1, parts.2)

/-- A preformatted region at the start of a text, and what follows it. -/
def region? (cs : Text) : Option (Text × Text) :=
  match Text.afterFolded? "<pre" cs with
  | none => none
  | some rest =>
    if rest.head?.elim false isWord then none
    else (regionBody? rest).map fun parts => (cs.take 4 ++ parts.1, parts.2)

/-- What follows the body of a region is no longer than the text. -/
theorem length_of_regionBody? {cs inner rest : Text} (h : regionBody? cs = some (inner, rest)) :
    rest.length ≤ cs.length := by
  induction cs generalizing inner with
  | nil => simp [regionBody?] at h
  | cons c cs ih =>
    simp only [regionBody?] at h
    split at h
    · next r hr =>
      obtain ⟨-, rfl⟩ := Prod.mk.inj (Option.some.inj h)
      have := Text.length_of_afterFolded? hr
      omega
    · obtain ⟨⟨x, y⟩, hxy, hb⟩ := Option.map_eq_some_iff.1 h
      obtain ⟨-, rfl⟩ : c :: x = inner ∧ y = rest := by simpa using hb
      have := ih hxy
      simp only [List.length_cons]
      omega

/-- A region takes something of the text. -/
theorem length_of_region? {cs inner rest : Text} (h : region? cs = some (inner, rest)) :
    rest.length < cs.length := by
  unfold region? at h
  split at h
  · simp at h
  · next r hr =>
    have hr' : r.length + 4 = cs.length := Text.length_of_afterFolded? hr
    split at h
    · simp at h
    · obtain ⟨⟨x, y⟩, hxy, hb⟩ := Option.map_eq_some_iff.1 h
      obtain ⟨-, rfl⟩ : cs.take 4 ++ x = inner ∧ y = rest := by simpa using hb
      have := length_of_regionBody? hxy
      have : r.length + 4 = cs.length := hr'
      omega

/-- A stretch of text, which is a preformatted region or lies between two. -/
structure Stretch where
  isRegion : Bool
  text : Text
deriving DecidableEq, Repr

/-- The stretches with one more character at the start of the first one. -/
def pushFront (c : Char) : List Stretch → List Stretch
  | ⟨false, t⟩ :: rest => ⟨false, c :: t⟩ :: rest
  | rest => ⟨false, [c]⟩ :: rest

/-- The preformatted regions of a text and what lies between them. -/
def stretches (cs : Text) : List Stretch :=
  match cs with
  | [] => []
  | c :: ds =>
    match h : region? (c :: ds) with
    | some (inner, rest) =>
      have : rest.length < (c :: ds).length := length_of_region? h
      ⟨true, inner⟩ :: stretches rest
    | none => pushFront c (stretches ds)
termination_by cs.length
decreasing_by
  · exact this
  · exact Nat.lt_succ_self ds.length

/-- Spaces, tabs and at least one line feed at the start of a text, with no other white space and no
tag behind them: the number of line feeds, and the rest. -/
def feedRun? (cs : Text) : Option (Nat × Text) :=
  let isGap (c : Char) : Bool := c == ' ' || c == '\t' || c == '\n'
  let count := (cs.takeWhile isGap).count '\n'
  match cs.dropWhile isGap with
  | [] => none
  | c :: rest => if count = 0 || c = '<' || isBlank c then none else some (count, c :: rest)

/-- Whether a line break may follow a character of prose. -/
def endsProse (c : Char) : Bool :=
  !(c == '>' || isBlank c)

/-- The text with explicit line breaks, when `before` is the character in front of it.  Within a run
of line feeds that was made explicit nothing is left to do. -/
def breakFrom (before : Option Char) : Nat → Text → Text
  | _, [] => []
  | skip + 1, c :: cs => breakFrom (some c) skip cs
  | 0, c :: cs =>
    match (if before.elim false endsProse then feedRun? (c :: cs) else none) with
    | some (count, rest) =>
      Text.repeated count "<br>" ++ breakFrom (some c) ((c :: cs).length - rest.length - 1) cs
    | none => c :: breakFrom (some c) 0 cs

/-- The text with the line breaks of its prose made explicit. -/
def preserveLineBreaks (t : Text) : Text :=
  (stretches t).flatMap fun s => if s.isRegion then s.text else breakFrom none 0 s.text

/-! ### Conversion -/

/-- The text with no more than two line feeds in a row, the current run being of length `n`. -/
def limitFeeds (n : Nat) : Text → Text
  | [] => []
  | c :: cs =>
    if c = '\n' then
      if n < 2 then c :: limitFeeds (n + 1) cs else limitFeeds n cs
    else c :: limitFeeds 0 cs

/-- Markdown without white space at the end of its lines, without blank lines at its ends, and with
at most one blank line between two others. -/
def tidy (t : Text) : Text :=
  Text.trimBy (· = '\n') (limitFeeds 0 (Text.unlines ((Text.lines t).map Text.trimEnd)))

/-- The Markdown of a piece of documentation. -/
def ofHtml (html : Text) : Text :=
  if Text.blank html then []
  else tidy (ofForest (Html.parse (preserveLineBreaks html)))

/-- The Markdown of a piece of documentation on one line. -/
def inline (html : Text) : Text :=
  Text.joinWith [' ']
    (((Text.lines (ofHtml html)).map Text.trim).filter fun l => !l.isEmpty)

end Markdown

end Ambient

import Ambient.Text.Blank

/-!
# Code spans

A run of backticks opens a code span that the next run of the same length closes.  A span between
single backticks that holds white space is widened: it is written between triple backticks, where
white space is kept.  From the first run that no later run closes, everything stays as it is.
-/

namespace Ambient

namespace Prose

/-- A run of backticks, and the text between it and the next one. -/
structure Ticks where
  size : Nat
  after : Text
deriving DecidableEq, Repr

/-- A run and what follows it as text. -/
def Ticks.text (r : Ticks) : Text :=
  List.replicate r.size '`' ++ r.after

/-- Several runs as text. -/
def ticksText (runs : List Ticks) : Text :=
  runs.flatMap Ticks.text

/-- A character in front of a text that is cut into the text before the first run, and the runs. -/
def consTicks (c : Char) : Text × List Ticks → Text × List Ticks
  | ([], r :: runs) => if c = '`' then ([], ⟨r.size + 1, r.after⟩ :: runs) else ([c], r :: runs)
  | (before, runs) => if c = '`' then ([], ⟨1, before⟩ :: runs) else (c :: before, runs)

/-- The text before the first run of backticks, and the runs. -/
def cutTicks (t : Text) : Text × List Ticks :=
  t.foldr consTicks ([], [])

/-- A code span as it is written: widened if it has single backticks and holds white space. -/
def spanText (size : Nat) (content : Text) : Text :=
  let size := if size = 1 && content.trim.any isBlank then 3 else size
  List.replicate size '`' ++ content ++ List.replicate size '`'

/-- The runs and the text between them, with every span widened that has to be. -/
def widenRuns (runs : List Ticks) : Text :=
  match runs with
  | [] => []
  | r :: rest =>
    let inside := rest.takeWhile (fun s => s.size ≠ r.size)
    match h : rest.dropWhile (fun s => s.size ≠ r.size) with
    | [] => ticksText (r :: rest)
    | closing :: behind =>
      have : behind.length < rest.length := by
        have := (List.dropWhile_sublist (l := rest) fun s => decide (s.size ≠ r.size)).length_le
        rw [h] at this
        exact this
      spanText r.size (r.after ++ ticksText inside) ++ closing.after ++ widenRuns behind
termination_by runs.length
decreasing_by simp only [List.length_cons]; omega

/-- The text with every code span widened that has to be. -/
def widenSpans (t : Text) : Text :=
  let (before, runs) := cutTicks t
  before ++ widenRuns runs

end Prose

end Ambient

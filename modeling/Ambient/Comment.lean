import Ambient.Text.Blank

/-!
# Comments

A declaration has its documentation in front of it as a comment, one line of text behind each
asterisk.  Text that would end the comment is broken up.  Indentation moves every line that is not
empty.
-/

namespace Ambient

namespace Comment

/-- A line that cannot end a comment: a slash behind an asterisk has a backslash before it. -/
def escaped : Text → Text
  | [] => []
  | '*' :: '/' :: t => '*' :: '\\' :: '/' :: escaped t
  | c :: t => c :: escaped t

/-- A line of a comment, without white space at its end. -/
def line (t : Text) : Text :=
  Text.trimEnd (" * " ++ escaped t)

/-- The comment with the given lines; there is none without lines. -/
def ofLines (lines : List Text) : Text :=
  if lines.isEmpty then []
  else "/**\n" ++ Text.unlines (lines.map line) ++ "\n */"

/-- A piece of declaration behind its comment. -/
def before (comment declaration : Text) : Text :=
  if comment.isEmpty then declaration else comment ++ '\n' :: declaration

end Comment

namespace Text

/-- The text with `margin` in front of every line that is not empty. -/
def indent (margin t : Text) : Text :=
  unlines (t.lines.map fun line => if line.isEmpty then [] else margin ++ line)

end Text

end Ambient

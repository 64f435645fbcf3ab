import Ambient.Text.Case

/-!
# Searching without regard to case

Prose is searched for phrases in whatever case they are written.  A letter stands for both of its
cases and for the characters that become it when their case is changed: the long s, the Kelvin sign,
and the two forms of i that differ from it by their dot.
-/

namespace Ambient

/-- Whether a character is the small letter `p` up to case. -/
def isSameLetter (p c : Char) : Bool :=
  c = p || c.toLower = p
    || (p = 's' && c.toNat = 0x17F)
    || (p = 'k' && c.toNat = 0x212A)
    || (p = 'i' && (c.toNat = 0x130 || c.toNat = 0x131))

namespace Text

/-- What follows the phrase `piece`, given in small letters, when the text starts with it in any
case. -/
def afterFolded? (piece : Text) (t : Text) : Option Text :=
  match piece, t with
  | [], t => some t
  | _ :: _, [] => none
  | p :: piece, c :: t => if isSameLetter p c then afterFolded? piece t else none

/-- A phrase takes as many characters of a text as it has. -/
theorem length_of_afterFolded? {piece t rest : Text} (h : afterFolded? piece t = some rest) :
    rest.length + piece.length = t.length := by
  induction piece generalizing t with
  | nil => simp_all [afterFolded?]
  | cons p piece ih =>
    cases t with
    | nil => simp [afterFolded?] at h
    | cons c t =>
      simp only [afterFolded?] at h
      split at h
      · simp only [List.length_cons, ← ih h]
        omega
      · simp at h

end Text

end Ambient

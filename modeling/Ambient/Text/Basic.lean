/-!
# Text

Every text of this library is a list of characters, so that each reader and each printer is a
recursion on the text itself.  String literals are accepted wherever a text is expected.

The section on cutting defines the operations the readers share: trimming at either end, splitting
at the first occurrence of a piece, searching and replacing.  The lemmas beside them say that a cut
loses nothing: the pieces put together again are the text that was cut.
-/

namespace Ambient

/-- A text is its list of characters. -/
abbrev Text := List Char

instance : Coe String Text := ⟨String.toList⟩

namespace Text

/-! ### Trimming -/

/-- The text without the longest run of `p` characters at its end. -/
def dropEndWhile (p : Char → Bool) (t : Text) : Text :=
  (t.reverse.dropWhile p).reverse

/-- The longest run of `p` characters at the end of the text. -/
def takeEndWhile (p : Char → Bool) (t : Text) : Text :=
  (t.reverse.takeWhile p).reverse

/-- The text without the `p` characters at either end. -/
def trimBy (p : Char → Bool) (t : Text) : Text :=
  dropEndWhile p (t.dropWhile p)

theorem dropEndWhile_append_takeEndWhile (p : Char → Bool) (t : Text) :
    dropEndWhile p t ++ takeEndWhile p t = t := by
  simp only [dropEndWhile, takeEndWhile, ← List.reverse_append, List.takeWhile_append_dropWhile,
    List.reverse_reverse]

/-! ### Cutting at a piece -/

/-- What follows `piece` when the text starts with it. -/
def after? (piece : Text) (t : Text) : Option Text :=
  match piece, t with
  | [], t => some t
  | _ :: _, [] => none
  | a :: piece, b :: t => if a = b then after? piece t else none

/-- Whether the text starts with `piece`. -/
def startsWith (piece t : Text) : Bool :=
  (after? piece t).isSome

/-- Something is left behind a piece just if the text begins with it. -/
theorem after?_eq_some_iff {piece t rest : Text} :
    after? piece t = some rest ↔ t = piece ++ rest := by
  induction piece generalizing t with
  | nil => simp [after?]
  | cons a piece ih =>
    cases t with
    | nil => simp [after?]
    | cons b t =>
      by_cases h : a = b
      · simp [after?, h, ih]
      · simp [after?, h, Ne.symm h]

/-- The text cut at the first occurrence of `piece`, which belongs to neither part. -/
def cut? (piece : Text) : Text → Option (Text × Text)
  | [] => if piece = [] then some ([], []) else none
  | c :: t =>
    match after? piece (c :: t) with
    | some rest => some ([], rest)
    | none => (cut? piece t).map fun parts => (c :: parts.1, parts.2)

/-- Whether `piece` occurs in the text. -/
def has (piece t : Text) : Bool :=
  (cut? piece t).isSome

/-- What stands in front of a piece, the piece and the rest make up the text. -/
theorem eq_of_cut? {piece t before rest : Text} (h : cut? piece t = some (before, rest)) :
    t = before ++ piece ++ rest := by
  induction t generalizing before with
  | nil => by_cases hp : piece = [] <;> simp_all [cut?]
  | cons c t ih =>
    unfold cut? at h
    split at h
    · next r hr =>
      obtain ⟨rfl, rfl⟩ : [] = before ∧ r = rest := by simpa using h
      simpa using after?_eq_some_iff.1 hr
    · obtain ⟨⟨x, y⟩, hxy, hb⟩ := Option.map_eq_some_iff.1 h
      obtain ⟨rfl, rfl⟩ : c :: x = before ∧ y = rest := by simpa using hb
      simp [ih hxy]

/-- The text cut at the first occurrence of a character; the second part is absent when the
character is. -/
def cutAt (c : Char) (t : Text) : Text × Option Text :=
  match t.dropWhile (· ≠ c) with
  | [] => (t, none)
  | _ :: rest => (t.takeWhile (· ≠ c), some rest)

/-- The pieces between the occurrences of a character. -/
def splitAt (c : Char) : Text → List Text
  | [] => [[]]
  | d :: t =>
    if d = c then [] :: splitAt c t
    else
      match splitAt c t with
      | [] => [[d]]
      | piece :: pieces => (d :: piece) :: pieces

/-- The text with every occurrence of a single character written as another text. -/
def replaceChar (c : Char) (by_ : Text) (t : Text) : Text :=
  t.flatMap fun d => if d = c then by_ else [d]

/-! ### Joining -/

/-- The texts one after another with `separator` between them. -/
def joinWith (separator : Text) : List Text → Text
  | [] => []
  | [t] => t
  | t :: u :: ts => t ++ separator ++ joinWith separator (u :: ts)

theorem joinWith_cons_cons (separator t u : Text) (ts : List Text) :
    joinWith separator (t :: u :: ts) = t ++ separator ++ joinWith separator (u :: ts) := rfl

/-- The text `n` times over. -/
def repeated (n : Nat) (t : Text) : Text :=
  (List.replicate n t).flatten

/-! ### Numerals -/

/-- A natural number in decimal. -/
def ofNat (n : Nat) : Text :=
  Nat.toDigits 10 n

/-- An integer in decimal, with a minus sign when it is negative. -/
def ofInt : Int → Text
  | .ofNat n => ofNat n
  | .negSucc n => '-' :: ofNat (n + 1)

/-- A number in lower-case hexadecimal, filled with zeros to `width` digits. -/
def hex (width n : Nat) : Text :=
  let digits := Nat.toDigits 16 n
  List.replicate (width - digits.length) '0' ++ digits

/-- The value of a run of decimal digits. -/
def digitsValue (t : Text) : Nat :=
  t.foldl (fun n c => 10 * n + (c.toNat - '0'.toNat)) 0

/-- The value of a hexadecimal digit of either case. -/
def hexDigit? (c : Char) : Option Nat :=
  if c.isDigit then some (c.toNat - '0'.toNat)
  else if 'a' ≤ c ∧ c ≤ 'f' then some (c.toNat - 'a'.toNat + 10)
  else if 'A' ≤ c ∧ c ≤ 'F' then some (c.toNat - 'A'.toNat + 10)
  else none

/-- The value of a run of hexadecimal digits, if it holds nothing else. -/
def hexValue? (t : Text) : Option Nat :=
  t.foldl (fun n? c => do return 16 * (← n?) + (← hexDigit? c)) (some 0)

end Text

end Ambient

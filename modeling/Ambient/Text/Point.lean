import Ambient.Text.Basic

/-!
# Points

JSON writes a character beyond 65535 by two units of UTF-16, and may write one of a pair alone.  Such
a half is no character, but two texts that differ in their halves are two texts all the same.  What
JSON writes is therefore read as points, each a character or a half.  The points are the numbers below
1114112 (`Point.code_ofCode`, `Point.code_inj`).

A declaration is a text of characters.  Points are shown there with one mark for every half.
-/

namespace Ambient

/-- A character, or one half of a pair of units. -/
inductive Point
  | char (c : Char)
  | half (index : Fin 0x800)
deriving DecidableEq, Repr

namespace Point

/-- The number of a point. -/
def code : Point → Nat
  | .char c => c.toNat
  | .half index => 0xD800 + index

/-- The point with a number. -/
def ofCode (n : Nat) : Point :=
  if h : 0xD800 ≤ n ∧ n < 0xE000 then .half ⟨n - 0xD800, by omega⟩ else .char (Char.ofNat n)

/-- Every number of a point is that of the point it makes, the numbers of halves included. -/
theorem code_ofCode {n : Nat} (h : n < 0x110000) : (ofCode n).code = n := by
  unfold ofCode
  split
  · simp only [code]
    omega
  · next hn =>
    have hvalid : n.isValidChar := by
      unfold Nat.isValidChar
      omega
    rw [code, Char.ofNat, dif_pos hvalid]
    rfl

/-- No two points have one number: the number of a character is never that of a half. -/
theorem code_inj {p q : Point} : p.code = q.code ↔ p = q := by
  have hchar : ∀ (c : Char) (i : Fin 0x800), c.toNat ≠ 0xD800 + i := by
    intro c i heq
    have hvalid : c.toNat.isValidChar := c.valid
    unfold Nat.isValidChar at hvalid
    omega
  constructor
  · intro h
    cases p with
    | char c =>
      cases q with
      | char d => rw [Char.toNat_inj.mp h]
      | half j => exact absurd h (hchar c j)
    | half i =>
      cases q with
      | char d => exact absurd h.symm (hchar d i)
      | half j => rw [Fin.ext (Nat.add_left_cancel h)]
  · rintro rfl
    rfl

/-- The character that shows a point. -/
def shown : Point → Char
  | .char c => c
  | .half _ => '\uFFFD'

end Point

/-- A text of points. -/
abbrev Points := List Point

namespace Points

/-- The text that shows points. -/
def shown (ps : Points) : Text :=
  ps.map Point.shown

/-- Points in a row are shown one after the other. -/
theorem shown_append (ps qs : Points) : shown (ps ++ qs) = shown ps ++ shown qs :=
  List.map_append

/-- Whether the first text of points comes before the second or is the same, by the numbers. -/
def isLe : Points → Points → Bool
  | [], _ => true
  | _ :: _, [] => false
  | p :: ps, q :: qs => if p = q then isLe ps qs else p.code < q.code

/-- The texts in ascending order; equal ones stay as they are. -/
def sorted (keys : List Points) : List Points :=
  keys.mergeSort isLe

end Points

/-- Where a text of characters is expected, points are shown. -/
instance : Coe Points Text := ⟨Points.shown⟩

/-- The points of a text are its characters. -/
def Text.points (t : Text) : Points :=
  t.map Point.char

namespace Text

/-- Points that are characters are shown as they are. -/
@[simp] theorem shown_points (t : Text) : t.points.shown = t := by
  rw [points, Points.shown, List.map_map]
  exact List.map_id t

/-- The points of two texts in a row are those of the first and of the second. -/
@[simp] theorem points_append (t u : Text) : points (t ++ u) = t.points ++ u.points :=
  List.map_append

@[simp] theorem points_cons (c : Char) (t : Text) : points (c :: t) = .char c :: t.points :=
  rfl

@[simp] theorem points_nil : points [] = [] :=
  rfl

/-- A text has as many points as characters. -/
@[simp] theorem length_points (t : Text) : t.points.length = t.length :=
  List.length_map ..

/-- A character is a point of a text just if it is in the text. -/
@[simp] theorem char_mem_points {c : Char} {t : Text} : .char c ∈ t.points ↔ c ∈ t := by
  simp [points]

/-- No two texts have the same points. -/
theorem points_inj {t u : Text} : t.points = u.points ↔ t = u := by
  refine ⟨fun h => ?_, congrArg points⟩
  rw [← shown_points t, h, shown_points]

end Text

/-- What holds a text of points. -/
class ToPoints (τ : Type) where
  toPoints : τ → Points

export ToPoints (toPoints)

instance : ToPoints Text := ⟨Text.points⟩

instance : ToPoints Points := ⟨id⟩

end Ambient

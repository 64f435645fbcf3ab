import Ambient.Text.Basic

/-!
# Decoding UTF-8

Bytes are decoded as UTF-8.  Each longest piece of a character that cannot be completed, and each
byte that starts none, is shown as the replacement character.
-/

namespace Ambient

namespace Utf8

/-- The bytes that may follow a first byte of more than one, as an inclusive range. -/
def secondRange (first : Nat) : Nat × Nat :=
  if first = 0xE0 then (0xA0, 0xBF)
  else if first = 0xED then (0x80, 0x9F)
  else if first = 0xF0 then (0x90, 0xBF)
  else if first = 0xF4 then (0x80, 0x8F)
  else (0x80, 0xBF)

/-- How many bytes follow a first byte, and the bits that it holds itself. -/
def head? (first : Nat) : Option (Nat × Nat) :=
  if first < 0x80 then some (0, first)
  else if 0xC2 ≤ first && first < 0xE0 then some (1, first - 0xC0)
  else if 0xE0 ≤ first && first < 0xF0 then some (2, first - 0xE0)
  else if 0xF0 ≤ first && first < 0xF5 then some (3, first - 0xF0)
  else none

/-- The replacement character. -/
def replacement : Char := '\uFFFD'

/-- A state of the decoder between two bytes. -/
structure State where
  /-- How many bytes of a character are still missing. -/
  missing : Nat := 0
  /-- The bits of the character so far. -/
  bits : Nat := 0
  /-- The bytes that may come next. -/
  low : Nat := 0x80
  high : Nat := 0xBF

/-- Starts a character with the byte `b`. -/
def start (b : Nat) : Text × State :=
  match head? b with
  | none => ([replacement], {})
  | some (0, bits) => ([Char.ofNat bits], {})
  | some (missing, bits) =>
    let (low, high) := secondRange b
    ([], { missing, bits, low, high })

/-- Goes on with the byte `b`. -/
def step (s : State) (b : Nat) : Text × State :=
  if s.missing = 0 then start b
  else if s.low ≤ b && b ≤ s.high then
    let bits := s.bits * 0x40 + (b - 0x80)
    if s.missing = 1 then ([Char.ofNat bits], {}) else ([], { missing := s.missing - 1, bits })
  else
    let (t, next) := start b
    (replacement :: t, next)

/-- The text of the bytes that follow the state `s`. -/
def decodeFrom (s : State) : List Nat → Text
  | [] => if s.missing = 0 then [] else [replacement]
  | b :: bs =>
    let (t, next) := step s b
    t ++ decodeFrom next bs

/-- The text of some bytes. -/
def decode (bytes : List Nat) : Text :=
  decodeFrom {} bytes

end Utf8

end Ambient

/-! UTF-8 that may be broken. Each longest part of a sequence that could not go on becomes one
replacement character, and nothing else is lost. -/

namespace FeedPoller.Text

/-- A sequence that has begun: how many bytes are still to come, the range of the next one, and the
bits so far. -/
structure Sequence where
  left : Nat
  low : Nat
  high : Nat
  bits : Nat

def replacement : Char := '\ufffd'

/-- What a byte gives that begins a sequence. -/
def beginSequence (b : Nat) : List Char × Option Sequence :=
  if b < 0x80 then ([Char.ofNat b], none)
  else if 0xC2 ≤ b ∧ b ≤ 0xDF then ([], some ⟨1, 0x80, 0xBF, b - 0xC0⟩)
  else if b = 0xE0 then ([], some ⟨2, 0xA0, 0xBF, 0⟩)
  else if b = 0xED then ([], some ⟨2, 0x80, 0x9F, 0xD⟩)
  else if 0xE1 ≤ b ∧ b ≤ 0xEF then ([], some ⟨2, 0x80, 0xBF, b - 0xE0⟩)
  else if b = 0xF0 then ([], some ⟨3, 0x90, 0xBF, 0⟩)
  else if 0xF1 ≤ b ∧ b ≤ 0xF3 then ([], some ⟨3, 0x80, 0xBF, b - 0xF0⟩)
  else if b = 0xF4 then ([], some ⟨3, 0x80, 0x8F, 4⟩)
  else ([replacement], none)

/-- What a byte gives after the part of a sequence. -/
def continueSequence (s : Sequence) (b : Nat) : List Char × Option Sequence :=
  if s.low ≤ b ∧ b ≤ s.high then
    let bits := 64 * s.bits + (b - 0x80)
    if s.left ≤ 1 then ([Char.ofNat bits], none)
    else ([], some ⟨s.left - 1, 0x80, 0xBF, bits⟩)
  else
    let (cs, next) := beginSequence b
    (replacement :: cs, next)

def decodeFrom : Option Sequence → List UInt8 → List Char
  | none, [] => []
  | some _, [] => [replacement]
  | state, b :: bs =>
    let (cs, next) :=
      match state with
      | none => beginSequence b.toNat
      | some s => continueSequence s b.toNat
    cs ++ decodeFrom next bs

/-- The characters of any bytes. -/
def decodeUtf8 (bs : List UInt8) : List Char := decodeFrom none bs

end FeedPoller.Text

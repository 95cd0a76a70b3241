/-! Integers in text: an optional sign and decimal digits, nothing else. -/

namespace FeedPoller.Text

/-- Decimal digits as a natural; none when there are none or another character is among them. -/
def nat? (cs : List Char) : Option Nat :=
  if cs.isEmpty || !cs.all Char.isDigit then none
  else some (cs.foldl (fun n c => 10 * n + (c.toNat - 48)) 0)

/-- Digits of a base up to 16, as a natural. -/
def natInBase? (base : Nat) (cs : List Char) : Option Nat :=
  if cs.isEmpty then none
  else cs.foldlM (fun n c => do
    let d ←
      if c.isDigit then some (c.toNat - 48)
      else if 'a' ≤ c ∧ c ≤ 'f' then some (c.toNat - 87)
      else if 'A' ≤ c ∧ c ≤ 'F' then some (c.toNat - 55)
      else none
    if d < base then some (base * n + d) else none) 0

/-- An integer with an optional sign, within 64 signed bits. -/
def int64? (cs : List Char) : Option Int := do
  let n : Int ←
    match cs with
    | '-' :: ds => (fun n : Nat => -(n : Int)) <$> nat? ds
    | '+' :: ds => (fun n : Nat => (n : Int)) <$> nat? ds
    | ds => (fun n : Nat => (n : Int)) <$> nat? ds
  if -0x8000000000000000 ≤ n ∧ n < 0x8000000000000000 then some n else none

end FeedPoller.Text

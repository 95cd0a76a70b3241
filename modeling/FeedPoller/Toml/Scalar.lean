import FeedPoller.Node
import FeedPoller.Toml.DateTime

/-! The unquoted values of TOML: truth values, integers, floats, dates and times. -/

namespace FeedPoller.Toml

/-- The key of the one-entry table that stands for a date or time. -/
def dateTimeKey : String := "$__toml_private_datetime"

namespace Scalar

/-- The characters an unquoted value is made of. -/
def isPart (c : Char) : Bool :=
  c.isAlphanum || c == '+' || c == '-' || c == '_' || c == '.' || c == ':'

/-- Digits without the underscores, each of which has a digit on both sides. -/
def ungroup (isDigit : Char → Bool) : List Char → Option (List Char)
  | [] => none
  | [c] => if isDigit c then some [c] else none
  | c :: '_' :: cs => if isDigit c then (c :: ·) <$> ungroup isDigit cs else none
  | c :: cs => if isDigit c then (c :: ·) <$> ungroup isDigit cs else none

/-- A sign and what follows it. -/
def signed : List Char → Bool × List Char
  | '-' :: cs => (true, cs)
  | '+' :: cs => (false, cs)
  | cs => (false, cs)

/-- Decimal digits without a needless leading zero. -/
def whole? (cs : List Char) : Option (List Char) := do
  let ds ← ungroup Char.isDigit cs
  if 1 < ds.length ∧ ds.head? = some '0' then none else some ds

/-- Integers are read as far as 128 bits. -/
def integer (negative : Bool) (n : Nat) : Option Node :=
  if n < 0x100000000000000000000000000000000 then some (.int (if negative then -(n : Int) else n)) else none

/-- An integer in a base that its first two characters tell. -/
def based? (base : Nat) (cs : List Char) : Option Node := do
  let ds ← ungroup (fun c => (Text.natInBase? base [c]).isSome) cs
  integer false (← Text.natInBase? base ds)

/-- The exponent of a float, after its letter. -/
def exponent? (cs : List Char) : Option Int := do
  let (negative, cs) := signed cs
  let n ← Text.nat? (← ungroup Char.isDigit cs)
  return if negative then -(n : Int) else n

def isExponentMark (c : Char) : Bool := c == 'e' || c == 'E'

/-- The decimal digits of a float and its exponent. -/
def decimal? (cs : List Char) : Option (List Char × Int) := do
  let digits := cs.takeWhile (! isExponentMark ·)
  let e ←
    match cs.dropWhile (! isExponentMark ·) with
    | [] => some 0
    | _ :: cs => exponent? cs
  let ds ← whole? (digits.takeWhile (· != '.'))
  match digits.dropWhile (· != '.') with
  | [] => if digits.length < cs.length then return (ds, e) else none
  | _ :: cs =>
    let fs ← ungroup Char.isDigit cs
    return (ds ++ fs, e - fs.length)

/-- A float, or none when it is past the greatest one. -/
def float? (negative : Bool) (cs : List Char) : Option Node := do
  let (ds, e) ← decimal? cs
  Node.float <$> Binary64.ofDecimal negative (← Text.nat? ds) e

/-- A number after its sign. -/
def number? (negative : Bool) (cs : List Char) : Option Node :=
  if cs == ['i', 'n', 'f'] || cs == ['n', 'a', 'n'] then some .notFinite
  else
    match whole? cs with
    | some ds => do integer negative (← Text.nat? ds)
    | none => float? negative cs

/-- The value of the characters of an unquoted value. -/
def ofChars? (cs : List Char) : Option Node :=
  match cs with
  | ['t', 'r', 'u', 'e'] => some (.bool true)
  | ['f', 'a', 'l', 's', 'e'] => some (.bool false)
  | '0' :: 'x' :: ds => based? 16 ds
  | '0' :: 'o' :: ds => based? 8 ds
  | '0' :: 'b' :: ds => based? 2 ds
  | _ =>
    match DateTime.ofChars? cs with
    | some d => some (.table [(some dateTimeKey, .str d.text)])
    | none =>
      let (negative, ds) := signed cs
      number? negative ds

/-- Whether a date ends at `cs`, and a time may follow after one space. -/
def dateBeforeTime (part cs : List Char) : Bool :=
  match DateTime.date? part, cs with
  | some (_, []), ' ' :: c :: _ => c.isDigit
  | _, _ => false

/-- The unquoted value at the head of a text, and what follows it. -/
def next (cs : List Char) : Option (Node × List Char) :=
  let part := cs.takeWhile isPart
  let rest := cs.dropWhile isPart
  if dateBeforeTime part rest then
    let rest := rest.drop 1
    (·, rest.dropWhile isPart) <$> ofChars? (part ++ ' ' :: rest.takeWhile isPart)
  else (·, rest) <$> ofChars? part

end Scalar
end FeedPoller.Toml

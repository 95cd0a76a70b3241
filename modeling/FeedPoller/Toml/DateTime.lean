import FeedPoller.Text.Number

/-! Dates and times in TOML. A date, a time, or both with an optional offset; `text` writes them in
one form, whatever delimiter and letter case they were written with. -/

namespace FeedPoller.Toml

structure Date where
  year : Nat
  month : Nat
  day : Nat
  deriving DecidableEq, Repr

/-- The fraction of the second is in nanoseconds; digits beyond the ninth are dropped. -/
structure Time where
  hour : Nat
  minute : Nat
  second : Option Nat
  nanos : Option Nat
  deriving DecidableEq, Repr

/-- The offset from universal time in minutes; none stands for the letter `Z`. -/
abbrev Offset := Option Int

structure DateTime where
  date : Option Date
  time : Option Time
  offset : Option Offset
  deriving DecidableEq, Repr

namespace DateTime

/-! ## Reading -/

/-- A number of exactly so many digits. -/
def digits (n : Nat) (cs : List Char) : Option (Nat × List Char) :=
  if (cs.takeWhile Char.isDigit).length = n then (·, cs.drop n) <$> Text.nat? (cs.take n)
  else none

def skip (c : Char) : List Char → Option (List Char)
  | d :: r => if d == c then some r else none
  | [] => none

def isLeap (year : Nat) : Bool := year % 4 == 0 && (year % 100 != 0 || year % 400 == 0)

def daysIn (year month : Nat) : Nat :=
  match month with
  | 2 => if isLeap year then 29 else 28
  | 4 | 6 | 9 | 11 => 30
  | _ => 31

def date? (cs : List Char) : Option (Date × List Char) := do
  let (year, cs) ← digits 4 cs
  let (month, cs) ← digits 2 (← skip '-' cs)
  let (day, cs) ← digits 2 (← skip '-' cs)
  if 1 ≤ month ∧ month ≤ 12 ∧ 1 ≤ day ∧ day ≤ daysIn year month then
    return (⟨year, month, day⟩, cs)
  none

/-- The nanoseconds of a fraction. -/
def nanosOf (ds : List Char) : Option Nat :=
  Text.nat? (ds.take 9 ++ List.replicate (9 - ds.length) '0')

/-- The fraction after the seconds. -/
def fraction? : List Char → Option (Option Nat × List Char)
  | '.' :: cs =>
    let ds := cs.takeWhile Char.isDigit
    if ds.isEmpty then none
    else (fun n => (some n, cs.dropWhile Char.isDigit)) <$> nanosOf ds
  | cs => some (none, cs)

/-- A time; seconds may be left out, and 60 stands for a leap second. -/
def time? (cs : List Char) : Option (Time × List Char) := do
  let (hour, cs) ← digits 2 cs
  let (minute, cs) ← digits 2 (← skip ':' cs)
  if 23 < hour ∨ 59 < minute then none
  match cs with
  | ':' :: cs =>
    let (second, cs) ← digits 2 cs
    let (nanos, cs) ← fraction? cs
    if 60 < second then none else return (⟨hour, minute, some second, nanos⟩, cs)
  | cs => return (⟨hour, minute, none, none⟩, cs)

/-- The offset that ends a date with a time. -/
def offset? : List Char → Option (Option Offset)
  | [] => some none
  | ['Z'] | ['z'] => some (some none)
  | c :: cs => do
    let sign : Int ← if c == '+' then some 1 else if c == '-' then some (-1) else none
    let (hours, cs) ← digits 2 cs
    let (minutes, cs) ← digits 2 (← skip ':' cs)
    if 23 < hours ∨ 59 < minutes ∨ !cs.isEmpty then none
    return some (some (sign * (60 * hours + minutes)))

/-- A whole text as a date or time. -/
def ofChars? (cs : List Char) : Option DateTime :=
  match date? cs with
  | some (date, []) => some ⟨some date, none, none⟩
  | some (date, c :: cs) => do
    if c == 'T' || c == 't' || c == ' ' then
      let (time, cs) ← time? cs
      return ⟨some date, some time, ← offset? cs⟩
    none
  | none =>
    match time? cs with
    | some (time, []) => some ⟨none, some time, none⟩
    | _ => none

/-! ## Writing -/

/-- A number with leading zeros up to a width. -/
def padded (width n : Nat) : String :=
  let ds := Nat.toDigits 10 n
  String.ofList (List.replicate (width - ds.length) '0' ++ ds)

def dateText (d : Date) : String :=
  padded 4 d.year ++ "-" ++ padded 2 d.month ++ "-" ++ padded 2 d.day

/-- The digits of a fraction, one at least, without trailing zeros. -/
def fractionText (nanos : Nat) : String :=
  let ds := ((padded 9 nanos).toList.reverse.dropWhile (· == '0')).reverse
  if ds.isEmpty then "0" else String.ofList ds

def timeText (t : Time) : String :=
  padded 2 t.hour ++ ":" ++ padded 2 t.minute ++
    (match t.second with | some s => ":" ++ padded 2 s | none => "") ++
    (match t.nanos with | some n => "." ++ fractionText n | none => "")

def offsetText : Offset → String
  | none => "Z"
  | some m =>
    (if m < 0 then "-" else "+") ++ padded 2 (m.natAbs / 60) ++ ":" ++ padded 2 (m.natAbs % 60)

def text (d : DateTime) : String :=
  (match d.date with | some x => dateText x | none => "") ++
    (if d.date.isSome && d.time.isSome then "T" else "") ++
    (match d.time with | some t => timeText t | none => "") ++
    (match d.offset with | some o => offsetText o | none => "")

end DateTime
end FeedPoller.Toml

import FeedPoller.Binary64.Basic

/-! JSON tokens. `Token.scan` cuts a text into tokens; where the text is no token it gives
`broken` and stops. -/

namespace FeedPoller.Json

/-- A string or a number is `none` when it is correctly written but has no value: half of a
surrogate pair, or a number past every float. -/
inductive Token where
  | mark (c : Char)
  | null
  | bool (b : Bool)
  | int (n : Int)
  | float (x : Option Binary64)
  | str (s : Option String)
  | broken
  deriving Repr, Inhabited

def isSpace (c : Char) : Bool := c == ' ' || c == '\t' || c == '\n' || c == '\r'

def isMark (c : Char) : Bool :=
  c == '[' || c == ']' || c == '\x7b' || c == '\x7d' || c == ',' || c == ':'

/-! ## Numbers -/

/-- A number as written: digits before and after the point, sign and digits of the exponent. -/
structure Numeral where
  negative : Bool
  whole : List Char
  fraction : Option (List Char)
  exponent : Option (Bool × List Char)
  deriving Repr

namespace Numeral

def digitValue (c : Char) : Nat := c.toNat - '0'.toNat

def natOf (ds : List Char) : Nat := ds.foldl (fun n c => 10 * n + digitValue c) 0

/-- The digits that keep the significand within 64 bits, and those left over from there on. -/
def gather : Nat → List Char → Nat × List Char
  | n, [] => (n, [])
  | n, c :: cs =>
    if 10 * n + digitValue c < 0x10000000000000000 then gather (10 * n + digitValue c) cs else (n, c :: cs)

/-- The power of ten nearest to `10 ^ k`, `k` at most 308. -/
def tenTo (k : Nat) : Binary64 :=
  (Binary64.ofNat (Nat.pow 10 k)).getD (Binary64.zero false)

/-- `x * 10 ^ e`, rounded after each multiplication or division by a power of ten up to 308. Below
that range a number becomes zero after two steps. -/
def scale : Nat → Binary64 → Int → Option Binary64
  | 0, _, _ => none
  | fuel + 1, x, e =>
    if e.natAbs ≤ 308 then
      if 0 ≤ e then x.mul (tenTo e.toNat) else x.div (tenTo e.natAbs)
    else if x.isZero then some x
    else if 0 ≤ e then none
    else do scale fuel (← x.div (tenTo 308)) (e + 308)

/-- The float of a significand and a decimal exponent. -/
def toFloat (negative : Bool) (significand : Nat) (e : Int) : Option Binary64 := do
  let x ← Binary64.ofNat significand
  let y ← scale 4 x e
  return { y with negative }

/-- The greatest exponent that is counted; a longer one means zero or no float. -/
def maxWrittenExponent : Nat := 0x7fffffff

/-- Integers stay integers when they fit 64 bits; `-0` and all other numbers are floats made of
the leading digits that fit 64 bits. -/
def token (x : Numeral) : Token :=
  let (n, left) := gather 0 x.whole
  match x.fraction, x.exponent, left with
  | none, none, [] =>
    if !x.negative then .int n
    else if n = 0 ∨ 0x8000000000000000 < n then .float (toFloat true n 0)
    else .int (-n)
  | _, _, _ =>
    let digits := x.fraction.getD []
    let (n, rest) := gather n digits
    let e : Int := left.length - (digits.length - rest.length : Nat)
    match x.exponent with
    | none => .float (toFloat x.negative n e)
    | some (down, ds) =>
      let k := natOf ds
      if maxWrittenExponent < k then
        if n ≠ 0 ∧ !down then .float none else .float (some (Binary64.zero x.negative))
      else .float (toFloat x.negative n (if down then e - k else e + k))

/-- The digits after a point; none when there are none. -/
def scanFraction : List Char → Option (Option (List Char) × List Char)
  | '.' :: cs =>
    let ds := cs.takeWhile Char.isDigit
    if ds.isEmpty then none else some (some ds, cs.dropWhile Char.isDigit)
  | cs => some (none, cs)

/-- An exponent's sign, down or not, and what follows it. -/
def scanSign : List Char → Bool × List Char
  | '+' :: cs => (false, cs)
  | '-' :: cs => (true, cs)
  | cs => (false, cs)

def scanExponent : List Char → Option (Option (Bool × List Char) × List Char)
  | c :: cs =>
    if c == 'e' || c == 'E' then
      let (down, cs) := scanSign cs
      let ds := cs.takeWhile Char.isDigit
      if ds.isEmpty then none else some (some (down, ds), cs.dropWhile Char.isDigit)
    else some (none, c :: cs)
  | [] => some (none, [])

/-- Digits without a needless leading zero. -/
def wholeOk : List Char → Bool
  | [] => false
  | ['0'] => true
  | c :: _ => c != '0'

/-- A number after its sign, and what follows it. -/
def scan (negative : Bool) (cs : List Char) : Option (Numeral × List Char) := do
  let whole := cs.takeWhile Char.isDigit
  if !wholeOk whole then none
  let (fraction, cs) ← scanFraction (cs.dropWhile Char.isDigit)
  let (exponent, cs) ← scanExponent cs
  return (⟨negative, whole, fraction, exponent⟩, cs)

end Numeral

/-! ## Strings -/

def hexValue (c : Char) : Option Nat :=
  if c.isDigit then some (c.toNat - 48)
  else if 'a' ≤ c ∧ c ≤ 'f' then some (c.toNat - 87)
  else if 'A' ≤ c ∧ c ≤ 'F' then some (c.toNat - 55)
  else none

def hex4 (a b c d : Char) : Option Nat := do
  return 4096 * (← hexValue a) + 256 * (← hexValue b) + 16 * (← hexValue c) + (← hexValue d)

/-- A character of a string, or a 16-bit unit given by its number. -/
inductive Part where
  | char (c : Char)
  | unit (n : Nat)
  deriving Repr

/-- The character that an escape of one letter stands for. -/
def simpleEscape : Char → Option Char
  | '"' => some '"'
  | '\\' => some '\\'
  | '/' => some '/'
  | 'b' => some '\x08'
  | 'f' => some '\x0c'
  | 'n' => some '\n'
  | 'r' => some '\r'
  | 't' => some '\t'
  | _ => none

/-- The parts of a string up to its closing quote, and what follows. -/
def scanParts : List Char → Option (List Part × List Char)
  | [] => none
  | '"' :: cs => some ([], cs)
  | '\\' :: 'u' :: a :: b :: c :: d :: cs => do
    let n ← hex4 a b c d
    let (parts, rest) ← scanParts cs
    return (.unit n :: parts, rest)
  | '\\' :: e :: cs => do
    let c ← simpleEscape e
    let (parts, rest) ← scanParts cs
    return (.char c :: parts, rest)
  | c :: cs => do
    if c.val < 0x20 || c == '\\' then none
    let (parts, rest) ← scanParts cs
    return (.char c :: parts, rest)

def isHigh (n : Nat) : Bool := 0xD800 ≤ n && n < 0xDC00
def isLow (n : Nat) : Bool := 0xDC00 ≤ n && n < 0xE000

/-- The characters of the parts; none when a surrogate unit stands without its partner. -/
def joinParts : List Part → Option (List Char)
  | [] => some []
  | .char c :: rest => (c :: ·) <$> joinParts rest
  | .unit h :: .unit l :: rest =>
    if isHigh h && isLow l then
      (Char.ofNat (0x10000 + (h - 0xD800) * 0x400 + (l - 0xDC00)) :: ·) <$> joinParts rest
    else if isHigh h || isLow h then none
    else (Char.ofNat h :: ·) <$> joinParts (.unit l :: rest)
  | .unit n :: rest =>
    if isHigh n || isLow n then none else (Char.ofNat n :: ·) <$> joinParts rest

/-! ## Tokens -/

def word? (head : List Char) (cs : List Char) : Option (List Char) :=
  if cs.take head.length == head then some (cs.drop head.length) else none

/-- The token at the head of a text that starts with no blank, and what follows it. -/
def Token.next (c : Char) (cs : List Char) : Option (Token × List Char) :=
  if isMark c then some (.mark c, cs)
  else if c == '"' then do
    let (parts, rest) ← scanParts cs
    return (.str ((joinParts parts).map String.ofList), rest)
  else if c == '-' then do
    let (x, rest) ← Numeral.scan true cs
    return (x.token, rest)
  else if c.isDigit then do
    let (x, rest) ← Numeral.scan false (c :: cs)
    return (x.token, rest)
  else if c == 'n' then (Token.null, ·) <$> word? ['u', 'l', 'l'] cs
  else if c == 't' then (Token.bool true, ·) <$> word? ['r', 'u', 'e'] cs
  else if c == 'f' then (Token.bool false, ·) <$> word? ['a', 'l', 's', 'e'] cs
  else none

/-- All tokens of a text. Each one takes a character at least, so `fuel` may be the length. -/
def Token.scanFrom : Nat → List Char → List Token
  | 0, _ => []
  | fuel + 1, cs =>
    match cs.dropWhile isSpace with
    | [] => []
    | c :: cs =>
      match Token.next c cs with
      | none => [.broken]
      | some (t, rest) => t :: Token.scanFrom fuel rest

def Token.scan (text : List Char) : List Token := Token.scanFrom text.length text

end FeedPoller.Json

import FeedPoller.Text.Number

/-! The quoted strings of TOML: basic ones with escapes, literal ones without, and both over several
lines. -/

namespace FeedPoller.Toml

/-- Tabs are the one control that may stand as it is. -/
def isPlain (c : Char) : Bool := (c == '\t' || 0x20 ≤ c.val) && c.val != 0x7F

def isSpace (c : Char) : Bool := c == ' ' || c == '\t'

namespace Quoted

/-- The character of a code point, which is no half of a surrogate pair. -/
def scalar? (n : Nat) : Option Char :=
  if n.isValidChar then some (Char.ofNat n) else none

def simpleEscape : Char → Option Char
  | 'b' => some '\x08'
  | 't' => some '\t'
  | 'n' => some '\n'
  | 'f' => some '\x0c'
  | 'r' => some '\r'
  | 'e' => some '\x1b'
  | '"' => some '"'
  | '\\' => some '\\'
  | _ => none

/-- How many hexadecimal digits an escape has. -/
def hexDigits : Char → Option Nat
  | 'x' => some 2
  | 'u' => some 4
  | 'U' => some 8
  | _ => none

/-- The character of an escape, after its backslash, and what follows. -/
def escape : List Char → Option (Char × List Char)
  | [] => none
  | e :: cs =>
    match hexDigits e with
    | none => (·, cs) <$> simpleEscape e
    | some n => do
      if cs.length < n then none
      let c ← scalar? (← Text.natInBase? 16 (cs.take n))
      return (c, cs.drop n)

/-- A basic string up to its quote. Each step takes a character, so `fuel` may be the length. -/
def basic : Nat → List Char → Option (List Char × List Char)
  | 0, _ => none
  | fuel + 1, cs =>
    match cs with
    | [] => none
    | '"' :: cs => some ([], cs)
    | '\\' :: cs => do
      let (c, cs) ← escape cs
      let (s, rest) ← basic fuel cs
      return (c :: s, rest)
    | c :: cs => do
      if !isPlain c then none
      let (s, rest) ← basic fuel cs
      return (c :: s, rest)

/-- A literal string up to its quote. -/
def literal : List Char → Option (List Char × List Char)
  | [] => none
  | '\'' :: cs => some ([], cs)
  | c :: cs => do
    if !isPlain c then none
    let (s, rest) ← literal cs
    return (c :: s, rest)

/-- Up to two quotes that stand before the closing three belong to the string. -/
def closing (q : Char) (cs : List Char) : Option (List Char × List Char) :=
  let n := (cs.takeWhile (· == q)).length
  if n < 3 then none
  else
    let inside := min (n - 3) 2
    some (List.replicate inside q, cs.drop (inside + 3))

/-- The blanks and newlines that a backslash at the end of a line takes with it. -/
def continued : List Char → List Char
  | '\r' :: '\n' :: cs => continued cs
  | c :: cs => if isSpace c || c == '\n' then continued cs else c :: cs
  | [] => []

/-- Whether only blanks stand before the end of the line. -/
def endsLine : List Char → Bool
  | '\n' :: _ => true
  | '\r' :: '\n' :: _ => true
  | c :: cs => isSpace c && endsLine cs
  | [] => false

/-- A string over several lines up to its three quotes; in the basic form (`escapes`) a backslash
begins an escape or takes the end of the line with it. -/
def lines (q : Char) (escapes : Bool) : Nat → List Char → Option (List Char × List Char)
  | 0, _ => none
  | fuel + 1, cs =>
    match closing q cs with
    | some done => some done
    | none =>
      match cs with
      | [] => none
      | '\r' :: '\n' :: cs => do
        let (s, rest) ← lines q escapes fuel cs
        return ('\r' :: '\n' :: s, rest)
      | c :: cs =>
        if c == '\\' && escapes then
          if endsLine cs then lines q escapes fuel (continued cs)
          else do
            let (c, cs) ← escape cs
            let (s, rest) ← lines q escapes fuel cs
            return (c :: s, rest)
        else if isPlain c || c == '\n' then do
          let (s, rest) ← lines q escapes fuel cs
          return (c :: s, rest)
        else none

/-- A newline right after the opening quotes is not part of the string. -/
def dropNewline : List Char → List Char
  | '\n' :: cs => cs
  | '\r' :: '\n' :: cs => cs
  | cs => cs

/-- A string on one line, as a key may be. -/
def single : List Char → Option (String × List Char)
  | '"' :: cs => (fun (s, rest) => (String.ofList s, rest)) <$> basic (cs.length + 1) cs
  | '\'' :: cs => (fun (s, rest) => (String.ofList s, rest)) <$> literal cs
  | _ => none

/-- Any quoted string at the head of a text, and what follows it. -/
def next (cs : List Char) : Option (String × List Char) :=
  match cs with
  | '"' :: '"' :: '"' :: cs =>
    (fun (s, rest) => (String.ofList s, rest)) <$> lines '"' true (cs.length + 1) (dropNewline cs)
  | '\'' :: '\'' :: '\'' :: cs =>
    (fun (s, rest) => (String.ofList s, rest)) <$> lines '\'' false (cs.length + 1) (dropNewline cs)
  | cs => single cs

end Quoted
end FeedPoller.Toml

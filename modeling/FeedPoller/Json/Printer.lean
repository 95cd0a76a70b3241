import FeedPoller.Json.Value
import FeedPoller.Binary64.Shortest

/-! JSON text: no blanks, and only those characters escaped that have to be. -/

namespace FeedPoller.Json

def hexDigit (n : Nat) : Char := if n < 10 then Char.ofNat (48 + n) else Char.ofNat (87 + n)

/-- Quotes, backslashes and controls are escaped, five of the controls by a letter. -/
def escapeChar (c : Char) : List Char :=
  match c with
  | '"' => ['\\', '"']
  | '\\' => ['\\', '\\']
  | '\x08' => ['\\', 'b']
  | '\x0c' => ['\\', 'f']
  | '\n' => ['\\', 'n']
  | '\r' => ['\\', 'r']
  | '\t' => ['\\', 't']
  | c =>
    if c.toNat < 0x20 then
      ['\\', 'u', '0', '0', hexDigit (c.toNat / 16), hexDigit (c.toNat % 16)]
    else [c]

def quote (s : String) : List Char :=
  '"' :: s.toList.flatMap escapeChar ++ ['"']

mutual
def Value.chars : Value → List Char
  | .null => ['n', 'u', 'l', 'l']
  | .bool true => ['t', 'r', 'u', 'e']
  | .bool false => ['f', 'a', 'l', 's', 'e']
  | .int n => (toString n).toList
  | .float x => x.text.toList
  | .str s => quote s
  | .list items => '[' :: itemChars items ++ [']']
  | .object fields => '\x7b' :: fieldChars fields ++ ['\x7d']

def itemChars : List Value → List Char
  | [] => []
  | [v] => v.chars
  | v :: w :: rest => v.chars ++ ',' :: itemChars (w :: rest)

def fieldChars : List (String × Value) → List Char
  | [] => []
  | [(k, v)] => quote k ++ ':' :: v.chars
  | (k, v) :: f :: rest => quote k ++ ':' :: v.chars ++ ',' :: fieldChars (f :: rest)
end

/-- The compact text of a value. -/
def Value.text (v : Value) : String := String.ofList v.chars

/-- A string as it is, any other value as its JSON text. -/
def Value.plain : Value → String
  | .str s => s
  | v => v.text

end FeedPoller.Json

import FeedPoller.Text.Number

/-! References in XML texts: the five names that need no declaration, and characters by number. -/

namespace FeedPoller.Xml

/-- The character of a name. -/
def namedCharacter (name : List Char) : Option Char :=
  match name with
  | ['l', 't'] => some '<'
  | ['g', 't'] => some '>'
  | ['a', 'm', 'p'] => some '&'
  | ['a', 'p', 'o', 's'] => some '\''
  | ['q', 'u', 'o', 't'] => some '"'
  | _ => none

/-- A character by its number, which is not zero and no half of a surrogate pair. -/
def numberedCharacter (digits : List Char) : Option Char := do
  let n ←
    match digits with
    | 'x' :: hex => Text.natInBase? 16 hex
    | decimal => Text.nat? decimal
  if n ≠ 0 ∧ n.isValidChar then some (Char.ofNat n) else none

/-- What a reference stands for, given what is between its marks. -/
def reference (inside : List Char) : Option Char :=
  match inside with
  | '#' :: digits => numberedCharacter digits
  | name => namedCharacter name

def replaceFrom : Nat → List Char → Option (List Char)
  | 0, _ => none
  | fuel + 1, cs =>
    match cs with
    | [] => some []
    | '&' :: cs =>
      match cs.dropWhile (fun c => c != ';' && c != '&') with
      | ';' :: rest => do
        let c ← reference (cs.takeWhile (fun c => c != ';' && c != '&'))
        return c :: (← replaceFrom fuel rest)
      | _ => none
    | c :: cs => do return c :: (← replaceFrom fuel cs)

/-- Puts the characters that references stand for; none when one stands for nothing. -/
def replaceReferences (raw : List Char) : Option (List Char) := replaceFrom (raw.length + 1) raw

end FeedPoller.Xml

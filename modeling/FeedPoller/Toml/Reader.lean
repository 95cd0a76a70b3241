import FeedPoller.Toml.Quoted
import FeedPoller.Toml.Scalar
import FeedPoller.Toml.Table

/-! Reading TOML: the tree of a whole document, or none when the text is not TOML. -/

namespace FeedPoller.Toml

/-! ## Blanks and keys -/

/-- Passes over blanks, newlines and comments. -/
def passLines (inComment : Bool) : List Char → Option (List Char)
  | [] => some []
  | '\n' :: cs => passLines false cs
  | '\r' :: '\n' :: cs => passLines false cs
  | c :: cs =>
    if inComment then if isPlain c then passLines true cs else none
    else if c == '#' then passLines true cs
    else if isSpace c then passLines false cs
    else some (c :: cs)

/-- Passes over what may end a line: blanks, a comment, and the newline or the end of the text. -/
def endLine (inComment : Bool) : List Char → Option (List Char)
  | [] => some []
  | '\n' :: cs => some cs
  | '\r' :: '\n' :: cs => some cs
  | c :: cs =>
    if inComment then if isPlain c then endLine true cs else none
    else if c == '#' then endLine true cs
    else if isSpace c then endLine false cs
    else none

def isBareKey (c : Char) : Bool := c.isAlphanum || c == '_' || c == '-'

/-- One part of a key. -/
def keyPart (cs : List Char) : Option (String × List Char) :=
  let bare := cs.takeWhile isBareKey
  if bare.isEmpty then Quoted.single cs else some (String.ofList bare, cs.dropWhile isBareKey)

/-- The parts of a key before the last, and the last; blanks may stand around each. -/
def key : Nat → List Char → Option (List String × String × List Char)
  | 0, _ => none
  | fuel + 1, cs => do
    let (k, cs) ← keyPart (cs.dropWhile isSpace)
    match cs.dropWhile isSpace with
    | '.' :: cs =>
      let (path, last, cs) ← key fuel cs
      return (k :: path, last, cs)
    | cs => return ([], k, cs)

/-! ## Values -/

/-- How far arrays and inline tables may be nested. -/
def maxDepth : Nat := 80

mutual
/-- A value and what follows it. Each call takes a character, so `fuel` may be their number. -/
def value : Nat → Nat → List Char → Option (Node × List Char)
  | 0, _, _ => none
  | fuel + 1, depth, cs =>
    match cs, depth with
    | '[' :: _, 0 | '\x7b' :: _, 0 => none
    | '[' :: cs, depth + 1 => do
      match ← passLines false cs with
      | ']' :: cs => return (.list [], cs)
      | cs =>
        let (items, cs) ← items fuel depth cs
        return (.list items, cs)
    | '\x7b' :: cs, depth + 1 => do
      match ← passLines false cs with
      | '\x7d' :: cs => return (.table [], cs)
      | cs =>
        let (entries, cs) ← entries fuel depth [] cs
        return (.table (entryNodes entries), cs)
    | '"' :: _, _ | '\'' :: _, _ => (fun (s, cs) => (.str s, cs)) <$> Quoted.next cs
    | cs, _ => Scalar.next cs

/-- The items of an array from here to its end. -/
def items : Nat → Nat → List Char → Option (List Node × List Char)
  | 0, _, _ => none
  | fuel + 1, depth, cs => do
    let (n, cs) ← value fuel depth cs
    match ← passLines false cs with
    | ']' :: cs => return ([n], cs)
    | ',' :: cs =>
      match ← passLines false cs with
      | ']' :: cs => return ([n], cs)
      | cs =>
        let (rest, cs) ← items fuel depth cs
        return (n :: rest, cs)
    | _ => none

/-- The entries of an inline table from here to its end, added to those before. -/
def entries : Nat → Nat → Entries → List Char → Option (Entries × List Char)
  | 0, _, _, _ => none
  | fuel + 1, depth, before, cs => do
    let (path, last, cs) ← key cs.length cs
    match cs with
    | '=' :: cs =>
      let (n, cs) ← value fuel depth (cs.dropWhile isSpace)
      let es ← before.assign path last n .header
      match ← passLines false cs with
      | '\x7d' :: cs => return (es, cs)
      | ',' :: cs =>
        match ← passLines false cs with
        | '\x7d' :: cs => return (es, cs)
        | cs => entries fuel depth es cs
      | _ => none
    | _ => none
end

/-! ## Documents -/

/-- What has been read, and the path of the table whose header was read last. -/
structure Draft where
  entries : Entries := []
  current : List String := []

/-- A header's key up to its closing bracket. -/
def headerKey (cs : List Char) : Option (List String × String × List Char) := do
  let (path, last, cs) ← key cs.length cs
  match cs with
  | ']' :: cs => return (path, last, cs)
  | _ => none

/-- Reads one header or one assignment. -/
def statement (d : Draft) (cs : List Char) : Option (Draft × List Char) :=
  match cs with
  | '[' :: '[' :: cs => do
    let (path, last, cs) ← headerKey cs
    match cs with
    | ']' :: cs => return (⟨← d.entries.appendTable path last, path ++ [last]⟩, ← endLine false cs)
    | _ => none
  | '[' :: cs => do
    let (path, last, cs) ← headerKey cs
    return (⟨← d.entries.openTable path last, path ++ [last]⟩, ← endLine false cs)
  | cs => do
    let (path, last, cs) ← key cs.length cs
    match cs with
    | '=' :: cs =>
      let (n, cs) ← value (cs.length + 1) maxDepth (cs.dropWhile isSpace)
      let es ← d.entries.within false (fun origin es => es.assign path last n origin) d.current
        .header
      return (⟨es, d.current⟩, ← endLine false cs)
    | _ => none

/-- Reads statements to the end of the text; each takes a character at least. -/
def statements : Nat → Draft → List Char → Option Draft
  | 0, _, _ => none
  | fuel + 1, d, cs => do
    match ← passLines false cs with
    | [] => return d
    | cs =>
      let (d, cs) ← statement d cs
      statements fuel d cs

/-- The tree of a document; a byte order mark at its head is passed over. -/
def parse (text : String) : Option Node := do
  let cs :=
    match text.toList with
    | '\ufeff' :: cs => cs
    | cs => cs
  let d ← statements (cs.length + 1) {} cs
  return .table (entryNodes d.entries)

end FeedPoller.Toml

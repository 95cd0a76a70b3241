import FeedPoller.Text.Blank

/-! Cutting an XML text into markup and the texts between. Names and attributes are not examined; only
the ends of each piece are looked for. -/

namespace FeedPoller.Xml

/-- A piece of a document. A `text` is trimmed and not empty, and its references are as they were
written; `aside` is a comment, an instruction or a document type; `broken` is the last piece of a
text that goes on with none of these. -/
inductive Markup where
  | opening (name : List Char)
  | empty (name : List Char)
  | closing (name : List Char)
  | text (raw : List Char)
  | cdata (raw : List Char)
  | aside
  | broken
  deriving DecidableEq, Repr

/-- The blanks of XML. -/
def isSpace (c : Char) : Bool := c == ' ' || c == '\t' || c == '\r' || c == '\n'

/-! ## Tags -/

/-- The characters up to the first `>` outside quotes, and what follows it. -/
def untilBracket : Option Char → List Char → Option (List Char × List Char)
  | _, [] => none
  | none, c :: cs =>
    if c == '>' then some ([], cs)
    else
      let quote := if c == '"' || c == '\'' then some c else none
      (fun (inside, rest) => (c :: inside, rest)) <$> untilBracket quote cs
  | some q, c :: cs =>
    let quote := if c == q then none else some q
    (fun (inside, rest) => (c :: inside, rest)) <$> untilBracket quote cs

/-- The name at the head of a tag: all up to the first blank. -/
def tagName (inside : List Char) : List Char := inside.takeWhile (! isSpace ·)

/-- A tag that opens an element; with a slash at its end it closes the element as well. -/
def elementTag (inside : List Char) : Markup :=
  match inside.reverse with
  | '/' :: back => .empty (tagName back.reverse)
  | _ => .opening (tagName inside)

/-- The name in a closing tag, without the blanks after it, if it is more than blanks. -/
def closingTag (inside : List Char) : Markup :=
  match inside.reverse.dropWhile isSpace with
  | [] => .closing inside
  | back => .closing back.reverse

/-! ## Other markup -/

/-- The characters before the first occurrence of `stop`, and what follows it. -/
def untilText (stop : List Char) : List Char → Option (List Char × List Char)
  | [] => none
  | c :: cs =>
    match Text.dropHead? stop (c :: cs) with
    | some rest => some ([], rest)
    | none => (fun (inside, rest) => (c :: inside, rest)) <$> untilText stop cs

/-- The characters up to the `>` that balances the open brackets. -/
def untilBalanced : Nat → List Char → Option (List Char × List Char)
  | _, [] => none
  | depth, c :: cs =>
    match depth, c with
    | 0, '>' => some ([], cs)
    | depth, c =>
      let depth := if c == '<' then depth + 1 else if c == '>' then depth - 1 else depth
      (fun (inside, rest) => (c :: inside, rest)) <$> untilBalanced depth cs

/-- A comment, after `<!`: two dashes, and two more before the bracket. -/
def comment (cs : List Char) : Option (Markup × List Char) := do
  let cs ← Text.dropHead? ['-', '-'] cs
  let (_, rest) ← untilText ['-', '-', '>'] cs
  return (.aside, rest)

/-- Character data, after `<!`. -/
def characterData (cs : List Char) : Option (Markup × List Char) := do
  let cs ← Text.dropHead? ['[', 'C', 'D', 'A', 'T', 'A', '['] cs
  let (inside, rest) ← untilText [']', ']', '>'] cs
  return (.cdata inside, rest)

/-- A document type, after `<!`; it has a name. -/
def documentType (cs : List Char) : Option (Markup × List Char) := do
  let (inside, rest) ← untilBalanced 0 cs
  let name ← Text.dropHead? ['d', 'o', 'c', 't', 'y', 'p', 'e'] (inside.map Char.toLower)
  if name.all isSpace then none else return (.aside, rest)

/-- The markup after a `<`. An instruction, whose first mark may be its last one too, holds more than
that mark. -/
def markup : List Char → Option (Markup × List Char)
  | '!' :: cs =>
    match cs with
    | '-' :: _ => comment cs
    | '[' :: _ => characterData cs
    | _ => documentType cs
  | '?' :: cs => do
    let (inside, rest) ← untilText ['?', '>'] ('?' :: cs)
    if inside.isEmpty then none else return (.aside, rest)
  | '/' :: cs => do
    let (inside, rest) ← untilBracket none cs
    return (closingTag inside, rest)
  | cs => do
    let (inside, rest) ← untilBracket none cs
    return (elementTag inside, rest)

/-! ## Documents -/

/-- All pieces of a text. Each takes a character at least, so `fuel` may be the length. -/
def Markup.scanFrom : Nat → List Char → List Markup
  | 0, _ => []
  | fuel + 1, cs =>
    match cs with
    | [] => []
    | '<' :: cs =>
      match markup cs with
      | some (m, rest) => m :: scanFrom fuel rest
      | none => [.broken]
    | cs =>
      let raw := Text.trimBy isSpace (cs.takeWhile (· != '<'))
      let rest := cs.dropWhile (· != '<')
      if raw.isEmpty then scanFrom fuel rest else .text raw :: scanFrom fuel rest

/-- All pieces of a text; a byte order mark at its head is passed over. -/
def Markup.scan (cs : List Char) : List Markup :=
  match cs with
  | '\ufeff' :: cs => scanFrom cs.length cs
  | cs => scanFrom cs.length cs

end FeedPoller.Xml

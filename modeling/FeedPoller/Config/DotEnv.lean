import FeedPoller.Config.Files
import FeedPoller.Config.Resolve

/-! A file of variables that are added to the environment, one `NAME=value` to a line. A variable that
is set already stays as it is, and the first line that cannot be read ends the file. -/

namespace FeedPoller.DotEnv

/-! ## Lines

A quoted value may go on over several lines. -/

/-- Where the end of a line finds its value. -/
inductive LineState where
  | complete
  | space
  | escape
  | weak
  | weakEscape
  | strong
  | strongEscape
  deriving DecidableEq

/-- The state after one more character; none where a comment begins. -/
def LineState.step : LineState → Char → Option LineState
  | .escape, _ => some .complete
  | .weakEscape, _ => some .weak
  | .strongEscape, _ => some .strong
  | .weak, c => some (if c == '\\' then .weakEscape else if c == '"' then .complete else .weak)
  | .strong, c =>
    some (if c == '\\' then .strongEscape else if c == '\'' then .complete else .strong)
  | state, c =>
    if state == .space && c == '#' then none
    else if state == .complete && Text.isBlank c && c != '\n' && c != '\r' then some .space
    else if c == '\\' then some .escape
    else if c == '"' then some .weak
    else if c == '\'' then some .strong
    else some .complete

/-- The part of a line before its comment, and the state at its end, none after a comment. -/
def scanLine : LineState → List Char → List Char × Option LineState
  | state, [] => ([], some state)
  | state, c :: cs =>
    match state.step c with
    | none => ([], none)
    | some state =>
      let (kept, last) := scanLine state cs
      (c :: kept, last)

/-- A line without the newline at its end. -/
def dropNewline (cs : List Char) : List Char :=
  match cs.reverse with
  | '\n' :: '\r' :: back => back.reverse
  | '\n' :: back => back.reverse
  | _ => cs

def isComment (cs : List Char) : Bool := (cs.dropWhile Text.isBlank).head? == some '#'

/-- Joins lines, each with its newline, into whole entries; an unreadable line is none, and so is an
entry that the text breaks off. -/
def entries (before : List Char) (state : LineState) :
    List (Option (List Char)) → List (Option (List Char))
  | [] => if state == .complete then [] else [none]
  | none :: _ => [none]
  | some line :: rest =>
    if isComment (before ++ line) then some [] :: entries [] .complete rest
    else
      match scanLine state line with
      | (kept, none) => some (before ++ kept) :: entries [] .complete rest
      | (kept, some .complete) =>
        some (dropNewline (before ++ kept)) :: entries [] .complete rest
      | (kept, some state) => entries (before ++ kept) state rest

/-! ## Values -/

inductive Quote where
  | weak
  | strong
  deriving DecidableEq

/-- A value while it is read: its characters, the last one first, and the variable being named,
with braces or without. -/
structure Draft where
  out : List Char := []
  quote : Option Quote := none
  escaped : Bool := false
  name : Option (Bool × List Char) := none
  ended : Bool := false
  commented : Bool := false

def Draft.push (d : Draft) (c : Char) : Draft := { d with out := c :: d.out }

/-- Puts the value of the variable that was being named. -/
def Draft.substitute (look : String → String) (d : Draft) (name : List Char) : Draft :=
  { d with out := (look (String.ofList name.reverse)).toList.reverse ++ d.out, name := none }

/-- One more character of a value. -/
def Draft.step (look : String → String) (d : Draft) (c : Char) : Option Draft :=
  if d.commented then some d
  else if d.ended then
    if c == ' ' || c == '\t' then some d
    else if c == '#' then some { d with commented := true }
    else none
  else if d.escaped then
    let d := { d with escaped := false }
    if c == '\\' || c == '\'' || c == '"' || c == '$' || c == ' ' then some (d.push c)
    else if c == 'n' then some (d.push '\n')
    else none
  else if d.quote == some .strong then
    some (if c == '\'' then { d with quote := none } else d.push c)
  else
    match d.name with
    | some (true, name) =>
      some (if c == '\x7d' then d.substitute look name else { d with name := some (true, c :: name) })
    | some (false, name) =>
      if c.isAlphanum then some { d with name := some (false, c :: name) }
      else if c == '\x7b' && name.isEmpty then some { d with name := some (true, []) }
      else
        let d := d.substitute look name
        some (if c == '$' then { d with name := some (false, []) } else d.push c)
    | none =>
      if c == '$' then some { d with name := some (false, []) }
      else if c == '\\' then some { d with escaped := true }
      else if d.quote == some .weak then
        some (if c == '"' then { d with quote := none } else d.push c)
      else if c == '\'' then some { d with quote := some .strong }
      else if c == '"' then some { d with quote := some .weak }
      else if c == ' ' || c == '\t' then some { d with ended := true }
      else some (d.push c)

/-- A whole value. -/
def value (look : String → String) (cs : List Char) : Option String := do
  let d ← cs.foldlM (Draft.step look) {}
  if d.quote.isSome then none
  match d.name with
  | some (true, _) => none
  | some (false, name) => return String.ofList (d.substitute look name).out.reverse
  | none => return String.ofList d.out.reverse

/-! ## Entries -/

def name (cs : List Char) : Option (String × List Char) :=
  match cs with
  | c :: _ =>
    if c.isAlpha || c == '_' then
      let inName (c : Char) : Bool := c.isAlphanum || c == '_' || c == '.'
      some (String.ofList (cs.takeWhile inName), cs.dropWhile inName)
    else none
  | [] => none

def skipBlanks (cs : List Char) : List Char := cs.dropWhile Text.isBlank

/-- What follows the equals sign. -/
def afterEquals : List Char → Option (List Char)
  | '=' :: cs => some (skipBlanks cs)
  | _ => none

/-- The name at the head of an entry and what follows its equals sign. The word `export` may stand
before the name. -/
def head (cs : List Char) : Option (String × List Char) := do
  let (k, cs) ← name cs
  match afterEquals (skipBlanks cs) with
  | some cs => return (k, cs)
  | none =>
    if k == "export" then
      let (k, cs) ← name (skipBlanks cs)
      return (k, ← afterEquals (skipBlanks cs))
    none

/-- What the entries give: the environment, and the values the file has set so far. -/
structure Load where
  env : Environment
  stored : Named String := []

/-- A variable of the environment, or else of the file; empty when there is none. -/
def Load.look (l : Load) (name : String) : String :=
  ((Named.get? name l.env) <|> (Named.get? name l.stored)).getD ""

/-- Reads one entry. -/
def Load.entry (l : Load) (cs : List Char) : Option Load := do
  let cs := Text.trimBy Text.isBlank cs
  if cs.isEmpty || cs.head? == some '#' then return l
  let (k, cs) ← head cs
  let v ← if cs.isEmpty || cs.head? == some '#' then some "" else value l.look cs
  return {
    env := if (Named.get? k l.env).isSome then l.env else Named.insert k v l.env
    stored := Named.insert k v l.stored }

def Load.run (l : Load) : List (Option (List Char)) → Load
  | [] | none :: _ => l
  | some cs :: rest =>
    match l.entry cs with
    | none => l
    | some l => l.run rest

/-- Cuts bytes after each newline. -/
def cutLines (line : List UInt8) : List UInt8 → List (List UInt8)
  | [] => if line.isEmpty then [] else [line.reverse]
  | b :: bs => if b == 10 then (b :: line).reverse :: cutLines [] bs else cutLines (b :: line) bs

/-- Drops a byte order mark. -/
def dropMark : List UInt8 → List UInt8
  | 0xEF :: 0xBB :: 0xBF :: bs => bs
  | bs => bs

def textLine (bs : List UInt8) : Option (List Char) :=
  String.toList <$> String.fromUTF8? ⟨bs.toArray⟩

/-- The environment with the variables of the file `.env` added, if there is such a file. -/
def load (fs : Files) (env : Environment) : Environment :=
  match fs.locate ".env" with
  | .file content =>
    let lines := (cutLines [] (dropMark content.toList)).map textLine
    (Load.run { env } (entries [] .complete lines)).env
  | _ => env

end FeedPoller.DotEnv

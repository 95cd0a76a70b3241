import FeedPoller.Text.Blank

/-! Media types, as in the header that tells the type of a body. -/

namespace FeedPoller.Http

/-- The names are kept as they were written; letter case does not count in them. -/
structure MediaType where
  type : String
  subtype : String
  structured : Option String
  params : List (String × String)
  deriving DecidableEq, Repr

namespace MediaType

/-- The characters of names and plain values. -/
def isToken (c : Char) : Bool :=
  c.isAlphanum || (c.val < 0x80 && "!#$%&'+-.^_\x60|~".toList.contains c)

/-- The characters of quoted values. -/
def isQuotable (c : Char) : Bool := 0x20 ≤ c.val && c.val != 0x7F

/-- The value of a parameter and what follows it, after the semicolon if there is one. -/
def value? : List Char → Option (List Char × List Char)
  | '"' :: cs =>
    let v := cs.takeWhile fun c => c != '"' && isQuotable c
    match cs.drop v.length with
    | '"' :: cs =>
      match v, cs.dropWhile (· == ' ') with
      | [], _ => none
      | v, [] => some (v, [])
      | v, ';' :: cs => some (v, cs)
      | _, _ => none
    | _ => none
  | cs =>
    let v := cs.takeWhile isToken
    match v, cs.drop v.length with
    | v, [] => some (v, [])
    | [], _ => none
    | v, ';' :: cs => some (v, cs)
    | _, _ => none

/-- The parameters from here on. Each takes a character at least, so `fuel` may be the length. -/
def params? : Nat → List Char → Option (List (String × String))
  | 0, _ => some []
  | fuel + 1, cs =>
    match cs.dropWhile (· == ' ') with
    | [] => some []
    | cs => do
      let name := cs.takeWhile isToken
      match name, cs.drop name.length with
      | [], _ => none
      | name, '=' :: cs =>
        let (v, cs) ← value? cs
        return (String.ofList name, String.ofList v) :: (← params? fuel cs)
      | _, _ => none

/-- The subtype before its last plus sign, and what follows that. -/
def splitPlus (cs : List Char) : List Char × Option (List Char) :=
  let tail := (cs.reverse.takeWhile (· != '+')).reverse
  let head := cs.take (cs.length - tail.length - 1)
  if tail.length = cs.length || head.isEmpty then (cs, none) else (head, some tail)

def ofString? (s : String) : Option MediaType := do
  let cs := s.toList
  let type := cs.takeWhile isToken
  match type, cs.drop type.length with
  | [], _ => none
  | type, '/' :: cs =>
    let sub := cs.takeWhile isToken
    let (subtype, structured) := splitPlus sub
    let params ←
      match sub, cs.drop sub.length with
      | _, [] => some []
      | [], _ => none
      | _, ';' :: cs => params? (cs.length + 1) cs
      | _, _ => none
    return ⟨String.ofList type, String.ofList subtype, structured.map String.ofList, params⟩
  | _, _ => none

/-- The first parameter of a name. -/
def param? (m : MediaType) (name : String) : Option String :=
  (m.params.find? fun p => Text.lower p.1 == name).map (·.2)

/-- JSON itself, or a type whose structure is JSON. -/
def isJson (m : MediaType) : Bool :=
  Text.lower m.type == "application" &&
    (Text.lower m.subtype == "json" || m.structured.any (Text.lower · == "json"))

end MediaType
end FeedPoller.Http

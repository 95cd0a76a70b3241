import FeedPoller.Http.Form
import FeedPoller.IpAddress
import FeedPoller.Text.Blank
import FeedPoller.Text.Utf8

/-! Absolute web addresses, brought into one form: steps back in the path are taken, characters that
may not stand in an address are percent-encoded, and the fragment is dropped. -/

namespace FeedPoller.Http

/-- The path is given by its segments; user name, password, segments and query are
percent-encoded. -/
structure Url where
  scheme : String
  username : String
  password : Option String
  host : String
  port : Option Nat
  path : List String
  query : Option String
  deriving DecidableEq, Repr

namespace Url

/-! ## What is escaped -/

def isControl (c : Char) : Bool := c.val < 0x20 || c.val == 0x7F

def escapedInPath (c : Char) : Bool := isControl c || " \"<>\x60#?\x7b\x7d".toList.contains c

def escapedInQuery (c : Char) : Bool := isControl c || " \"#<>'".toList.contains c

def escapedInUser (c : Char) : Bool := escapedInPath c || "/:;=@[\\]^|".toList.contains c

def encodeWith (escaped : Char → Bool) (cs : List Char) : String :=
  String.ofList (Text.percentEncode escaped cs)

/-! ## Parts -/

def isSlash (c : Char) : Bool := c == '/' || c == '\\'

/-- The scheme, in small letters, and what follows its colon. -/
def scheme? (cs : List Char) : Option (String × List Char) := do
  let isPart (c : Char) : Bool := c.isAlphanum || c == '+' || c == '-' || c == '.'
  match cs with
  | c :: _ =>
    if !c.isAlpha then none
    match cs.dropWhile isPart with
    | ':' :: rest => return (Text.lower (String.ofList (cs.takeWhile isPart)), rest)
    | _ => none
  | [] => none

/-- The part before the last `@`, if there is one, and the part after it. -/
def splitUser (cs : List Char) : Option (List Char) × List Char :=
  let host := (cs.reverse.takeWhile (· != '@')).reverse
  if host.length = cs.length then (none, cs)
  else (some (cs.take (cs.length - host.length - 1)), host)

/-- User name and password, with the first colon between them. -/
def user (cs : List Char) : String × Option String :=
  let name := encodeWith escapedInUser (cs.takeWhile (· != ':'))
  match cs.dropWhile (· != ':') with
  | _ :: password =>
    (name, if password.isEmpty then none else some (encodeWith escapedInUser password))
  | [] => (name, none)

/-- The number that a part of a host is, in octal after a zero, or in hexadecimal after `0x`. -/
def hostNumber? (cs : List Char) : Option Nat :=
  match cs with
  | [] => none
  | ['0', 'x'] | ['0', 'X'] => some 0
  | '0' :: 'x' :: ds | '0' :: 'X' :: ds => Text.natInBase? 16 ds
  | '0' :: d :: ds => Text.natInBase? 8 (d :: ds)
  | ds => Text.nat? ds

/-- The parts of a host between its points, without an empty last one. -/
def hostParts (cs : List Char) : List (List Char) :=
  let parts := cs.splitOn '.'
  if 1 < parts.length ∧ parts.getLast? = some [] then parts.dropLast else parts

/-- Whether a host has to be an IPv4 address: its last part is a number. -/
def endsInNumber (cs : List Char) : Bool :=
  match (hostParts cs).getLast? with
  | some part => (!part.isEmpty && part.all Char.isDigit) || (hostNumber? part).isSome
  | none => false

/-- Whether a host is an IPv4 address, where the last of fewer than four numbers stands for all the
bytes that are left. -/
def isV4 (cs : List Char) : Bool :=
  match (hostParts cs).mapM hostNumber? with
  | none => false
  | some ns =>
    match ns.getLast? with
    | none => false
    | some last =>
      ns.length ≤ 4 && ns.dropLast.all (· < 256) && last < Nat.pow 256 (5 - ns.length)

def forbiddenInHost (c : Char) : Bool :=
  isControl c || c == Text.replacement || " #/:<>?@[\\]^|%".toList.contains c

/-- A host by name or by number. -/
def host? (cs : List Char) : Option String :=
  match cs with
  | '[' :: rest =>
    match rest.reverse with
    | ']' :: back => (fun _ => String.ofList cs) <$> IpAddress.v6? back.reverse
    | _ => none
  | _ =>
    let name := (Text.decodeUtf8 (Text.percentDecode cs)).map Char.toLower
    if name.isEmpty || name.any forbiddenInHost || (endsInNumber name && !isV4 name) then none
    else some (String.ofList name)

/-- Host and port. The port may be empty. -/
def hostPort? (cs : List Char) : Option (String × Option Nat) := do
  let host :=
    match cs with
    | '[' :: _ => cs.takeWhile (· != ']') ++ (cs.dropWhile (· != ']')).take 1
    | _ => cs.takeWhile (· != ':')
  let name ← host? host
  match cs.drop host.length with
  | [] | [':'] => return (name, none)
  | ':' :: ds => return (name, some (← SocketAddress.port? ds))
  | _ => none

def isStay (cs : List Char) : Bool :=
  [".", "%2e"].contains (Text.lower (String.ofList cs))

def isBack (cs : List Char) : Bool :=
  ["..", ".%2e", "%2e.", "%2e%2e"].contains (Text.lower (String.ofList cs))

/-- Splits a path at its slashes, of either kind. -/
def segments (cs : List Char) : List (List Char) := cs.splitOnP isSlash

/-- Walks the segments of a path from a place in it. -/
def walk (place : List String) : List (List Char) → List String
  | [] => place
  | [last] =>
    if isBack last then place.dropLast ++ [""]
    else if isStay last then place ++ [""]
    else place ++ [encodeWith escapedInPath last]
  | s :: rest =>
    if isBack s then walk place.dropLast rest
    else if isStay s then walk place rest
    else walk (place ++ [encodeWith escapedInPath s]) rest

/-- The path, which begins with a slash or is empty. -/
def pathOf (cs : List Char) : List String :=
  match cs with
  | [] => [""]
  | _ :: cs => walk [] (segments cs)

/-! ## Whole addresses -/

/-- Without the spaces and controls at its ends and the tabs and newlines anywhere. -/
def cleaned (s : String) : List Char :=
  (Text.trimBy (·.val ≤ 0x20) s.toList).filter fun c => c != '\t' && c != '\n' && c != '\r'

/-- The address that a text is; a host is needed. Any number of slashes may stand before it. -/
def ofString? (s : String) : Option Url := do
  let (scheme, cs) ← scheme? (cleaned s)
  let cs := (cs.takeWhile (· != '#')).dropWhile isSlash
  let endsHost (c : Char) : Bool := isSlash c || c == '?'
  let (info, hostCs) := splitUser (cs.takeWhile (! endsHost ·))
  let (host, port) ← hostPort? hostCs
  let (username, password) := user (info.getD [])
  let rest := cs.dropWhile (! endsHost ·)
  let query :=
    match rest.dropWhile (· != '?') with
    | _ :: q => some (encodeWith escapedInQuery q)
    | [] => none
  return { scheme, username, password, host, port, query, path := pathOf (rest.takeWhile (· != '?')) }

/-- The address that a text means when it stands at `base`: what it leaves out is as it is there. -/
def join? (base : Url) (s : String) : Option Url :=
  let cs := cleaned s
  if (scheme? cs).isSome then ofString? s
  else if 1 < (cs.takeWhile isSlash).length then
    ofString? (base.scheme ++ ":" ++ String.ofList cs)
  else
    let cs := cs.takeWhile (· != '#')
    let pathCs := cs.takeWhile (· != '?')
    let path :=
      match pathCs with
      | [] => base.path
      | c :: rest =>
        if isSlash c then walk [] (segments rest) else walk base.path.dropLast (segments pathCs)
    let query :=
      match cs.dropWhile (· != '?') with
      | _ :: q => some (encodeWith escapedInQuery q)
      | [] => if pathCs.isEmpty then base.query else none
    some { base with path, query }

/-- The port that an address has or that its scheme stands for. -/
def portOrUsual (u : Url) : Nat := u.port.getD (if u.scheme == "https" then 443 else 80)

/-- With parameters added to the query; an empty query is dropped. -/
def withParams (u : Url) (params : List (String × String)) : Url :=
  let before := (u.query.getD "")
  let after := Form.text params
  let query :=
    if before.isEmpty then after
    else if after.isEmpty then before
    else before ++ "&" ++ after
  { u with query := if query.isEmpty then none else some query }

/-- What is asked of the host: the path and the query. -/
def target (u : Url) : String :=
  "/" ++ String.intercalate "/" u.path ++
    (match u.query with
    | some q => "?" ++ q
    | none => "")

end Url
end FeedPoller.Http

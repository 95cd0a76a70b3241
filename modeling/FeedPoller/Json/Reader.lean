import FeedPoller.Json.Token
import FeedPoller.Node

/-! Reading JSON. `Document.ofText` turns any text into a tree; what is wrong with the text stands in
the tree as a `broken` leaf, or in `complete` when something follows the document. Containers
are nested up to `maxDepth`; what lies deeper has to be well formed but has no value. -/

namespace FeedPoller.Json

/-- How many containers may be nested. -/
def maxDepth : Nat := 127

/-! ## Passing over what lies too deep -/

/-- What may come next inside a container. -/
inductive Awaited where
  | firstItem
  | item
  | firstKey
  | key
  | colon
  | more

/-- After a value: nothing more is awaited once the outermost container is closed. -/
def closed? (outer : List Bool) (rest : List Token) (go : List Bool → Option (List Token)) :
    Option (List Token) :=
  if outer.isEmpty then some rest else go outer

/-- Passes to the end of the outermost open container. The stack tells lists (`true`) from objects,
the innermost first. -/
def passOver : List Bool → Awaited → List Token → Option (List Token)
  | _, _, [] => none
  | stack, awaited, t :: ts =>
    match awaited, t, stack with
    | .firstItem, .mark ']', _ :: outer => closed? outer ts fun s => passOver s .more ts
    | .firstKey, .mark '\x7d', _ :: outer => closed? outer ts fun s => passOver s .more ts
    | .firstKey, .str _, _ | .key, .str _, _ => passOver stack .colon ts
    | .colon, .mark ':', _ => passOver stack .item ts
    | .more, .mark ',', true :: _ => passOver stack .item ts
    | .more, .mark ',', false :: _ => passOver stack .key ts
    | .more, .mark ']', true :: outer => closed? outer ts fun s => passOver s .more ts
    | .more, .mark '\x7d', false :: outer => closed? outer ts fun s => passOver s .more ts
    | .firstItem, t, _ | .item, t, _ =>
      match t with
      | .mark '[' => passOver (true :: stack) .firstItem ts
      | .mark '\x7b' => passOver (false :: stack) .firstKey ts
      | .mark _ | .broken => none
      | _ => passOver stack .more ts
    | _, _, _ => none

/-- The node for a container that is too deep to be read. -/
def tooDeep (isList : Bool) (ts : List Token) : Node × List Token :=
  match passOver [isList] (if isList then .firstItem else .firstKey) ts with
  | some rest => (.unreadable, rest)
  | none => (.broken, [])

/-! ## The tree -/

mutual
/-- A node and the tokens after it. Each call takes a token, so `fuel` may be their number. -/
def parseNode : Nat → Nat → List Token → Node × List Token
  | 0, _, _ => (.broken, [])
  | fuel + 1, depth, ts =>
    match ts with
    | .null :: r => (.null, r)
    | .bool b :: r => (.bool b, r)
    | .int n :: r => (.int n, r)
    | .float (some x) :: r => (.float x, r)
    | .str (some s) :: r => (.str s, r)
    | .float none :: r | .str none :: r => (.unreadable, r)
    | .mark '[' :: r =>
      match depth with
      | 0 => tooDeep true r
      | d + 1 =>
        match r with
        | .mark ']' :: r => (.list [], r)
        | _ =>
          let (items, r) := parseItems fuel d r
          (.list items, r)
    | .mark '\x7b' :: r =>
      match depth with
      | 0 => tooDeep false r
      | d + 1 =>
        match r with
        | .mark '\x7d' :: r => (.table [], r)
        | _ =>
          let (entries, r) := parseEntries fuel d r
          (.table entries, r)
    | _ => (.broken, [])

/-- The items of a list from here to its end. -/
def parseItems : Nat → Nat → List Token → List Node × List Token
  | 0, _, _ => ([.broken], [])
  | fuel + 1, depth, ts =>
    match parseNode fuel depth ts with
    | (n, .mark ']' :: r) => ([n], r)
    | (n, .mark ',' :: r) =>
      let (items, r) := parseItems fuel depth r
      (n :: items, r)
    | (n, _) => ([n, .broken], [])

/-- The entries of an object from here to its end. -/
def parseEntries : Nat → Nat → List Token → List (Option String × Node) × List Token
  | 0, _, _ => ([(none, .broken)], [])
  | fuel + 1, depth, ts =>
    match ts with
    | .str key :: .mark ':' :: r =>
      match parseNode fuel depth r with
      | (n, .mark '\x7d' :: r) => ([(key, n)], r)
      | (n, .mark ',' :: r) =>
        let (entries, r) := parseEntries fuel depth r
        ((key, n) :: entries, r)
      | (n, _) => ([(key, n), (none, .broken)], [])
    | .str key :: _ => ([(key, .broken)], [])
    | _ => ([(none, .broken)], [])
end

/-- The tree of a text, and whether the text ends with it. -/
structure Document where
  root : Node
  complete : Bool
  deriving Repr

def Document.ofText (text : String) : Document :=
  let tokens := Token.scan text.toList
  let (root, rest) := parseNode (2 * tokens.length + 2) maxDepth tokens
  ⟨root, rest.isEmpty⟩

/-- Reads a whole document: what follows it is looked at last. -/
def decode {α : Type} (read : Node → Node.Read α) (text : String) : Node.Read α := do
  let doc := Document.ofText text
  let a ← read doc.root
  if doc.complete then return a else .error .malformed

/-- The free-form value of a text. -/
def parse (text : String) : Node.Read Value := decode Node.value text

end FeedPoller.Json

import FeedPoller.Json.Value

/-! A document as it was read, before anything is asked of it. Tables keep their entries in
document order, repeated keys included. A leaf can be `unreadable`: correctly written but without a
value, which matters only to a reader that wants it. Where the text stops being a document
stands one `broken` leaf, and nothing follows it. A reader that walks the tree in order thus meets
the first fault of the text or of the shape, whichever comes first. -/

namespace FeedPoller

/-- `notFinite` is a float that is infinite or not a number. A key that cannot be read is none. -/
inductive Node where
  | null
  | bool (b : Bool)
  | int (n : Int)
  | float (x : Binary64)
  | notFinite
  | str (s : String)
  | list (items : List Node)
  | table (entries : List (Option String × Node))
  | unreadable
  | broken
  deriving Repr, Inhabited

namespace Node

/-- What a reader can find wrong: the text, or the shape of what it says. -/
inductive Fault where
  | malformed
  | mismatched
  deriving DecidableEq, Repr

/-- What reading a part of a document gives. -/
abbrev Read (α : Type) := Except Fault α

/-- The fault of a node that is not what was wanted. -/
def unwanted {α : Type} : Node → Read α
  | .unreadable | .broken => .error .malformed
  | _ => .error .mismatched

/-- Passing over a node: only text that is no document is a fault. -/
def skip : Node → Read Unit
  | .broken => .error .malformed
  | .list items => skipItems items
  | .table entries => skipEntries entries
  | _ => .ok ()
where
  skipItems : List Node → Read Unit
    | [] => .ok ()
    | n :: rest => do skip n; skipItems rest
  skipEntries : List (Option String × Node) → Read Unit
    | [] => .ok ()
    | (_, n) :: rest => do skip n; skipEntries rest

/-! ## Values -/

/-- Whether an integer can stand in a JSON value. -/
def integerFits (n : Int) : Bool := -0x8000000000000000 ≤ n && n < 0x10000000000000000

/-- The node as a free-form value: the last entry of a repeated key stays, and a float that is not
finite becomes null. -/
def value : Node → Read Json.Value
  | .null | .notFinite => .ok .null
  | .bool b => .ok (.bool b)
  | .int n => if integerFits n then .ok (.int n) else .error .mismatched
  | .float x => .ok (.float x)
  | .str s => .ok (.str s)
  | .list items => do return .list (← values items)
  | .table entries => do return .object (← fields entries [])
  | n => n.unwanted
where
  values : List Node → Read (List Json.Value)
    | [] => .ok []
    | n :: rest => do
      let v ← value n
      return v :: (← values rest)
  fields : List (Option String × Node) → Json.Fields → Read Json.Fields
    | [], acc => .ok acc
    | (none, _) :: _, _ => .error .malformed
    | (some k, n) :: rest, acc => do
      let v ← value n
      fields rest (Named.insert k v acc)

/-! ## Wanted shapes -/

def bool? : Node → Read Bool
  | .bool b => .ok b
  | n => n.unwanted

def str? : Node → Read String
  | .str s => .ok s
  | n => n.unwanted

/-- An integer from zero up to, and without, `bound`. -/
def natBelow (bound : Nat) : Node → Read Nat
  | .int n => if 0 ≤ n ∧ n < bound then .ok n.toNat else .error .mismatched
  | n => n.unwanted

/-- Null stands for an absent value. -/
def optional {α : Type} (read : Node → Read α) : Node → Read (Option α)
  | .null => .ok none
  | n => some <$> read n

/-- A table of free-form values. -/
def fields? : Node → Read Json.Fields
  | .table entries => value.fields entries []
  | n => n.unwanted

/-! ## Records

A record is written as a table, or as a list of its fields in their declared order. In a table a
field given twice is a fault and an unknown one is passed over. -/

/-- One field of a record under construction: its name, whether `ρ` already holds it, and how a
node is read into it. -/
structure Slot (ρ : Type) where
  name : String
  read : Node → ρ → Read ρ

/-- Reads the entries of a table in order; `seen` holds the names met so far. -/
def readEntries {ρ : Type} (slots : List (Slot ρ)) :
    List (Option String × Node) → List String → ρ → Read (List String × ρ)
  | [], seen, r => .ok (seen, r)
  | (none, _) :: _, _, _ => .error .malformed
  | (some k, n) :: rest, seen, r =>
    match slots.find? (·.name == k) with
    | none => do
      n.skip
      readEntries slots rest seen r
    | some slot =>
      if seen.contains k then .error .mismatched
      else do
        let r ← slot.read n r
        readEntries slots rest (k :: seen) r

/-- Reads list items into the slots from the first on; gives the slots and the items left over. -/
def readItems {ρ : Type} : List (Slot ρ) → List Node → ρ → Read (List (Slot ρ) × List Node × ρ)
  | [], items, r => .ok ([], items, r)
  | slots, [], r => .ok (slots, [], r)
  | slot :: slots, n :: items, r => do
    let r ← slot.read n r
    readItems slots items r

/-- Reads a record over the values it starts from. `required` names the slots that have to be
given; `openEnded` lists may be longer than the record. -/
def record {ρ : Type} (slots : List (Slot ρ)) (required : List String) (openEnded : Bool)
    (start : ρ) : Node → Read ρ
  | .table entries => do
    let (seen, r) ← readEntries slots entries [] start
    if required.all seen.contains then return r else .error .mismatched
  | .list items => do
    let (missing, extra, r) ← readItems slots items start
    if missing.any (required.contains ·.name) then .error .mismatched
    else if extra.isEmpty || openEnded then return r
    else .error .malformed
  | n => n.unwanted

end Node
end FeedPoller

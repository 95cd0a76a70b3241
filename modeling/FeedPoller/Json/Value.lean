import FeedPoller.Binary64.Basic
import FeedPoller.Named

/-! JSON values, and the equality of values. -/

namespace FeedPoller.Json

/-- Integers lie between `-2 ^ 63` and `2 ^ 64 - 1`; every other number is a float. The fields of
an object are in ascending order of keys, each key once. -/
inductive Value where
  | null
  | bool (b : Bool)
  | int (n : Int)
  | float (x : Binary64)
  | str (s : String)
  | list (items : List Value)
  | object (fields : List (String × Value))
  deriving Repr, Inhabited

abbrev Fields := Named Value

namespace Value

/-- A member of an object; none for any other value. -/
def get? (name : String) : Value → Option Value
  | .object fields => Named.get? name fields
  | _ => none

def str? : Value → Option String
  | .str s => some s
  | _ => none

def list? : Value → Option (List Value)
  | .list items => some items
  | _ => none

/-- An object from fields in any order. -/
def ofFields (fields : List (String × Value)) : Value := .object (Named.ofList fields)

/-- A value or null. -/
def ofOption {α : Type} (write : α → Value) : Option α → Value
  | some a => write a
  | none => .null

def nat (n : Nat) : Value := .int n

end Value

/-! ## Equality

Numbers of one kind are compared as numbers, so the two float zeros are equal; an integer and a
float never are. -/

mutual
def Value.same : Value → Value → Bool
  | .null, .null => true
  | .bool a, .bool b => a == b
  | .int a, .int b => a == b
  | .float a, .float b => a.same b
  | .str a, .str b => a == b
  | .list a, .list b => sameItems a b
  | .object a, .object b => sameFields a b
  | _, _ => false

def sameItems : List Value → List Value → Bool
  | [], [] => true
  | a :: as, b :: bs => a.same b && sameItems as bs
  | _, _ => false

def sameFields : List (String × Value) → List (String × Value) → Bool
  | [], [] => true
  | (j, a) :: as, (k, b) :: bs => j == k && a.same b && sameFields as bs
  | _, _ => false
end

end FeedPoller.Json

import FeedPoller.Credentials
import FeedPoller.Json.Value

/-! Items of a feed, and what is handed downstream for each of them. -/

namespace FeedPoller

structure Item where
  id : String
  payload : Json.Value
  headers : Json.Fields := []
  deriving Repr, Inhabited

namespace Item

def withHeader (i : Item) (name : String) (value : Json.Value) : Item :=
  { i with headers := Named.insert name value i.headers }

def same (a b : Item) : Bool :=
  a.id == b.id && a.payload.same b.payload && Json.sameFields a.headers b.headers

end Item

/-- An item with the credentials it was fetched or submitted under. -/
structure Delivery where
  item : Item
  consumer : Option Credentials
  user : Option Credentials
  deriving Repr

namespace Delivery

def of (item : Item) (creds : CredentialSet) : Delivery := ⟨item, creds.consumer, creds.user⟩

/-- The identity of the credentials it was delivered under. -/
def identity (d : Delivery) : Identity := CredentialSet.identity ⟨d.consumer, d.user⟩

/-- A delivery for people to read, given how payloads and headers are shown. -/
def shown (payload : Json.Value → String) (headers : Json.Fields → String) (d : Delivery) : String :=
  "DispatchedItem \x7b id: " ++ Text.quoted d.item.id ++ ", payload: " ++ payload d.item.payload ++
    ", headers: " ++ headers d.item.headers ++ ", user: " ++ CredentialSet.shownHalf d.user ++
    ", consumer: " ++ CredentialSet.shownHalf d.consumer ++ " \x7d"

end Delivery
end FeedPoller

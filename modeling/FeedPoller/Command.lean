import FeedPoller.Credentials
import FeedPoller.Item
import FeedPoller.Node

/-! Commands: one poll, one update, or both, with what they override. -/

namespace FeedPoller

/-- Whatever is absent is taken from the poller. An update is made when there is a payload, unless the
command says otherwise. -/
structure Command where
  poll : Option Bool := none
  update : Option Bool := none
  cursor : Option String := none
  params : Option Json.Fields := none
  payload : Option Json.Value := none
  headers : Json.Fields := []
  consumer : Option Credentials := none
  user : Option Credentials := none
  deriving Repr, Inhabited

namespace Command

/-! ## Building -/

def ofPoll : Command := { poll := some true }

/-- An update with a payload, which may be null. -/
def ofUpdate (payload : Json.Value) : Command := { payload := some payload }

def withUser (c : Command) (user : Credentials) : Command := { c with user := some user }

def withConsumer (c : Command) (consumer : Credentials) : Command :=
  { c with consumer := some consumer }

def withCursor (c : Command) (cursor : String) : Command := { c with cursor := some cursor }

def withHeader (c : Command) (name : String) (value : Json.Value) : Command :=
  { c with headers := Named.insert name value c.headers }

/-! ## What is asked for -/

def wantsPoll (c : Command) : Bool := c.poll.getD false

def wantsUpdate (c : Command) : Bool := c.update.getD c.payload.isSome

end Command

/-! ## Reading -/

open Node (Read Slot optional bool? str? fields? record)

def Credentials.slots : List (Slot Credentials) := [
  ⟨"token", fun n r => do return { r with token := ← str? n }⟩,
  ⟨"secret", fun n r => do return { r with secret := ← str? n }⟩]

def Credentials.ofNode : Node → Read Credentials :=
  record Credentials.slots ["token", "secret"] false ⟨"", ""⟩

def Command.slots : List (Slot Command) := [
  ⟨"poll", fun n r => do return { r with poll := ← optional bool? n }⟩,
  ⟨"update", fun n r => do return { r with update := ← optional bool? n }⟩,
  ⟨"cursor", fun n r => do return { r with cursor := ← optional str? n }⟩,
  ⟨"params", fun n r => do return { r with params := ← optional fields? n }⟩,
  ⟨"payload", fun n r => do return { r with payload := ← optional Node.value n }⟩,
  ⟨"headers", fun n r => do return { r with headers := ← fields? n }⟩,
  ⟨"consumer", fun n r => do return { r with consumer := ← optional Credentials.ofNode n }⟩,
  ⟨"user", fun n r => do return { r with user := ← optional Credentials.ofNode n }⟩]

def Command.ofNode : Node → Read Command := record Command.slots [] false {}

def Item.slots : List (Slot Item) := [
  ⟨"id", fun n r => do return { r with id := ← str? n }⟩,
  ⟨"payload", fun n r => do return { r with payload := ← n.value }⟩,
  ⟨"headers", fun n r => do return { r with headers := ← fields? n }⟩]

def Item.ofNode : Node → Read Item :=
  record Item.slots ["id", "payload"] false { id := "", payload := .null }

end FeedPoller

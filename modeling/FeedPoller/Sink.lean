import FeedPoller.Item

/-! Where items are handed to. A sink keeps what it accepted and refuses the rest. -/

namespace FeedPoller

/-- How a sink judges: the reason for which it refuses a delivery, if it does, given how many it was
offered before. -/
structure Sink.Rule where
  refusal : Nat → Delivery → Option String

namespace Sink.Rule

def acceptAll : Sink.Rule := ⟨fun _ _ => none⟩

def refuseId (id : String) : Sink.Rule where
  refusal _ d := if d.item.id = id then some ("downstream rejected " ++ id) else none

/-- The other end is closed. -/
def closed : Sink.Rule := ⟨fun _ _ => some "dispatch channel closed"⟩

end Sink.Rule

/-- The deliveries accepted, the newest first, and how many were offered. -/
structure Sink where
  rule : Sink.Rule := .acceptAll
  offered : Nat := 0
  accepted : List Delivery := []

namespace Sink

/-- Why a delivery is refused, if it is. -/
def refusal (s : Sink) (d : Delivery) : Option String := s.rule.refusal s.offered d

/-- Once more was offered. -/
def noted (s : Sink) : Sink := { s with offered := s.offered + 1 }

def keep (s : Sink) (d : Delivery) : Sink := { s.noted with accepted := d :: s.accepted }

def accept (s : Sink) (d : Delivery) : Except String Unit × Sink :=
  match s.refusal d with
  | some reason => (.error reason, s.noted)
  | none => (.ok (), s.keep d)

end Sink
end FeedPoller

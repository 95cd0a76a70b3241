import FeedPoller.Json.Value
import FeedPoller.Span

/-! What operations report. -/

namespace FeedPoller

/-- One read and what became of its items. With `aborted` nothing was read, for want of usable
credentials. -/
structure CycleReport where
  fetched : Nat := 0
  dispatched : Nat := 0
  skipped : Nat := 0
  suspendedFor : Option Span := none
  aborted : Bool := false
  deriving DecidableEq, Repr

/-- What a command did; `updated` tells whether an update gave an item. -/
structure CommandReport where
  aborted : Bool := false
  poll : Option CycleReport := none
  updated : Option Bool := none
  deriving DecidableEq, Repr

/-- Spans are reported in milliseconds, as 64-bit words. -/
def CycleReport.value (r : CycleReport) : Json.Value :=
  .ofFields [
    ("fetched", .nat r.fetched),
    ("dispatched", .nat r.dispatched),
    ("skipped", .nat r.skipped),
    ("suspended_for_ms", .ofOption (fun s => .nat s.millisWord) r.suspendedFor),
    ("aborted", .bool r.aborted)]

def CommandReport.value (r : CommandReport) : Json.Value :=
  .ofFields [
    ("aborted", .bool r.aborted),
    ("poll", .ofOption CycleReport.value r.poll),
    ("updated", .ofOption .bool r.updated)]

end FeedPoller

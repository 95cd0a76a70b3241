import FeedPoller.Named

/-! The counters of a poller. One that has never been counted is absent; one that was counted by zero
is there. -/

namespace FeedPoller

inductive Counter where
  | cycles
  | fetched
  | dispatched
  | skipped
  | fetchErrors
  | rateLimited
  | updates
  | updateErrors
  deriving DecidableEq, Repr

/-- The name under which a counter is shown. -/
def Counter.name : Counter → String
  | .cycles => "poll_cycles_total"
  | .fetched => "poll_items_fetched_total"
  | .dispatched => "poll_items_dispatched_total"
  | .skipped => "poll_items_skipped_total"
  | .fetchErrors => "poll_fetch_errors_total"
  | .rateLimited => "poll_rate_limited_total"
  | .updates => "poll_updates_total"
  | .updateErrors => "poll_update_errors_total"

/-- The name of the gauge that is one while polling is suspended. -/
def suspendedGauge : String := "poll_suspended"

/-- The counts by name. -/
abbrev Counters := Named Nat

namespace Counters

def add (c : Counters) (counter : Counter) (n : Nat) : Counters :=
  Named.insert counter.name ((Named.get? counter.name c).getD 0 + n) c

def count (c : Counters) (counter : Counter) : Nat := (Named.get? counter.name c).getD 0

end Counters
end FeedPoller

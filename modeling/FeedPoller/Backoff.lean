import FeedPoller.Failure
import FeedPoller.Span.Words

/-! Pacing: a quota of requests becomes a delay between polls, and a rate limit becomes a
suspension. -/

namespace FeedPoller.Backoff

/-- The window in which the provider is assumed to renew its quota. -/
def renewalWindow : Span := .ofSecs 3600

/-- The delay at which `limit` polls fill `period` windows, rounded down to nanoseconds. With no
limit it is all the windows together. -/
def nominalDelay (limit : Nat) (window : Span) (period : Nat) : Span :=
  (window.times period).divBy limit

/-- Windows together that are longer than any span count as the longest one. -/
theorem nanos_nominalDelay {limit : Nat} (h : limit ≠ 0) (window : Span) (period : Nat) :
    (nominalDelay limit window period).nanos =
      min (window.nanos * period) (Span.limit - 1) / limit := by
  rw [nominalDelay, Span.nanos_divBy h, Span.nanos_times]

/-- The same delay, worked out in words. -/
def nominalDelayInWords (limit : BitVec 32) (window : Span.Words) (period : BitVec 32) :
    Except Word.Fault Span.Words := do
  let total := (← window.times period).getD .longest
  if limit = 0 then return total
  total.divBy limit

/-- How long to stay suspended: as long as the provider asks, or, with `autoDelay`, for what is left
of the renewal window after `elapsed`. -/
def suspension (asked : RateLimit) (autoDelay : Bool) (elapsed : Span) : Span :=
  if autoDelay then renewalWindow.minus elapsed else asked.wait

end FeedPoller.Backoff

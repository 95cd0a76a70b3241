import FeedPoller.Backoff
import FeedPoller.Http.Message
import FeedPoller.Text.Number

/-! What a refused read says about the quota. -/

namespace FeedPoller.Feed

/-- A moment by the wall clock: nanoseconds since the epoch. -/
structure Moment where
  nanos : Int
  deriving DecidableEq, Repr

namespace Moment

/-- Whole seconds since the epoch, the earlier one between two. -/
def secs (t : Moment) : Int := t.nanos.fdiv 1000000000

/-- The time from one moment to another; none has passed when the clock went back. -/
def since (later earlier : Moment) : Span := .ofNanos (later.nanos - earlier.nanos).toNat

end Moment

namespace Quota

/-- The header that counts the requests left, and the one that tells when there are more. -/
def remainingHeader : String := "x-ratelimit-remaining"
def resetHeader : String := "x-ratelimit-reset"

/-- A header's value as an integer, with blanks around it passed over. -/
def number? (reply : Http.Reply) (name : String) : Option Int :=
  (reply.header? name).bind fun v => Text.int64? (Text.trimBy Text.isBlank v.toList)

/-- The time to wait until a second of the wall clock, counted in 63 bits. -/
def untilReset (reset : Int) (now : Moment) : Span :=
  .ofSecs (min (reset - now.secs) 0x7fffffffffffffff).toNat

/-- A reply that says that no requests are left is a rate limit. It lasts until the reset it names, or
else for the hour that began with the first read. -/
def probe (reply : Http.Reply) (firstRead now : Moment) : Option RateLimit :=
  match number? reply remainingHeader with
  | some 0 =>
    some ⟨match number? reply resetHeader with
      | some reset => untilReset reset now
      | none => Backoff.renewalWindow.minus (now.since firstRead)⟩
  | _ => none

end Quota
end FeedPoller.Feed

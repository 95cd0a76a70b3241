import FeedPoller.Backoff

/-! Whether polling goes on. A rate limit suspends it and sets a timer; the timer or a call from outside
resumes it. Each change has a generation of its own, and a timer only ends the suspension of its own
generation, however late it goes off. -/

namespace FeedPoller

inductive PollState where
  | running
  | suspended
  deriving DecidableEq, Repr

def PollState.name : PollState → String
  | .running => "running"
  | .suspended => "suspended"

/-- A timer that is to end a suspension. Times are in nanoseconds on a clock that never goes back. -/
structure ResumeTimer where
  generation : Nat
  deadline : Nat
  deriving DecidableEq, Repr

/-- `runStart` is when polling last began to go on. The gauge shows whether it is suspended, once that
has changed. -/
structure Control where
  state : PollState := .running
  generation : Nat := 0
  runStart : Nat := 0
  timer : Option ResumeTimer := none
  gauge : Option Bool := none
  deriving DecidableEq, Repr

namespace Control

/-- Suspends, or suspends anew, and sets the timer; gives the time it is set to. -/
def suspend (c : Control) (now : Nat) (asked : RateLimit) (autoDelay : Bool) : Span × Control :=
  let wait := Backoff.suspension asked autoDelay (.ofNanos (now - c.runStart))
  (wait, { c with
    state := .suspended
    generation := c.generation + 1
    timer := some ⟨c.generation + 1, now + wait.nanos⟩
    gauge := some true })

/-- Goes on from here. -/
def enterRunning (c : Control) (now : Nat) : Control where
  state := .running
  generation := c.generation + 1
  runStart := now
  timer := none
  gauge := some false

/-- Resumes from outside; does nothing when polling goes on already. -/
def resume (c : Control) (now : Nat) : Bool × Control :=
  match c.state with
  | .running => (false, c)
  | .suspended => (true, c.enterRunning now)

/-- The timer of a generation goes off; a stale one does nothing. -/
def resumeFromTimer (c : Control) (generation now : Nat) : Bool × Control :=
  if c.state = .running ∨ c.generation ≠ generation then (false, c)
  else (true, c.enterRunning now)

end Control
end FeedPoller

import FeedPoller.Span

/-! What can go wrong, and how it is told. A rate limit is a failure of a read alone: whoever reads
turns it into a suspension. -/

namespace FeedPoller

/-- A request or a reply that failed, with its cause if that is known. -/
structure FetchFailure where
  reason : String
  cause : Option String := none
  deriving DecidableEq, Repr

def FetchFailure.message (e : FetchFailure) : String := "data fetch failed: " ++ e.reason

/-- The provider asks for a pause. -/
structure RateLimit where
  wait : Span
  deriving DecidableEq, Repr

def RateLimit.message (r : RateLimit) : String := "retry in " ++ toString r.wait.millis ++ "ms"

inductive ReadFailure where
  | rateLimited (limit : RateLimit)
  | fetch (failure : FetchFailure)
  deriving DecidableEq, Repr

def ReadFailure.message : ReadFailure → String
  | .rateLimited limit => "rate limit exceeded, " ++ limit.message
  | .fetch e => e.message

/-- The cause of a failed read, if that is known. -/
def ReadFailure.cause : ReadFailure → Option String
  | .rateLimited _ => none
  | .fetch e => e.cause

inductive SessionFailure where
  | malformedCredentials (reason : String)
  | setup (reason : String)
  deriving DecidableEq, Repr

def SessionFailure.message : SessionFailure → String
  | .malformedCredentials reason => "malformed credentials: " ++ reason
  | .setup reason => "session setup failed: " ++ reason

inductive ConfigFailure where
  | missingRate (field : String)
  | invalidValue (field reason : String)
  | unknownKind (name : String)
  deriving DecidableEq, Repr

def ConfigFailure.message : ConfigFailure → String
  | .missingRate field => "rate limiting is enabled but `" ++ field ++ "` is not configured"
  | .invalidValue field reason => "invalid value for `" ++ field ++ "`: " ++ reason
  | .unknownKind name => "unknown source path: " ++ name

/-- Why a poll or a command failed. -/
inductive Failure where
  | fetch (failure : FetchFailure)
  | session (failure : SessionFailure)
  | config (failure : ConfigFailure)
  | dispatch (reason : String)
  deriving DecidableEq, Repr

def Failure.message : Failure → String
  | .fetch e => e.message
  | .session e => e.message
  | .config e => e.message
  | .dispatch reason => "dispatch failed: " ++ reason

/-- The cause of a failure, if that is known: for a refused item it is the reason given. -/
def Failure.cause : Failure → Option String
  | .fetch e => e.cause
  | .session _ | .config _ => none
  | .dispatch reason => some reason

/-! ## One step after another -/

variable {ε α β : Type} {x : Except ε α} {f : α → Except ε β}

theorem bind_eq_ok_iff {b : β} : x >>= f = .ok b ↔ ∃ a, x = .ok a ∧ f a = .ok b := by
  cases x <;> simp [bind, Except.bind]

theorem bind_eq_error_iff {e : ε} :
    x >>= f = .error e ↔ x = .error e ∨ ∃ a, x = .ok a ∧ f a = .error e := by
  cases x <;> simp [bind, Except.bind]

end FeedPoller

import FeedPoller.Text.Quoted

/-! Credentials of the application (the consumer) and of an end user, and the identity under which
items are remembered. The shown form of credentials never holds the secret. -/

namespace FeedPoller

structure Credentials where
  token : String
  secret : String
  deriving DecidableEq, Repr

/-- The credentials for people to read; the secret is starred out. -/
def Credentials.shown (c : Credentials) : String :=
  "Credentials \x7b token: " ++ Text.quoted c.token ++ ", secret: \"***\" \x7d"

/-- Whose history and cursor an operation uses. -/
inductive Identity where
  | shared
  | user (token : String)
  deriving DecidableEq, Repr

structure CredentialSet where
  consumer : Option Credentials := none
  user : Option Credentials := none
  deriving DecidableEq, Repr

namespace CredentialSet

/-- A user without a consumer: such credentials can open no session. -/
def mismatched (c : CredentialSet) : Bool := c.user.isSome && c.consumer.isNone

/-- Consumer and user, when both are there. -/
def pair (c : CredentialSet) : Option (Credentials × Credentials) :=
  match c.consumer, c.user with
  | some a, some b => some (a, b)
  | _, _ => none

/-- The user's own identity, or the shared one. -/
def identity (c : CredentialSet) : Identity :=
  match c.user with
  | some u => .user u.token
  | none => .shared

/-- Each half of the first set, or else of the second. -/
def orElse (c d : CredentialSet) : CredentialSet :=
  ⟨c.consumer <|> d.consumer, c.user <|> d.user⟩

def shownHalf : Option Credentials → String
  | some c => "Some(" ++ c.shown ++ ")"
  | none => "None"

def shown (c : CredentialSet) : String :=
  "CredentialSet \x7b consumer: " ++ shownHalf c.consumer ++ ", user: " ++ shownHalf c.user ++
    " \x7d"

theorem pair_isSome_iff (c : CredentialSet) :
    c.pair.isSome = (c.consumer.isSome && c.user.isSome) := by
  rcases c with ⟨_ | _, _ | _⟩ <;> rfl

end CredentialSet
end FeedPoller

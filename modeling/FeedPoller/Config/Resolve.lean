import FeedPoller.Config.Basic
import FeedPoller.Text.Blank

/-! Resolving the background credentials. A value is written out or taken from the environment;
a token and its secret are both there, or neither is. -/

namespace FeedPoller

/-- The variables of the environment. -/
abbrev Environment := Named String

inductive ResolveFailure where
  | missingVariable (name : String)
  | incomplete (whose : String)
  deriving DecidableEq, Repr

def ResolveFailure.message : ResolveFailure → String
  | .missingVariable name => "Missing " ++ name ++ " env var"
  | .incomplete whose => whose ++ " credentials need both token and secret"

namespace CredentialsSection

/-- A value without the blanks around it; a blank one counts as absent, and the word `env`, in
capitals or not, stands for the variable. -/
def resolveValue (env : Environment) (written : Option String) (variableName : String) :
    Except ResolveFailure (Option String) :=
  match written.map Text.trim with
  | none => .ok none
  | some v =>
    if v.isEmpty then .ok none
    else if Text.lower v == "env" then
      match Named.get? variableName env with
      | some value => .ok (some value)
      | none => .error (.missingVariable variableName)
    else .ok (some v)

def bothOrNeither (whose : String) :
    Option String → Option String → Except ResolveFailure (Option Credentials)
  | some token, some secret => .ok (some ⟨token, secret⟩)
  | none, none => .ok none
  | _, _ => .error (.incomplete whose)

def resolve (s : CredentialsSection) (env : Environment) :
    Except ResolveFailure CredentialSet := do
  let consumer ← bothOrNeither "consumer" (← resolveValue env s.consumerToken "POLLER_CONSUMER_TOKEN")
    (← resolveValue env s.consumerSecret "POLLER_CONSUMER_SECRET")
  let user ← bothOrNeither "user" (← resolveValue env s.userToken "POLLER_USER_TOKEN")
    (← resolveValue env s.userSecret "POLLER_USER_SECRET")
  return ⟨consumer, user⟩

end CredentialsSection
end FeedPoller

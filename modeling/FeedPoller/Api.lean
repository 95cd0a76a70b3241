import FeedPoller.Http.MediaType
import FeedPoller.Json.Reader
import FeedPoller.Poller

/-! The control surface over HTTP: whether the service is there, the status of the poller, commands,
and resuming. Any origin may use it, with whatever methods and headers it asks for. -/

namespace FeedPoller.Api

/-- The headers are in the order in which they were sent. -/
structure Request where
  method : String
  uri : String
  headers : List (String × String) := []
  body : String := ""

inductive Body where
  | text (s : String)
  | json (v : Json.Value)
  deriving Repr

/-- The headers that tell something of the answer, by their names in small letters. -/
structure Answer where
  status : Nat
  headers : Named String := []
  body : Body := .text ""
  deriving Repr

def Request.header? (r : Request) (name : String) : Option String :=
  (r.headers.find? fun h => Text.lower h.1 == name).map (·.2)

/-- What follows scheme and host. -/
def afterHost : List Char → Option (List Char)
  | ':' :: '/' :: '/' :: rest => some (rest.dropWhile (· != '/'))
  | _ :: rest => afterHost rest
  | [] => none

/-- The path of an address that may or may not begin with scheme and host. -/
def pathOf (uri : String) : String :=
  let cs := uri.toList.takeWhile fun c => c != '?' && c != '#'
  let path := if cs.head? = some '/' then cs else (afterHost cs).getD cs
  if path.isEmpty then "/" else String.ofList path

/-! ## Answers -/

def contentType : String := "content-type"

def plain (status : Nat) (text : String) : Answer where
  status
  headers := [(contentType, "text/plain; charset=utf-8")]
  body := .text text

def json (v : Json.Value) : Answer where
  status := 200
  headers := [(contentType, "application/json")]
  body := .json v

/-- An answer without its body. -/
def Answer.bare (a : Answer) : Answer := { a with body := .text "" }

def Answer.header (a : Answer) (name value : String) : Answer :=
  { a with headers := Named.insert name value a.headers }

/-! ## Routes -/

inductive Route where
  | health
  | status
  | command
  | resume
  deriving DecidableEq, Repr

def Route.ofPath? : String → Option Route
  | "/health" => some .health
  | "/status" => some .status
  | "/command" => some .command
  | "/resume" => some .resume
  | _ => none

/-- Whether a route is for looking only. -/
def Route.isGet : Route → Bool
  | .health | .status => true
  | .command | .resume => false

/-- The methods that a route allows. -/
def allowed (isGet : Bool) : String := if isGet then "GET,HEAD" else "POST"

/-- The status of an answer to a command that failed. -/
def failureStatus : Failure → Nat
  | .session _ => 401
  | .config _ => 500
  | .fetch _ | .dispatch _ => 502

/-- A body that is not even text of the wanted form, and one that does not say what is wanted. -/
def rejection : Node.Fault → Answer
  | .malformed => plain 400 "Failed to parse the request body as JSON"
  | .mismatched => plain 422 "Failed to deserialize the JSON body into the target type"

/-- Carries out the command in a body. -/
def commandAnswer (p : Poller) (r : Request) : Plan Answer := do
  if ((r.header? contentType).bind Http.MediaType.ofString?).any (·.isJson) then
    match Json.decode Command.ofNode r.body with
    | .error fault => return rejection fault
    | .ok c =>
      match ← p.handle c with
      | .ok report => return json report.value
      | .error e => return plain (failureStatus e) e.message
  else return plain 415 "Expected request with `Content-Type: application/json`"

/-- The status, and whether cycles are worth scheduling. -/
def statusAnswer (p : Poller) : Plan Answer := do
  let status ← p.status
  let shouldSchedule ← p.shouldSchedule
  match status.value with
  | .object fields =>
    return json (.object (Named.insert "should_schedule" (.bool shouldSchedule) fields))
  | v => return json v

def Route.answer (p : Poller) (r : Request) : Route → Plan Answer
  | .health => return plain 200 "ok"
  | .status => statusAnswer p
  | .command => commandAnswer p r
  | .resume => do
    let resumed ← Plan.one .resume
    return json (.ofFields [("resumed", .bool resumed)])

/-- The headers that allow any origin to use an answer. -/
def shared (r : Request) (a : Answer) : Answer :=
  let a := (a.header "access-control-allow-credentials" "true").header "vary"
    "origin, access-control-request-method, access-control-request-headers"
  match r.header? "origin" with
  | some origin => a.header "access-control-allow-origin" origin
  | none => a

/-- The answer to a question what is allowed: whatever it asks for. -/
def preflight (r : Request) : Answer :=
  let a : Answer := { status := 200 }
  let a :=
    match r.header? "access-control-request-method" with
    | some m => a.header "access-control-allow-methods" m
    | none => a
  match r.header? "access-control-request-headers" with
  | some hs => a.header "access-control-allow-headers" hs
  | none => a

/-- The answer of a route by method, before it is allowed to all origins. -/
def routed (p : Poller) (r : Request) (route : Route) : Plan Answer :=
  if r.method == "OPTIONS" then return (preflight r).header "allow" (allowed route.isGet)
  else if route.isGet && r.method == "HEAD" then return (← route.answer p r).bare
  else if r.method == (if route.isGet then "GET" else "POST") then route.answer p r
  else return { status := 405, headers := [("allow", allowed route.isGet)] }

/-- The answer to any request. -/
def respond (p : Poller) (r : Request) : Plan Answer :=
  match Route.ofPath? (pathOf r.uri) with
  | some route => do return shared r (← routed p r route)
  | none => return shared r (if r.method == "OPTIONS" then preflight r else { status := 404 })

/-! ## Metrics -/

/-- The page of the metrics, which are read from elsewhere: it is empty. -/
def metricsPage (method uri : String) : Answer :=
  if pathOf uri != "/metrics" then { status := 404 }
  else if method == "GET" || method == "HEAD" then plain 200 ""
  else { status := 405, headers := [("allow", allowed true)] }

end FeedPoller.Api

import FeedPoller.Failure
import FeedPoller.Http.Charset
import FeedPoller.Http.Message
import FeedPoller.Http.Url

/-! Requests over a connection: what arrives at the other end for a request, and what its answer
means. -/

namespace FeedPoller.Http

/-- What the other end does with a request. A value of a header has one character to a byte;
`missing` bytes of the body are promised and never sent. -/
inductive Answer where
  | reply (status : Nat) (headers : List (String × String)) (body : List UInt8) (missing : Nat)
  | hangUp

/-- A request as it arrives. -/
structure Arrival where
  method : Method
  target : String
  authorization : Option String
  contentType : Option String
  body : String
  deriving Repr

/-- A host that gives its answers in turn and hangs up when it has none left. What arrived is kept,
the newest first. -/
structure Wire where
  answers : List Answer
  arrived : List Arrival := []

namespace Wire

/-! ## Requests -/

def base64Digit (n : Nat) : Char :=
  if n < 26 then Char.ofNat (65 + n)
  else if n < 52 then Char.ofNat (71 + n)
  else if n < 62 then Char.ofNat (n - 4)
  else if n = 62 then '+' else '/'

/-- Three bytes to four digits; what is missing at the end is filled up with equals signs. -/
def base64 : List UInt8 → List Char
  | [] => []
  | [a] => [base64Digit (a.toNat / 4), base64Digit (a.toNat % 4 * 16), '=', '=']
  | [a, b] =>
    [base64Digit (a.toNat / 4), base64Digit (a.toNat % 4 * 16 + b.toNat / 16),
      base64Digit (b.toNat % 16 * 4), '=']
  | a :: b :: c :: rest =>
    [base64Digit (a.toNat / 4), base64Digit (a.toNat % 4 * 16 + b.toNat / 16),
      base64Digit (b.toNat % 16 * 4 + c.toNat / 64), base64Digit (c.toNat % 64)] ++ base64 rest

/-- The authorization by user name and password, when an address has them. -/
def basicAuthorization (u : Url) : Option String :=
  if u.username.isEmpty && u.password.isNone then none
  else
    let plain := Text.percentDecode u.username.toList ++
      0x3A :: Text.percentDecode (u.password.getD "").toList
    some ("Basic " ++ String.ofList (base64 plain))

def formType : String := "application/x-www-form-urlencoded"

/-- The whole address of a request, whose parameters are in the query unless they are posted. -/
def addressOf (r : Request) (u : Url) : Url :=
  match r.method with
  | .get => u.withParams r.params
  | .post => u

/-- What arrives for a request to its whole address. A user name in the address goes before a session. -/
def arrival (r : Request) (u : Url) : Arrival :=
  let authorization := basicAuthorization u <|> r.authorization
  match r.method with
  | .get => ⟨.get, u.target, authorization, none, ""⟩
  | .post => ⟨.post, u.target, authorization, some formType, Form.text r.params⟩

/-! ## Replies -/

/-- Whether the value of a header can be read: ASCII without controls other than the tab. -/
def isReadable (value : String) : Bool :=
  value.toList.all fun c => c == '\t' || (0x20 ≤ c.val && c.val < 0x7F)

/-- Headers as they are received: without the blanks around the values. -/
def received (headers : List (String × String)) : List (String × String) :=
  headers.map fun h =>
    (h.1, String.ofList (Text.trimBy (fun c => c == ' ' || c == '\t') h.2.toList))

/-- A reply from what was received; headers that cannot be read are left out. -/
def reply (status : Nat) (headers : List (String × String)) (body : List UInt8) : Reply :=
  let contentType :=
    (headers.find? fun h => Text.lower h.1 == "content-type").bind fun h =>
      if isReadable h.2 then some h.2 else none
  (headers.filter fun h => isReadable h.2).foldl (fun r h => r.withHeader h.1 h.2)
    { status, body := Charset.bodyText contentType body }

def failed (url : String) : FetchFailure := ⟨"request to " ++ url ++ " failed", some "no reply"⟩

/-! ## Redirections -/

/-- How often a request may be sent on. -/
def maxRedirections : Nat := 10

/-- Where a reply sends a request on to, if it does. -/
def redirection? (status : Nat) (headers : List (String × String)) (u : Url) : Option Url := do
  if status ∉ [301, 302, 303, 307, 308] then none
  let location ← headers.find? fun h => Text.lower h.1 == "location"
  u.join? (← String.fromUTF8? ⟨(location.2.toList.map (·.toNat.toUInt8)).toArray⟩)

/-- A request sent on: it keeps its body only where the status says so, and its authorization only
at the same host. -/
def sentOn (status : Nat) (u next : Url) (a : Arrival) : Arrival :=
  let sameHost := u.host == next.host && u.portOrUsual == next.portOrUsual
  let authorization := if sameHost then a.authorization else none
  if status == 307 || status == 308 then { a with target := next.target, authorization }
  else ⟨.get, next.target, authorization, none, ""⟩

/-- Sends a request on for as long as the replies say so; `asked` is the address that was asked for
first. -/
def exchange (asked : String) :
    Nat → Url → Arrival → Wire → Except FetchFailure Reply × Wire
  | fuel, u, a, w =>
    let arrived := a :: w.arrived
    match w.answers with
    | [] => (.error (failed asked), { w with arrived })
    | .hangUp :: answers => (.error (failed asked), ⟨answers, arrived⟩)
    | .reply status headers body missing :: answers =>
      let headers := received headers
      match redirection? status headers u, fuel with
      | some next, fuel + 1 =>
        if next.scheme == "http" then
          exchange asked fuel next (sentOn status u next a) ⟨answers, arrived⟩
        else (.error (failed asked), ⟨answers, arrived⟩)
      | some _, 0 => (.error (failed asked), ⟨answers, arrived⟩)
      | none, _ =>
        if missing = 0 then (.ok (reply status headers body), ⟨answers, arrived⟩)
        else (.error ⟨"reading response body", some "the body ends early"⟩, ⟨answers, arrived⟩)

/-- Sends a request and reads the reply. Nothing is sent to an address that cannot be read or that
asks for another protocol. -/
def send (r : Request) (w : Wire) : Except FetchFailure Reply × Wire :=
  match (Url.ofString? r.url).filter (·.scheme == "http") with
  | none => (.error (failed r.url), w)
  | some u =>
    let u := addressOf r u
    exchange r.url maxRedirections u (arrival r u) w

end Wire
end FeedPoller.Http

import FeedPoller.Command
import FeedPoller.Plan
import FeedPoller.Report
import FeedPoller.Settings

/-! The operations of a poller: a scheduled cycle with the background credentials, and a command with
credentials of its own. A session is open around the calls of one operation and closed on every way
out of it; an item is recorded only after it was accepted downstream. -/

namespace FeedPoller

structure Poller where
  settings : Settings
  background : CredentialSet
  deriving Repr

namespace Poller

/-! ## Parts of operations -/

/-- Hands an item downstream, then records its id. -/
def deliver (who : Identity) (creds : CredentialSet) (item : Item) : Plan (Except Failure Unit) := do
  match ← Plan.one (.dispatch (.of item creds)) with
  | .error reason => return .error (.dispatch reason)
  | .ok () => do
    Plan.one (.record who item.id)
    return .ok ()

/-- Whether an item is left out as a repeated one. -/
def isRepeated (p : Poller) (who : Identity) (id : String) : Plan Bool :=
  if p.settings.skipDuplicates then Plan.one (.seen who id) else return false

/-- Offers items in turn, up to the first that is refused. -/
def offer (p : Poller) (who : Identity) (creds : CredentialSet) :
    List Item → CycleReport → Plan (Except Failure CycleReport)
  | [], report => return .ok report
  | item :: rest, report => do
    let report := { report with fetched := report.fetched + 1 }
    if ← p.isRepeated who item.id then
      p.offer who creds rest { report with skipped := report.skipped + 1 }
    else
      match ← deliver who creds item with
      | .error e => return .error e
      | .ok () => p.offer who creds rest { report with dispatched := report.dispatched + 1 }

/-- Reads once and offers the items. A rate limit suspends the poller; it is no failure. -/
def poll (p : Poller) (path : PathId) (who : Identity) (cursor : Option String)
    (params : Json.Fields) (creds : CredentialSet) : Plan (Except Failure CycleReport) := do
  match ← Plan.one (.read path cursor params) with
  | .error (.rateLimited asked) => do
    Plan.one (.count .rateLimited 1)
    let wait ← Plan.one (.suspend asked)
    return .ok { suspendedFor := some wait }
  | .error (.fetch e) => do
    Plan.one (.count .fetchErrors 1)
    return .error (.fetch e)
  | .ok items =>
    match ← p.offer who creds items {} with
    | .error e => return .error e
    | .ok report => do
      Plan.one (.count .fetched report.fetched)
      Plan.one (.count .dispatched report.dispatched)
      Plan.one (.count .skipped report.skipped)
      return .ok report

/-- Submits a payload and hands the item it gives downstream. Whether there was one is told; a failed
request counts as none. -/
def submit (path : PathId) (who : Identity) (payload : Option Json.Value) (headers : Json.Fields)
    (creds : CredentialSet) : Plan (Except Failure Bool) :=
  match payload with
  | none => return .ok false
  | some payload => do
    Plan.one (.count .updates 1)
    match ← Plan.one (.update path payload headers) with
    | .error _ => do
      Plan.one (.count .updateErrors 1)
      return .ok false
    | .ok none => return .ok false
    | .ok (some item) =>
      match ← deliver who creds item with
      | .error e => return .error e
      | .ok () => return .ok true

/-- Runs a plan with a session open, when the credentials are a pair. -/
def withSession {α : Type} (path : PathId) (creds : CredentialSet)
    (plan : Plan (Except Failure α)) : Plan (Except Failure α) :=
  match creds.pair with
  | none => plan
  | some (consumer, user) => do
    match ← Plan.one (.openSession path consumer user) with
    | .error e => return .error (.session e)
    | .ok () => do
      let result ← plan
      Plan.one (.closeSession path)
      return result

/-! ## Operations -/

/-- One scheduled cycle. -/
def runCycle (p : Poller) : Plan (Except Failure CycleReport) := do
  if (← Plan.one .state) = .suspended then return .ok {}
  Plan.one (.count .cycles 1)
  if p.background.mismatched then return .ok { aborted := true }
  let who := p.background.identity
  let cursor ← Plan.one (.cursor who)
  withSession backgroundPath p.background
    (p.poll backgroundPath who cursor p.settings.query p.background)

/-- Where the poll of a command starts: at its own cursor, or else at that of its identity. -/
def startOf (who : Identity) (c : Command) : Plan (Option String) :=
  match c.cursor with
  | some id => return some id
  | none => Plan.one (.cursor who)

/-- The poll of a command. -/
def commandPoll (p : Poller) (path : PathId) (who : Identity) (creds : CredentialSet)
    (c : Command) : Plan (Except Failure (Option CycleReport)) := do
  if c.wantsPoll then
    let cursor ← startOf who c
    match ← p.poll path who cursor (c.params.getD p.settings.query) creds with
    | .error e => return .error e
    | .ok report => return .ok (some report)
  else return .ok none

/-- The update of a command. -/
def commandUpdate (path : PathId) (who : Identity) (creds : CredentialSet) (c : Command) :
    Plan (Except Failure (Option Bool)) := do
  if c.wantsUpdate then
    match ← submit path who c.payload c.headers creds with
    | .error e => return .error e
    | .ok updated => return .ok (some updated)
  else return .ok none

/-- The credentials of a command: its own, and the background ones for what it leaves out. -/
def credentialsOf (p : Poller) (c : Command) : CredentialSet :=
  CredentialSet.orElse ⟨c.consumer, c.user⟩ p.background

/-- Carries out a command on a path made for it. -/
def handle (p : Poller) (c : Command) : Plan (Except Failure CommandReport) := do
  let creds := p.credentialsOf c
  if creds.mismatched then return .ok { aborted := true }
  let who := creds.identity
  match ← Plan.one .create with
  | .error e => return .error e
  | .ok path =>
    withSession path creds do
      match ← p.commandPoll path who creds c with
      | .error e => return .error e
      | .ok poll =>
        match ← commandUpdate path who creds c with
        | .error e => return .error e
        | .ok updated => return .ok { poll, updated }

/-- What the scheduler does at each tick: a cycle, unless polling is suspended. -/
def tick (p : Poller) : Plan (Option (Except Failure CycleReport)) := do
  if (← Plan.one .state) = .suspended then return none
  return some (← p.runCycle)

/-! ## Status -/

/-- The state and the generation are looked up one after the other. -/
structure Status where
  state : PollState
  generation : Nat
  authRequired : Bool
  scheduleDelay : Span
  deriving DecidableEq, Repr

def status (p : Poller) : Plan Status := do
  let state ← Plan.one .state
  let generation ← Plan.one .generation
  let authRequired ← Plan.one .authRequired
  return { state, generation, authRequired, scheduleDelay := p.settings.scheduleDelay }

/-- Whether there is any use in scheduling cycles. -/
def shouldSchedule (p : Poller) : Plan Bool := do
  let authRequired ← Plan.one .authRequired
  return p.settings.pollEnabled && !(authRequired && p.background.user.isNone)

def Status.value (s : Status) : Json.Value :=
  .ofFields [
    ("state", .str s.state.name),
    ("generation", .nat s.generation),
    ("auth_required", .bool s.authRequired),
    ("schedule_delay_ms", .nat s.scheduleDelay.millisWord)]

end Poller
end FeedPoller

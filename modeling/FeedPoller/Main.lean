import FeedPoller.Api
import FeedPoller.Backend.StatusFeed
import FeedPoller.Startup

/-! The command line: starts from the files and variables at hand and answers the requests of the
control surface that come on standard input, one `METHOD PATH BODY` to a line. No feed is reached
from here, so a read fails as one does without a connection. -/

namespace FeedPoller.Console

/-- The variables that mean something to the service. -/
def knownVariables : List String :=
  [configPathVariable, "POLLER_CONSUMER_TOKEN", "POLLER_CONSUMER_SECRET", "POLLER_USER_TOKEN",
    "POLLER_USER_SECRET"]

def readEnvironment : IO Environment :=
  knownVariables.foldlM (fun env name => do
    return match ← IO.getEnv name with
      | some value => Named.insert name value env
      | none => env) []

def readFiles (paths : List String) : IO Files := do
  let found ← paths.filterMapM fun (path : String) =>
    try return some (path, ← IO.FS.readBinFile path)
    catch _ => return none
  return .ofNamed found

/-- The request in a line. -/
def requestOf (line : String) : Api.Request :=
  let cs := line.toList
  let rest := (cs.dropWhile (· != ' ')).drop 1
  { method := String.ofList (cs.takeWhile (· != ' '))
    uri := String.ofList (rest.takeWhile (· != ' '))
    headers := [(Api.contentType, "application/json")]
    body := String.ofList ((rest.dropWhile (· != ' ')).drop 1) }

def bodyText : Api.Body → String
  | .text s => s
  | .json v => v.text

partial def serve (p : Poller) (w : World StatusFeed) : IO Unit := do
  let line ← (← IO.getStdin).getLine
  if line.isEmpty then return
  let (answer, w) := w.run p StatusFeed.backend (Api.respond p (requestOf line.trimAscii.toString))
  IO.println (toString answer.status ++ " " ++ bodyText answer.body)
  serve p w

def report (message : String) (cause : Option String) : IO UInt32 := do
  IO.eprintln ("Error: " ++ message)
  if let some c := cause then IO.eprintln ("\nCaused by:\n    " ++ c)
  return 1

end FeedPoller.Console

open FeedPoller Console in
def main : IO UInt32 := do
  let env ← readEnvironment
  let named := Named.get? configPathVariable (DotEnv.load (← readFiles [".env"]) env)
  let files ← readFiles ([".env", "config/poller.toml", "config/poller.json"] ++ named.toList)
  match Startup.prepare files env fun _ => true with
  | .error o => report o.message o.cause
  | .ok ready =>
    let p : Poller := { settings := ready.settings, background := ready.background }
    let source : Feed.Source := {
      kind := ready.kind, baseUrl := ready.config.source.baseUrl
      searchUrl := ready.config.source.searchUrl, wired := true }
    let feed : StatusFeed := { source, transport := .wire { answers := [] }, moment := ⟨0⟩ }
    match World.init p StatusFeed.backend {} feed with
    | .error e => report e.message e.cause
    | .ok w =>
      serve p w
      return 0

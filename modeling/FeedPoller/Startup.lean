import FeedPoller.Config.DotEnv
import FeedPoller.Config.Load
import FeedPoller.Feed.Kind
import FeedPoller.IpAddress

/-! The start of the service: what has to be in order before it can serve, and in which order that is
looked at. -/

namespace FeedPoller.Startup

/-- Why the service does not start, with the cause where that is told. -/
structure Obstacle where
  message : String
  cause : Option String := none
  deriving DecidableEq, Repr

/-- All that is needed to serve. -/
structure Ready where
  config : Config
  settings : Settings
  background : CredentialSet
  kind : Feed.Kind
  address : SocketAddress

/-- Looks at everything in turn; `free` tells whether an address can be listened on. -/
def prepare (fs : Files) (env : Environment) (free : SocketAddress → Bool) :
    Except Obstacle Ready := do
  let env := DotEnv.load fs env
  let config ← (Config.loadDefault fs env).mapError fun e => ⟨e.message, none⟩
  let settings ← config.settings.mapError fun e => ⟨"invalid [poll] section", some e.message⟩
  let background ← (config.credentials.resolve env).mapError fun e => ⟨e.message, none⟩
  let kind ← (Feed.Kind.ofName? config.source.path).mapError fun e => ⟨e.message, none⟩
  match (SocketAddress.ofString? config.server.bind).filter free with
  | some address => return { config, settings, background, kind, address }
  | none => .error ⟨"binding " ++ config.server.bind, none⟩

end FeedPoller.Startup

import FeedPoller.Config.Files
import FeedPoller.Config.Resolve
import FeedPoller.Json.Reader
import FeedPoller.Toml.Reader

/-! Loading the configuration from a file. The format is told by the extension, and by the text where
that does not tell. -/

namespace FeedPoller

inductive LoadFailure where
  | unreadable (path : String)
  | notJson
  | notToml
  | missing
  deriving DecidableEq, Repr

/-- The variable that names the file. -/
def configPathVariable : String := "POLLER_CONFIG_PATH"

def LoadFailure.message : LoadFailure → String
  | .unreadable path => "reading config from " ++ path
  | .notJson => "parsing JSON config"
  | .notToml => "parsing TOML config"
  | .missing => configPathVariable ++ " points to non-existent path"

/-- The extension of a file's name, in small letters: what follows the last point, unless that is
the first character. -/
def extensionOf (path : String) : String :=
  match (Files.steps path).getLast? with
  | none => ""
  | some name =>
    let back := name.toList.reverse
    let stem := (back.dropWhile (· != '.')).drop 1
    if name == ".." || stem.isEmpty then ""
    else Text.lower (String.ofList (back.takeWhile (· != '.')).reverse)

namespace Config

/-- Whether a text begins like a JSON object. -/
def looksLikeJson (text : String) : Bool :=
  (text.toList.dropWhile Text.isBlank).head? == some '\x7b'

/-- Reads a text in the format of the extension; with any other extension, what looks like
JSON is JSON and the rest is TOML. -/
def parse (text extension : String) : Except LoadFailure Config :=
  if extension == "json" || (extension != "toml" && looksLikeJson text) then
    match Json.decode (Config.ofNode false) text with
    | .ok c => .ok c
    | .error _ => .error .notJson
  else
    match Toml.parse text with
    | none => .error .notToml
    | some n =>
      match Config.ofNode true n with
      | .ok c => .ok c
      | .error _ => .error .notToml

def loadFrom (fs : Files) (path : String) : Except LoadFailure Config :=
  match fs.readText path with
  | none => .error (.unreadable path)
  | some text => parse text (extensionOf path)

/-- Loads the file that the environment names, or else the first of the default files that is there,
or else the defaults. -/
def loadDefault (fs : Files) (env : Environment) : Except LoadFailure Config :=
  match Named.get? configPathVariable env with
  | some path => if fs.contains path then loadFrom fs path else .error .missing
  | none =>
    if fs.contains "config/poller.toml" then loadFrom fs "config/poller.toml"
    else if fs.contains "config/poller.json" then loadFrom fs "config/poller.json"
    else .ok {}

end Config
end FeedPoller

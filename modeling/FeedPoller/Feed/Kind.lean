import FeedPoller.Failure
import FeedPoller.Text.Blank

/-! The kinds of feed that can be asked, and what sets them apart. -/

namespace FeedPoller.Feed

inductive Kind where
  | everyone
  | home
  | search
  | update
  | delete
  deriving DecidableEq, Repr

namespace Kind

def name : Kind → String
  | .everyone => "public"
  | .home => "home"
  | .search => "search"
  | .update => "update"
  | .delete => "delete"

/-- The stream that is read; the last two kinds have none. -/
def stream? : Kind → Option String
  | .everyone => some "statuses/public_timeline"
  | .home => some "statuses/home_timeline"
  | .search => some "search"
  | .update | .delete => none

/-- The ending of the addresses. -/
def ending : Kind → String
  | .search => ".json"
  | _ => ".xml"

/-- Whether the kind is for signed-in users only. -/
def authRequired : Kind → Bool
  | .home | .update | .delete => true
  | .everyone | .search => false

def all : List Kind := [.everyone, .home, .search, .update, .delete]

/-- The kind of a name, in any letter case and with blanks around it. -/
def ofName? (name : String) : Except ConfigFailure Kind :=
  let name := Text.lower (Text.trim name)
  match all.find? (·.name == name) with
  | some kind => .ok kind
  | none => .error (.unknownKind name)

end Kind
end FeedPoller.Feed

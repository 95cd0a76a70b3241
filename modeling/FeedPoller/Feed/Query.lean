import FeedPoller.Json.Printer

/-! The parameters of a request, in ascending order of names and each name once, so that one request
has one form. -/

namespace FeedPoller.Feed

/-- The name under which a cursor is sent. -/
def cursorName : String := "since_id"

/-- The parameters of a read: those given, each as plain text, and the cursor unless one of them has
its name. -/
def readParams (cursor : Option String) (params : List (String × Json.Value)) : Named String :=
  let start : Named String :=
    match cursor with
    | some id => [(cursorName, id)]
    | none => []
  params.foldl (fun out p => Named.insert p.1 p.2.plain out) start

/-- The headers of an update that are sent along, apart from the one below. -/
def formHeaders : List String := ["in_reply_to_status_id", "lat", "long", "place_id"]

/-- Whether the user in the answer is cut short, which is so unless a header says otherwise. -/
def trimUser : String := "trim_user"

/-- The parameters of an update: the payload, and the headers that may go with it. -/
def updateParams (payload : Json.Value) (headers : Json.Fields) : List (String × String) :=
  formHeaders.filterMap (fun name => (Named.get? name headers).map fun v => (name, v.plain)) ++
    [("status", payload.plain),
      (trimUser, ((Named.get? trimUser headers).map Json.Value.plain).getD "1")]

end FeedPoller.Feed

import FeedPoller.Named
import FeedPoller.Text.Blank

/-! Requests to a feed and the replies to them. -/

namespace FeedPoller.Http

inductive Method where
  | get
  | post
  deriving DecidableEq, Repr

def Method.name : Method → String
  | .get => "GET"
  | .post => "POST"

/-- A GET has its parameters in the query, a POST in its body. -/
structure Request where
  method : Method
  url : String
  params : List (String × String)
  authorization : Option String
  deriving DecidableEq, Repr

/-- The names of the headers are in small letters. -/
structure Reply where
  status : Nat
  body : String := ""
  headers : Named String := []
  deriving DecidableEq, Repr

namespace Reply

/-- Adds a header, in place of an earlier one of that name in any letter case. -/
def withHeader (r : Reply) (name value : String) : Reply :=
  { r with headers := Named.insert (Text.lower name) value r.headers }

/-- The value of a header, whose name may be in any letter case. -/
def header? (r : Reply) (name : String) : Option String :=
  Named.get? (Text.lower name) r.headers

def isOk (r : Reply) : Bool := r.status == 200

end Reply
end FeedPoller.Http

import FeedPoller.Text.Percent

/-! Parameters as the text of a query or of a form. -/

namespace FeedPoller.Http.Form

/-- The characters that stand for themselves. -/
def isPlain (c : Char) : Bool := c.isAlphanum || c == '*' || c == '-' || c == '.' || c == '_'

/-- A space is a plus sign; all else that is not plain is percent-encoded. -/
def encode (s : String) : String :=
  String.ofList ((Text.percentEncode (fun c => !isPlain c && c != ' ') s.toList).map
    fun c => if c == ' ' then '+' else c)

def encodePair (p : String × String) : String := encode p.1 ++ "=" ++ encode p.2

def text (params : List (String × String)) : String :=
  String.intercalate "&" (params.map encodePair)

end FeedPoller.Http.Form

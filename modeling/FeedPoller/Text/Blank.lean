/-! Blank characters and trimming. A character is blank when it has the Unicode
`White_Space` property; `trim` drops blanks at both ends and touches nothing else. -/

namespace FeedPoller.Text

/-- The Unicode `White_Space` property. -/
def isBlank (c : Char) : Bool :=
  (9 ≤ c.val && c.val ≤ 13) || c.val == 0x20 || c.val == 0x85 || c.val == 0xA0 ||
    c.val == 0x1680 || (0x2000 ≤ c.val && c.val ≤ 0x200A) || c.val == 0x2028 ||
    c.val == 0x2029 || c.val == 0x202F || c.val == 0x205F || c.val == 0x3000

/-- Drops from both ends the characters that satisfy `p`. -/
def trimBy (p : Char → Bool) (cs : List Char) : List Char :=
  ((cs.dropWhile p).reverse.dropWhile p).reverse

/-- The text without the blanks at its two ends. -/
def trim (s : String) : String :=
  String.ofList (trimBy isBlank s.toList)

/-- A text of blanks alone, the empty one included. -/
def allBlank (s : String) : Bool :=
  s.toList.all isBlank

/-- ASCII capitals become small; every other character stays. -/
def lower (s : String) : String :=
  s.map Char.toLower

theorem lower_eq {s t : String} (h : s.toList.map Char.toLower = t.toList) : lower s = t :=
  String.toList_inj.mp (String.toList_map.trans h)

/-- Whether the text starts with `head`, and what follows it. -/
def dropHead? : List Char → List Char → Option (List Char)
  | [], rest => some rest
  | _ :: _, [] => none
  | h :: hs, c :: cs => if h = c then dropHead? hs cs else none

end FeedPoller.Text

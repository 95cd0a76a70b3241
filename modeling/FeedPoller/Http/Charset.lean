import FeedPoller.Http.Charset.Tables
import FeedPoller.Http.MediaType
import FeedPoller.Text.Utf8

/-! The encoding of the text in a body. A byte order mark tells it best, then the label in the media
type; without either it is UTF-8. Bytes that mean nothing become replacement characters. -/

namespace FeedPoller.Http

/-- `unread` stands for the encodings that are known but never read: their texts are given up as a
whole. -/
inductive Charset where
  | utf8
  | utf16 (bigEndian : Bool)
  | bytes (high : List Char)
  | unread

namespace Charset

def utf8Labels : List String :=
  ["unicode-1-1-utf-8", "unicode11utf8", "unicode20utf8", "utf-8", "utf8", "x-unicode20utf8"]

def utf16BigLabels : List String := ["unicodefffe", "utf-16be"]

def utf16LittleLabels : List String :=
  ["csunicode", "iso-10646-ucs-2", "ucs-2", "unicode", "unicodefeff", "utf-16", "utf-16le"]

def unreadLabels : List String :=
  ["csiso2022kr", "hz-gb-2312", "iso-2022-cn", "iso-2022-cn-ext", "iso-2022-kr", "replacement"]

/-- The encoding of a label, in any letter case and with blanks around it. -/
def ofLabel? (label : String) : Option Charset :=
  let label := Text.lower (String.ofList (Text.trimBy
    (fun c => c == ' ' || (9 ≤ c.val && c.val ≤ 13 && c.val != 11)) label.toList))
  if utf8Labels.contains label then some .utf8
  else if utf16BigLabels.contains label then some (.utf16 true)
  else if utf16LittleLabels.contains label then some (.utf16 false)
  else if unreadLabels.contains label then some .unread
  else (byteTables.find? (·.labels.contains label)).map fun t => .bytes t.high.toList

/-- The 16-bit units of bytes; a byte left over is none. -/
def units (bigEndian : Bool) : List UInt8 → List (Option Nat)
  | [] => []
  | [_] => [none]
  | a :: b :: bs =>
    some (if bigEndian then 256 * a.toNat + b.toNat else 256 * b.toNat + a.toNat) ::
      units bigEndian bs

def isHighUnit (u : Nat) : Bool := 0xD800 ≤ u && u < 0xDC00
def isLowUnit (u : Nat) : Bool := 0xDC00 ≤ u && u < 0xE000

/-- What one unit gives, and the first half of a pair if it is one. -/
def beginUnit (u : Nat) : List Char × Option Nat :=
  if isHighUnit u then ([], some u)
  else if isLowUnit u then ([Text.replacement], none)
  else ([Char.ofNat u], none)

/-- What a unit gives after the first half of a pair. -/
def pairUnit (h u : Nat) : List Char × Option Nat :=
  if isLowUnit u then ([Char.ofNat (0x10000 + (h - 0xD800) * 0x400 + (u - 0xDC00))], none)
  else
    let (cs, next) := beginUnit u
    (Text.replacement :: cs, next)

/-- The characters of 16-bit units; half of a pair without the other half is replaced. -/
def unitChars : Option Nat → List (Option Nat) → List Char
  | none, [] => []
  | some _, [] => [Text.replacement]
  | _, none :: _ => [Text.replacement]
  | half, some u :: us =>
    let (cs, next) :=
      match half with
      | none => beginUnit u
      | some h => pairUnit h u
    cs ++ unitChars next us

def decode (charset : Charset) (bs : List UInt8) : List Char :=
  match charset with
  | .utf8 => Text.decodeUtf8 bs
  | .unread => if bs.isEmpty then [] else [Text.replacement]
  | .utf16 bigEndian => unitChars none (units bigEndian bs)
  | .bytes high =>
    bs.map fun b =>
      if b.toNat < 0x80 then Char.ofNat b.toNat else (high[b.toNat - 0x80]?).getD Text.replacement

/-- The encoding of a body with this media type, if it has one. -/
def ofMediaType (contentType : Option String) : Charset :=
  let label := (contentType.bind MediaType.ofString?).bind (·.param? "charset")
  (label.bind ofLabel?).getD .utf8

/-- The text of a body. -/
def bodyText (contentType : Option String) (bs : List UInt8) : String :=
  String.ofList <|
    match bs with
    | 0xEF :: 0xBB :: 0xBF :: bs => Text.decodeUtf8 bs
    | 0xFF :: 0xFE :: bs => decode (.utf16 false) bs
    | 0xFE :: 0xFF :: bs => decode (.utf16 true) bs
    | bs => decode (ofMediaType contentType) bs

end Charset
end FeedPoller.Http

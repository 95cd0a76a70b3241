import FeedPoller.Text.Number

/-! Percent encoding: a byte as a percent sign and two hexadecimal digits. -/

namespace FeedPoller.Text

def hexCapital (n : Nat) : Char := if n < 10 then Char.ofNat (48 + n) else Char.ofNat (55 + n)

def percentByte (b : UInt8) : List Char :=
  ['%', hexCapital (b.toNat / 16), hexCapital (b.toNat % 16)]

/-- The UTF-8 bytes of characters. -/
def utf8Bytes (cs : List Char) : List UInt8 := (String.ofList cs).toUTF8.toList

/-- Encodes the characters that are not ASCII and those for which `escaped` holds. -/
def percentEncode (escaped : Char → Bool) (cs : List Char) : List Char :=
  cs.flatMap fun c =>
    if c.val < 0x80 && !escaped c then [c] else (utf8Bytes [c]).flatMap percentByte

/-- The bytes of a text in which percent encoding is undone; a percent sign without two digits stands
for itself. -/
def percentDecode : List Char → List UInt8
  | [] => []
  | '%' :: a :: b :: cs =>
    match natInBase? 16 [a, b] with
    | some n => n.toUInt8 :: percentDecode cs
    | none => 0x25 :: percentDecode (a :: b :: cs)
  | c :: cs => utf8Bytes [c] ++ percentDecode cs

end FeedPoller.Text

import FeedPoller.Xml.Document
import Mathlib.Data.List.Dedup

/-! Element trees with all that can be written of them, and what they mean. A tree keeps how it is
written: blanks, attributes, references, character data and comments; its text is put together from
them, and its value is defined by recursion without regard to how a text is read. -/

namespace FeedPoller.Xml

/-! ## Names and tags -/

/-- Blanks, or none. -/
abbrev Blanks := { cs : List Char // ∀ c ∈ cs, isSpace c = true }

/-- The characters of names are no blanks and none that mark anything else. -/
def isNameChar (c : Char) : Bool :=
  !isSpace c && !(['<', '>', '/', '"', '\'', '=', '&'] : List Char).contains c

structure Name where
  first : Char
  others : List Char
  starts : isNameChar first = true ∧ first ≠ '!' ∧ first ≠ '?'
  goesOn : ∀ c ∈ others, isNameChar c = true

def Name.chars (n : Name) : List Char := n.first :: n.others

def Name.text (n : Name) : String := String.ofList n.chars

/-- An attribute with the blanks before it and around its equality sign. -/
structure Attribute where
  lead : Blanks
  apart : lead.val ≠ []
  name : Name
  left : Blanks
  right : Blanks
  quote : Char
  quotes : quote = '"' ∨ quote = '\''
  value : List Char
  within : quote ∉ value

def Attribute.chars (a : Attribute) : List Char :=
  a.lead.val ++ a.name.chars ++ a.left.val ++ '=' :: a.right.val ++ a.quote :: a.value ++ [a.quote]

/-- What stands in the tag that opens an element. Its name has no prefix. -/
structure Tag where
  name : Name
  plain : ':' ∉ name.chars
  attributes : List Attribute
  trail : Blanks

def Tag.chars (t : Tag) : List Char :=
  t.name.chars ++ t.attributes.flatMap Attribute.chars ++ t.trail.val

/-! ## Texts -/

/-- The characters that can be referred to by name. -/
inductive Entity where
  | lt
  | gt
  | amp
  | apos
  | quot

def Entity.name : Entity → List Char
  | .lt => ['l', 't']
  | .gt => ['g', 't']
  | .amp => ['a', 'm', 'p']
  | .apos => ['a', 'p', 'o', 's']
  | .quot => ['q', 'u', 'o', 't']

def Entity.char : Entity → Char
  | .lt => '<'
  | .gt => '>'
  | .amp => '&'
  | .apos => '\''
  | .quot => '"'

/-- A hexadecimal digit, as a capital or not. -/
def hexDigit (d : Fin 16 × Bool) : Char :=
  if d.2 then (Nat.digitChar d.1).toUpper else Nat.digitChar d.1

/-- The number that digits stand for. -/
def numberOf (base : Nat) (digits : List Nat) : Nat := digits.foldl (fun n d => base * n + d) 0

/-- Numbers of characters other than the null character. -/
def IsCode (n : Nat) : Prop := n ≠ 0 ∧ n.isValidChar

instance (n : Nat) : Decidable (IsCode n) := inferInstanceAs (Decidable (_ ∧ _))

/-- One character as it is written in a text: by itself, by name, or by number. -/
inductive Glyph where
  | plain (c : Char) (h : c ≠ '<' ∧ c ≠ '&')
  | entity (e : Entity)
  | decimal (digits : List (Fin 10)) (h : IsCode (numberOf 10 (digits.map (·.val))))
  | hex (digits : List (Fin 16 × Bool)) (h : IsCode (numberOf 16 (digits.map (·.1.val))))

namespace Glyph

def chars : Glyph → List Char
  | plain c _ => [c]
  | entity e => '&' :: e.name ++ [';']
  | decimal digits _ => '&' :: '#' :: digits.map (Nat.digitChar ·.val) ++ [';']
  | hex digits _ => '&' :: '#' :: 'x' :: digits.map hexDigit ++ [';']

/-- The character that is meant. -/
def char : Glyph → Char
  | plain c _ => c
  | entity e => e.char
  | decimal digits _ => Char.ofNat (numberOf 10 (digits.map (·.val)))
  | hex digits _ => Char.ofNat (numberOf 16 (digits.map (·.1.val)))

/-- A blank that is written as itself. -/
def isBlank : Glyph → Bool
  | plain c _ => isSpace c
  | _ => false

end Glyph

/-- A text between two pieces of markup; it may be empty. -/
abbrev TextRun := List Glyph

namespace TextRun

def chars (t : TextRun) : List Char := t.flatMap Glyph.chars

/-- Without the blanks at its two ends. -/
def trimmed (t : TextRun) : TextRun :=
  ((t.dropWhile Glyph.isBlank).reverse.dropWhile Glyph.isBlank).reverse

/-- What is meant by it. -/
def text (t : TextRun) : List Char := t.trimmed.map Glyph.char

end TextRun

/-- Character data, which goes on to the first occurrence of its end mark. -/
abbrev CharacterData := { cs : List Char // ¬ [']', ']', '>'] <:+: cs }

/-- So does a comment. -/
abbrev Comment := { cs : List Char // ¬ ['-', '-', '>'] <:+: cs }

/-! ## Trees -/

/-- What stands in an element: pieces of markup, each with the text before it, and the last text. -/
inductive Content where
  | done (text : TextRun)
  | empty (text : TextRun) (tag : Tag) (rest : Content)
  | element (text : TextRun) (tag : Tag) (inside : Content) (trail : Blanks) (rest : Content)
  | cdata (text : TextRun) (data : CharacterData) (rest : Content)
  | comment (text : TextRun) (comment : Comment) (rest : Content)

inductive Element where
  | empty (tag : Tag)
  | full (tag : Tag) (inside : Content) (trail : Blanks)

def Tag.opening (t : Tag) : List Char := '<' :: t.chars ++ ['>']

def Tag.alone (t : Tag) : List Char := '<' :: t.chars ++ ['/', '>']

def Tag.closing (t : Tag) (trail : Blanks) : List Char :=
  '<' :: '/' :: t.name.chars ++ trail.val ++ ['>']

def CharacterData.chars (data : CharacterData) : List Char :=
  ['<', '!', '[', 'C', 'D', 'A', 'T', 'A', '['] ++ data.val ++ [']', ']', '>']

def Comment.chars (comment : Comment) : List Char :=
  ['<', '!', '-', '-'] ++ comment.val ++ ['-', '-', '>']

def Content.chars : Content → List Char
  | done text => text.chars
  | empty text tag rest => text.chars ++ tag.alone ++ rest.chars
  | element text tag inside trail rest =>
    text.chars ++ tag.opening ++ inside.chars ++ tag.closing trail ++ rest.chars
  | cdata text data rest => text.chars ++ CharacterData.chars data ++ rest.chars
  | comment text c rest => text.chars ++ Comment.chars c ++ rest.chars

def Element.chars : Element → List Char
  | empty tag => tag.alone
  | full tag inside trail => tag.opening ++ inside.chars ++ tag.closing trail

/-- The text of an element. -/
def Element.text (e : Element) : String := String.ofList e.chars

/-! ## Values -/

/-- The values that stand under a name, in order. -/
def under (name : String) (children : List (String × Json.Value)) : List Json.Value :=
  children.filterMap fun c => if c.1 = name then some c.2 else none

/-- One value by itself, and any other number of them as a list. -/
def gather : List Json.Value → Json.Value
  | [v] => v
  | vs => .list vs

/-- The value of an element with these children, in order, and with this text: an object that has
under each name the value of the only child of that name or the list of all of them; without children
the text, or null when it is empty. -/
def valueOf (children : List (String × Json.Value)) (text : List Char) : Json.Value :=
  if children ≠ [] then
    .ofFields ((children.map Prod.fst).dedup.map fun name => (name, gather (under name children)))
  else if text ≠ [] then .str (String.ofList text)
  else .null

/-- The texts and character data of an element, one after the other. -/
def Content.text : Content → List Char
  | done text => text.text
  | empty text _ rest => text.text ++ rest.text
  | element text _ _ _ rest => text.text ++ rest.text
  | cdata text data rest => text.text ++ data.val ++ rest.text
  | comment text _ rest => text.text ++ rest.text

/-- The children of an element by name, with their values, in order. -/
def Content.children : Content → List (String × Json.Value)
  | done _ => []
  | empty _ tag rest => (tag.name.text, valueOf [] []) :: rest.children
  | element _ tag inside _ rest =>
    (tag.name.text, valueOf inside.children inside.text) :: rest.children
  | cdata _ _ rest => rest.children
  | comment _ _ rest => rest.children

def Element.value : Element → Json.Value
  | empty _ => valueOf [] []
  | full _ inside _ => valueOf inside.children inside.text

end FeedPoller.Xml

import FeedPoller.Json.Value
import FeedPoller.Xml.Markup
import FeedPoller.Xml.Reference

/-! An XML document as a value. An element without child elements is its text, or null when that is
empty; one with child elements is an object of them, and what stands more than once under one
name becomes a list. Attributes do not count. -/

namespace FeedPoller.Xml

inductive Fault where
  | malformed
  | truncated
  | noRoot
  deriving DecidableEq, Repr

/-- An element whose closing tag has not come yet. Its fields and texts are those met so far. -/
structure OpenElement where
  name : List Char
  fields : Json.Fields := []
  text : List Char := []

/-- The part of a name after its first colon. -/
def localName (name : List Char) : String :=
  match name.dropWhile (· != ':') with
  | _ :: rest => String.ofList rest
  | [] => String.ofList name

def OpenElement.value (e : OpenElement) : Json.Value :=
  if !e.fields.isEmpty then .object e.fields
  else if e.text.isEmpty then .null
  else .str (String.ofList e.text)

/-- Adds a child; the second of a name makes a list of both. -/
def attach (fields : Json.Fields) (name : String) (v : Json.Value) : Json.Fields :=
  match Named.get? name fields with
  | none => Named.insert name v fields
  | some (.list vs) => Named.insert name (.list (vs ++ [v])) fields
  | some first => Named.insert name (.list [first, v]) fields

def OpenElement.addChild (e : OpenElement) (name : List Char) (v : Json.Value) : OpenElement :=
  { e with fields := attach e.fields (localName name) v }

def OpenElement.addText (e : OpenElement) (cs : List Char) : OpenElement :=
  { e with text := e.text ++ cs }

/-- The open elements, the innermost first, and the last root that was closed. -/
structure Draft where
  stack : List OpenElement := []
  root : Option Json.Value := none

/-- An element is complete: it goes to its parent, or else becomes the root. -/
def Draft.close (name : List Char) (v : Json.Value) (root : Option Json.Value) :
    List OpenElement → Draft
  | [] => ⟨[], some v⟩
  | parent :: outer => ⟨parent.addChild name v :: outer, root⟩

/-- Takes one piece. Text outside all elements is not examined. -/
def Draft.step (d : Draft) : Markup → Option Draft
  | .opening name => some { d with stack := { name } :: d.stack }
  | .empty name => some (.close name (OpenElement.value { name }) d.root d.stack)
  | .closing name =>
    match d.stack with
    | [] => none
    | e :: outer => if e.name = name then some (.close name e.value d.root outer) else none
  | .text raw =>
    match d.stack with
    | [] => some d
    | e :: outer => do return { d with stack := e.addText (← replaceReferences raw) :: outer }
  | .cdata raw =>
    match d.stack with
    | [] => some d
    | e :: outer => some { d with stack := e.addText raw :: outer }
  | .aside => some d
  | .broken => none

/-- The value of the last root element of a text. -/
def document (text : String) : Except Fault Json.Value :=
  match (Markup.scan text.toList).foldlM Draft.step {} with
  | none => .error .malformed
  | some ⟨_ :: _, _⟩ => .error .truncated
  | some ⟨[], none⟩ => .error .noRoot
  | some ⟨[], some v⟩ => .ok v

end FeedPoller.Xml

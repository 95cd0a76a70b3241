import FeedPoller.Proofs.XmlOutlines
import FeedPoller.Proofs.XmlPieces

/-! The reading of a tree. Main statements: the text of a tree is a document, with the outline of the tree
(`Element.holds`), and is read as the value of the tree (`Element.document_text`). -/

namespace FeedPoller.Xml

theorem Tag.localName_eq (t : Tag) : localName t.name.chars = t.name.text := by
  have hplain : ∀ c ∈ t.name.chars, (c != ':') = true := by
    simp only [bne_iff_ne]
    rintro c hc rfl
    exact t.plain hc
  have hdrop : (t.name.chars ++ []).dropWhile (· != ':') = [] := List.dropWhile_append_of_pos hplain
  rw [List.append_nil] at hdrop
  rw [localName, hdrop, Name.text]

/-! ## Outlines of texts -/

namespace TextRun

/-- A text that is more than blanks, before what follows it. -/
def outline (t : TextRun) (rest : Outline) : Outline :=
  if t.trimmed.chars = [] then rest
  else .text t.trimmed.chars t.text t.trimmed.replaceReferences_chars rest

theorem pieces_outline (t : TextRun) (rest : Outline) :
    (t.outline rest).pieces = t.pieces ++ rest.pieces := by
  unfold outline pieces
  split <;> rfl

theorem chars_outline (t : TextRun) (rest : Outline) :
    (t.outline rest).chars = t.text ++ rest.chars := by
  unfold outline
  split
  · rename_i hnil
    have hmeant := t.trimmed.replaceReferences_chars
    rw [hnil] at hmeant
    have htext : t.text = [] := (Option.some.inj hmeant).symm
    rw [htext, List.nil_append]
  · rfl

theorem children_outline (t : TextRun) (rest : Outline) :
    (t.outline rest).children = rest.children := by
  unfold outline
  split <;> rfl

end TextRun

/-! ## Outlines of trees -/

namespace Content

def outline : Content → Outline
  | done text => text.outline .done
  | empty text tag rest => text.outline (.empty tag.name.chars rest.outline)
  | element text tag inside _ rest =>
    text.outline (.element tag.name.chars inside.outline rest.outline)
  | cdata text data rest => text.outline (.cdata data.val rest.outline)
  | comment text _ rest => text.outline (.aside rest.outline)

theorem pieces_outline (content : Content) : content.outline.pieces = content.pieces := by
  induction content with
  | done => simp [outline, TextRun.pieces_outline, pieces, Outline.pieces]
  | empty _ _ _ ih => simp [outline, TextRun.pieces_outline, pieces, Outline.pieces, ih]
  | element _ _ _ _ _ ihinside ihrest =>
    simp [outline, TextRun.pieces_outline, pieces, Outline.pieces, ihinside, ihrest]
  | cdata _ _ _ ih => simp [outline, TextRun.pieces_outline, pieces, Outline.pieces, ih]
  | comment _ _ _ ih => simp [outline, TextRun.pieces_outline, pieces, Outline.pieces, ih]

theorem chars_outline (content : Content) : content.outline.chars = content.text := by
  induction content with
  | done => simp [outline, TextRun.chars_outline, text, Outline.chars]
  | empty _ _ _ ih => simp [outline, TextRun.chars_outline, text, Outline.chars, ih]
  | element _ _ _ _ _ _ ih => simp [outline, TextRun.chars_outline, text, Outline.chars, ih]
  | cdata _ _ _ ih => simp [outline, TextRun.chars_outline, text, Outline.chars, ih]
  | comment _ _ _ ih => simp [outline, TextRun.chars_outline, text, Outline.chars, ih]

theorem children_outline (content : Content) : content.outline.children = content.children := by
  induction content with
  | done => exact TextRun.children_outline ..
  | empty _ tag _ ih =>
    simp [outline, TextRun.children_outline, children, Outline.children, tag.localName_eq, ih]
  | element _ tag inside _ _ ihinside ihrest =>
    simp [outline, TextRun.children_outline, children, Outline.children, tag.localName_eq, ihinside,
      ihrest, inside.chars_outline]
  | cdata _ _ _ ih => simpa [outline, TextRun.children_outline, children, Outline.children] using ih
  | comment _ _ _ ih => simpa [outline, TextRun.children_outline, children, Outline.children] using ih

end Content

namespace Element

def root : Element → Root
  | empty tag => .empty tag.name.chars
  | full tag inside _ => .full tag.name.chars inside.outline

theorem pieces_root (e : Element) : e.root.pieces = e.pieces := by
  cases e with
  | empty tag => rfl
  | full tag inside trail => simp [root, pieces, Root.pieces, inside.pieces_outline]

theorem value_root (e : Element) : e.root.value = e.value := by
  cases e with
  | empty tag => rfl
  | full tag inside trail =>
    show valueOf inside.outline.children inside.outline.chars = _
    rw [inside.children_outline, inside.chars_outline, value]

/-- The text of a tree is a document. -/
theorem holds (e : Element) : Holds e.text e.root := by
  refine ⟨[], [], by simp, by simp, ?_⟩
  rw [e.scan_text, e.pieces_root, List.nil_append, List.append_nil]

/-- The text of a tree is read as the value of the tree. -/
theorem document_text (e : Element) : document e.text = .ok e.value := by
  rw [e.holds.document, e.value_root]

end Element

end FeedPoller.Xml

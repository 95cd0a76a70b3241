import FeedPoller.Proofs.XmlValues

/-! Which documents are not read. Main statement: the text of a tree is read as the value of the tree,
and a text with an element that is not closed, a closing tag that matches no open element, or no
element at all is not read (`document_meaning`). -/

namespace FeedPoller.Xml

/-- Pieces in which each element that is opened is closed, and no other. -/
inductive Nested : List Markup → Prop where
  | nil : Nested []
  | other {p : Markup} {ps : List Markup} (hopening : ∀ name, p ≠ .opening name)
      (hclosing : ∀ name, p ≠ .closing name) : Nested ps → Nested (p :: ps)
  | element {name : List Char} {inside ps : List Markup} :
      Nested inside → Nested ps → Nested (.opening name :: inside ++ .closing name :: ps)

/-- Pieces that make no document. -/
inductive Faulty : List Markup → Prop where
  | unclosed (before : List Markup) (name : List Char) {inside : List Markup} (h : Nested inside) :
      Faulty (before ++ .opening name :: inside)
  | mismatched (before : List Markup) {name other : List Char} {inside : List Markup}
      (after : List Markup) (h : Nested inside) (hother : other ≠ name) :
      Faulty (before ++ .opening name :: inside ++ .closing other :: after)
  | unopened {before : List Markup} (name : List Char) (after : List Markup) (h : Nested before) :
      Faulty (before ++ .closing name :: after)
  | rootless {ps : List Markup} (hopening : ∀ name, .opening name ∉ ps)
      (hempty : ∀ name, .empty name ∉ ps) : Faulty ps

/-- The names of the open elements, the innermost first. -/
def Draft.openNames (d : Draft) : List (List Char) := d.stack.map (·.name)

variable {d d' : Draft} {p : Markup} {ps : List Markup}

theorem Draft.openNames_close (name : List Char) (v : Json.Value) (root : Option Json.Value)
    (stack : List OpenElement) :
    (Draft.close name v root stack).openNames = stack.map (·.name) := by
  cases stack <;> rfl

/-- Only tags that open or close an element change which elements are open, and a closing tag has the
name of the innermost one. -/
theorem Draft.openNames_step (h : d.step p = some d') :
    match p with
    | .opening name => d'.openNames = name :: d.openNames
    | .closing name => d.openNames = name :: d'.openNames
    | _ => d'.openNames = d.openNames := by
  obtain ⟨stack, root⟩ := d
  cases p with
  | opening name => cases h; rfl
  | empty name =>
    cases h
    exact openNames_close ..
  | closing name =>
    cases stack with
    | nil => cases h
    | cons e outer =>
      simp only [step, Option.ite_none_right_eq_some] at h
      obtain ⟨rfl, heq⟩ := h
      cases heq
      simp only [openNames_close]
      rfl
  | text raw =>
    cases stack with
    | nil => cases h; rfl
    | cons e outer =>
      simp only [step, Option.bind_eq_bind, Option.bind_eq_some_iff] at h
      obtain ⟨cs, -, heq⟩ := h
      cases heq
      rfl
  | cdata raw =>
    cases stack with
    | nil => cases h; rfl
    | cons e outer => cases h; rfl
  | aside => cases h; rfl
  | broken => cases h

/-- After nested pieces the same elements are open as before them. -/
theorem Nested.openNames_run (hps : Nested ps) (h : ps.foldlM Draft.step d = some d') :
    d'.openNames = d.openNames := by
  induction hps generalizing d d' with
  | nil => cases h; rfl
  | @other p ps hopening hclosing _ ih =>
    obtain ⟨mid, hstep, hrest⟩ := run_cons h
    have hnames := Draft.openNames_step hstep
    rw [ih hrest]
    cases p with
    | opening name => exact absurd rfl (hopening name)
    | closing name => exact absurd rfl (hclosing name)
    | empty | text | cdata | aside | broken => exact hnames
  | element _ _ ihinside ihrest =>
    obtain ⟨last, hfront, hback⟩ := run_append h
    obtain ⟨first, hopening, hinside⟩ := run_cons hfront
    obtain ⟨closed, hclosing, hrest⟩ := run_cons hback
    have hfirst := Draft.openNames_step hopening
    have hclosed := Draft.openNames_step hclosing
    rw [ihinside hinside, hfirst] at hclosed
    rw [ihrest hrest]
    exact (List.cons.inj hclosed).2.symm

/-- Without a tag that opens an element nothing is kept. -/
theorem run_rootless (hopening : ∀ name, .opening name ∉ ps) (hempty : ∀ name, .empty name ∉ ps)
    (h : ps.foldlM Draft.step ({} : Draft) = some d) : d = {} := by
  induction ps with
  | nil => cases h; rfl
  | cons p ps ih =>
    obtain ⟨mid, hstep, hrest⟩ := run_cons h
    have hmid : mid = {} := by
      cases p with
      | opening name => exact absurd List.mem_cons_self (hopening name)
      | empty name => exact absurd List.mem_cons_self (hempty name)
      | closing | broken => cases hstep
      | text | cdata | aside => cases hstep; rfl
    subst hmid
    exact ih (fun name hmem => hopening name (List.mem_cons_of_mem _ hmem))
      (fun name hmem => hempty name (List.mem_cons_of_mem _ hmem)) hrest

/-- Faulty pieces leave an element open or no root, if they are taken at all. -/
theorem Faulty.not_closed (hps : Faulty ps) (v : Json.Value) :
    ps.foldlM Draft.step ({} : Draft) ≠ some ⟨[], some v⟩ := by
  intro h
  cases hps with
  | unclosed before name hinside =>
    obtain ⟨mid, -, hback⟩ := run_append h
    obtain ⟨first, hopening, hrun⟩ := run_cons hback
    have hnames := hinside.openNames_run hrun
    rw [Draft.openNames_step hopening] at hnames
    cases hnames
  | mismatched before after hinside hother =>
    obtain ⟨last, hfront, hback⟩ := run_append h
    obtain ⟨mid, -, hfront⟩ := run_append hfront
    obtain ⟨first, hopening, hrun⟩ := run_cons hfront
    obtain ⟨closed, hclosing, -⟩ := run_cons hback
    have hclosed := Draft.openNames_step hclosing
    rw [hinside.openNames_run hrun, Draft.openNames_step hopening] at hclosed
    exact hother (List.cons.inj hclosed).1.symm
  | unopened name after hbefore =>
    obtain ⟨last, hfront, hback⟩ := run_append h
    obtain ⟨closed, hclosing, -⟩ := run_cons hback
    have hclosed := Draft.openNames_step hclosing
    rw [hbefore.openNames_run hfront] at hclosed
    cases hclosed
  | rootless hopening hempty =>
    cases run_rootless hopening hempty h

theorem document_faulty {text : String} (h : Faulty (Markup.scan text.toList)) :
    ∃ fault, document text = .error fault := by
  unfold document
  split
  · exact ⟨_, rfl⟩
  · exact ⟨_, rfl⟩
  · exact ⟨_, rfl⟩
  · rename_i v hrun
    exact absurd hrun (h.not_closed v)

/-- The text of a tree is read as the value of the tree; a text with an element that is not closed, a
closing tag that matches no open element, or no element at all is not read. -/
theorem document_meaning (e : Element) (text : String) :
    document e.text = .ok e.value ∧
      (Faulty (Markup.scan text.toList) → ∃ fault, document text = .error fault) :=
  ⟨e.document_text, document_faulty⟩

/-- A tree with all there can be in one. -/
def leaflet : Element :=
  let none : Blanks := ⟨[], by simp⟩
  let name (c : Char) (h : isNameChar c = true ∧ c ≠ '!' ∧ c ≠ '?') : Name := ⟨c, [], h, by simp⟩
  let tag (c : Char) (h : isNameChar c = true ∧ c ≠ '!' ∧ c ≠ '?') (hc : ':' ≠ c)
      (attributes : List Attribute) : Tag := ⟨name c h, by simpa [name, Name.chars], attributes, none⟩
  let bracket : Attribute :=
    ⟨⟨[' '], by simp [isSpace]⟩, by simp, name 'k' (by decide), none, none, '"', by decide, ['>'],
      by decide⟩
  let r := tag 'r' (by decide) (by decide) [bracket]
  let a := tag 'a' (by decide) (by decide) []
  let b := tag 'b' (by decide) (by decide) []
  let sum : TextRun := [.plain '1' (by decide), .decimal [4, 3] (by decide), .plain '2' (by decide)]
  .full r
    (.element [.plain ' ' (by decide)] a (.done sum) none <|
      .empty [] a <|
      .element [] b (.cdata [] ⟨[' '], by decide⟩ (.done [.entity .lt])) none <|
      .comment [] ⟨['!'], by decide⟩ (.done []))
    none

example :
    leaflet.text = "<r k=\">\"> <a>1&#43;2</a><a/><b><![CDATA[ ]]>&lt;</b><!--!--></r>" := by
  decide

theorem leaflet_meaning :
    document leaflet.text = .ok (.object [("a", .list [.str "1+2", .null]), ("b", .str " <")]) ∧
      Faulty (Markup.scan "<a><b></a>".toList) ∧
      ∃ fault, document "<a><b></a>" = .error fault := by
  have hscan : Markup.scan "<a><b></a>".toList = [.opening ['a'], .opening ['b'], .closing ['a']] := by
    decide
  have hfaulty : Faulty (Markup.scan "<a><b></a>".toList) :=
    hscan ▸ .mismatched [.opening ['a']] [] .nil (by decide)
  have hmeaning := document_meaning leaflet "<a><b></a>"
  have hvalue :
      leaflet.value = .object [("a", .list [.str "1+2", .null]), ("b", .str " <")] := by rfl
  exact ⟨hvalue ▸ hmeaning.1, hfaulty, hmeaning.2 hfaulty⟩

end FeedPoller.Xml

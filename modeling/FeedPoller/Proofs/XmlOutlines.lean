import FeedPoller.Proofs.XmlTrees
import Mathlib.Data.List.Induction

/-! Documents by their pieces. An outline is what stands in an element, cut into pieces, with the
elements in it as outlines of their own; names may have prefixes, and between the elements there may be
anything that is passed over. Main statement: the texts that are read are those that are cut into root
elements, among pieces that belong to no element, and the value is that of the last one
(`document_eq_ok_iff`). -/

namespace FeedPoller.Xml

open Json (Value Fields)

/-! ## Children by name -/

section Children

/-- What is kept under a name for the values that came under it. -/
def kept : List Value → Option Value
  | [] => none
  | vs => some (gather vs)

/-- All children, added in turn. -/
def attachAll (fields : Fields) (children : List (String × Value)) : Fields :=
  children.foldl (fun fields c => attach fields c.1 c.2) fields

variable {fields : Fields} {name other : String} {v : Value} {children : List (String × Value)}

theorem get?_attach_of_ne (h : other ≠ name) :
    Named.get? other (attach fields name v) = Named.get? other fields := by
  unfold attach
  split <;> exact Named.get?_insert_of_ne _ _ h

/-- A list under a name was made of several values, as no value by itself is one. -/
theorem get?_attach_self {vs : List Value} (hvs : ∀ w ∈ vs, w.list? = none)
    (h : Named.get? name fields = kept vs) :
    Named.get? name (attach fields name v) = kept (vs ++ [v]) := by
  unfold attach
  match vs with
  | [] =>
    rw [h]
    exact Named.get?_insert_self ..
  | [w] =>
    have hw : w.list? = none := hvs w (by simp)
    rw [h]
    cases w with
    | list => cases hw
    | null | bool | int | float | str | object => exact Named.get?_insert_self ..
  | u :: w :: rest =>
    rw [h]
    exact Named.get?_insert_self ..

theorem under_concat (c : String × Value) :
    under name (children ++ [c]) = under name children ++ if c.1 = name then [c.2] else [] := by
  unfold under
  rw [List.filterMap_append]
  split <;> simp [*]

theorem mem_under (h : v ∈ under name children) : ∃ c ∈ children, c.2 = v := by
  obtain ⟨c, hc, heq⟩ := List.mem_filterMap.mp h
  split at heq
  · exact ⟨c, hc, Option.some.inj heq⟩
  · cases heq

theorem get?_attachAll (h : ∀ c ∈ children, c.2.list? = none) :
    Named.get? name (attachAll [] children) = kept (under name children) := by
  induction children using List.reverseRecOn with
  | nil => rfl
  | append_singleton children c ih =>
    have hchildren : ∀ d ∈ children, d.2.list? = none := fun d hd => h d (by simp [hd])
    rw [attachAll, List.foldl_append, under_concat]
    by_cases hc : c.1 = name
    · subst hc
      rw [if_pos rfl]
      refine get?_attach_self (fun w hw => ?_) (ih hchildren)
      obtain ⟨d, hd, rfl⟩ := mem_under hw
      exact hchildren d hd
    · rw [if_neg hc, List.append_nil, ← ih hchildren]
      exact get?_attach_of_ne (Ne.symm hc)

theorem ascending_attachAll : (attachAll [] children).Ascending := by
  have hfold : ∀ fields : Fields, fields.Ascending → (attachAll fields children).Ascending := by
    induction children with
    | nil => exact fun _ hfields => hfields
    | cons c rest ih =>
      intro fields hfields
      refine ih (attach fields c.1 c.2) ?_
      unfold attach
      split <;> exact hfields.insert ..
  exact hfold [] .nil

theorem get?_ofList_map {α : Type} (f : String → α) (names : List String) :
    Named.get? name (Named.ofList (names.map fun n => (n, f n))) =
      if name ∈ names then some (f name) else none := by
  unfold Named.ofList
  induction names using List.reverseRecOn with
  | nil => rfl
  | append_singleton names n ih =>
    rw [List.map_append, List.foldl_append]
    by_cases hn : name = n
    · subst hn
      simp [Named.get?_insert_self]
    · simpa [Named.get?_insert_of_ne _ _ hn, hn] using ih

theorem kept_under :
    kept (under name children) =
      if name ∈ (children.map Prod.fst).dedup then some (gather (under name children)) else none := by
  have hmem : name ∈ (children.map Prod.fst).dedup ↔ under name children ≠ [] := by
    simp [under, List.filterMap_eq_nil_iff]
  simp only [hmem]
  cases under name children <;> rfl

/-- Adding children in turn keeps, under each name, the only value or the list of all of them. -/
theorem attachAll_eq_ofList (h : ∀ c ∈ children, c.2.list? = none) :
    attachAll [] children = Named.ofList
      ((children.map Prod.fst).dedup.map fun name => (name, gather (under name children))) := by
  refine ascending_attachAll.ext (Named.ascending_ofList _) fun name => ?_
  rw [get?_attachAll h, get?_ofList_map fun name => gather (under name children), kept_under]

theorem attach_ne_nil : attach fields name v ≠ [] := by
  intro h
  have hself : (attach fields name v).get? name ≠ none := by
    unfold attach
    split <;> simp [Named.get?_insert_self]
  rw [h] at hself
  exact hself rfl

theorem attachAll_eq_nil_iff : attachAll [] children = [] ↔ children = [] := by
  constructor
  · intro h
    obtain hnil | ⟨front, c, hchildren⟩ := List.eq_nil_or_concat children
    · exact hnil
    · rw [hchildren, List.concat_eq_append, attachAll, List.foldl_append] at h
      exact absurd h attach_ne_nil
  · rintro rfl
    rfl

/-- An element with these children and this text has the value that is defined for them. -/
theorem OpenElement.value_eq (n text : List Char) (h : ∀ c ∈ children, c.2.list? = none) :
    OpenElement.value ⟨n, attachAll [] children, text⟩ = valueOf children text := by
  simp only [OpenElement.value, valueOf, Value.ofFields, ← attachAll_eq_ofList h,
    List.isEmpty_eq_false_iff, Bool.not_eq_true', List.isEmpty_iff, ne_eq, attachAll_eq_nil_iff,
    ite_not]

theorem valueOf_list? (text : List Char) : (valueOf children text).list? = none := by
  unfold valueOf
  split
  · rfl
  · split <;> rfl

end Children

/-! ## Outlines -/

/-- What stands in an element. Each text, as it is written, comes with what is meant by it. -/
inductive Outline where
  | done
  | text (raw meant : List Char) (h : replaceReferences raw = some meant) (rest : Outline)
  | cdata (data : List Char) (rest : Outline)
  | aside (rest : Outline)
  | empty (name : List Char) (rest : Outline)
  | element (name : List Char) (inside rest : Outline)

namespace Outline

def pieces : Outline → List Markup
  | done => []
  | text raw _ _ rest => .text raw :: rest.pieces
  | cdata data rest => .cdata data :: rest.pieces
  | aside rest => .aside :: rest.pieces
  | empty name rest => .empty name :: rest.pieces
  | element name inside rest => .opening name :: inside.pieces ++ .closing name :: rest.pieces

/-- The texts and character data, one after the other; those of the elements do not count. -/
def chars : Outline → List Char
  | done => []
  | text _ meant _ rest => meant ++ rest.chars
  | cdata data rest => data ++ rest.chars
  | aside rest => rest.chars
  | empty _ rest => rest.chars
  | element _ _ rest => rest.chars

/-- The elements by name, in order. -/
def elements : Outline → List (String × Outline)
  | done => []
  | text _ _ _ rest => rest.elements
  | cdata _ rest => rest.elements
  | aside rest => rest.elements
  | empty name rest => (localName name, done) :: rest.elements
  | element name inside rest => (localName name, inside) :: rest.elements

/-- The elements by name, with their values, in order. -/
def children : Outline → List (String × Value)
  | done => []
  | text _ _ _ rest => rest.children
  | cdata _ rest => rest.children
  | aside rest => rest.children
  | empty name rest => (localName name, valueOf [] []) :: rest.children
  | element name inside rest =>
    (localName name, valueOf inside.children inside.chars) :: rest.children

/-- The value of an element in which this stands. -/
def value (o : Outline) : Value := valueOf o.children o.chars

theorem children_eq (o : Outline) : o.children = o.elements.map fun e => (e.1, e.2.value) := by
  induction o with
  | done => rfl
  | text _ _ _ _ ih => exact ih
  | cdata _ _ ih => exact ih
  | aside _ ih => exact ih
  | empty name _ ih => exact congrArg ((localName name, valueOf [] []) :: ·) ih
  | element name inside _ _ ih => exact congrArg ((localName name, inside.value) :: ·) ih

theorem children_eq_nil_iff {o : Outline} : o.children = [] ↔ o.elements = [] := by
  rw [o.children_eq, List.map_eq_nil_iff]

theorem children_list? (o : Outline) : ∀ c ∈ o.children, c.2.list? = none := by
  rw [children_eq, List.forall_mem_map]
  exact fun _ _ => valueOf_list? _

/-! ### Elements of one name -/

/-- What stands in the elements of a name, in order. -/
def named (name : String) (o : Outline) : List Outline :=
  o.elements.filterMap fun e => if e.1 = name then some e.2 else none

theorem under_children (name : String) (o : Outline) :
    under name o.children = (o.named name).map value := by
  rw [o.children_eq, under, named, List.filterMap_map, List.map_filterMap]
  refine List.filterMap_congr fun e _ => ?_
  dsimp only [Function.comp_apply]
  split <;> rfl

/-- An element has under a name the values of the elements of that name. -/
theorem get?_value (name : String) (o : Outline) :
    o.value.get? name = kept ((o.named name).map value) := by
  rw [← under_children, value, valueOf]
  split
  · rw [Value.ofFields, Value.get?, get?_ofList_map fun name => gather (under name o.children)]
    exact kept_under.symm
  · rename_i hnone
    rw [not_not.mp hnone]
    split <;> rfl

/-- Only an element without elements is a text. -/
theorem str?_value {o : Outline} {t : String} :
    o.value.str? = some t ↔ o.elements = [] ∧ o.chars ≠ [] ∧ t = String.ofList o.chars := by
  rw [value, valueOf, ← children_eq_nil_iff]
  by_cases helements : o.children = []
  · by_cases hchars : o.chars = [] <;> simp [helements, hchars, Value.str?, eq_comm]
  · simp [helements, Value.ofFields, Value.str?]

/-- An element that has neither elements nor text in it. -/
def IsEmpty (o : Outline) : Prop := o.elements = [] ∧ o.chars = []

theorem value_eq_null_iff {o : Outline} : o.value = .null ↔ o.IsEmpty := by
  rw [value, valueOf, IsEmpty, ← children_eq_nil_iff]
  by_cases helements : o.children = []
  · by_cases hchars : o.chars = [] <;> simp [helements, hchars]
  · simp [helements, Value.ofFields]

end Outline

/-! ## Reading an outline -/

/-- What the reading of an element has come to after what stands in it. -/
def OpenElement.after (e : OpenElement) (o : Outline) : OpenElement :=
  { e with fields := attachAll e.fields o.children, text := e.text ++ o.chars }

theorem OpenElement.value_after (name : List Char) (o : Outline) :
    (OpenElement.after { name } o).value = o.value :=
  OpenElement.value_eq name o.chars o.children_list?

variable {e : OpenElement} {outer : List OpenElement} {root : Option Value} {d d' : Draft} {p : Markup}
  {ps : List Markup}

theorem run_append {before after : List Markup}
    (h : (before ++ after).foldlM Draft.step d = some d') :
    ∃ mid, before.foldlM Draft.step d = some mid ∧ after.foldlM Draft.step mid = some d' := by
  rw [List.foldlM_append] at h
  exact Option.bind_eq_some_iff.mp h

theorem run_cons (h : (p :: ps).foldlM Draft.step d = some d') :
    ∃ mid, d.step p = some mid ∧ ps.foldlM Draft.step mid = some d' := by
  rw [List.foldlM_cons] at h
  exact Option.bind_eq_some_iff.mp h

/-- What stands in an element is read into that element; the outer ones stay as they are. -/
theorem Outline.run (o : Outline) :
    o.pieces.foldlM Draft.step ⟨e :: outer, root⟩ = some ⟨e.after o :: outer, root⟩ := by
  induction o generalizing e outer with
  | done => simp [pieces, OpenElement.after, children, chars, attachAll]
  | text raw meant h rest ih =>
    simp [pieces, Draft.step, h, ih, OpenElement.after, OpenElement.addText, children, chars]
  | cdata data rest ih =>
    simp [pieces, Draft.step, ih, OpenElement.after, OpenElement.addText, children, chars]
  | aside rest ih =>
    simp [pieces, Draft.step, ih, OpenElement.after, children, chars]
  | empty name rest ih =>
    have hvalue : OpenElement.value { name } = valueOf [] [] := rfl
    simp [pieces, Draft.step, Draft.close, hvalue, ih, OpenElement.after, OpenElement.addChild,
      children, chars, attachAll]
  | element name inside rest ihinside ihrest =>
    have hname : (OpenElement.after { name } inside).name = name := rfl
    simp only [pieces, List.foldlM_append, List.foldlM_cons, Draft.step, Draft.close,
      Option.bind_eq_bind, Option.bind_some, ihinside, hname, OpenElement.value_after, if_true, ihrest]
    simp [OpenElement.after, OpenElement.addChild, children, chars, attachAll, value]

/-- An element is read up to its end, and what follows it after that. -/
theorem run_element {name : List Char} {inside : Outline} :
    (inside.pieces ++ .closing name :: ps).foldlM Draft.step ⟨{ name } :: outer, root⟩ =
      ps.foldlM Draft.step (.close name inside.value root outer) := by
  have hname : (OpenElement.after { name } inside).name = name := rfl
  simp only [List.foldlM_append, List.foldlM_cons, inside.run, Draft.step, Option.bind_eq_bind,
    Option.bind_some, hname, OpenElement.value_after, if_true]

/-- Where an element gets closed, what comes before its closing tag is an outline. -/
theorem exists_inside (h : ps.foldlM Draft.step ⟨e :: outer, root⟩ = some d)
    (hclosed : d.stack.length ≤ outer.length) :
    ∃ (inside : Outline) (rest : List Markup), ps = inside.pieces ++ .closing e.name :: rest := by
  -- after an element within, one goes on with what follows its closing tag, not with the next piece
  induction hn : ps.length using Nat.strongRecOn generalizing ps e outer root d with
  | _ n ih =>
    subst hn
    cases ps with
    | nil =>
      cases h
      exact absurd hclosed (Nat.not_succ_le_self _)
    | cons p ps =>
      obtain ⟨mid, hstep, hrest⟩ := run_cons h
      cases p with
      | opening name =>
        cases hstep
        obtain ⟨inside, rest, rfl⟩ := ih _ (Nat.lt_succ_self _) hrest (Nat.le_succ_of_le hclosed) rfl
        rw [run_element] at hrest
        obtain ⟨more, rest, rfl⟩ := ih _ (by simp; omega) hrest hclosed rfl
        exact ⟨.element name inside more, rest, by simp [Outline.pieces, OpenElement.addChild]⟩
      | empty name =>
        cases hstep
        obtain ⟨more, rest, rfl⟩ := ih _ (Nat.lt_succ_self _) hrest hclosed rfl
        exact ⟨.empty name more, rest, rfl⟩
      | closing name =>
        simp only [Draft.step, Option.ite_none_right_eq_some] at hstep
        obtain ⟨rfl, -⟩ := hstep
        exact ⟨.done, ps, rfl⟩
      | text raw =>
        simp only [Draft.step, Option.bind_eq_bind, Option.bind_eq_some_iff] at hstep
        obtain ⟨meant, hmeant, heq⟩ := hstep
        cases heq
        obtain ⟨more, rest, rfl⟩ := ih _ (Nat.lt_succ_self _) hrest hclosed rfl
        exact ⟨.text raw meant hmeant more, rest, rfl⟩
      | cdata raw =>
        cases hstep
        obtain ⟨more, rest, rfl⟩ := ih _ (Nat.lt_succ_self _) hrest hclosed rfl
        exact ⟨.cdata raw more, rest, rfl⟩
      | aside =>
        cases hstep
        obtain ⟨more, rest, rfl⟩ := ih _ (Nat.lt_succ_self _) hrest hclosed rfl
        exact ⟨.aside more, rest, rfl⟩
      | broken => cases hstep

/-! ## Documents -/

/-- A root element. -/
inductive Root where
  | empty (name : List Char)
  | full (name : List Char) (inside : Outline)

namespace Root

def inside : Root → Outline
  | empty _ => .done
  | full _ inside => inside

def pieces : Root → List Markup
  | empty name => [.empty name]
  | full name inside => .opening name :: inside.pieces ++ [.closing name]

def value (r : Root) : Value := r.inside.value

theorem run (r : Root) : r.pieces.foldlM Draft.step ⟨[], root⟩ = some ⟨[], some r.value⟩ := by
  cases r with
  | empty name => rfl
  | full name inside => exact run_element

end Root

/-- Pieces that neither open nor close an element. -/
def Markup.IsApart : Markup → Prop
  | .text _ | .cdata _ | .aside => True
  | .opening _ | .empty _ | .closing _ | .broken => False

theorem Markup.IsApart.step (h : p.IsApart) : Draft.step ⟨[], root⟩ p = some ⟨[], root⟩ := by
  cases p with
  | text | cdata | aside => rfl
  | opening | empty | closing | broken => exact h.elim

/-- Root elements one after the other, among pieces that belong to none of them. -/
inductive Series : List Markup → List Root → Prop where
  | nil : Series [] []
  | apart {p : Markup} {ps : List Markup} {roots : List Root} :
      p.IsApart → Series ps roots → Series (p :: ps) roots
  | root (r : Root) {ps : List Markup} {roots : List Root} :
      Series ps roots → Series (r.pieces ++ ps) (r :: roots)

namespace Series

variable {roots : List Root}

theorem append_apart {before : List Markup} (hbefore : ∀ p ∈ before, p.IsApart)
    (h : Series ps roots) : Series (before ++ ps) roots := by
  induction before with
  | nil => exact h
  | cons p before ih =>
    obtain ⟨hp, hrest⟩ := List.forall_mem_cons.mp hbefore
    exact .apart hp (ih hrest)

theorem run (h : Series ps roots) :
    ps.foldlM Draft.step ⟨[], root⟩ = some ⟨[], (roots.getLast?.map Root.value).or root⟩ := by
  induction h generalizing root with
  | nil => rfl
  | apart hp _ ih =>
    rw [List.foldlM_cons, hp.step]
    exact ih
  | @root r ps roots _ ih =>
    rw [List.foldlM_append, r.run, Option.bind_eq_bind, Option.bind_some, ih, List.getLast?_cons]
    cases roots.getLast? <;> rfl

/-- Where no element stays open, there are root elements and nothing else. -/
theorem exists_of_run (h : ps.foldlM Draft.step ⟨[], root⟩ = some d) (hstack : d.stack = []) :
    ∃ roots, Series ps roots := by
  induction hn : ps.length using Nat.strongRecOn generalizing ps root d with
  | _ n ih =>
    subst hn
    cases ps with
    | nil => exact ⟨[], .nil⟩
    | cons p ps =>
      obtain ⟨mid, hstep, hrest⟩ := run_cons h
      cases p with
      | opening name =>
        cases hstep
        obtain ⟨inside, rest, rfl⟩ := exists_inside hrest (by simp [hstack])
        rw [run_element] at hrest
        obtain ⟨roots, hroots⟩ := ih _ (by simp; omega) hrest hstack rfl
        have hseries := Series.root (.full name inside) hroots
        exact ⟨_, by simpa [Root.pieces] using hseries⟩
      | empty name =>
        cases hstep
        obtain ⟨roots, hroots⟩ := ih _ (Nat.lt_succ_self _) hrest hstack rfl
        exact ⟨_, .root (.empty name) hroots⟩
      | text | cdata | aside =>
        cases hstep
        obtain ⟨roots, hroots⟩ := ih _ (Nat.lt_succ_self _) hrest hstack rfl
        exact ⟨roots, .apart trivial hroots⟩
      | closing | broken => cases hstep

end Series

/-- A text is read just when it is a series of root elements, as the value of the last one. -/
theorem document_eq_ok_iff {text : String} {v : Value} :
    document text = .ok v ↔
      ∃ roots root, Series (Markup.scan text.toList) roots ∧ roots.getLast? = some root ∧
        v = root.value := by
  constructor
  · intro h
    rw [document] at h
    split at h
    · cases h
    · cases h
    · cases h
    · rename_i value hrun
      cases h
      obtain ⟨roots, hroots⟩ := Series.exists_of_run hrun rfl
      rw [show ({} : Draft) = ⟨[], none⟩ from rfl, hroots.run, Option.or_none] at hrun
      have hroot := congrArg Draft.root (Option.some.inj hrun)
      obtain ⟨root, hlast, hvalue⟩ := Option.map_eq_some_iff.mp hroot
      exact ⟨roots, root, hroots, hlast, hvalue.symm⟩
  · rintro ⟨roots, root, hroots, hlast, rfl⟩
    have hrun : (Markup.scan text.toList).foldlM Draft.step {} = some ⟨[], some root.value⟩ := by
      rw [show ({} : Draft) = ⟨[], none⟩ from rfl, hroots.run, hlast]
      rfl
    rw [document, hrun]

/-- A text is a document with this root element and no other. -/
def Holds (text : String) (root : Root) : Prop :=
  ∃ before after, (∀ p ∈ before, p.IsApart) ∧ (∀ p ∈ after, p.IsApart) ∧
    Markup.scan text.toList = before ++ root.pieces ++ after

/-- A document is read as the value of its root element. -/
theorem Holds.document {text : String} {root : Root} (h : Holds text root) :
    Xml.document text = .ok root.value := by
  obtain ⟨before, after, hbefore, hafter, hscan⟩ := h
  have hseries : Series (Markup.scan text.toList) [root] := by
    rw [hscan, List.append_assoc, ← after.append_nil]
    exact .append_apart hbefore (.root root (.append_apart hafter .nil))
  exact document_eq_ok_iff.mpr ⟨[root], root, hseries, rfl, rfl⟩

end FeedPoller.Xml

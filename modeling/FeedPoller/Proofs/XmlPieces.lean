import FeedPoller.Proofs.XmlTexts

/-! The pieces into which the text of a tree is cut. Main statement: they are the tags, trimmed texts,
character data and comments of the tree, in order (`Element.scan_text`). -/

namespace FeedPoller.Xml

variable {cs ds rest : List Char}

/-! ## Characters of names, blanks and quotations -/

theorem isNameChar_iff {c : Char} : isNameChar c = true ↔ isSpace c = false ∧ c ≠ '<' ∧ c ≠ '>' ∧
    c ≠ '/' ∧ c ≠ '"' ∧ c ≠ '\'' ∧ c ≠ '=' ∧ c ≠ '&' := by
  simp [isNameChar]

theorem isSpace_iff {c : Char} : isSpace c = true ↔ c = ' ' ∨ c = '\t' ∨ c = '\r' ∨ c = '\n' := by
  simp [isSpace, or_assoc]

theorem Name.isNameChar_of_mem (n : Name) : ∀ c ∈ n.chars, isNameChar c = true := by
  intro c hc
  obtain rfl | hc := List.mem_cons.mp hc
  · exact n.starts.1
  · exact n.goesOn c hc

/-- Characters after which the end of a tag is looked for as it is at the head of the tag. -/
def PassedOver (cs : List Char) : Prop :=
  ∀ rest, untilBracket none (cs ++ rest) =
    (untilBracket none rest).map fun r => (cs ++ r.1, r.2)

theorem PassedOver.nil : PassedOver [] := by
  intro rest
  cases h : untilBracket none rest <;> simp [h]

theorem PassedOver.append (hcs : PassedOver cs) (hds : PassedOver ds) : PassedOver (cs ++ ds) := by
  intro rest
  rw [List.append_assoc, hcs, hds, Option.map_map]
  simp [Function.comp_def]

theorem PassedOver.until_bracket (h : PassedOver cs) (rest : List Char) :
    untilBracket none (cs ++ '>' :: rest) = some (cs, rest) := by
  rw [h]
  simp [untilBracket]

/-- A character that neither ends a tag nor begins a quotation. -/
def Unmarked (c : Char) : Prop := c ≠ '>' ∧ c ≠ '"' ∧ c ≠ '\''

theorem passedOver_unmarked (h : ∀ c ∈ cs, Unmarked c) : PassedOver cs := by
  induction cs with
  | nil => exact .nil
  | cons c cs ih =>
    obtain ⟨⟨hgt, hdouble, hsingle⟩, hcs⟩ := List.forall_mem_cons.mp h
    intro rest
    simp [untilBracket, hgt, hdouble, hsingle, ih hcs rest, Function.comp_def]

theorem untilBracket_quoted {q : Char} (h : q ∉ cs) :
    untilBracket (some q) (cs ++ q :: rest) =
      (untilBracket none rest).map fun r => (cs ++ q :: r.1, r.2) := by
  induction cs with
  | nil => simp [untilBracket]
  | cons c cs ih =>
    obtain ⟨hc, hcs⟩ : c ≠ q ∧ q ∉ cs := by simpa [eq_comm] using h
    simp [untilBracket, hc, ih hcs, Function.comp_def]

theorem passedOver_quotation {q : Char} (hq : q = '"' ∨ q = '\'') (h : q ∉ cs) :
    PassedOver (q :: cs ++ [q]) := by
  intro rest
  have hgt : q ≠ '>' := by obtain rfl | rfl := hq <;> decide
  simp [untilBracket, hgt, hq, untilBracket_quoted h, Function.comp_def]

theorem Name.passedOver (n : Name) : PassedOver n.chars := by
  refine passedOver_unmarked fun c hc => ?_
  obtain ⟨-, -, hgt, -, hdouble, hsingle, -⟩ := isNameChar_iff.mp (n.isNameChar_of_mem c hc)
  exact ⟨hgt, hdouble, hsingle⟩

theorem Blanks.passedOver (bs : Blanks) : PassedOver bs.val := by
  refine passedOver_unmarked fun c hc => ?_
  obtain rfl | rfl | rfl | rfl := isSpace_iff.mp (bs.property c hc) <;>
    exact ⟨by decide, by decide, by decide⟩

theorem Attribute.passedOver (a : Attribute) : PassedOver a.chars := by
  have hequal : PassedOver ['='] :=
    passedOver_unmarked (by simp [Unmarked])
  have h := (((a.lead.passedOver.append a.name.passedOver).append a.left.passedOver).append
    hequal).append (a.right.passedOver.append (passedOver_quotation a.quotes a.within))
  simpa [Attribute.chars] using h

theorem Tag.passedOver (t : Tag) : PassedOver t.chars := by
  have hattributes : PassedOver (t.attributes.flatMap Attribute.chars) := by
    induction t.attributes with
    | nil => exact .nil
    | cons a as ih => exact List.flatMap_cons ▸ a.passedOver.append ih
  exact (t.name.passedOver.append hattributes).append t.trail.passedOver

/-! ## Tags -/

/-- What follows the name in a tag, if anything, begins with a blank. -/
theorem Tag.tagName_chars (t : Tag) : tagName t.chars = t.name.chars := by
  have hafter : (t.attributes.flatMap Attribute.chars ++ t.trail.val).takeWhile (! isSpace ·) = [] := by
    cases t.attributes with
    | nil =>
      cases htrail : t.trail.val with
      | nil => rfl
      | cons b bs => simp [t.trail.property b (by simp [htrail])]
    | cons a as =>
      obtain ⟨b, bs, hlead⟩ := List.exists_cons_of_ne_nil a.apart
      have hb : isSpace b = true := a.lead.property b (by simp [hlead])
      simp [Attribute.chars, hlead, hb]
  rw [tagName, Tag.chars, List.append_assoc, List.takeWhile_append_of_pos, hafter, List.append_nil]
  intro c hc
  simp [(isNameChar_iff.mp (t.name.isNameChar_of_mem c hc)).1]

theorem Attribute.getLast?_chars (a : Attribute) : a.chars.getLast? = some a.quote :=
  List.getLast?_concat

/-- The last character of a tag belongs to a blank, a quotation or a name. -/
theorem Tag.getLast?_chars (t : Tag) : ∃ c, t.chars.getLast? = some c ∧ c ≠ '/' := by
  obtain htrail | ⟨bs, b, htrail⟩ := List.eq_nil_or_concat t.trail.val
  · obtain hattributes | ⟨as, a, hattributes⟩ := List.eq_nil_or_concat t.attributes
    · obtain hname | ⟨cs, c, hname⟩ := List.eq_nil_or_concat t.name.chars
      · simp [Name.chars] at hname
      · have hc := isNameChar_iff.mp (t.name.isNameChar_of_mem c (by simp [hname]))
        exact ⟨c, by simp [Tag.chars, htrail, hattributes, hname], hc.2.2.2.1⟩
    · refine ⟨a.quote, by simp [Tag.chars, htrail, hattributes, a.getLast?_chars], ?_⟩
      obtain h | h := a.quotes <;> rw [h] <;> decide
  · refine ⟨b, by simp [Tag.chars, htrail], ?_⟩
    obtain rfl | rfl | rfl | rfl := isSpace_iff.mp (t.trail.property b (by simp [htrail])) <;> decide

theorem Tag.elementTag_chars (t : Tag) : elementTag t.chars = .opening t.name.chars := by
  obtain ⟨c, hlast, hc⟩ := t.getLast?_chars
  obtain ⟨cs, hchars⟩ := List.getLast?_eq_some_iff.mp hlast
  have hreverse : t.chars.reverse = c :: cs.reverse := by simp [hchars]
  rw [elementTag, hreverse]
  split
  · rename_i heq
    exact absurd (List.cons.inj heq).1 hc
  · rw [t.tagName_chars]

theorem Tag.elementTag_alone (t : Tag) : elementTag (t.chars ++ ['/']) = .empty t.name.chars := by
  simp [elementTag, t.tagName_chars]

theorem Name.closingTag_chars (n : Name) (trail : Blanks) :
    closingTag (n.chars ++ trail.val) = .closing n.chars := by
  have htrail : ∀ c ∈ trail.val.reverse, isSpace c = true := by simpa using trail.property
  obtain hname | ⟨cs, c, hname⟩ := List.eq_nil_or_concat n.chars
  · simp [Name.chars] at hname
  · have hc := (isNameChar_iff.mp (n.isNameChar_of_mem c (by simp [hname]))).1
    rw [closingTag, List.reverse_append, List.dropWhile_append_of_pos htrail]
    simp [hname, hc]

/-! ## Markup -/

/-- A tag is told from other markup by the first character of its name. -/
theorem Name.markup_chars (n : Name) (h : PassedOver (n.chars ++ cs)) (rest : List Char) :
    markup (n.chars ++ cs ++ '>' :: rest) = some (elementTag (n.chars ++ cs), rest) := by
  obtain ⟨hfirst, hbang, hmark⟩ := n.starts
  obtain ⟨-, -, -, hslash, -⟩ := isNameChar_iff.mp hfirst
  have htag := h.until_bracket rest
  simp only [Name.chars, List.cons_append] at htag ⊢
  unfold markup
  split
  · rename_i heq
    exact absurd (List.cons.inj heq).1 hbang
  · rename_i heq
    exact absurd (List.cons.inj heq).1 hmark
  · rename_i heq
    exact absurd (List.cons.inj heq).1 hslash
  · simp only [htag, Option.bind_eq_bind, Option.bind_some, Option.pure_def]

theorem Tag.markup_opening (t : Tag) :
    markup (t.chars ++ '>' :: rest) = some (.opening t.name.chars, rest) := by
  have hchars : t.chars = t.name.chars ++ (t.attributes.flatMap Attribute.chars ++ t.trail.val) :=
    List.append_assoc ..
  have h := t.name.markup_chars (hchars ▸ t.passedOver) rest
  rwa [← hchars, t.elementTag_chars] at h

theorem Tag.markup_alone (t : Tag) :
    markup (t.chars ++ ['/'] ++ '>' :: rest) = some (.empty t.name.chars, rest) := by
  have hchars : t.chars ++ ['/'] =
      t.name.chars ++ (t.attributes.flatMap Attribute.chars ++ t.trail.val ++ ['/']) := by
    simp [Tag.chars]
  have hslash : PassedOver ['/'] := passedOver_unmarked (by simp [Unmarked])
  have h := t.name.markup_chars (hchars ▸ t.passedOver.append hslash) rest
  rwa [← hchars, t.elementTag_alone] at h

theorem Name.markup_closing (n : Name) (trail : Blanks) :
    markup ('/' :: (n.chars ++ trail.val ++ '>' :: rest)) = some (.closing n.chars, rest) := by
  have h := (n.passedOver.append trail.passedOver).until_bracket rest
  simp only [markup, h, Option.bind_eq_bind, Option.bind_some, n.closingTag_chars, Option.pure_def]

/-- The end marks have their last character nowhere else, so none begins within the text before it and
ends in the mark. -/
theorem untilText_mark {d z : Char} (hne : d ≠ z) (h : ¬ [d, d, z] <:+: cs) :
    untilText [d, d, z] (cs ++ d :: d :: z :: rest) = some (cs, rest) := by
  induction cs with
  | nil => simp [untilText, Text.dropHead?]
  | cons c cs ih =>
    have hcs : ¬ [d, d, z] <:+: cs := fun hcs => h (hcs.trans (List.infix_cons List.infix_rfl))
    have hnone : Text.dropHead? [d, d, z] (c :: (cs ++ d :: d :: z :: rest)) = none := by
      match cs with
      | [] => simp [Text.dropHead?, hne.symm]
      | [_] => simp [Text.dropHead?, hne.symm]
      | b :: a :: _ =>
        simp only [Text.dropHead?, List.cons_append, ite_eq_right_iff, reduceCtorEq, imp_false]
        rintro rfl rfl rfl
        exact h ⟨[], _, rfl⟩
    rw [List.cons_append, untilText, hnone]
    simp [ih hcs]

theorem CharacterData.markup_chars (data : CharacterData) :
    markup (['!', '[', 'C', 'D', 'A', 'T', 'A', '['] ++ data.val ++ ']' :: ']' :: '>' :: rest) =
      some (.cdata data.val, rest) := by
  simp [markup, characterData, Text.dropHead?, untilText_mark (by decide) data.property]

theorem Comment.markup_chars (c : Comment) :
    markup (['!', '-', '-'] ++ c.val ++ '-' :: '-' :: '>' :: rest) = some (.aside, rest) := by
  simp [markup, comment, Text.dropHead?, untilText_mark (by decide) c.property]

/-! ## Documents -/

/-- The characters are cut into these pieces, whatever fuel is left over. -/
def CutInto (cs : List Char) (ps : List Markup) : Prop :=
  ∀ fuel, cs.length ≤ fuel → Markup.scanFrom fuel cs = ps

theorem CutInto.nil : CutInto [] [] := by
  intro fuel _
  cases fuel <;> rfl

theorem CutInto.markup {ps : List Markup} (h : CutInto rest ps) (m : Markup) (cs : List Char)
    (hm : Xml.markup (cs ++ rest) = some (m, rest)) : CutInto ('<' :: (cs ++ rest)) (m :: ps) := by
  intro fuel hfuel
  simp only [List.length_cons, List.length_append] at hfuel
  obtain ⟨fuel, rfl⟩ := Nat.exists_eq_add_one_of_ne_zero (Nat.ne_zero_of_lt hfuel)
  simp only [Markup.scanFrom, hm, h fuel (by omega)]

/-- The piece that a text is, if it is more than blanks. -/
def TextRun.pieces (t : TextRun) : List Markup :=
  if t.trimmed.chars = [] then [] else [.text t.trimmed.chars]

/-- The case of the scan that no bracket is at the head. -/
theorem scanFrom_text {fuel : Nat} {c : Char} (h : c ≠ '<') :
    Markup.scanFrom (fuel + 1) (c :: cs) =
      (let raw := Text.trimBy isSpace ((c :: cs).takeWhile (· != '<'))
       if raw = [] then [] else [.text raw]) ++
        Markup.scanFrom fuel ((c :: cs).dropWhile (· != '<')) := by
  rw [Markup.scanFrom]
  · simp only [List.isEmpty_iff]
    split <;> rfl
  · simp
  · rintro _ heq
    exact h (List.cons.inj heq).1

/-- A text goes on to the next bracket. -/
theorem CutInto.text {ps : List Markup} (t : TextRun) (hhead : cs.head? = some '<')
    (h : CutInto cs ps) : CutInto (t.chars ++ cs) (t.pieces ++ ps) := by
  obtain ⟨rest, rfl⟩ := List.head?_eq_some_iff.mp hhead
  intro fuel hfuel
  have hinside : ∀ c ∈ t.chars, (c != '<') = true := by
    simp only [bne_iff_ne]
    rintro c hc rfl
    exact t.no_bracket hc
  have htake : (t.chars ++ '<' :: rest).takeWhile (· != '<') = t.chars := by
    simp [List.takeWhile_append_of_pos hinside]
  have hdrop : (t.chars ++ '<' :: rest).dropWhile (· != '<') = '<' :: rest := by
    simp [List.dropWhile_append_of_pos hinside]
  cases hchars : t.chars with
  | nil =>
    have hpieces : t.pieces = [] := by
      simp [TextRun.pieces, ← t.trimBy_chars, hchars, Text.trimBy]
    rw [hpieces]
    exact h fuel (by simpa [hchars] using hfuel)
  | cons c cs =>
    have hc : c ≠ '<' := by simpa using hinside c (by simp [hchars])
    simp only [List.length_append, List.length_cons, hchars] at hfuel
    obtain ⟨fuel, rfl⟩ := Nat.exists_eq_add_one_of_ne_zero (Nat.ne_zero_of_lt hfuel)
    rw [hchars, List.cons_append] at htake hdrop
    rw [List.cons_append, scanFrom_text hc, htake, hdrop, ← hchars, t.trimBy_chars,
      h fuel (by simp only [List.length_cons]; omega)]
    rfl

/-- The pieces of what stands in an element. -/
def Content.pieces : Content → List Markup
  | done text => text.pieces
  | empty text tag rest => text.pieces ++ .empty tag.name.chars :: rest.pieces
  | element text tag inside _ rest =>
    text.pieces ++ .opening tag.name.chars :: inside.pieces ++ .closing tag.name.chars :: rest.pieces
  | cdata text data rest => text.pieces ++ .cdata data.val :: rest.pieces
  | comment text _ rest => text.pieces ++ .aside :: rest.pieces

def Element.pieces : Element → List Markup
  | empty tag => [.empty tag.name.chars]
  | full tag inside _ =>
    .opening tag.name.chars :: inside.pieces ++ [.closing tag.name.chars]

theorem CutInto.opening {ps : List Markup} (t : Tag) (h : CutInto rest ps) :
    CutInto (t.opening ++ rest) (.opening t.name.chars :: ps) := by
  have hcut := h.markup (.opening t.name.chars) (t.chars ++ ['>'])
    (by simpa using t.markup_opening)
  simpa [Tag.opening] using hcut

theorem CutInto.alone {ps : List Markup} (t : Tag) (h : CutInto rest ps) :
    CutInto (t.alone ++ rest) (.empty t.name.chars :: ps) := by
  have hcut := h.markup (.empty t.name.chars) (t.chars ++ ['/', '>'])
    (by simpa using t.markup_alone)
  simpa [Tag.alone] using hcut

theorem CutInto.closing {ps : List Markup} (t : Tag) (trail : Blanks) (h : CutInto rest ps) :
    CutInto (t.closing trail ++ rest) (.closing t.name.chars :: ps) := by
  have hcut := h.markup (.closing t.name.chars) ('/' :: (t.name.chars ++ trail.val ++ ['>']))
    (by simpa using t.name.markup_closing trail)
  simpa [Tag.closing] using hcut

theorem CutInto.data {ps : List Markup} (data : CharacterData) (h : CutInto rest ps) :
    CutInto (CharacterData.chars data ++ rest) (.cdata data.val :: ps) := by
  have hcut := h.markup (.cdata data.val)
    (['!', '[', 'C', 'D', 'A', 'T', 'A', '['] ++ data.val ++ [']', ']', '>'])
    (by simpa using CharacterData.markup_chars data)
  simpa [CharacterData.chars] using hcut

theorem CutInto.aside {ps : List Markup} (c : Comment) (h : CutInto rest ps) :
    CutInto (Comment.chars c ++ rest) (.aside :: ps) := by
  have hcut := h.markup .aside (['!', '-', '-'] ++ c.val ++ ['-', '-', '>'])
    (by simpa using Comment.markup_chars c)
  simpa [Comment.chars] using hcut

/-- The pieces of what stands in an element, before whatever markup comes next. -/
theorem Content.cutInto (content : Content) {ps : List Markup} (hhead : cs.head? = some '<')
    (h : CutInto cs ps) : CutInto (content.chars ++ cs) (content.pieces ++ ps) := by
  induction content generalizing cs ps with
  | done text => exact h.text text hhead
  | empty text tag next ih =>
    have hcut := ((ih hhead h).alone tag).text text rfl
    simpa [Content.chars, Content.pieces] using hcut
  | element text tag inside trail next ihinside ihnext =>
    have hinside := ihinside rfl ((ihnext hhead h).closing tag trail)
    have hcut := (hinside.opening tag).text text rfl
    simpa [Content.chars, Content.pieces] using hcut
  | cdata text data next ih =>
    have hcut := ((ih hhead h).data data).text text rfl
    simpa [Content.chars, Content.pieces] using hcut
  | comment text c next ih =>
    have hcut := ((ih hhead h).aside c).text text rfl
    simpa [Content.chars, Content.pieces] using hcut

theorem Element.cutInto (e : Element) : CutInto e.chars e.pieces := by
  cases e with
  | empty tag => simpa [Element.chars, Element.pieces] using CutInto.nil.alone tag
  | full tag inside trail =>
    have hinside := inside.cutInto rfl (CutInto.nil.closing tag trail)
    simpa [Element.chars, Element.pieces] using hinside.opening tag

/-- The text of a tree is cut into its pieces. -/
theorem Element.scan_text (e : Element) : Markup.scan e.text.toList = e.pieces := by
  have hhead : e.chars.head? = some '<' := by cases e <;> rfl
  obtain ⟨cs, hchars⟩ := List.head?_eq_some_iff.mp hhead
  rw [Element.text, String.toList_ofList, ← e.cutInto _ (Nat.le_refl _), hchars]
  rfl

end FeedPoller.Xml

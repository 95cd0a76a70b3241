import FeedPoller.Proofs.XmlTrees

/-! Texts as they are written and as they are meant. Main statements: trimming what is written is
writing what is trimmed (`TextRun.trimBy_chars`), and replacing the references in what is written
gives the characters that are meant (`TextRun.replaceReferences_chars`). -/

namespace FeedPoller.Xml

/-! ## References by number -/

theorem foldl_digitChar (digits : List (Fin 10)) (n : Nat) :
    (digits.map (Nat.digitChar ·.val)).foldl (fun n c => 10 * n + (c.toNat - 48)) n =
      (digits.map (·.val)).foldl (fun n d => 10 * n + d) n := by
  induction digits generalizing n with
  | nil => rfl
  | cons d digits ih =>
    have hd : (Nat.digitChar d.val).toNat - 48 = d.val := by
      rw [Nat.toNat_digitChar_of_lt_ten d.isLt, Nat.add_sub_cancel_left]
    simp only [List.map_cons, List.foldl_cons, hd, ih]

theorem nat?_digitChar {digits : List (Fin 10)} (h : digits ≠ []) :
    Text.nat? (digits.map (Nat.digitChar ·.val)) = some (numberOf 10 (digits.map (·.val))) := by
  simp [Text.nat?, h, foldl_digitChar, numberOf]

/-- The three ranges of hexadecimal digits, each with what is taken off its characters. -/
theorem hexDigit_range : ∀ (d : Fin 16) (capital : Bool),
    let c := hexDigit (d, capital)
    (c.isDigit = true ∧ c.toNat - 48 = d.val) ∨
    (c.isDigit = false ∧ ('a' ≤ c ∧ c ≤ 'f') ∧ c.toNat - 87 = d.val) ∨
    (c.isDigit = false ∧ ¬ ('a' ≤ c ∧ c ≤ 'f') ∧ ('A' ≤ c ∧ c ≤ 'F') ∧ c.toNat - 55 = d.val) := by
  decide

theorem natInBase?_hexDigit {digits : List (Fin 16 × Bool)} (h : digits ≠ []) :
    Text.natInBase? 16 (digits.map hexDigit) = some (numberOf 16 (digits.map (·.1.val))) := by
  rw [Text.natInBase?, if_neg (by simpa using h), numberOf]
  clear h
  generalize 0 = n
  induction digits generalizing n with
  | nil => rfl
  | cons d digits ih =>
    rw [List.map_cons, List.map_cons, List.foldlM_cons, List.foldl_cons, ← ih]
    have hd := d.1.isLt
    obtain ⟨hdigit, hvalue⟩ | ⟨hdigit, hsmall, hvalue⟩ | ⟨hdigit, hsmall, hcapital, hvalue⟩ :=
      hexDigit_range d.1 d.2
    · simp [hdigit, hvalue]
    · simp [hdigit, hsmall, hvalue]
    · simp [hdigit, hsmall, hcapital, hvalue]

theorem IsCode.digits_ne_nil {base : Nat} {digits : List Nat} (h : IsCode (numberOf base digits)) :
    digits ≠ [] := by
  rintro rfl
  exact h.1 rfl

theorem numberedCharacter_decimal {digits : List (Fin 10)}
    (h : IsCode (numberOf 10 (digits.map (·.val)))) :
    numberedCharacter (digits.map (Nat.digitChar ·.val)) =
      some (Char.ofNat (numberOf 10 (digits.map (·.val)))) := by
  have hdigits : digits ≠ [] := by simpa using h.digits_ne_nil
  have hx : ∀ cs, digits.map (Nat.digitChar ·.val) ≠ 'x' :: cs := by
    intro cs hcs
    have hdigit : ∀ c ∈ digits.map (Nat.digitChar ·.val), c.isDigit = true := by simp
    exact absurd (hdigit 'x' (by simp [hcs])) (by decide)
  unfold numberedCharacter
  split
  · rename_i hcs
    exact absurd hcs (hx _)
  · rw [nat?_digitChar hdigits]
    exact if_pos h

theorem numberedCharacter_hex {digits : List (Fin 16 × Bool)}
    (h : IsCode (numberOf 16 (digits.map (·.1.val)))) :
    numberedCharacter ('x' :: digits.map hexDigit) =
      some (Char.ofNat (numberOf 16 (digits.map (·.1.val)))) := by
  have hdigits : digits ≠ [] := by simpa using h.digits_ne_nil
  simp only [numberedCharacter, natInBase?_hexDigit hdigits]
  exact if_pos h

/-! ## Texts without references -/

/-- Characters that end neither a reference nor a text. -/
def Inner (c : Char) : Prop := c ≠ ';' ∧ c ≠ '&' ∧ c ≠ '<'

theorem inner_of_isDigit {c : Char} (h : c.isDigit = true) : Inner c := by
  refine ⟨?_, ?_, ?_⟩ <;> rintro rfl <;> exact absurd h (by decide)

theorem inner_hexDigit : ∀ (d : Fin 16) (capital : Bool), hexDigit (d, capital) ≠ ';' ∧
    hexDigit (d, capital) ≠ '&' ∧ hexDigit (d, capital) ≠ '<' := by
  decide

/-- A glyph is its character or a reference to it. -/
inductive Glyph.Written (g : Glyph) : Prop where
  | plain (h : g.char ≠ '<' ∧ g.char ≠ '&') (hchars : g.chars = [g.char])
      (hblank : g.isBlank = isSpace g.char)
  | reference (inside : List Char) (hchars : g.chars = '&' :: inside ++ [';'])
      (hinner : ∀ c ∈ inside, Inner c) (hmeant : Xml.reference inside = some g.char)
      (hblank : g.isBlank = false)

theorem Glyph.written (g : Glyph) : g.Written := by
  cases g with
  | plain c h => exact .plain h rfl rfl
  | entity e =>
    refine .reference e.name rfl ?_ ?_ rfl
    · cases e <;> simp [Entity.name, Inner]
    · cases e <;> rfl
  | decimal digits h =>
    refine .reference ('#' :: digits.map (Nat.digitChar ·.val)) rfl ?_ ?_ rfl
    · simp only [List.forall_mem_cons, List.forall_mem_map]
      exact ⟨by simp [Inner], fun d _ => inner_of_isDigit (by simp)⟩
    · exact numberedCharacter_decimal h
  | hex digits h =>
    refine .reference ('#' :: 'x' :: digits.map hexDigit) rfl ?_ ?_ rfl
    · simp only [List.forall_mem_cons, List.forall_mem_map]
      exact ⟨by simp [Inner], by simp [Inner], fun d _ => inner_hexDigit d.1 d.2⟩
    · exact numberedCharacter_hex h

theorem TextRun.no_bracket (t : TextRun) : '<' ∉ t.chars := by
  simp only [TextRun.chars, List.mem_flatMap, not_exists, not_and]
  intro g _ hmem
  cases g.written with
  | plain h hchars => exact h.1 (by simpa [hchars, eq_comm] using hmem)
  | reference inside hchars hinner =>
    have hmem : '<' ∈ inside := by simpa [hchars] using hmem
    exact (hinner _ hmem).2.2 rfl

theorem replaceFrom_plain {fuel : Nat} {c : Char} {cs : List Char} (h : c ≠ '&') :
    replaceFrom (fuel + 1) (c :: cs) = (replaceFrom fuel cs).map (c :: ·) := by
  rw [replaceFrom]
  · cases replaceFrom fuel cs <;> rfl
  · exact h

theorem replaceFrom_reference {fuel : Nat} {inside cs : List Char} (h : ∀ c ∈ inside, Inner c) :
    replaceFrom (fuel + 1) ('&' :: inside ++ ';' :: cs) =
      (reference inside).bind fun c => (replaceFrom fuel cs).map (c :: ·) := by
  have hinner : ∀ c ∈ inside, (c != ';' && c != '&') = true := fun c hc => by
    simp [(h c hc).1, (h c hc).2.1]
  rw [List.cons_append, replaceFrom, List.dropWhile_append_of_pos hinner,
    List.takeWhile_append_of_pos hinner]
  cases hreference : reference inside <;> cases hfrom : replaceFrom fuel cs <;>
    simp [hreference, hfrom]

theorem replaceFrom_chars (t : TextRun) (fuel : Nat) (h : t.chars.length < fuel) :
    replaceFrom fuel t.chars = some (t.map Glyph.char) := by
  induction t generalizing fuel with
  | nil =>
    obtain ⟨fuel, rfl⟩ := Nat.exists_eq_add_of_lt h
    rfl
  | cons g t ih =>
    obtain ⟨fuel, rfl⟩ := Nat.exists_eq_add_one_of_ne_zero (Nat.ne_zero_of_lt h)
    have hcons : TextRun.chars (g :: t) = g.chars ++ TextRun.chars t := List.flatMap_cons
    cases g.written with
    | plain hg hchars =>
      simp only [hcons, hchars, List.singleton_append, List.length_cons] at h ⊢
      rw [replaceFrom_plain hg.2, ih fuel (by omega)]
      rfl
    | reference inside hchars hinner hmeant =>
      simp only [hcons, hchars, List.append_assoc, List.singleton_append, List.length_append,
        List.length_cons] at h ⊢
      rw [replaceFrom_reference hinner, hmeant, ih fuel (by omega)]
      rfl

/-- The references in a text become the characters that are meant. -/
theorem TextRun.replaceReferences_chars (t : TextRun) :
    replaceReferences t.chars = some (t.map Glyph.char) :=
  replaceFrom_chars t _ (Nat.lt_succ_self _)

/-! ## Trimmed texts -/

/-- Blanks go glyph by glyph: a blank glyph is a blank, and no other glyph begins with one. -/
theorem dropWhile_flatMap {f : Glyph → List Char} (t : TextRun)
    (hblank : ∀ g : Glyph, g.isBlank = true → ∃ c, f g = [c] ∧ isSpace c = true)
    (hother : ∀ g : Glyph, g.isBlank = false → ∃ c cs, f g = c :: cs ∧ isSpace c = false) :
    (t.flatMap f).dropWhile isSpace = (t.dropWhile Glyph.isBlank).flatMap f := by
  induction t with
  | nil => rfl
  | cons g t ih =>
    cases hg : g.isBlank with
    | true =>
      obtain ⟨c, hf, hc⟩ := hblank g hg
      simp [hf, hc, hg, ih]
    | false =>
      obtain ⟨c, cs, hf, hc⟩ := hother g hg
      simp [hf, hc, hg]

theorem Glyph.chars_of_blank (g : Glyph) (h : g.isBlank = true) :
    ∃ c, g.chars = [c] ∧ isSpace c = true := by
  cases g.written with
  | plain _ hchars hblank => exact ⟨g.char, hchars, hblank ▸ h⟩
  | reference _ _ _ _ hblank => simp [hblank] at h

/-- A glyph that is no blank begins and ends with none. -/
theorem Glyph.ends_of_not_blank (g : Glyph) (h : g.isBlank = false) :
    (∃ c cs, g.chars = c :: cs ∧ isSpace c = false) ∧
      ∃ c cs, g.chars.reverse = c :: cs ∧ isSpace c = false := by
  cases g.written with
  | plain _ hchars hblank =>
    have hspace : isSpace g.char = false := hblank ▸ h
    exact ⟨⟨g.char, [], hchars, hspace⟩, g.char, [], by simp [hchars], hspace⟩
  | reference inside hchars =>
    refine ⟨⟨'&', inside ++ [';'], hchars, by decide⟩, ';', ('&' :: inside).reverse, ?_, by decide⟩
    rw [hchars, List.reverse_append]
    rfl

/-- What is written, without the blanks at its ends, is what is written of the trimmed text. -/
theorem TextRun.trimBy_chars (t : TextRun) : Text.trimBy isSpace t.chars = t.trimmed.chars := by
  have hreverse : ∀ u : TextRun,
      u.chars.reverse = u.reverse.flatMap fun g => g.chars.reverse := fun u => List.reverse_flatMap ..
  have hfront : t.chars.dropWhile isSpace = TextRun.chars (t.dropWhile Glyph.isBlank) :=
    dropWhile_flatMap t Glyph.chars_of_blank fun g h => (g.ends_of_not_blank h).1
  have hback : ∀ u : TextRun, u.chars.reverse.dropWhile isSpace =
      (u.reverse.dropWhile Glyph.isBlank).flatMap fun g => g.chars.reverse := by
    intro u
    rw [hreverse]
    refine dropWhile_flatMap u.reverse ?_ fun g h => (g.ends_of_not_blank h).2
    intro g h
    obtain ⟨c, hchars, hc⟩ := g.chars_of_blank h
    exact ⟨c, by simp [hchars], hc⟩
  rw [Text.trimBy, hfront, hback, TextRun.trimmed]
  simp [TextRun.chars, List.reverse_flatMap, Function.comp_def]

end FeedPoller.Xml

import FeedPoller.Proofs.PortableValues
import FeedPoller.Proofs.TomlScalars
import FeedPoller.Toml.Reader

/-! Keys and values written as TOML, read back: arrays and inline tables on one line, keys bare where
they can be. Main statement: the text of a portable value without nulls is read as the tree of the
value (`readAt_of_portable`). -/

namespace FeedPoller.Toml

/-! ## Keys -/

/-- What a key or a value begins with: no blank, no comment and no closing bracket. -/
def Begins (cs : List Char) : Prop :=
  ∃ c rest, cs = c :: rest ∧ isSpace c = false ∧ c ∉ ['\n', '\r', '#', ']', '\x7d']

namespace Begins

variable {cs : List Char}

theorem append (h : Begins cs) (rest : List Char) : Begins (cs ++ rest) := by
  obtain ⟨c, cs, rfl, hc⟩ := h
  exact ⟨c, cs ++ rest, rfl, hc⟩

theorem passLines (h : Begins cs) : passLines false cs = some cs := by
  obtain ⟨c, cs, rfl, hspace, hc⟩ := h
  simp only [List.mem_cons, List.not_mem_nil, or_false, not_or] at hc
  obtain ⟨hnewline, hreturn, hcomment, -, -⟩ := hc
  rw [passLines.eq_4 _ _ _ hnewline fun _ heq _ => hreturn heq]
  simp [hcomment, hspace]

theorem dropWhile (h : Begins cs) : cs.dropWhile isSpace = cs := by
  obtain ⟨c, cs, rfl, hspace, -⟩ := h
  simp [hspace]

theorem ne_closing (h : Begins cs) {c : Char} (hc : c = ']' ∨ c = '\x7d') (rest : List Char) :
    cs ≠ c :: rest := by
  obtain ⟨d, ds, rfl, -, hd⟩ := h
  rintro heq
  obtain rfl := (List.cons.inj heq).1
  obtain rfl | rfl := hc <;> simp at hd

end Begins

/-- A key stands bare where it can. -/
def keyText (k : String) : List Char :=
  if k.toList ≠ [] ∧ k.toList.all isBareKey then k.toList else quote k

theorem not_mark_of_isBareKey {c : Char} (h : isBareKey c = true) :
    isSpace c = false ∧ c ∉ ['\n', '\r', '#', ']', '\x7d'] := by
  have hbare : ∀ d ∈ [' ', '\t', '\n', '\r', '#', ']', '\x7d'], isBareKey d = false := by
    simp
    decide
  have hnot : c ∉ [' ', '\t', '\n', '\r', '#', ']', '\x7d'] := fun hc => by simp [hbare c hc] at h
  simpa [isSpace, and_assoc] using hnot

theorem begins_keyText (k : String) : Begins (keyText k) := by
  unfold keyText
  split
  · rename_i h
    obtain ⟨c, cs, hcs⟩ := List.exists_cons_of_ne_nil h.1
    have hc : isBareKey c = true := List.all_eq_true.mp h.2 c (hcs ▸ List.mem_cons_self)
    exact ⟨c, cs, hcs, not_mark_of_isBareKey hc⟩
  · exact ⟨_, _, rfl, by decide, by decide⟩

theorem keyPart_keyText (k : String) {rest : List Char}
    (h : ∀ c ∈ rest.head?, isBareKey c = false) : keyPart (keyText k ++ rest) = some (k, rest) := by
  unfold keyText
  split
  · rename_i hbare
    have hall : ∀ c ∈ k.toList, isBareKey c = true := List.all_eq_true.mp hbare.2
    simp [keyPart, Text.takeWhile_append_of_forall hall h, Text.dropWhile_append_of_forall hall h,
      hbare.1]
  · have hquote : (quote k ++ rest).takeWhile isBareKey = [] := by
      rw [Quoted.quote_append]
      rfl
    rw [keyPart, hquote, Quoted.single_quote]
    rfl

/-- A key of one part before the equals sign of its value. -/
theorem key_keyText (k : String) (cs : List Char) :
    key (keyText k ++ ' ' :: '=' :: cs).length (keyText k ++ ' ' :: '=' :: cs) =
      some ([], k, '=' :: cs) := by
  obtain ⟨fuel, hfuel⟩ : ∃ fuel, (keyText k ++ ' ' :: '=' :: cs).length = fuel + 1 :=
    ⟨_, by rw [List.length_append, List.length_cons, ← Nat.add_assoc]⟩
  have hkey := ((begins_keyText k).append (' ' :: '=' :: cs)).dropWhile
  have hpart : keyPart (keyText k ++ ' ' :: '=' :: cs) = some (k, ' ' :: '=' :: cs) :=
    keyPart_keyText k (by simp; decide)
  rw [hfuel, key, hkey, hpart]
  rfl

/-! ## Values -/

mutual
/-- The text of a value; null, which TOML has not, has none. -/
def valueText : Json.Value → List Char
  | .null => []
  | .bool b => (Json.Value.bool b).chars
  | .int n => (toString n).toList
  | .float x => x.text.toList
  | .str s => quote s
  | .list items => '[' :: itemsText items ++ [']']
  | .object fields => '\x7b' :: fieldsText fields ++ ['\x7d']

def itemsText : List Json.Value → List Char
  | [] => []
  | [v] => valueText v
  | v :: w :: rest => valueText v ++ ',' :: ' ' :: itemsText (w :: rest)

def fieldsText : List (String × Json.Value) → List Char
  | [] => []
  | [(k, v)] => keyText k ++ ' ' :: '=' :: ' ' :: valueText v
  | (k, v) :: f :: rest =>
    keyText k ++ ' ' :: '=' :: ' ' :: valueText v ++ ',' :: ' ' :: fieldsText (f :: rest)
end

variable {depth fuel : Nat} {rest : List Char}

theorem exists_head_int (n : Int) : ∃ c cs, (toString n).toList = c :: cs ∧ isBareKey c = true := by
  obtain ⟨k, rfl | ⟨rfl, hpos⟩⟩ := Text.exists_nat n
  · obtain ⟨c, cs, hcs⟩ := List.exists_cons_of_ne_nil (Nat.toDigits_ne_nil (n := k) (b := 10))
    have hdigit : c.isDigit = true := Text.isDigit_of_mem_toDigits (hcs ▸ List.mem_cons_self)
    rw [Text.toList_toString_nat]
    exact ⟨c, cs, hcs, by simp [isBareKey, Char.isAlphanum, hdigit]⟩
  · rw [Text.toList_toString_neg hpos]
    exact ⟨_, _, rfl, by decide⟩

theorem begins_int (n : Int) : Begins (toString n).toList := by
  obtain ⟨c, cs, hcs, hc⟩ := exists_head_int n
  exact ⟨c, cs, hcs, not_mark_of_isBareKey hc⟩

theorem head_int_append (n : Int) (rest : List Char) :
    ∀ c ∈ ((toString n).toList ++ rest).head?, c ∉ ['[', '\x7b', '"', '\''] := by
  have hbare : ∀ c ∈ ['[', '\x7b', '"', '\''], isBareKey c = false := by
    simp
    decide
  obtain ⟨c, cs, hcs, hc⟩ := exists_head_int n
  rw [hcs]
  intro d hd hmem
  obtain rfl := Option.some.inj hd
  rw [hbare c hmem] at hc
  cases hc

/-- A value that is read at this depth, given a step for each of its characters. -/
def ReadAt (depth : Nat) (v : Json.Value) : Prop :=
  Begins (valueText v) ∧ ∀ fuel rest, (valueText v).length ≤ fuel → EndsValue rest →
    value fuel depth (valueText v ++ rest) = some (.ofValue v, rest)

theorem ReadAt.of_succ {v : Json.Value} (hbegins : Begins (valueText v))
    (h : ∀ fuel rest, (valueText v).length ≤ fuel + 1 → EndsValue rest →
      value (fuel + 1) depth (valueText v ++ rest) = some (.ofValue v, rest)) : ReadAt depth v := by
  refine ⟨hbegins, fun fuel rest hfuel hrest => ?_⟩
  cases fuel with
  | zero =>
    obtain ⟨c, cs, hcs, -⟩ := hbegins
    rw [hcs] at hfuel
    simp at hfuel
  | succ fuel => exact h fuel rest hfuel hrest

theorem value_scalar {cs : List Char} (h : ∀ c ∈ cs.head?, c ∉ ['[', '\x7b', '"', '\'']) :
    value (fuel + 1) depth cs = Scalar.next cs := by
  have hne : ∀ c ∈ ['[', '\x7b', '"', '\''], ∀ ds, cs ≠ c :: ds := fun c hc ds heq =>
    h c (heq ▸ rfl) hc
  rw [value.eq_8]
  · exact fun ds => hne '"' (by simp) ds
  · exact fun ds => hne '\'' (by simp) ds
  · exact fun ds hds _ => hne '[' (by simp) ds hds
  · exact fun ds hds _ => hne '\x7b' (by simp) ds hds
  · exact fun ds _ hds _ => hne '[' (by simp) ds hds
  · exact fun ds _ hds _ => hne '\x7b' (by simp) ds hds

theorem value_list {cs : List Char} (h : Begins cs) : value (fuel + 1) (depth + 1) ('[' :: cs) =
    (items fuel depth cs).map fun r => (.list r.1, r.2) := by
  rw [value.eq_4, h.passLines]
  simp only [Option.bind_eq_bind, Option.bind_some]
  split
  · exact absurd rfl (h.ne_closing (.inl rfl) _)
  · cases items fuel depth cs <;> rfl

theorem value_object {cs : List Char} (h : Begins cs) : value (fuel + 1) (depth + 1) ('\x7b' :: cs) =
    (entries fuel depth [] cs).map fun r => (.table (entryNodes r.1), r.2) := by
  rw [value.eq_5, h.passLines]
  simp only [Option.bind_eq_bind, Option.bind_some]
  split
  · exact absurd rfl (h.ne_closing (.inr rfl) _)
  · cases entries fuel depth [] cs <;> rfl

theorem items_last {cs : List Char} {n : Node} (h : value fuel depth cs = some (n, ']' :: rest)) :
    items (fuel + 1) depth cs = some ([n], rest) := by
  rw [items.eq_2, h]
  rfl

theorem items_more {cs cs' : List Char} {n : Node}
    (h : value fuel depth cs = some (n, ',' :: ' ' :: cs')) (hnext : Begins cs') :
    items (fuel + 1) depth cs = (items fuel depth cs').map fun r => (n :: r.1, r.2) := by
  have hpass : passLines false (' ' :: cs') = some cs' := hnext.passLines
  have hcomma : passLines false (',' :: ' ' :: cs') = some (',' :: ' ' :: cs') := rfl
  rw [items.eq_2, h]
  simp only [Option.bind_eq_bind, Option.bind_some, hcomma, hpass]
  split
  · exact absurd rfl (hnext.ne_closing (.inl rfl) _)
  · cases items fuel depth cs' <;> rfl

theorem begins_itemsText {v : Json.Value} (h : ReadAt depth v) (vs : List Json.Value) :
    Begins (itemsText (v :: vs)) := by
  cases vs with
  | nil => exact h.1
  | cons w vs => exact h.1.append _

theorem items_itemsText {v : Json.Value} {vs : List Json.Value}
    (h : ∀ w ∈ v :: vs, ReadAt depth w) (hfuel : (itemsText (v :: vs)).length < fuel)
    (rest : List Char) :
    items fuel depth (itemsText (v :: vs) ++ ']' :: rest) = some (Node.ofItems (v :: vs), rest) := by
  obtain _ | fuel := fuel
  · omega
  induction vs generalizing v fuel with
  | nil =>
    have hv := (h v List.mem_cons_self).2 fuel (']' :: rest) (by rw [itemsText] at hfuel; omega)
      (by simp [EndsValue]; decide)
    rw [itemsText, items_last hv]
    rfl
  | cons w vs ih =>
    obtain ⟨hv, hvs⟩ := List.forall_mem_cons.mp h
    simp only [itemsText, List.length_append, List.length_cons] at hfuel
    obtain _ | fuel := fuel
    · omega
    have hnext : Begins (itemsText (w :: vs) ++ ']' :: rest) :=
      (begins_itemsText (hvs w List.mem_cons_self) vs).append _
    have hv := hv.2 (fuel + 1) (',' :: ' ' :: (itemsText (w :: vs) ++ ']' :: rest)) (by omega)
      (by simp [EndsValue]; decide)
    rw [itemsText, List.append_assoc, List.cons_append, List.cons_append, items_more hv hnext,
      ih hvs fuel (by omega)]
    rfl

/-! ## Inline tables -/

/-- The entries of fields, each with its finished value. -/
def leaves (fields : Json.Fields) : Entries := fields.map fun e => (e.1, .leaf (.ofValue e.2))

theorem leaves_append (xs ys : Json.Fields) : leaves (xs ++ ys) = leaves xs ++ leaves ys :=
  List.map_append ..

theorem entryNodes_leaves (fields : Json.Fields) :
    entryNodes (leaves fields) = Node.ofFields fields := by
  induction fields with
  | nil => rfl
  | cons e fields ih => exact congrArg ((some e.1, Node.ofValue e.2) :: ·) ih

theorem entryNodes_append (xs ys : Entries) :
    entryNodes (xs ++ ys) = entryNodes xs ++ entryNodes ys := by
  induction xs with
  | nil => rfl
  | cons x xs ih => exact congrArg ((some x.1, x.2.node) :: ·) ih

theorem ascending_leaves {fields : Json.Fields} :
    Named.Ascending (leaves fields) ↔ Named.Ascending fields :=
  List.pairwise_map

/-- A key after all others gets its value at the end of the table. -/
theorem assign_of_forall_lt {es : Entries} {k : String} (h : ∀ e ∈ es, e.1 < k) (n : Node) :
    Entries.assign [] k n .header es = some (es ++ [(k, .leaf n)]) := by
  have hnew : Named.get? k es = none :=
    Named.get?_eq_none_of_ne fun e he => String.ne_of_lt (h e he)
  simp [Entries.assign, Entries.within, hnew, Named.insert_of_forall_lt _ h]

theorem entries_last {before es : Entries} {k : String} {cs : List Char} {n : Node} (hcs : Begins cs)
    (h : value fuel depth cs = some (n, '\x7d' :: rest))
    (hassign : before.assign [] k n .header = some es) :
    entries (fuel + 1) depth before (keyText k ++ ' ' :: '=' :: ' ' :: cs) = some (es, rest) := by
  have hdrop : (' ' :: cs).dropWhile isSpace = cs := hcs.dropWhile
  rw [entries.eq_2, key_keyText]
  simp only [Option.bind_eq_bind, Option.bind_some, hdrop, h, hassign]
  rfl

theorem entries_more {before es : Entries} {k : String} {cs cs' : List Char} {n : Node}
    (hcs : Begins cs) (h : value fuel depth cs = some (n, ',' :: ' ' :: cs'))
    (hassign : before.assign [] k n .header = some es) (hnext : Begins cs') :
    entries (fuel + 1) depth before (keyText k ++ ' ' :: '=' :: ' ' :: cs) =
      entries fuel depth es cs' := by
  have hdrop : (' ' :: cs).dropWhile isSpace = cs := hcs.dropWhile
  have hpass : passLines false (' ' :: cs') = some cs' := hnext.passLines
  have hcomma : passLines false (',' :: ' ' :: cs') = some (',' :: ' ' :: cs') := rfl
  rw [entries.eq_2, key_keyText]
  simp only [Option.bind_eq_bind, Option.bind_some, hdrop, h, hassign, hcomma, hpass]
  split
  · exact absurd rfl (hnext.ne_closing (.inr rfl) _)
  · rfl

theorem begins_fieldsText (e : String × Json.Value) (fields : Json.Fields) :
    Begins (fieldsText (e :: fields)) := by
  obtain ⟨k, v⟩ := e
  cases fields with
  | nil => exact (begins_keyText k).append _
  | cons f fields => exact ((begins_keyText k).append _).append _

theorem entries_fieldsText {before : Entries} {e : String × Json.Value} {fields : Json.Fields}
    (h : ∀ f ∈ e :: fields, ReadAt depth f.2)
    (hnames : Named.Ascending (before ++ leaves (e :: fields))) (hfuel : (fieldsText (e :: fields)).length < fuel)
    (rest : List Char) : entries fuel depth before (fieldsText (e :: fields) ++ '\x7d' :: rest) =
      some (before ++ leaves (e :: fields), rest) := by
  obtain _ | fuel := fuel
  · omega
  induction fields generalizing before e fuel with
  | nil =>
    obtain ⟨k, v⟩ := e
    have hread : ReadAt depth v := h _ List.mem_cons_self
    simp only [fieldsText, List.length_append, List.length_cons] at hfuel
    have hv := hread.2 fuel ('\x7d' :: rest) (by omega) (by simp [EndsValue]; decide)
    have hbefore : ∀ b ∈ before, b.1 < k := hnames.lt_of_append_cons
    rw [fieldsText, List.append_assoc, List.cons_append, List.cons_append, List.cons_append,
      entries_last (hread.1.append _) hv (assign_of_forall_lt hbefore _)]
    rfl
  | cons f fields ih =>
    obtain ⟨k, v⟩ := e
    have hread : ReadAt depth v := h _ List.mem_cons_self
    have hfields := (List.forall_mem_cons.mp h).2
    simp only [fieldsText, List.length_append, List.length_cons] at hfuel
    obtain _ | fuel := fuel
    · omega
    have hnext : Begins (fieldsText (f :: fields) ++ '\x7d' :: rest) :=
      (begins_fieldsText f fields).append _
    have hv := hread.2 (fuel + 1) (',' :: ' ' :: (fieldsText (f :: fields) ++ '\x7d' :: rest))
      (by omega) (by simp [EndsValue]; decide)
    have hbefore : ∀ b ∈ before, b.1 < k := hnames.lt_of_append_cons
    have hsplit : before ++ leaves ((k, v) :: f :: fields) =
        (before ++ [(k, .leaf (.ofValue v))]) ++ leaves (f :: fields) := by
      rw [List.append_assoc]
      rfl
    rw [hsplit] at hnames ⊢
    rw [fieldsText, ← ih hfields hnames fuel (by omega),
      ← entries_more (hread.1.append _) hv (assign_of_forall_lt hbefore _) hnext]
    simp only [List.append_assoc, List.cons_append]

/-! ## Portable values -/

theorem readAt_of_portable {v : Json.Value} (h : v.Portable false depth) : ReadAt depth v := by
  induction h with
  | null h => cases h
  | bool b =>
    have hbegins : Begins (valueText (.bool b)) := by
      cases b <;> exact ⟨_, _, rfl, by decide, by decide⟩
    refine .of_succ hbegins fun fuel rest _ hrest => ?_
    rw [valueText, value_scalar (by cases b <;> simp [Json.Value.chars]), Scalar.next_bool b hrest]
    rfl
  | @int depth n h =>
    refine .of_succ (begins_int _) fun fuel rest _ hrest => ?_
    rw [valueText, value_scalar (head_int_append n rest), Scalar.next_int h hrest]
    rfl
  | str s =>
    refine .of_succ ⟨_, _, rfl, by decide, by decide⟩ fun fuel rest _ hrest => ?_
    have hread := Quoted.next_quote s fun c hc => (hrest c hc).2
    rw [Quoted.quote_append] at hread
    rw [valueText, Quoted.quote_append, value.eq_6, hread]
    rfl
  | @list depth items _ ih =>
    refine .of_succ ⟨_, _, rfl, by decide, by decide⟩ fun fuel rest hfuel hrest => ?_
    simp only [valueText, List.length_append, List.length_cons, List.length_nil] at hfuel
    rw [valueText, List.cons_append, List.cons_append, List.append_assoc, List.singleton_append]
    cases items with
    | nil => rw [value.eq_4]; rfl
    | cons v vs =>
      have hbegins := (begins_itemsText (ih v List.mem_cons_self) vs).append (']' :: rest)
      rw [value_list hbegins, items_itemsText ih (by omega)]
      rfl
  | @object depth fields hnames _ ih =>
    refine .of_succ ⟨_, _, rfl, by decide, by decide⟩ fun fuel rest hfuel hrest => ?_
    simp only [valueText, List.length_append, List.length_cons, List.length_nil] at hfuel
    rw [valueText, List.cons_append, List.cons_append, List.append_assoc, List.singleton_append]
    cases fields with
    | nil => rw [value.eq_5]; rfl
    | cons e fields =>
      have hbegins := (begins_fieldsText e fields).append ('\x7d' :: rest)
      have hascending : Named.Ascending ([] ++ leaves (e :: fields)) := ascending_leaves.mpr hnames
      rw [value_object hbegins, entries_fieldsText ih hascending (by omega), List.nil_append,
        Option.map_some, entryNodes_leaves]
      rfl

end FeedPoller.Toml

import FeedPoller.Json.Printer
import FeedPoller.Json.Reader
import FeedPoller.Proofs.DecimalTexts
import FeedPoller.Proofs.PortableValues

/-! The JSON text of a value, read back. The text is cut into the tokens of the value, and the tokens
are put together to its tree. Main statement: the text of a portable value is a whole document, and the
tree of the document is that of the value (`Value.Portable.ofText_text`). -/

namespace FeedPoller.Json

/-! ## Strings -/

theorem hexValue_hexDigit : ∀ d < 16, hexValue (hexDigit d) = some d := by
  decide

/-- What a character of a string is read as: itself, or the unit of its code. -/
inductive Part.Stands (c : Char) : Part → Prop
  | char : Stands c (.char c)
  | unit (h : c.toNat < 0x20) : Stands c (.unit c.toNat)

theorem joinParts_cons {c : Char} {part : Part} (h : part.Stands c) (parts : List Part) :
    joinParts (part :: parts) = (c :: ·) <$> joinParts parts := by
  cases h with
  | char => rw [joinParts]
  | unit h =>
    have hhigh : isHigh c.toNat = false := by simp [isHigh]; omega
    have hlow : isLow c.toNat = false := by simp [isLow]; omega
    rcases parts with _ | ⟨_ | _, parts⟩ <;>
      simp [joinParts, hhigh, hlow, Char.ofNat_toNat]

theorem scanParts_unit {c : Char} (h : c.toNat < 0x20) (rest : List Char) :
    scanParts ('\\' :: 'u' :: '0' :: '0' :: hexDigit (c.toNat / 16) :: hexDigit (c.toNat % 16) ::
        rest) = (scanParts rest).map fun r => (.unit c.toNat :: r.1, r.2) := by
  have hfirst : hexValue (hexDigit (c.toNat / 16)) = some (c.toNat / 16) :=
    hexValue_hexDigit _ (by omega)
  have hsecond : hexValue (hexDigit (c.toNat % 16)) = some (c.toNat % 16) :=
    hexValue_hexDigit _ (by omega)
  have hzero : hexValue '0' = some 0 := rfl
  have hcode : 16 * (c.toNat / 16) + c.toNat % 16 = c.toNat := by omega
  simp only [scanParts, hex4, hzero, hfirst, hsecond, Option.bind_eq_bind, Option.bind_some,
    Option.pure_def, Nat.mul_zero, Nat.zero_add, hcode]
  cases scanParts rest <;> rfl

theorem scanParts_escape {e c : Char} (h : simpleEscape e = some c) (rest : List Char) :
    scanParts ('\\' :: e :: rest) = (scanParts rest).map fun r => (.char c :: r.1, r.2) := by
  rw [scanParts.eq_def]
  split
  · simp_all
  · simp_all
  · rename_i heq
    obtain rfl := (List.cons.inj (List.cons.inj heq).2).1
    cases h
  · rename_i heq
    obtain ⟨rfl, rfl⟩ := List.cons.inj (List.cons.inj heq).2
    rw [h]
    cases scanParts rest <;> rfl
  · rename_i hnot heq
    exact absurd (List.cons.inj heq).1.symm (hnot _ _ · (List.cons.inj heq).2.symm)

theorem scanParts_plain {c : Char} (hquote : c ≠ '"') (hback : c ≠ '\\') (h : ¬ c.toNat < 0x20)
    (rest : List Char) :
    scanParts (c :: rest) = (scanParts rest).map fun r => (.char c :: r.1, r.2) := by
  have hval : ¬ c.val < 0x20 := h
  rw [scanParts.eq_def]
  split
  · simp_all
  · simp_all
  · simp_all
  · simp_all
  · rename_i heq
    obtain ⟨rfl, rfl⟩ := List.cons.inj heq
    simp only [hval, decide_false, beq_eq_false_iff_ne.mpr hback]
    cases scanParts rest <;> rfl

theorem scanParts_escapeChar (c : Char) : ∃ part : Part, part.Stands c ∧ ∀ rest,
    scanParts (escapeChar c ++ rest) = (scanParts rest).map fun r => (part :: r.1, r.2) := by
  unfold escapeChar
  split
  case h_8 =>
    split
    · rename_i h
      exact ⟨_, .unit h, scanParts_unit h⟩
    · rename_i hquote hback _ _ _ _ _ h
      exact ⟨_, .char, scanParts_plain hquote hback h⟩
  all_goals exact ⟨_, .char, scanParts_escape rfl⟩

theorem scanParts_quoted (cs rest : List Char) : ∃ parts, joinParts parts = some cs ∧
    scanParts (cs.flatMap escapeChar ++ '"' :: rest) = some (parts, rest) := by
  induction cs with
  | nil => exact ⟨[], rfl, by simp [scanParts]⟩
  | cons c cs ih =>
    obtain ⟨parts, hjoin, hscan⟩ := ih
    obtain ⟨part, hpart, hfirst⟩ := scanParts_escapeChar c
    refine ⟨part :: parts, ?_, ?_⟩
    · rw [joinParts_cons hpart, hjoin]
      rfl
    · rw [List.flatMap_cons, List.append_assoc, hfirst, hscan]
      rfl

/-! ## Integers -/

/-- What may follow a number. -/
def EndsNumber (rest : List Char) : Prop :=
  ∀ c ∈ rest.head?, c.isDigit = false ∧ c ≠ '.' ∧ c ≠ 'e' ∧ c ≠ 'E'

namespace Numeral

theorem le_ofDigitChars (ds : List Char) (n : Nat) : n ≤ Nat.ofDigitChars 10 ds n := by
  induction ds generalizing n with
  | nil => exact Nat.le_refl _
  | cons c ds ih =>
    rw [Nat.ofDigitChars_cons]
    exact Nat.le_trans (by omega) (ih _)

theorem gather_eq {n : Nat} {ds : List Char}
    (h : Nat.ofDigitChars 10 ds n < 0x10000000000000000) :
    gather n ds = (Nat.ofDigitChars 10 ds n, []) := by
  induction ds generalizing n with
  | nil => rfl
  | cons c ds ih =>
    rw [Nat.ofDigitChars_cons] at h ⊢
    have hfits : 10 * n + digitValue c < 0x10000000000000000 :=
      Nat.lt_of_le_of_lt (le_ofDigitChars ds _) h
    rw [gather, if_pos hfits]
    exact ih h

theorem wholeOk_toDigits (n : Nat) : wholeOk (Nat.toDigits 10 n) = true := by
  obtain ⟨-, h⟩ | ⟨-, c, cs, h, hc⟩ := Text.toDigits_cases n
  · rw [h]
    rfl
  · rw [h, wholeOk.eq_def]
    split <;> simp_all

theorem scan_toDigits (negative : Bool) (n : Nat) {rest : List Char} (h : EndsNumber rest) :
    scan negative (Nat.toDigits 10 n ++ rest) =
      some (⟨negative, Nat.toDigits 10 n, none, none⟩, rest) := by
  have hdigits : ∀ c ∈ Nat.toDigits 10 n, c.isDigit = true := fun _ => Text.isDigit_of_mem_toDigits
  have hend : ∀ c ∈ rest.head?, c.isDigit = false := fun c hc => (h c hc).1
  have hfraction : scanFraction rest = some (none, rest) := by
    rw [scanFraction.eq_def]
    split
    · exact absurd rfl (h _ rfl).2.1
    · rfl
  have hexponent : scanExponent rest = some (none, rest) := by
    rw [scanExponent.eq_def]
    split
    · rename_i c cs
      obtain ⟨-, -, he, hE⟩ := h c rfl
      simp [he, hE]
    · rfl
  simp [scan, Text.takeWhile_append_of_forall hdigits hend,
    Text.dropWhile_append_of_forall hdigits hend, wholeOk_toDigits, hfraction, hexponent]

theorem token_toDigits {n : Nat} (h : n < 0x10000000000000000) :
    token ⟨false, Nat.toDigits 10 n, none, none⟩ = .int n := by
  have hvalue : Nat.ofDigitChars 10 (Nat.toDigits 10 n) 0 = n :=
    Nat.ofDigitChars_toDigits (by decide) (by decide)
  have hgather : gather 0 (Nat.toDigits 10 n) = (n, []) := by
    rw [gather_eq (hvalue.symm ▸ h), hvalue]
  simp [token, hgather]

theorem token_neg_toDigits {n : Nat} (hpos : 0 < n) (h : n ≤ 0x8000000000000000) :
    token ⟨true, Nat.toDigits 10 n, none, none⟩ = .int (-n) := by
  have hvalue : Nat.ofDigitChars 10 (Nat.toDigits 10 n) 0 = n :=
    Nat.ofDigitChars_toDigits (by decide) (by decide)
  have hgather : gather 0 (Nat.toDigits 10 n) = (n, []) := by
    rw [gather_eq (by omega), hvalue]
  have hzero : n ≠ 0 := by omega
  have hnot : ¬ 0x8000000000000000 < n := by omega
  simp [token, hgather, hzero, hnot]

end Numeral

/-! ## Tokens of a value -/

mutual
def Value.tokens : Value → List Token
  | .null => [.null]
  | .bool b => [.bool b]
  | .int n => [.int n]
  | .float x => [.float x]
  | .str s => [.str s]
  | .list items => .mark '[' :: itemTokens items ++ [.mark ']']
  | .object fields => .mark '\x7b' :: fieldTokens fields ++ [.mark '\x7d']

def itemTokens : List Value → List Token
  | [] => []
  | [v] => v.tokens
  | v :: w :: rest => v.tokens ++ .mark ',' :: itemTokens (w :: rest)

def fieldTokens : List (String × Value) → List Token
  | [] => []
  | [(k, v)] => .str k :: .mark ':' :: v.tokens
  | (k, v) :: f :: rest => .str k :: .mark ':' :: v.tokens ++ .mark ',' :: fieldTokens (f :: rest)
end

/-- A text that is cut into these tokens, whatever follows that is no part of a number. -/
structure CutInto (text : List Char) (tokens : List Token) : Prop where
  length_le : tokens.length ≤ text.length
  scan : ∀ fuel rest, EndsNumber rest →
    Token.scanFrom (fuel + tokens.length) (text ++ rest) = tokens ++ Token.scanFrom fuel rest

theorem scanFrom_next {fuel : Nat} {c : Char} {cs rest : List Char} {t : Token}
    (hc : isSpace c = false) (h : Token.next c cs = some (t, rest)) :
    Token.scanFrom (fuel + 1) (c :: cs) = t :: Token.scanFrom fuel rest := by
  simp [Token.scanFrom, hc, h]

theorem next_digit {c : Char} (h : c.isDigit = true) : isSpace c = false ∧ isMark c = false ∧
    c ≠ '"' ∧ c ≠ '-' ∧ c.isDigit = true := by
  obtain ⟨d, rfl⟩ := Text.exists_digitChar h
  revert d
  decide

namespace CutInto

variable {text text' : List Char} {tokens tokens' : List Token}

theorem nil : CutInto [] [] where
  length_le := Nat.le_refl _
  scan _ _ _ := rfl

theorem one {c : Char} {cs : List Char} {t : Token} (hc : isSpace c = false)
    (h : ∀ rest, EndsNumber rest → Token.next c (cs ++ rest) = some (t, rest)) :
    CutInto (c :: cs) [t] where
  length_le := by simp
  scan _ rest hrest := scanFrom_next hc (h rest hrest)

/-- After a mark anything may follow, and a mark may follow anything. -/
theorem mark {m : Char} (hm : m = '[' ∨ m = ']' ∨ m = '\x7b' ∨ m = '\x7d' ∨ m = ',' ∨ m = ':')
    (h : CutInto text tokens) (h' : CutInto text' tokens') :
    CutInto (text ++ m :: text') (tokens ++ .mark m :: tokens') where
  length_le := by
    have := h.length_le
    have := h'.length_le
    simp only [List.length_append, List.length_cons]
    omega
  scan fuel rest hrest := by
    have hends : EndsNumber (m :: (text' ++ rest)) := by
      intro c hc
      obtain rfl := Option.some.inj hc
      obtain rfl | rfl | rfl | rfl | rfl | rfl := hm <;> decide
    have hspace : isSpace m = false := by
      obtain rfl | rfl | rfl | rfl | rfl | rfl := hm <;> decide
    have hnext : Token.next m (text' ++ rest) = some (.mark m, text' ++ rest) := by
      obtain rfl | rfl | rfl | rfl | rfl | rfl := hm <;> rfl
    have hfuel : fuel + (tokens ++ .mark m :: tokens').length =
        (fuel + tokens'.length + 1) + tokens.length := by
      simp only [List.length_append, List.length_cons]
      omega
    rw [hfuel, List.append_assoc, List.cons_append, h.scan _ _ hends, scanFrom_next hspace hnext,
      h'.scan _ _ hrest, List.append_assoc, List.cons_append]

theorem scan_eq (h : CutInto text tokens) : Token.scan text = tokens := by
  have hnil : EndsNumber [] := fun _ hc => nomatch hc
  have hscan := h.scan (text.length - tokens.length) [] hnil
  rw [Nat.sub_add_cancel h.length_le, List.append_nil] at hscan
  rw [Token.scan, hscan]
  cases text.length - tokens.length <;> simp [Token.scanFrom]

theorem str (s : String) : CutInto (quote s) [.str s] := by
  have hquote : quote s = '"' :: (s.toList.flatMap escapeChar ++ ['"']) := rfl
  rw [hquote]
  refine one (by decide) fun rest _ => ?_
  obtain ⟨parts, hjoin, hscan⟩ := scanParts_quoted s.toList rest
  rw [List.append_assoc, List.singleton_append]
  simp [Token.next, isMark, hscan, hjoin]

theorem nat {n : Nat} (h : n < 0x10000000000000000) : CutInto (Nat.toDigits 10 n) [.int n] := by
  obtain ⟨c, cs, hcs⟩ := List.exists_cons_of_ne_nil (Nat.toDigits_ne_nil (n := n) (b := 10))
  obtain ⟨hspace, hmark, hquote, hminus, hdigit⟩ : isSpace c = false ∧ isMark c = false ∧
      c ≠ '"' ∧ c ≠ '-' ∧ c.isDigit = true :=
    next_digit (Text.isDigit_of_mem_toDigits (hcs ▸ List.mem_cons_self))
  have hscan : ∀ rest, EndsNumber rest → Numeral.scan false (c :: (cs ++ rest)) =
      some (⟨false, c :: cs, none, none⟩, rest) := by
    intro rest hrest
    have hread := Numeral.scan_toDigits false n hrest
    rwa [hcs] at hread
  have htoken : Numeral.token ⟨false, c :: cs, none, none⟩ = .int n := by
    rw [← hcs]
    exact Numeral.token_toDigits h
  rw [hcs]
  exact one hspace fun rest hrest => by
    simp [Token.next, hmark, hquote, hminus, hdigit, hscan rest hrest, htoken]

theorem minus {n : Nat} (hpos : 0 < n) (h : n ≤ 0x8000000000000000) :
    CutInto ('-' :: Nat.toDigits 10 n) [.int (-n)] :=
  one (by decide) fun rest hrest => by
    simp [Token.next, isMark, Numeral.scan_toDigits true n hrest,
      Numeral.token_neg_toDigits hpos h]

theorem int {n : Int} (h : Text.IsInt64 n) : CutInto (toString n).toList [.int n] := by
  obtain ⟨hlow, hhigh⟩ := h
  obtain ⟨k, rfl | ⟨rfl, hpos⟩⟩ := Text.exists_nat n
  · rw [Text.toList_toString_nat]
    exact nat (by omega)
  · rw [Text.toList_toString_neg hpos]
    exact minus hpos (by omega)

theorem bool (b : Bool) : CutInto (Value.chars (.bool b)) [.bool b] := by
  cases b <;> exact one (by decide) fun rest _ => by simp [Token.next, isMark, word?]

theorem items {items : List Value} (h : ∀ v ∈ items, CutInto v.chars v.tokens) :
    CutInto (itemChars items) (itemTokens items) := by
  induction items with
  | nil => exact nil
  | cons v rest ih =>
    obtain ⟨hv, hrest⟩ := List.forall_mem_cons.mp h
    cases rest with
    | nil => exact hv
    | cons w rest => exact mark (by simp) hv (ih hrest)

theorem fields {fields : Fields} (h : ∀ e ∈ fields, CutInto e.2.chars e.2.tokens) :
    CutInto (fieldChars fields) (fieldTokens fields) := by
  induction fields with
  | nil => exact nil
  | cons e rest ih =>
    obtain ⟨k, v⟩ := e
    obtain ⟨hv, hrest⟩ := List.forall_mem_cons.mp h
    cases rest with
    | nil => exact mark (by simp) (str k) hv
    | cons f rest => exact mark (by simp) (mark (by simp) (str k) hv) (ih hrest)

end CutInto

theorem Value.Portable.cutInto {nulls : Bool} {depth : Nat} {v : Value}
    (h : v.Portable nulls depth) : CutInto v.chars v.tokens := by
  induction h with
  | null => exact .one (by decide) fun rest _ => by simp [Token.next, isMark, word?]
  | bool b => exact .bool b
  | int h => exact .int h
  | str s => exact .str s
  | list _ ih => exact (CutInto.nil.mark (by simp) (.items ih)).mark (by simp) .nil
  | object _ _ ih => exact (CutInto.nil.mark (by simp) (.fields ih)).mark (by simp) .nil

/-! ## Trees of tokens -/

theorem Value.exists_tokens (v : Value) : ∃ t ts, v.tokens = t :: ts ∧ t ≠ .mark ']' := by
  cases v <;> exact ⟨_, _, rfl, by simp⟩

theorem itemTokens_ne (v : Value) (items : List Value) (rest ts : List Token) :
    itemTokens (v :: items) ++ rest ≠ .mark ']' :: ts := by
  obtain ⟨t, ts', hts, ht⟩ := v.exists_tokens
  cases items <;> simp [itemTokens, hts, ht]

theorem fieldTokens_ne (e : String × Value) (fields : Fields) (rest ts : List Token) :
    fieldTokens (e :: fields) ++ rest ≠ .mark '\x7d' :: ts := by
  cases fields <;> simp [fieldTokens]

variable {depth fuel : Nat}

theorem parseNode_list {ts : List Token} (h : ∀ ts', ts ≠ .mark ']' :: ts') :
    parseNode (fuel + 1) (depth + 1) (.mark '[' :: ts) =
      (.list (parseItems fuel depth ts).1, (parseItems fuel depth ts).2) := by
  rw [parseNode]
  exact h

theorem parseNode_object {ts : List Token} (h : ∀ ts', ts ≠ .mark '\x7d' :: ts') :
    parseNode (fuel + 1) (depth + 1) (.mark '\x7b' :: ts) =
      (.table (parseEntries fuel depth ts).1, (parseEntries fuel depth ts).2) := by
  rw [parseNode]
  exact h

/-- A value that is read at this depth, given a step for each of its tokens. -/
def Value.ParsedAt (depth : Nat) (v : Value) : Prop :=
  ∀ fuel rest, v.tokens.length ≤ fuel → parseNode fuel depth (v.tokens ++ rest) = (.ofValue v, rest)

theorem Value.ParsedAt.of_succ {v : Value} (h : ∀ fuel rest, v.tokens.length ≤ fuel + 1 →
    parseNode (fuel + 1) depth (v.tokens ++ rest) = (.ofValue v, rest)) : v.ParsedAt depth := by
  intro fuel rest hfuel
  cases fuel with
  | zero =>
    obtain ⟨t, ts, hts, -⟩ := v.exists_tokens
    rw [hts] at hfuel
    simp at hfuel
  | succ fuel => exact h fuel rest hfuel

theorem parseItems_tokens {v : Value} {items : List Value}
    (h : ∀ w ∈ v :: items, w.ParsedAt depth) (hfuel : (itemTokens (v :: items)).length < fuel)
    (rest : List Token) :
    parseItems fuel depth (itemTokens (v :: items) ++ .mark ']' :: rest) =
      (Node.ofItems (v :: items), rest) := by
  obtain _ | fuel := fuel
  · omega
  induction items generalizing v fuel with
  | nil =>
    have hv := h v List.mem_cons_self
    rw [itemTokens] at hfuel ⊢
    rw [parseItems, hv fuel _ (by omega)]
    rfl
  | cons w items ih =>
    obtain ⟨hv, hitems⟩ := List.forall_mem_cons.mp h
    simp only [itemTokens, List.length_append, List.length_cons] at hfuel
    obtain _ | fuel := fuel
    · omega
    rw [itemTokens, List.append_assoc, List.cons_append, parseItems, hv _ _ (by omega)]
    simp only [ih hitems fuel (by omega)]
    rfl

theorem parseEntries_tokens {e : String × Value} {fields : Fields}
    (h : ∀ f ∈ e :: fields, f.2.ParsedAt depth) (hfuel : (fieldTokens (e :: fields)).length < fuel)
    (rest : List Token) :
    parseEntries fuel depth (fieldTokens (e :: fields) ++ .mark '\x7d' :: rest) =
      (Node.ofFields (e :: fields), rest) := by
  obtain _ | fuel := fuel
  · omega
  induction fields generalizing e fuel with
  | nil =>
    obtain ⟨k, v⟩ := e
    have hv : v.ParsedAt depth := h _ List.mem_cons_self
    simp only [fieldTokens, List.length_cons] at hfuel
    rw [fieldTokens, List.cons_append, List.cons_append, parseEntries, hv fuel _ (by omega)]
    rfl
  | cons f fields ih =>
    obtain ⟨k, v⟩ := e
    have hv : v.ParsedAt depth := h _ List.mem_cons_self
    have hfields := (List.forall_mem_cons.mp h).2
    simp only [fieldTokens, List.length_append, List.length_cons] at hfuel
    obtain _ | fuel := fuel
    · omega
    rw [fieldTokens, List.append_assoc, List.cons_append, List.cons_append, List.cons_append,
      parseEntries, hv _ _ (by omega)]
    simp only [ih hfields fuel (by omega)]
    rfl

theorem Value.Portable.parsedAt {nulls : Bool} {v : Value} (h : v.Portable nulls depth) :
    v.ParsedAt depth := by
  induction h with
  | null | bool | int | str => exact .of_succ fun _ _ _ => rfl
  | @list depth items _ ih =>
    refine .of_succ fun fuel rest hfuel => ?_
    simp only [Value.tokens, List.length_append, List.length_cons, List.length_nil] at hfuel
    rw [Value.tokens, Node.ofValue, List.cons_append, List.cons_append, List.append_assoc]
    cases items with
    | nil => rfl
    | cons v items =>
      rw [parseNode_list (itemTokens_ne v items _), List.singleton_append,
        parseItems_tokens ih (by omega)]
  | @object depth fields _ _ ih =>
    refine .of_succ fun fuel rest hfuel => ?_
    simp only [Value.tokens, List.length_append, List.length_cons, List.length_nil] at hfuel
    rw [Value.tokens, Node.ofValue, List.cons_append, List.cons_append, List.append_assoc]
    cases fields with
    | nil => rfl
    | cons e fields =>
      rw [parseNode_object (fieldTokens_ne e fields _), List.singleton_append,
        parseEntries_tokens ih (by omega)]

/-! ## Documents -/

theorem Value.Portable.ofText_text {nulls : Bool} {v : Value} (h : v.Portable nulls maxDepth) :
    Document.ofText v.text = ⟨.ofValue v, true⟩ := by
  have hscan : Token.scan v.text.toList = v.tokens := by
    rw [Value.text, String.toList_ofList]
    exact h.cutInto.scan_eq
  have hparse : parseNode (2 * v.tokens.length + 2) maxDepth v.tokens = (.ofValue v, []) := by
    have hread := h.parsedAt (2 * v.tokens.length + 2) [] (by omega)
    rwa [List.append_nil] at hread
  rw [Document.ofText, hscan, hparse]
  rfl

/-- What a reader makes of the tree of a value, it makes of its text. -/
theorem Value.Portable.decode_text {α : Type} {nulls : Bool} {v : Value}
    (h : v.Portable nulls maxDepth) (read : Node → Node.Read α) :
    decode read v.text = read (.ofValue v) := by
  rw [decode, h.ofText_text]
  cases read (.ofValue v) <;> rfl

end FeedPoller.Json

import FeedPoller.Json.Printer
import FeedPoller.Proofs.DecimalTexts
import FeedPoller.Proofs.Numerals
import FeedPoller.Toml.Quoted
import FeedPoller.Toml.Scalar

/-! Strings, integers and truth values written as TOML, read back. Main statements: a string in the
basic form is read as itself (`Quoted.next_quote`), and so are an integer of 64 signed bits and a
truth value (`Scalar.next_int`, `Scalar.next_bool`). -/

namespace FeedPoller.Toml

/-! ## Basic strings -/

/-- The escapes of JSON, and one more control character. -/
def escapeChar (c : Char) : List Char :=
  if c = '\x7f' then ['\\', 'u', '0', '0', '7', 'f'] else Json.escapeChar c

def quote (s : String) : List Char := '"' :: s.toList.flatMap escapeChar ++ ['"']

namespace Quoted

theorem natInBase?_escape : ∀ n < 0x20,
    Text.natInBase? 16 ['0', '0', Json.hexDigit (n / 16), Json.hexDigit (n % 16)] = some n := by
  decide +kernel

theorem scalar?_toNat (c : Char) : scalar? c.toNat = some c := by
  rw [scalar?, if_pos (show c.toNat.isValidChar from c.valid), Char.ofNat_toNat]

theorem escape_delete (cs : List Char) : escape ('u' :: '0' :: '0' :: '7' :: 'f' :: cs) =
    some ('\x7f', cs) := by
  have hcode : Text.natInBase? 16 ['0', '0', '7', 'f'] = some 0x7f := by decide +kernel
  have hchar : scalar? 0x7f = some '\x7f' := scalar?_toNat '\x7f'
  simp [escape, hexDigits, hcode, hchar]

theorem escape_unit {c : Char} (h : c.toNat < 0x20) (cs : List Char) :
    escape ('u' :: '0' :: '0' :: Json.hexDigit (c.toNat / 16) :: Json.hexDigit (c.toNat % 16) ::
      cs) = some (c, cs) := by
  simp [escape, hexDigits, natInBase?_escape _ h, scalar?_toNat]

theorem basic_escape {fuel : Nat} {c : Char} {escaped cs : List Char}
    (h : escape (escaped ++ cs) = some (c, cs)) :
    basic (fuel + 1) ('\\' :: escaped ++ cs) = (basic fuel cs).map fun r => (c :: r.1, r.2) := by
  rw [List.cons_append, basic]
  simp only [h, Option.bind_eq_bind, Option.bind_some]
  cases basic fuel cs <;> rfl

theorem basic_plain {fuel : Nat} {c : Char} (hquote : c ≠ '"') (hback : c ≠ '\\')
    (h : isPlain c = true) (cs : List Char) :
    basic (fuel + 1) (c :: cs) = (basic fuel cs).map fun r => (c :: r.1, r.2) := by
  rw [basic.eq_5 _ _ _ hquote hback, h]
  cases basic fuel cs <;> rfl

theorem isPlain_of_le {c : Char} (h : ¬ c.toNat < 0x20) (hdelete : c ≠ '\x7f') :
    isPlain c = true := by
  have hlow : 0x20 ≤ c.val := UInt32.le_iff_toNat_le.mpr (Nat.not_lt.mp h)
  have hval : c.val ≠ 0x7F := fun heq => hdelete (Char.ext heq)
  simp [isPlain, hlow, hval]

/-- A string is read character by character. -/
theorem basic_escapeChar {fuel : Nat} (c : Char) (cs : List Char) :
    basic (fuel + 1) (escapeChar c ++ cs) = (basic fuel cs).map fun r => (c :: r.1, r.2) := by
  unfold escapeChar
  split
  · rename_i hdelete
    subst hdelete
    exact basic_escape (escape_delete cs)
  · rename_i hdelete
    unfold Json.escapeChar
    split
    case h_8 =>
      split
      · rename_i h
        exact basic_escape (escape_unit h cs)
      · rename_i hquote hback _ _ _ _ _ h
        exact basic_plain hquote hback (isPlain_of_le h hdelete) cs
    all_goals exact basic_escape rfl

theorem escapeChar_ne_nil (c : Char) : escapeChar c ≠ [] := by
  unfold escapeChar Json.escapeChar
  split
  · simp
  · repeat' split
    all_goals simp

theorem length_le_escaped (cs : List Char) : cs.length ≤ (cs.flatMap escapeChar).length := by
  induction cs with
  | nil => exact Nat.le_refl _
  | cons c cs ih =>
    have hpos := List.length_pos_iff.mpr (escapeChar_ne_nil c)
    rw [List.flatMap_cons, List.length_append, List.length_cons]
    omega

theorem basic_escaped {fuel : Nat} (cs rest : List Char) :
    basic (fuel + cs.length + 1) (cs.flatMap escapeChar ++ '"' :: rest) = some (cs, rest) := by
  induction cs with
  | nil => simp [basic]
  | cons c cs ih =>
    rw [List.flatMap_cons, List.append_assoc, basic_escapeChar, List.length_cons, ← Nat.add_assoc,
      ih]
    rfl

theorem quote_append (s : String) (rest : List Char) :
    quote s ++ rest = '"' :: (s.toList.flatMap escapeChar ++ '"' :: rest) := by
  rw [quote, List.append_assoc]
  rfl

theorem single_quote (s : String) (rest : List Char) :
    single (quote s ++ rest) = some (s, rest) := by
  have hlength := length_le_escaped s.toList
  obtain ⟨fuel, hfuel⟩ : ∃ fuel, (s.toList.flatMap escapeChar ++ '"' :: rest).length + 1 =
      fuel + s.toList.length + 1 := by
    refine ⟨(s.toList.flatMap escapeChar ++ '"' :: rest).length - s.toList.length, ?_⟩
    rw [List.length_append] at *
    omega
  rw [quote_append, single, hfuel, basic_escaped]
  simp

theorem escaped_ne_quote (c : Char) (cs rest : List Char) : escapeChar c ++ cs ≠ '"' :: rest := by
  unfold escapeChar Json.escapeChar
  split
  · simp
  · repeat' split
    all_goals simp_all

/-- Three quotes in a row would begin a string over several lines. -/
theorem quote_append_ne (s : String) {rest : List Char} (h : ∀ c ∈ rest.head?, c ≠ '"')
    (cs : List Char) : quote s ++ rest ≠ '"' :: '"' :: '"' :: cs := by
  rw [quote_append]
  intro heq
  have htail := (List.cons.inj heq).2
  cases hs : s.toList with
  | nil =>
    rw [hs, List.flatMap_nil, List.nil_append] at htail
    exact h '"' ((List.cons.inj htail).2 ▸ rfl) rfl
  | cons c cs' =>
    rw [hs, List.flatMap_cons, List.append_assoc] at htail
    exact escaped_ne_quote _ _ _ htail

theorem next_quote (s : String) {rest : List Char} (h : ∀ c ∈ rest.head?, c ≠ '"') :
    next (quote s ++ rest) = some (s, rest) := by
  rw [next.eq_3 _ (quote_append_ne s h), single_quote]
  intro cs heq
  rw [quote_append] at heq
  exact absurd (List.cons.inj heq).1 (by decide)

end Quoted

/-! ## Integers and truth values -/

/-- What may follow a value. -/
def EndsValue (rest : List Char) : Prop :=
  ∀ c ∈ rest.head?, Scalar.isPart c = false ∧ c ≠ '"'

namespace DateTime

variable {cs : List Char}

/-- Digits alone leave nothing behind them. -/
theorem rest_of_digits {n k : Nat} {rest : List Char} (hcs : ∀ c ∈ cs, c.isDigit = true)
    (h : digits n cs = some (k, rest)) : rest = [] := by
  have hlength : (cs.takeWhile Char.isDigit).length = cs.length := by
    rw [List.takeWhile_eq_self_iff.mpr hcs]
  unfold digits at h
  split at h
  · rename_i hn
    obtain ⟨_, -, heq⟩ := Option.map_eq_some_iff.mp h
    rw [← (Prod.mk.inj heq).2, ← hn, hlength, List.drop_length]
  · cases h

theorem digits_minus {n : Nat} (h : n ≠ 0) (ds : List Char) : digits n ('-' :: ds) = none := by
  have hzero : ¬ 0 = n := fun heq => h heq.symm
  simp [digits, hzero]

/-- No date and no time is an integer. -/
theorem ofChars?_eq_none (h : ∀ n k rest, n ≠ 0 → digits n cs = some (k, rest) → rest = []) :
    date? cs = none ∧ ofChars? cs = none := by
  have hdate : date? cs = none := by
    unfold date?
    cases hd : digits 4 cs with
    | none => rfl
    | some r =>
      obtain ⟨k, rest⟩ := r
      obtain rfl := h 4 k rest (by decide) hd
      rfl
  have htime : time? cs = none := by
    unfold time?
    cases hd : digits 2 cs with
    | none => rfl
    | some r =>
      obtain ⟨k, rest⟩ := r
      obtain rfl := h 2 k rest (by decide) hd
      rfl
  exact ⟨hdate, by rw [ofChars?, hdate, htime]⟩

end DateTime

namespace Scalar

theorem ungroup_digits {cs : List Char} (hne : cs ≠ []) (h : ∀ c ∈ cs, c.isDigit = true) :
    ungroup Char.isDigit cs = some cs := by
  induction cs with
  | nil => exact absurd rfl hne
  | cons c cs ih =>
    obtain ⟨hc, hcs⟩ := List.forall_mem_cons.mp h
    by_cases hnil : cs = []
    · simp [hnil, ungroup, hc]
    · have hmark : ∀ ds, cs = '_' :: ds → False := fun ds heq =>
        absurd (hcs '_' (heq ▸ List.mem_cons_self)) (by decide)
      rw [ungroup.eq_4 _ _ _ hnil hmark, if_pos hc, ih hnil hcs]
      rfl

theorem whole?_toDigits (n : Nat) : whole? (Nat.toDigits 10 n) = some (Nat.toDigits 10 n) := by
  have hdigits := ungroup_digits (Nat.toDigits_ne_nil (n := n) (b := 10)) fun _ =>
    Text.isDigit_of_mem_toDigits
  have hfirst : ¬ (1 < (Nat.toDigits 10 n).length ∧ (Nat.toDigits 10 n).head? = some '0') := by
    obtain ⟨-, hn⟩ | ⟨-, c, cs, hn, hc⟩ := Text.toDigits_cases n <;> simp_all
  simp [whole?, hdigits, hfirst]

theorem number?_toDigits (negative : Bool) {n : Nat} (h : n < 0x10000000000000000) :
    number? negative (Nat.toDigits 10 n) = some (.int (if negative then -(n : Int) else n)) := by
  have hinf : Nat.toDigits 10 n ≠ ['i', 'n', 'f'] := Text.toDigits_ne_cons (by decide) _
  have hnan : Nat.toDigits 10 n ≠ ['n', 'a', 'n'] := Text.toDigits_ne_cons (by decide) _
  have hfits : n < 0x100000000000000000000000000000000 := Nat.lt_trans h (by decide)
  simp [number?, hinf, hnan, whole?_toDigits, Text.nat?_toDigits, integer, hfits]

theorem ofChars?_of_digits {cs : List Char} (h : ∀ c ∈ cs, c.isDigit = true ∨ c = '-')
    (hdate : DateTime.ofChars? cs = none) :
    ofChars? cs = number? (signed cs).1 (signed cs).2 := by
  have hletter : ∀ c, ¬ (c.isDigit = true ∨ c = '-') → c ∉ cs := fun c hc hmem => hc (h c hmem)
  have ht := hletter 't' (by decide)
  have hf := hletter 'f' (by decide)
  have hx := hletter 'x' (by decide)
  have ho := hletter 'o' (by decide)
  have hb := hletter 'b' (by decide)
  rw [ofChars?.eq_6 cs, hdate]
  all_goals
    intros
    simp_all

/-- What is written with digits and a minus sign, and is no date, is read as a number. -/
theorem next_of_digits {cs rest : List Char} (h : ∀ c ∈ cs, c.isDigit = true ∨ c = '-')
    (hdate : ∀ n k r, n ≠ 0 → DateTime.digits n cs = some (k, r) → r = [])
    (hrest : EndsValue rest) :
    next (cs ++ rest) = (number? (signed cs).1 (signed cs).2).map (·, rest) := by
  have hpart : ∀ c ∈ cs, isPart c = true := by
    intro c hc
    obtain hc | rfl := h c hc
    · simp [isPart, Char.isAlphanum, hc]
    · decide
  have hend : ∀ c ∈ rest.head?, isPart c = false := fun c hc => (hrest c hc).1
  obtain ⟨hnone, hdate⟩ := DateTime.ofChars?_eq_none hdate
  have hbefore : dateBeforeTime cs rest = false := by simp [dateBeforeTime, hnone]
  rw [next, Text.takeWhile_append_of_forall hpart hend, Text.dropWhile_append_of_forall hpart hend,
    hbefore, ofChars?_of_digits h hdate]
  rfl

theorem signed_toDigits (n : Nat) : signed (Nat.toDigits 10 n) = (false, Nat.toDigits 10 n) := by
  unfold signed
  split
  · rename_i heq
    exact absurd heq (Text.toDigits_ne_cons (by decide) _)
  · rename_i heq
    exact absurd heq (Text.toDigits_ne_cons (by decide) _)
  · rfl

theorem next_int {n : Int} (h : Text.IsInt64 n) {rest : List Char} (hrest : EndsValue rest) :
    next ((toString n).toList ++ rest) = some (.int n, rest) := by
  obtain ⟨hlow, hhigh⟩ := h
  obtain ⟨k, rfl | ⟨rfl, hpos⟩⟩ := Text.exists_nat n
  · have hdigits : ∀ c ∈ Nat.toDigits 10 k, c.isDigit = true := fun _ =>
      Text.isDigit_of_mem_toDigits
    rw [Text.toList_toString_nat, next_of_digits (fun c hc => .inl (hdigits c hc))
      (fun _ _ _ _ => DateTime.rest_of_digits hdigits) hrest, signed_toDigits,
      number?_toDigits _ (by omega)]
    rfl
  · have hchars : ∀ c ∈ '-' :: Nat.toDigits 10 k, c.isDigit = true ∨ c = '-' := by
      intro c hc
      obtain rfl | hc := List.mem_cons.mp hc
      · exact .inr rfl
      · exact .inl (Text.isDigit_of_mem_toDigits hc)
    have hdate : ∀ n m r, n ≠ 0 → DateTime.digits n ('-' :: Nat.toDigits 10 k) = some (m, r) →
        r = [] := by
      intro n m r hn hd
      rw [DateTime.digits_minus hn] at hd
      cases hd
    rw [Text.toList_toString_neg hpos, next_of_digits hchars hdate hrest]
    simp only [signed, number?_toDigits true (n := k) (by omega)]
    rfl

theorem next_bool (b : Bool) {rest : List Char} (hrest : EndsValue rest) :
    next ((Json.Value.bool b).chars ++ rest) = some (.bool b, rest) := by
  have hend : ∀ c ∈ rest.head?, isPart c = false := fun c hc => (hrest c hc).1
  have hpart : ∀ c ∈ (Json.Value.bool b).chars, isPart c = true := by
    cases b <;> simp [Json.Value.chars] <;> decide
  have hbefore : dateBeforeTime (Json.Value.bool b).chars rest = false := by
    cases b <;> rfl
  rw [next, Text.takeWhile_append_of_forall hpart hend, Text.dropWhile_append_of_forall hpart hend,
    hbefore]
  cases b <;> rfl

end Scalar

end FeedPoller.Toml

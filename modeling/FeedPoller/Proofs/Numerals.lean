import FeedPoller.Text.Number
import FeedPoller.Proofs.Trimming
import Mathlib.Data.Nat.Digits.Defs

/-! Integers as they are written: decimal digits with at most a sign before them, and blanks around
them. Main statement: a text is read as an integer of 64 signed bits just when it is one written
down, and as the one that it is (`int64?_trimBy_iff`). -/

namespace FeedPoller.Text

/-! ## Numerals -/

inductive Sign where
  | absent
  | plus
  | minus

def Sign.chars : Sign → List Char
  | .absent => []
  | .plus => ['+']
  | .minus => ['-']

def Sign.apply (n : Nat) : Sign → Int
  | .absent | .plus => n
  | .minus => -n

/-- Decimal digits, at least one, the first of which may be any. -/
structure Numeral where
  sign : Sign
  digits : List (Fin 10)
  digits_ne_nil : digits ≠ []

/-- The characters of digits. -/
def digitChars (digits : List (Fin 10)) : List Char := digits.map (Nat.digitChar ·.val)

/-- The number that digits stand for. -/
def numberOfDigits (digits : List (Fin 10)) : Nat :=
  Nat.ofDigits 10 (digits.map (·.val)).reverse

namespace Numeral

def chars (m : Numeral) : List Char := m.sign.chars ++ digitChars m.digits

def value (m : Numeral) : Int := m.sign.apply (numberOfDigits m.digits)

end Numeral

theorem exists_digitChar {c : Char} (h : c.isDigit = true) :
    ∃ d : Fin 10, c = Nat.digitChar d.val := by
  simp only [Char.isDigit, Bool.and_eq_true, decide_eq_true_eq, ge_iff_le,
    UInt32.le_iff_toNat_le] at h
  have hrange : 48 ≤ c.toNat ∧ c.toNat ≤ 57 := h
  have hlt : c.toNat - 48 < 10 := by omega
  refine ⟨⟨c.toNat - 48, hlt⟩, Char.toNat_inj.mp ?_⟩
  rw [Nat.toNat_digitChar_of_lt_ten hlt, Nat.add_sub_cancel' hrange.1]

theorem exists_digitChars {cs : List Char} (h : cs.all Char.isDigit = true) :
    ∃ digits : List (Fin 10), cs = digitChars digits := by
  induction cs with
  | nil => exact ⟨[], rfl⟩
  | cons c rest ih =>
    rw [List.all_cons, Bool.and_eq_true] at h
    obtain ⟨d, rfl⟩ := exists_digitChar h.1
    obtain ⟨digits, rfl⟩ := ih h.2
    exact ⟨d :: digits, rfl⟩

theorem all_isDigit_digitChars (digits : List (Fin 10)) :
    (digitChars digits).all Char.isDigit = true := by
  simp [digitChars]

theorem foldl_digitChars (digits : List (Fin 10)) :
    (digitChars digits).foldl (fun n c => 10 * n + (c.toNat - 48)) 0 = numberOfDigits digits := by
  induction digits using List.reverseRecOn with
  | nil => rfl
  | append_singleton digits d ih =>
    have hd : (Nat.digitChar d.val).toNat - 48 = d.val := by
      rw [Nat.toNat_digitChar_of_lt_ten d.isLt, Nat.add_sub_cancel_left]
    rw [digitChars, List.map_append, List.foldl_append, ← digitChars, ih]
    simp only [List.map_cons, List.map_nil, List.foldl_cons, List.foldl_nil, hd, numberOfDigits,
      List.map_append, List.reverse_append, List.reverse_singleton, List.singleton_append,
      Nat.ofDigits_cons]
    omega

theorem nat?_eq_some_iff {cs : List Char} {n : Nat} :
    nat? cs = some n ↔
      ∃ digits, digits ≠ [] ∧ cs = digitChars digits ∧ numberOfDigits digits = n := by
  constructor
  · intro h
    unfold nat? at h
    split at h
    · cases h
    · rename_i hdigits
      simp only [Bool.or_eq_true, Bool.not_eq_true', not_or, Bool.not_eq_false] at hdigits
      obtain ⟨digits, rfl⟩ := exists_digitChars hdigits.2
      rw [foldl_digitChars] at h
      refine ⟨digits, ?_, rfl, Option.some.inj h⟩
      rintro rfl
      exact hdigits.1 rfl
  · rintro ⟨digits, hne, rfl, rfl⟩
    have hnonempty : (digitChars digits).isEmpty = false := by simpa [digitChars] using hne
    rw [nat?, all_isDigit_digitChars, hnonempty, foldl_digitChars]
    rfl

/-! ## Sixty-four bits -/

/-- The values of 64 signed bits. -/
def IsInt64 (n : Int) : Prop := -0x8000000000000000 ≤ n ∧ n < 0x8000000000000000

instance (n : Int) : Decidable (IsInt64 n) :=
  inferInstanceAs (Decidable (_ ∧ _))

def within64 (n : Int) : Option Int := if IsInt64 n then some n else none

theorem within64_eq_some_iff {n n' : Int} : within64 n = some n' ↔ n = n' ∧ IsInt64 n' := by
  unfold within64
  split
  · rename_i h
    refine ⟨fun hn => ?_, fun hn => congrArg some hn.1⟩
    obtain rfl := Option.some.inj hn
    exact ⟨rfl, h⟩
  · rename_i h
    refine ⟨fun hn => ?_, fun hn => ?_⟩
    · cases hn
    · exact absurd (hn.1 ▸ hn.2) h

theorem int64?_minus (ds : List Char) :
    int64? ('-' :: ds) = (nat? ds).bind fun n => within64 (Sign.apply n .minus) := by
  rw [int64?]
  cases nat? ds <;> rfl

theorem int64?_plus (ds : List Char) :
    int64? ('+' :: ds) = (nat? ds).bind fun n => within64 (Sign.apply n .plus) := by
  rw [int64?]
  cases nat? ds <;> rfl

theorem int64?_absent {cs : List Char} (hminus : ∀ ds, cs ≠ '-' :: ds)
    (hplus : ∀ ds, cs ≠ '+' :: ds) :
    int64? cs = (nat? cs).bind fun n => within64 (Sign.apply n .absent) := by
  unfold int64?
  split
  · exact absurd rfl (hminus _)
  · exact absurd rfl (hplus _)
  · cases nat? cs <;> rfl

/-- The digits of a numeral do not begin with a sign. -/
theorem digitChars_ne_cons {digits : List (Fin 10)} {c : Char} (hc : c.isDigit = false)
    (rest : List Char) : digitChars digits ≠ c :: rest := by
  intro h
  have hall := all_isDigit_digitChars digits
  rw [h, List.all_cons, hc, Bool.false_and] at hall
  cases hall

theorem int64?_sign (sign : Sign) (digits : List (Fin 10)) :
    int64? (sign.chars ++ digitChars digits) =
      (nat? (digitChars digits)).bind fun n => within64 (sign.apply n) := by
  cases sign with
  | minus => exact int64?_minus _
  | plus => exact int64?_plus _
  | absent => exact int64?_absent (digitChars_ne_cons rfl) (digitChars_ne_cons rfl)

/-- What is read begins with a sign or with a digit. -/
theorem exists_sign {cs : List Char} {n : Int} (h : int64? cs = some n) :
    ∃ sign digits, cs = Sign.chars sign ++ digitChars digits := by
  have hdigits : ∀ {ds : List Char} {sign : Sign},
      ((nat? ds).bind fun k => within64 (sign.apply k)) = some n →
        ∃ digits, ds = digitChars digits := by
    intro ds sign hds
    obtain ⟨k, hk, -⟩ := Option.bind_eq_some_iff.mp hds
    obtain ⟨digits, -, hchars, -⟩ := nat?_eq_some_iff.mp hk
    exact ⟨digits, hchars⟩
  by_cases hminus : ∃ ds, cs = '-' :: ds
  · obtain ⟨ds, rfl⟩ := hminus
    rw [int64?_minus] at h
    obtain ⟨digits, rfl⟩ := hdigits h
    exact ⟨.minus, digits, rfl⟩
  by_cases hplus : ∃ ds, cs = '+' :: ds
  · obtain ⟨ds, rfl⟩ := hplus
    rw [int64?_plus] at h
    obtain ⟨digits, rfl⟩ := hdigits h
    exact ⟨.plus, digits, rfl⟩
  · rw [int64?_absent (fun ds hds => hminus ⟨ds, hds⟩) fun ds hds => hplus ⟨ds, hds⟩] at h
    obtain ⟨digits, rfl⟩ := hdigits h
    exact ⟨.absent, digits, rfl⟩

theorem int64?_eq_some_iff {cs : List Char} {n : Int} :
    int64? cs = some n ↔ (∃ m : Numeral, cs = m.chars ∧ m.value = n) ∧ IsInt64 n := by
  constructor
  · intro h
    obtain ⟨sign, digits, rfl⟩ := exists_sign h
    rw [int64?_sign, Option.bind_eq_some_iff] at h
    obtain ⟨k, hk, hn⟩ := h
    obtain ⟨digits', hne, hchars, hvalue⟩ := nat?_eq_some_iff.mp hk
    obtain ⟨hsign, hrange⟩ := within64_eq_some_iff.mp hn
    refine ⟨⟨⟨sign, digits', hne⟩, ?_, ?_⟩, hrange⟩
    · rw [Numeral.chars, hchars]
    · rw [Numeral.value, hvalue, hsign]
  · rintro ⟨⟨m, rfl, rfl⟩, hrange⟩
    have hnat : nat? (digitChars m.digits) = some (numberOfDigits m.digits) :=
      nat?_eq_some_iff.mpr ⟨_, m.digits_ne_nil, rfl, rfl⟩
    rw [Numeral.chars, int64?_sign, hnat]
    exact within64_eq_some_iff.mpr ⟨rfl, hrange⟩

/-! ## Blanks around -/

theorem Sign.isBlank_of_mem {sign : Sign} {c : Char} (hc : c ∈ sign.chars) : isBlank c = false := by
  cases sign with
  | absent => cases hc
  | plus | minus =>
    rw [List.mem_singleton.mp hc]
    decide

theorem isBlank_digitChar : ∀ d : Fin 10, isBlank (Nat.digitChar d.val) = false := by
  decide

theorem Numeral.isBlank_of_mem (m : Numeral) {c : Char} (hc : c ∈ m.chars) :
    isBlank c = false := by
  rcases List.mem_append.mp hc with hc | hc
  · exact Sign.isBlank_of_mem hc
  · obtain ⟨d, -, rfl⟩ := List.mem_map.mp hc
    exact isBlank_digitChar d

theorem Numeral.chars_ne_nil (m : Numeral) : m.chars ≠ [] := by
  intro h
  have hdigits : digitChars m.digits = [] := (List.append_eq_nil_iff.mp h).2
  exact m.digits_ne_nil (List.map_eq_nil_iff.mp hdigits)

/-- A text that is an integer of 64 signed bits, written down with blanks before and after it. -/
def IsNumber (cs : List Char) (n : Int) : Prop :=
  (∃ (before after : List Char) (m : Numeral), cs = before ++ m.chars ++ after ∧ m.value = n ∧
    (∀ c ∈ before, isBlank c = true) ∧ ∀ c ∈ after, isBlank c = true) ∧ IsInt64 n

theorem int64?_trimBy_iff {cs : List Char} {n : Int} :
    int64? (trimBy isBlank cs) = some n ↔ IsNumber cs n := by
  constructor
  · intro h
    obtain ⟨⟨m, hm, rfl⟩, hrange⟩ := int64?_eq_some_iff.mp h
    obtain ⟨before, after, hcs, hbefore, hafter⟩ := exists_around_trimBy isBlank cs
    rw [hm] at hcs
    exact ⟨⟨before, after, m, hcs, rfl, hbefore, hafter⟩, hrange⟩
  · rintro ⟨⟨before, after, m, rfl, rfl, hbefore, hafter⟩, hrange⟩
    rw [trimBy_around m.chars_ne_nil hbefore (fun _ => m.isBlank_of_mem) hafter]
    exact int64?_eq_some_iff.mpr ⟨⟨m, rfl, rfl⟩, hrange⟩

end FeedPoller.Text

import FeedPoller.Text.Number

/-! Integers as they are written out: no needless zero at the head, a minus sign before those below
zero. Main statement: the digits of a number are read as it, and no other first digit than a lone
one is zero (`nat?_toDigits`, `toDigits_cases`). -/

namespace FeedPoller.Text

/-! ## Digits -/

theorem isDigit_of_mem_toDigits {n : Nat} {c : Char} (h : c ∈ Nat.toDigits 10 n) :
    c.isDigit = true :=
  Nat.isDigit_of_mem_toDigits (by decide) (by decide) h

theorem toDigits_ne_cons {n : Nat} {c : Char} (hc : c.isDigit = false) (cs : List Char) :
    Nat.toDigits 10 n ≠ c :: cs := by
  intro h
  have hdigit : c.isDigit = true := isDigit_of_mem_toDigits (h ▸ List.mem_cons_self)
  rw [hc] at hdigit
  cases hdigit

theorem digitChar_ne_zero {d : Nat} (hpos : 0 < d) (hd : d < 10) : Nat.digitChar d ≠ '0' := by
  intro h
  have hcode := congrArg Char.toNat h
  rw [Nat.toNat_digitChar_of_lt_ten hd] at hcode
  change 48 + d = 48 at hcode
  omega

/-- Only zero begins with a zero. -/
theorem toDigits_cases (n : Nat) : n = 0 ∧ Nat.toDigits 10 n = ['0'] ∨
    0 < n ∧ ∃ c cs, Nat.toDigits 10 n = c :: cs ∧ c ≠ '0' := by
  induction n using Nat.strongRecOn with
  | ind n ih =>
    rcases Nat.lt_or_ge n 10 with hn | hn
    · rw [Nat.toDigits_of_lt_base hn]
      obtain rfl | hpos := Nat.eq_zero_or_pos n
      · exact .inl ⟨rfl, rfl⟩
      · exact .inr ⟨hpos, _, _, rfl, digitChar_ne_zero hpos hn⟩
    · rw [Nat.toDigits_of_base_le (by decide) hn]
      obtain ⟨hzero, -⟩ | ⟨-, c, cs, hcs, hc⟩ := ih (n / 10) (by omega)
      · omega
      · exact .inr ⟨by omega, c, _, by rw [hcs, List.cons_append], hc⟩

theorem nat?_toDigits (n : Nat) : nat? (Nat.toDigits 10 n) = some n := by
  have hall : (Nat.toDigits 10 n).all Char.isDigit = true :=
    List.all_eq_true.mpr fun _ => isDigit_of_mem_toDigits
  rw [nat?, if_neg (by simp [hall, Nat.toDigits_ne_nil])]
  exact congrArg some (Nat.ofDigitChars_toDigits (by decide) (by decide))

/-! ## Signs -/

theorem toList_toString_nat (n : Nat) : (toString (n : Int)).toList = Nat.toDigits 10 n := by
  rw [Int.toString_eq_repr, Int.repr_eq_if, if_pos (Int.natCast_nonneg n), Int.toNat_natCast,
    Nat.toList_repr]

theorem toList_toString_neg {n : Nat} (h : 0 < n) :
    (toString (-(n : Int))).toList = '-' :: Nat.toDigits 10 n := by
  rw [Int.toString_eq_repr, Int.repr_eq_if, if_neg (by omega), Int.neg_neg, Int.toNat_natCast,
    String.toList_append, Nat.toList_repr]
  rfl

/-- An integer is a natural, or the opposite of a positive one. -/
theorem exists_nat (n : Int) : ∃ k : Nat, n = k ∨ n = -k ∧ 0 < k :=
  ⟨n.natAbs, by omega⟩

end FeedPoller.Text

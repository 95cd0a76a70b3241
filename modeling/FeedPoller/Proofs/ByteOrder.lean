import FeedPoller.Text.Percent
import Mathlib.Order.Basic

/-! The order of texts. They are compared by code points, and where they are sent they are compared by
bytes; main statement: that is the same order (`lt_iff_bytes_lt`). -/

namespace FeedPoller.Text

/-- The UTF-8 bytes of a text. -/
def bytes (s : String) : List UInt8 := s.toUTF8.data.toList

theorem bytes_eq (s : String) : bytes s = s.toList.flatMap String.utf8EncodeChar := by
  conv => lhs; rw [← String.ofList_toList (s := s)]
  exact List.toList_data_toByteArray

theorem toNat_lt_limit (c : Char) : c.val.toNat < 0x110000 := by
  have hc := c.valid
  simp only [UInt32.isValidChar, Nat.isValidChar] at hc
  omega

/-- The first of four bytes, which holds the three highest bits. -/
theorem toNat_lead {n : Nat} (h : n < 0x110000) :
    (UInt8.ofNat (n / 262144 % 8 + 240)).toNat = n / 262144 + 240 := by
  rw [UInt8.toNat_ofNat']
  omega

/-- A byte after the first, which holds six bits. -/
theorem toNat_following (n : Nat) : (UInt8.ofNat (n % 64 + 128)).toNat = n % 64 + 128 := by
  rw [UInt8.toNat_ofNat']
  omega

/-- The bytes of two characters differ before either of them ends, and there as the characters do: a
longer sequence begins with a greater byte, and of two that are as long the bytes are digits. -/
theorem utf8EncodeChar_lt {c d : Char} (h : c < d) (cs ds : List UInt8) :
    String.utf8EncodeChar c ++ cs < String.utf8EncodeChar d ++ ds := by
  have hlt : c.val.toNat < d.val.toNat := h
  have hc := toNat_lt_limit c
  have hd := toNat_lt_limit d
  unfold String.utf8EncodeChar
  dsimp only
  split <;> split
  all_goals
    repeat' split
    all_goals
      by_cases hrest : cs < ds <;>
      simp only [List.cons_append, List.nil_append, List.cons_lt_cons_iff, UInt8.lt_iff_toNat_lt,
        ← UInt8.toNat_inj, toNat_lead hc, toNat_lead hd, toNat_following, UInt8.toNat_ofNat', hrest,
        and_true, and_false, or_false]
      all_goals omega

/-- A character takes at least one byte. -/
theorem utf8EncodeChar_ne_nil (c : Char) : String.utf8EncodeChar c ≠ [] := by
  unfold String.utf8EncodeChar
  dsimp only
  repeat' split
  all_goals simp

theorem flatMap_utf8EncodeChar_lt {cs ds : List Char} (h : cs < ds) :
    cs.flatMap String.utf8EncodeChar < ds.flatMap String.utf8EncodeChar := by
  induction cs generalizing ds with
  | nil =>
    cases ds with
    | nil => exact absurd h (List.lt_irrefl _)
    | cons d ds =>
      obtain ⟨b, bs, hb⟩ := List.exists_cons_of_ne_nil (utf8EncodeChar_ne_nil d)
      rw [List.flatMap_nil, List.flatMap_cons, hb]
      exact List.nil_lt_cons ..
  | cons c cs ih =>
    cases ds with
    | nil => exact absurd h (List.not_lt_nil _)
    | cons d ds =>
      rw [List.flatMap_cons, List.flatMap_cons]
      obtain hcd | ⟨rfl, hrest⟩ := List.cons_lt_cons_iff.mp h
      · exact utf8EncodeChar_lt hcd _ _
      · exact List.append_left_lt (ih hrest)

/-- By code points or by bytes, texts are in the same order. -/
theorem lt_iff_bytes_lt {s t : String} : s < t ↔ bytes s < bytes t := by
  have hforward : ∀ {s t : String}, s < t → bytes s < bytes t := by
    intro s t h
    rw [bytes_eq, bytes_eq]
    exact flatMap_utf8EncodeChar_lt h
  refine ⟨hforward, fun h => ?_⟩
  by_contra hnot
  by_cases hback : t < s
  · exact absurd (hforward hback) (List.lt_asymm h)
  · obtain rfl : s = t := String.le_antisymm (String.not_lt.mp hback) (String.not_lt.mp hnot)
    exact absurd h (List.lt_irrefl _)

end FeedPoller.Text

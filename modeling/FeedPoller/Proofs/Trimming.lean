import FeedPoller.Text.Blank
import Mathlib.Data.List.DropRight

/-! Texts without the blanks at their ends. Main statements: what trimming leaves neither begins nor ends
with a blank (`trimmed_trim`), and it leaves nothing just of a text of blanks alone (`isEmpty_trim`). -/

namespace FeedPoller.Text

variable {p : Char → Bool}

/-- What is left of a text stands between characters that are dropped. -/
theorem exists_around_trimBy (p : Char → Bool) (cs : List Char) :
    ∃ before after, cs = before ++ trimBy p cs ++ after ∧ (∀ c ∈ before, p c = true) ∧
      ∀ c ∈ after, p c = true := by
  refine ⟨cs.takeWhile p, (cs.dropWhile p).rtakeWhile p, ?_, fun _ => List.mem_takeWhile_imp,
    fun _ => List.mem_rtakeWhile_imp⟩
  have hend : trimBy p cs ++ (cs.dropWhile p).rtakeWhile p = cs.dropWhile p :=
    List.rdropWhile_append_rtakeWhile
  rw [List.append_assoc, hend, List.takeWhile_append_dropWhile]

theorem dropWhile_append_of_forall {before cs : List Char} (hbefore : ∀ c ∈ before, p c = true)
    (hcs : ∀ c ∈ cs.head?, p c = false) : (before ++ cs).dropWhile p = cs := by
  rw [List.dropWhile_append_of_pos hbefore]
  cases cs with
  | nil => rfl
  | cons c rest => exact List.dropWhile_cons_of_neg (by simpa using hcs)

theorem takeWhile_append_of_forall {before cs : List Char} (hbefore : ∀ c ∈ before, p c = true)
    (hcs : ∀ c ∈ cs.head?, p c = false) : (before ++ cs).takeWhile p = before := by
  rw [List.takeWhile_append_of_pos hbefore]
  cases cs with
  | nil => simp
  | cons c rest => simp [hcs c rfl]

theorem trimBy_around {before cs after : List Char} (hne : cs ≠ [])
    (hbefore : ∀ c ∈ before, p c = true) (hcs : ∀ c ∈ cs, p c = false)
    (hafter : ∀ c ∈ after, p c = true) : trimBy p (before ++ cs ++ after) = cs := by
  have hfirst : ∀ c ∈ (cs ++ after).head?, p c = false := by
    intro c hc
    rw [List.head?_append_of_ne_nil _ hne] at hc
    exact hcs c (List.mem_of_mem_head? hc)
  have hlast : ∀ c ∈ cs.reverse.head?, p c = false := by
    intro c hc
    exact hcs c (List.mem_reverse.mp (List.mem_of_mem_head? hc))
  have hback : ∀ c ∈ after.reverse, p c = true := fun c hc => hafter c (List.mem_reverse.mp hc)
  rw [trimBy, List.append_assoc, dropWhile_append_of_forall hbefore hfirst, List.reverse_append,
    dropWhile_append_of_forall hback hlast, List.reverse_reverse]

/-- Nothing is dropped behind a last character that stays. -/
theorem trimBy_of_getLast? {cs : List Char} (h : ∀ c ∈ cs.getLast?, p c = false) :
    trimBy p cs = cs.dropWhile p := by
  have hlast : ∀ c ∈ (cs.dropWhile p).getLast?, p c = false := by
    intro c hc
    have hne : cs.dropWhile p ≠ [] := List.ne_nil_of_mem (List.mem_of_getLast? hc)
    have hparts : cs.takeWhile p ++ cs.dropWhile p = cs := List.takeWhile_append_dropWhile
    have hend := congrArg List.getLast? hparts
    rw [List.getLast?_append_of_ne_nil _ hne] at hend
    exact h c (hend ▸ hc)
  refine List.rdropWhile_eq_self_iff.mpr fun hne => ?_
  simp [hlast _ (List.getLast?_eq_some_getLast hne)]

/-- Nothing is left just when all characters are dropped. -/
theorem trimBy_eq_nil_iff {cs : List Char} : trimBy p cs = [] ↔ ∀ c ∈ cs, p c = true := by
  constructor
  · intro h
    obtain ⟨before, after, hcs, hbefore, hafter⟩ := exists_around_trimBy p cs
    rw [h, List.append_nil] at hcs
    rw [hcs, List.forall_mem_append]
    exact ⟨hbefore, hafter⟩
  · intro h
    have hfront : cs.dropWhile p = [] := List.dropWhile_eq_nil_iff.mpr h
    rw [trimBy, hfront]
    rfl

theorem not_of_head?_dropWhile {cs : List Char} {c : Char} (h : c ∈ (cs.dropWhile p).head?) :
    p c = false := by
  have hhead := List.head?_dropWhile_not p cs
  rw [Option.mem_def.mp h] at hhead
  exact hhead

/-- The first character of what is left is the first that is not dropped. -/
theorem not_of_head?_trimBy {cs : List Char} {c : Char} (h : c ∈ (trimBy p cs).head?) :
    p c = false := by
  have hfront : trimBy p cs <+: cs.dropWhile p := List.rdropWhile_prefix p _
  obtain ⟨rest, hrest⟩ := List.head?_eq_some_iff.mp h
  rw [hrest] at hfront
  obtain ⟨after, hafter⟩ := hfront
  have hhead : c ∈ (cs.dropWhile p).head? := by
    rw [← hafter]
    rfl
  exact not_of_head?_dropWhile hhead

theorem not_of_getLast?_trimBy {cs : List Char} {c : Char} (h : c ∈ (trimBy p cs).getLast?) :
    p c = false := by
  rw [trimBy, List.getLast?_reverse] at h
  exact not_of_head?_dropWhile h

/-! ## Blanks -/

/-- A text that neither begins nor ends with a blank. -/
structure Trimmed (s : String) : Prop where
  first : ∀ c ∈ s.toList.head?, isBlank c = false
  last : ∀ c ∈ s.toList.getLast?, isBlank c = false

theorem trimmed_iff {s : String} :
    Trimmed s ↔ s.toList.head?.all (! isBlank ·) = true ∧ s.toList.getLast?.all (! isBlank ·) = true := by
  simp only [Option.all_eq_true, Bool.not_eq_true']
  exact ⟨fun h => ⟨h.first, h.last⟩, fun ⟨hfirst, hlast⟩ => ⟨hfirst, hlast⟩⟩

instance (s : String) : Decidable (Trimmed s) := decidable_of_iff' _ trimmed_iff

theorem trimmed_trim (s : String) : Trimmed (trim s) where
  first c hc := not_of_head?_trimBy (by rwa [trim, String.toList_ofList] at hc)
  last c hc := not_of_getLast?_trimBy (by rwa [trim, String.toList_ofList] at hc)

theorem isEmpty_trim (s : String) : (trim s).isEmpty = allBlank s := by
  have hnil : (trim s).isEmpty = true ↔ trimBy isBlank s.toList = [] := by
    rw [String.isEmpty_iff, ← String.toList_inj, trim, String.toList_ofList, String.toList_empty]
  rw [Bool.eq_iff_iff, hnil, trimBy_eq_nil_iff, allBlank, List.all_eq_true]

end FeedPoller.Text

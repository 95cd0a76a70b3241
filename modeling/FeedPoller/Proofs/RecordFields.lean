import FeedPoller.Proofs.PortableValues

/-! Records written as fields, and read from them: one entry for each field, with an option's left
out or null where it has no value. Main statement: fields of different names are read one after the
other, each into its slot (`Node.Loads.record`). -/

namespace FeedPoller

open Json (Value Fields)

/-! ## Options -/

/-- The field of an option: without a value it is left out, or a null if `nulls` has its name. -/
def optionField {α : Type} (nulls : String → Bool) (name : String) (write : α → Value) :
    Option α → Fields
  | some a => [(name, write a)]
  | none => if nulls name then [(name, .null)] else []

section

variable {α : Type} {nulls : String → Bool}

theorem names_optionField (name : String) (write : α → Value) (o : Option α) :
    ((optionField nulls name write o).map Prod.fst).Sublist [name] := by
  cases o with
  | some a => exact .refl _
  | none =>
    cases hn : nulls name with
    | true => simp [optionField, hn]
    | false => simp [optionField, hn]

/-- In front of other fields an option adds at most its name. -/
theorem names_optionField_append (name : String) (write : α → Value) (o : Option α) {fields : Fields}
    {names : List String} (h : (fields.map Prod.fst).Sublist names) :
    ((optionField nulls name write o ++ fields).map Prod.fst).Sublist (name :: names) := by
  rw [List.map_append]
  exact (names_optionField name write o).append h

theorem portable_optionField {allowed : Bool} {depth : Nat} {name : String} {write : α → Value}
    {o : Option α} (hnulls : nulls name = true → allowed = true)
    (hwrite : ∀ a ∈ o, (write a).Portable allowed depth) :
    Fields.AllPortable allowed depth (optionField nulls name write o) := by
  intro e he
  cases o with
  | some a =>
    obtain rfl := List.mem_singleton.mp he
    exact hwrite a rfl
  | none =>
    rw [optionField] at he
    split at he
    · obtain rfl := List.mem_singleton.mp he
      exact .null (hnulls ‹_›)
    · cases he

end

/-! ## Slots -/

namespace Node

variable {ρ : Type} {slots : List (Slot ρ)}

/-- Reads a field into the slot of its name. -/
def readField (slots : List (Slot ρ)) (r : ρ) (e : String × Value) : Read ρ :=
  match slots.find? (·.name == e.1) with
  | none => do
    (ofValue e.2).skip
    return r
  | some slot => slot.read (.ofValue e.2) r

/-- Fields of different names are read one after the other. -/
theorem readEntries_ofFields (slots : List (Slot ρ)) {fields : Fields}
    (hnames : Named.Ascending fields) (seen : List String) (hseen : ∀ e ∈ fields, e.1 ∉ seen) (r : ρ) :
    Prod.snd <$> readEntries slots (ofFields fields) seen r = fields.foldlM (readField slots) r := by
  induction fields generalizing seen r with
  | nil => rfl
  | cons e rest ih =>
    obtain ⟨k, v⟩ := e
    obtain ⟨hfirst, hnames⟩ := List.pairwise_cons.mp hnames
    obtain ⟨hk, hrest⟩ := List.forall_mem_cons.mp hseen
    rw [ofFields, readEntries, List.foldlM_cons, readField]
    cases slots.find? (·.name == k) with
    | none =>
      cases (ofValue v).skip with
      | error fault => rfl
      | ok _ => exact ih hnames seen hrest r
    | some slot =>
      have hnew : ¬ seen.contains k = true := by simpa using hk
      have hrest' : ∀ e ∈ rest, e.1 ∉ k :: seen := fun e he hmem =>
        (List.mem_cons.mp hmem).elim (String.ne_of_lt (hfirst e he)).symm (hrest e he)
      simp only [if_neg hnew]
      cases slot.read (ofValue v) r with
      | error fault => rfl
      | ok r' => exact ih hnames (k :: seen) hrest' r'

theorem natBelow_nat {n bound : Nat} (h : n < bound) :
    natBelow bound (.ofValue (.nat n)) = .ok n := by
  have hbelow : (0 : Int) ≤ n ∧ (n : Int) < bound := by omega
  simp [Value.nat, ofValue, natBelow, hbelow]

/-- Fields that take a record to another. -/
def Loads (slots : List (Slot ρ)) (fields : Fields) (r r' : ρ) : Prop :=
  fields.foldlM (readField slots) r = .ok r'

namespace Loads

variable {fields fields' : Fields} {r r' r'' : ρ}

theorem nil (r : ρ) : Loads slots [] r r := rfl

theorem append (h : Loads slots fields r r') (h' : Loads slots fields' r' r'') :
    Loads slots (fields ++ fields') r r'' := by
  rw [Loads, List.foldlM_append, h]
  exact h'

variable {α : Type} {read : Node → Read α} {name : String}

/-- The field of a slot that sets what is read. -/
theorem field (set : α → ρ → ρ) {v : Value} {a : α}
    (hslot : slots.find? (·.name == name) = some ⟨name, fun n r => do return set (← read n) r⟩)
    (hread : read (.ofValue v) = .ok a) (r : ρ) : Loads slots [(name, v)] r (set a r) := by
  rw [Loads, List.foldlM_cons, readField, hslot]
  simp only [hread]
  rfl

theorem optional_of_ne {n : Node} (h : n ≠ .null) : Node.optional read n = some <$> read n := by
  rw [Node.optional]
  exact h

/-- The same of an option that is not set before. -/
theorem option (set : Option α → ρ → ρ) {nulls : String → Bool} {write : α → Value} {o : Option α}
    (hslot : slots.find? (·.name == name) =
      some ⟨name, fun n r => do return set (← Node.optional read n) r⟩)
    (hne : ∀ a, Node.ofValue (write a) ≠ .null) (hread : ∀ a ∈ o, read (.ofValue (write a)) = .ok a)
    (hunset : set none r = r) : Loads slots (optionField nulls name write o) r (set o r) := by
  cases o with
  | some a =>
    have hsome : Node.optional read (.ofValue (write a)) = .ok (some a) := by
      rw [optional_of_ne (hne a), hread a rfl]
      rfl
    exact field set hslot hsome r
  | none =>
    rw [optionField, hunset]
    split
    · have hnull := field set (v := .null) (a := none) hslot rfl r
      rwa [hunset] at hnull
    · exact nil r

theorem optionNat (set : Option Nat → ρ → ρ) {nulls : String → Bool} {bound : Nat} {o : Option Nat}
    (hslot : slots.find? (·.name == name) =
      some ⟨name, fun n r => do return set (← Node.optional (natBelow bound) n) r⟩)
    (h : ∀ n ∈ o, n < bound) (hunset : set none r = r) :
    Loads slots (optionField nulls name .nat o) r (set o r) :=
  option set hslot (fun n => by simp [Value.nat, ofValue]) (fun n hn => natBelow_nat (h n hn)) hunset

theorem optionStr (set : Option String → ρ → ρ) {nulls : String → Bool} {o : Option String}
    (hslot : slots.find? (·.name == name) =
      some ⟨name, fun n r => do return set (← Node.optional str? n) r⟩)
    (hunset : set none r = r) : Loads slots (optionField nulls name .str o) r (set o r) :=
  option set hslot (fun s => by simp [ofValue]) (fun _ _ => rfl) hunset

theorem record {start : ρ} (h : Loads slots fields start r) (hnames : Named.Ascending fields)
    (openEnded : Bool) :
    Node.record slots [] openEnded start (.ofValue (.object fields)) = .ok r := by
  have hread := readEntries_ofFields slots hnames [] (fun _ _ => List.not_mem_nil) start
  rw [h] at hread
  rw [ofValue, Node.record]
  cases hentries : readEntries slots (ofFields fields) [] start with
  | error fault => rw [hentries] at hread; cases hread
  | ok result => rw [hentries] at hread; exact hread

end Loads

end Node

end FeedPoller

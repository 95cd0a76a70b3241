import FeedPoller.Json.Value
import FeedPoller.Node
import FeedPoller.Proofs.Numerals

/-! Free-form values that configurations can hold in every format, and the trees they are read as. Main
statement: such a value is what its tree is read as (`Value.Portable.value_ofValue`). -/

namespace FeedPoller

open Json (Value)

/-! ## Trees of values -/

mutual
/-- The tree of a value as a document without faults has it. -/
def Node.ofValue : Value → Node
  | .null => .null
  | .bool b => .bool b
  | .int n => .int n
  | .float x => .float x
  | .str s => .str s
  | .list items => .list (Node.ofItems items)
  | .object fields => .table (Node.ofFields fields)

def Node.ofItems : List Value → List Node
  | [] => []
  | v :: rest => .ofValue v :: Node.ofItems rest

def Node.ofFields : List (String × Value) → List (Option String × Node)
  | [] => []
  | (k, v) :: rest => (some k, .ofValue v) :: Node.ofFields rest
end

theorem Node.ofFields_append (xs ys : List (String × Value)) :
    ofFields (xs ++ ys) = ofFields xs ++ ofFields ys := by
  induction xs with
  | nil => rfl
  | cons x xs ih => exact congrArg ((some x.1, ofValue x.2) :: ·) ih

/-! ## Portable values -/

/-- Texts, truth values and integers of 64 signed bits, in lists and objects nested at most `depth`
deep; null is among them only if `nulls`. -/
inductive Json.Value.Portable (nulls : Bool) : Nat → Value → Prop
  | null {depth : Nat} (h : nulls = true) : Portable nulls depth .null
  | bool {depth : Nat} (b : Bool) : Portable nulls depth (.bool b)
  | int {depth : Nat} {n : Int} (h : Text.IsInt64 n) : Portable nulls depth (.int n)
  | str {depth : Nat} (s : String) : Portable nulls depth (.str s)
  | list {depth : Nat} {items : List Value} (h : ∀ v ∈ items, Portable nulls depth v) :
      Portable nulls (depth + 1) (.list items)
  | object {depth : Nat} {fields : Json.Fields} (hnames : fields.Ascending)
      (h : ∀ e ∈ fields, Portable nulls depth e.2) : Portable nulls (depth + 1) (.object fields)

/-- Fields with such values. -/
def Json.Fields.AllPortable (nulls : Bool) (depth : Nat) (fields : Json.Fields) : Prop :=
  ∀ e ∈ fields, Value.Portable nulls depth e.2

/-- The fields of such an object. -/
structure Json.Fields.Portable (nulls : Bool) (depth : Nat) (fields : Json.Fields) : Prop where
  names : Named.Ascending fields
  values : fields.AllPortable nulls depth

theorem Json.Fields.AllPortable.append {nulls : Bool} {depth : Nat} {xs ys : Json.Fields}
    (hxs : xs.AllPortable nulls depth) (hys : ys.AllPortable nulls depth) :
    Json.Fields.AllPortable nulls depth (xs ++ ys) :=
  List.forall_mem_append.mpr ⟨hxs, hys⟩

theorem portable_nat {n depth : Nat} (h : n < 0x8000000000000000) (nulls : Bool) :
    Value.Portable nulls depth (.nat n) :=
  .int ⟨by omega, by omega⟩

namespace Json.Value.Portable

variable {nulls : Bool} {depth : Nat} {v : Value}

theorem mono {nulls' : Bool} {depth' : Nat} (h : Portable nulls depth v)
    (hnulls : nulls = true → nulls' = true) (hdepth : depth ≤ depth') :
    Portable nulls' depth' v := by
  induction h generalizing depth' with
  | null h => exact .null (hnulls h)
  | bool b => exact .bool b
  | int h => exact .int h
  | str s => exact .str s
  | list _ ih =>
    obtain ⟨depth', rfl⟩ := Nat.exists_eq_add_of_lt hdepth
    exact .list fun v hv => ih v hv (by omega)
  | object hnames _ ih =>
    obtain ⟨depth', rfl⟩ := Nat.exists_eq_add_of_lt hdepth
    exact .object hnames fun e he => ih e he (by omega)

theorem integerFits_of_isInt64 {n : Int} (h : Text.IsInt64 n) : Node.integerFits n = true := by
  obtain ⟨hlow, hhigh⟩ := h
  simp only [Node.integerFits, Bool.and_eq_true, decide_eq_true_eq]
  omega

/-- Items that are read one by one. -/
theorem values_ofItems {items : List Value}
    (h : ∀ v ∈ items, Node.value (.ofValue v) = .ok v) :
    Node.value.values (Node.ofItems items) = .ok items := by
  induction items with
  | nil => rfl
  | cons v rest ih =>
    obtain ⟨hv, hrest⟩ := List.forall_mem_cons.mp h
    rw [Node.ofItems, Node.value.values, hv, ih hrest]
    rfl

/-- Fields that are read one by one are added after those before. -/
theorem fields_ofFields (acc : Fields) {fields : Fields}
    (hnames : Named.Ascending (acc ++ fields))
    (h : ∀ e ∈ fields, Node.value (.ofValue e.2) = .ok e.2) :
    Node.value.fields (Node.ofFields fields) acc = .ok (acc ++ fields) := by
  induction fields generalizing acc with
  | nil => simp [Node.ofFields, Node.value.fields]
  | cons e rest ih =>
    obtain ⟨k, v⟩ := e
    obtain ⟨hv, hrest⟩ := List.forall_mem_cons.mp h
    have hbefore : ∀ e ∈ acc, e.1 < k := hnames.lt_of_append_cons
    have hacc : acc.insert k v ++ rest = acc ++ (k, v) :: rest := by
      rw [Named.insert_of_forall_lt v hbefore, List.append_assoc, List.singleton_append]
    rw [Node.ofFields, Node.value.fields, hv]
    change Node.value.fields (Node.ofFields rest) (acc.insert k v) = _
    rw [ih _ (hacc ▸ hnames) hrest, hacc]

theorem value_ofValue (h : Portable nulls depth v) : Node.value (.ofValue v) = .ok v := by
  induction h with
  | null => rfl
  | bool b => rfl
  | str s => rfl
  | int h => rw [Node.ofValue, Node.value, if_pos (integerFits_of_isInt64 h)]
  | list _ ih => rw [Node.ofValue, Node.value, values_ofItems ih]; rfl
  | object hnames _ ih =>
    rw [Node.ofValue, Node.value, fields_ofFields [] hnames ih]
    rfl

end Json.Value.Portable

theorem Json.Fields.Portable.fields?_ofFields {nulls : Bool} {depth : Nat} {fields : Json.Fields}
    (h : fields.Portable nulls depth) :
    Node.fields? (.table (Node.ofFields fields)) = .ok fields :=
  Value.Portable.fields_ofFields [] h.names fun e he => (h.values e he).value_ofValue

end FeedPoller

import FeedPoller.Proofs.TomlValues

/-! TOML documents of tables with headers, read back: each table is its header and one line for each
field. Main statement: a table goes into the document at the place its header names, with the fields
of its lines (`Reads.table`). -/

namespace FeedPoller.Toml

/-! ## Lines -/

/-- The parts of a key with dots between them. -/
def dotted : List String → String → List Char
  | [], k => keyText k
  | j :: path, k => keyText j ++ '.' :: dotted path k

/-- The line of a field. -/
def lineText (e : String × Json.Value) : List Char :=
  keyText e.1 ++ ' ' :: '=' :: ' ' :: (valueText e.2 ++ ['\n'])

/-- A table: its header and its lines. -/
def tableText (path : List String) (k : String) (fields : Json.Fields) : List Char :=
  '[' :: (dotted path k ++ [']', '\n']) ++ fields.flatMap lineText

variable {path : List String} {k : String} {es es' : Entries} {current : List String}

theorem keyText_ne_bracket (k : String) (rest cs : List Char) : keyText k ++ rest ≠ '[' :: cs := by
  unfold keyText
  split
  · rename_i h
    obtain ⟨c, ds, hds⟩ := List.exists_cons_of_ne_nil h.1
    have hc : isBareKey c = true := List.all_eq_true.mp h.2 c (hds ▸ List.mem_cons_self)
    rw [hds]
    intro heq
    obtain rfl := (List.cons.inj heq).1
    exact absurd hc (by decide)
  · rw [Quoted.quote_append]
    intro heq
    exact absurd (List.cons.inj heq).1 (by decide)

theorem dotted_ne_bracket (path : List String) (k : String) (rest cs : List Char) :
    dotted path k ++ rest ≠ '[' :: cs := by
  cases path with
  | nil => exact keyText_ne_bracket k rest cs
  | cons j path =>
    rw [dotted, List.append_assoc]
    exact keyText_ne_bracket j _ cs

theorem key_dotted {fuel : Nat} (h : path.length < fuel) (rest : List Char) :
    key fuel (dotted path k ++ ']' :: rest) = some (path, k, ']' :: rest) := by
  induction path generalizing fuel with
  | nil =>
    obtain _ | fuel := fuel
    · omega
    have hpart : keyPart (keyText k ++ ']' :: rest) = some (k, ']' :: rest) :=
      keyPart_keyText k (by simp; decide)
    rw [dotted, key, ((begins_keyText k).append _).dropWhile, hpart]
    rfl
  | cons j path ih =>
    obtain _ | fuel := fuel
    · omega
    have hpart : keyPart (keyText j ++ '.' :: (dotted path k ++ ']' :: rest)) =
        some (j, '.' :: (dotted path k ++ ']' :: rest)) :=
      keyPart_keyText j (by simp; decide)
    have hdot : ('.' :: (dotted path k ++ ']' :: rest)).dropWhile isSpace =
        '.' :: (dotted path k ++ ']' :: rest) := rfl
    rw [dotted, List.append_assoc, List.cons_append, key,
      ((begins_keyText j).append _).dropWhile, hpart]
    simp only [Option.bind_eq_bind, Option.bind_some, hdot, ih (Nat.lt_of_succ_lt_succ h)]
    rfl

theorem length_lt_dotted (path : List String) (k : String) : path.length < (dotted path k).length := by
  induction path with
  | nil =>
    obtain ⟨c, cs, hcs, -⟩ := begins_keyText k
    rw [dotted, hcs]
    simp
  | cons j path ih =>
    rw [dotted, List.length_append, List.length_cons, List.length_cons]
    omega

theorem headerKey_dotted (path : List String) (k : String) (rest : List Char) :
    headerKey (dotted path k ++ ']' :: rest) = some (path, k, rest) := by
  have hlength := length_lt_dotted path k
  rw [headerKey, key_dotted (by rw [List.length_append]; omega)]
  rfl

theorem statement_header (h : es.openTable path k = some es') (rest : List Char) :
    statement ⟨es, current⟩ ('[' :: (dotted path k ++ [']', '\n']) ++ rest) =
      some (⟨es', path ++ [k]⟩, rest) := by
  rw [List.cons_append, List.append_assoc]
  have hheader : headerKey (dotted path k ++ ([']', '\n'] ++ rest)) = some (path, k, '\n' :: rest) :=
    headerKey_dotted path k ('\n' :: rest)
  rw [statement.eq_2 _ _ fun cs heq => dotted_ne_bracket path k _ cs heq, hheader]
  simp only [Option.bind_eq_bind, Option.bind_some, h]
  rfl

theorem statement_line {e : String × Json.Value} (hv : e.2.Portable false maxDepth)
    (h : es.within false (fun origin es => es.assign [] e.1 (.ofValue e.2) origin) current .header =
      some es') (rest : List Char) :
    statement ⟨es, current⟩ (lineText e ++ rest) = some (⟨es', current⟩, rest) := by
  have hread := readAt_of_portable hv
  have htext : lineText e ++ rest =
      keyText e.1 ++ ' ' :: '=' :: ' ' :: (valueText e.2 ++ '\n' :: rest) := by
    simp [lineText]
  have hdrop : (' ' :: (valueText e.2 ++ '\n' :: rest)).dropWhile isSpace =
      valueText e.2 ++ '\n' :: rest := (hread.1.append _).dropWhile
  have hvalue := hread.2 ((' ' :: (valueText e.2 ++ '\n' :: rest)).length + 1) ('\n' :: rest)
    (by simp only [List.length_append, List.length_cons]; omega) (by simp [EndsValue]; decide)
  rw [htext, statement.eq_3, key_keyText]
  · simp only [Option.bind_eq_bind, Option.bind_some, hdrop, hvalue, h]
    rfl
  · exact fun cs => keyText_ne_bracket _ _ _
  · exact fun cs => keyText_ne_bracket _ _ _

/-! ## Tables in their places -/

/-- A table stands at the place a path names: `whole` is the document around it. -/
def StandsAt (path : List String) (whole : Entries → Entries) : Prop :=
  ∀ change es, Entries.within false change path .header (whole es) =
    (change .header es).map whole

namespace StandsAt

variable {whole : Entries → Entries}

theorem root : StandsAt [] id := fun change es => by
  rw [Entries.within, Option.map_id]
  rfl

theorem within_append (change : Origin → Entries → Option Entries) (path : List String) (k : String)
    (origin : Origin) (es : Entries) :
    Entries.within false change (path ++ [k]) origin es =
      Entries.within false (fun origin es => Entries.within false change [k] origin es) path origin
        es := by
  induction path generalizing origin es with
  | nil => rfl
  | cons j path ih => simp only [List.cons_append, Entries.within, ih]

/-- A table with a header of its own in a table. -/
theorem inside (h : StandsAt path whole) (k : String) (es : Entries) :
    StandsAt (path ++ [k]) fun sub => whole (es.insert k (.table .header sub)) := by
  intro change sub
  have hget : Named.get? k (es.insert k (.table .header sub)) = some (.table .header sub) :=
    Named.get?_insert_self ..
  rw [within_append, h]
  simp only [Entries.within, hget, Named.insert_insert]
  cases change .header sub <;> rfl

theorem openTable (h : StandsAt path whole) (hnew : Named.get? k es = none) :
    (whole es).openTable path k = some (whole (es.insert k (.table .header []))) := by
  rw [Entries.openTable, h, hnew]
  rfl

end StandsAt

/-- The entry of a table with a header and these fields. -/
def headed (fields : Json.Fields) : Entry := .table .header (leaves fields)

/-! ## Texts that are read statement by statement -/

/-- A text that takes a draft to another, whatever follows. -/
structure Reads (text : List Char) (d d' : Draft) : Prop where
  steps : ∃ n ≤ text.length, ∀ fuel rest,
    statements (fuel + n) d (text ++ rest) = statements fuel d' rest

namespace Reads

variable {text text' : List Char} {d d' d'' : Draft}

theorem nil (d : Draft) : Reads [] d d := ⟨0, Nat.le_refl _, fun _ _ => rfl⟩

theorem append (h : Reads text d d') (h' : Reads text' d' d'') : Reads (text ++ text') d d'' := by
  obtain ⟨n, hn, hread⟩ := h.steps
  obtain ⟨m, hm, hread'⟩ := h'.steps
  refine ⟨m + n, by rw [List.length_append]; omega, fun fuel rest => ?_⟩
  rw [← Nat.add_assoc, List.append_assoc, hread, hread']

theorem one (hbegins : Begins text) (h : ∀ rest, statement d (text ++ rest) = some (d', rest)) :
    Reads text d d' := by
  have hpos : 1 ≤ text.length := by
    obtain ⟨c, cs, hcs, -⟩ := hbegins
    rw [hcs]
    simp
  refine ⟨1, hpos, fun fuel rest => ?_⟩
  -- a document ends only where nothing is left: the branches of `statements` split on this
  have hne : text ++ rest ≠ [] := by
    intro hnil
    rw [(List.append_eq_nil_iff.mp hnil).1] at hpos
    exact absurd hpos (by decide)
  rw [statements, (hbegins.append rest).passLines]
  simp only [Option.bind_eq_bind, Option.bind_some, h]

theorem parse (h : Reads text {} d) (hmark : text.head? ≠ some '\ufeff') :
    Toml.parse (String.ofList text) = some (.table (entryNodes d.entries)) := by
  obtain ⟨n, hn, hread⟩ := h.steps
  have hread := hread (text.length - n + 1) []
  rw [List.append_nil, Nat.add_right_comm, Nat.sub_add_cancel hn] at hread
  have hend : statements (text.length - n + 1) d [] = some d := rfl
  rw [Toml.parse, String.toList_ofList]
  split
  · exact absurd rfl hmark
  · simp only [Option.bind_eq_bind, hread, hend]
    rfl

theorem lines {whole : Entries → Entries} {fields : Json.Fields} {sub : Entries}
    (h : StandsAt path whole) (hnames : Named.Ascending (sub ++ leaves fields))
    (hv : ∀ e ∈ fields, Json.Value.Portable false maxDepth e.2) :
    Reads (fields.flatMap lineText) ⟨whole sub, path⟩ ⟨whole (sub ++ leaves fields), path⟩ := by
  induction fields generalizing sub with
  | nil =>
    rw [leaves, List.map_nil, List.append_nil]
    exact nil _
  | cons e fields ih =>
    obtain ⟨hfirst, hrest⟩ := List.forall_mem_cons.mp hv
    have hbefore : ∀ b ∈ sub, b.1 < e.1 := hnames.lt_of_append_cons
    have hsplit : sub ++ leaves (e :: fields) =
        (sub ++ [(e.1, .leaf (.ofValue e.2))]) ++ leaves fields := by
      rw [List.append_assoc]
      rfl
    have hassign := h (fun origin es => es.assign [] e.1 (.ofValue e.2) origin) sub
    rw [assign_of_forall_lt hbefore] at hassign
    rw [hsplit] at hnames ⊢
    rw [List.flatMap_cons]
    exact (one ((begins_keyText _).append _) (statement_line hfirst hassign)).append
      (ih hnames hrest)

theorem table {whole : Entries → Entries} {fields : Json.Fields} (h : StandsAt path whole)
    (hnew : Named.get? k es = none) (hfields : fields.Portable false maxDepth) :
    Reads (tableText path k fields) ⟨whole es, current⟩
      ⟨whole (es.insert k (headed fields)), path ++ [k]⟩ := by
  have hheader : Reads ('[' :: (dotted path k ++ [']', '\n'])) ⟨whole es, current⟩
      ⟨whole (es.insert k (.table .header [])), path ++ [k]⟩ :=
    one ⟨_, _, rfl, by decide, by decide⟩ (statement_header (h.openTable hnew))
  exact hheader.append (lines (h.inside k es) (ascending_leaves.mpr hfields.names) hfields.values)

/-- A table of the document itself. -/
theorem rootTable {fields : Json.Fields} (hnew : Named.get? k es = none)
    (hfields : fields.Portable false maxDepth) :
    Reads (tableText [] k fields) ⟨es, current⟩ ⟨es.insert k (headed fields), [k]⟩ :=
  table .root hnew hfields

end Reads

example : tableText ["poll"] "query" [("since id", .list [.int (-1), .object [("k", .str "\x7f")]])] =
    "[poll.query]\n\"since id\" = [-1, \x7bk = \"\\u007f\"\x7d]\n".toList := by
  decide +kernel

end FeedPoller.Toml

import FeedPoller.Node

/-! The tables of a TOML document while it is read. Which table a key may still reach depends on how
the table came about: by a header, as a step on the way to one, or by a dotted key. -/

namespace FeedPoller.Toml

/-- How a table came about: by its own header, as a step of a longer header, or by a dotted
key. -/
inductive Origin where
  | header
  | implied
  | dotted
  deriving DecidableEq, Repr

/-- What a key stands for: a finished value, a table, or an array of tables, the newest apart and
the others from the newest on. -/
inductive Entry where
  | leaf (n : Node)
  | table (origin : Origin) (entries : List (String × Entry))
  | tables (newest : List (String × Entry)) (older : List (List (String × Entry)))

abbrev Entries := Named Entry

/-- Changes the table that a path leads to; missing tables on the way are made. In an array of
tables the newest is meant. A dotted key (`dotted`) passes neither through a table with a header
of its own nor through an array of tables. -/
def Entries.within (dotted : Bool) (change : Origin → Entries → Option Entries) :
    List String → Origin → Entries → Option Entries
  | [], origin, es => change origin es
  | k :: path, _, es => do
    let entry ←
      match Named.get? k es with
      | none =>
        let origin := if dotted then Origin.dotted else .implied
        Entry.table origin <$> within dotted change path origin []
      | some (.table origin sub) =>
        if dotted && origin == .header then none
        else Entry.table origin <$> within dotted change path origin sub
      | some (.tables newest older) =>
        if dotted then none else (Entry.tables · older) <$> within dotted change path .header newest
      | some (.leaf _) => none
    return Named.insert k entry es

/-- Gives a key of the table its value; `path` are the parts of the key before the last. -/
def Entries.assign (path : List String) (key : String) (n : Node) (origin : Origin)
    (es : Entries) : Option Entries :=
  within true (fun origin es =>
    if (origin == .dotted) == path.isEmpty || (Named.get? key es).isSome then none
    else some (Named.insert key (.leaf n) es)) path origin es

/-- Opens the table of a header. -/
def Entries.openTable (path : List String) (key : String) (es : Entries) : Option Entries :=
  within false (fun _ es =>
    match Named.get? key es with
    | none => some (Named.insert key (.table .header []) es)
    | some (.table .implied sub) => some (Named.insert key (.table .header sub) es)
    | _ => none) path .header es

/-- Opens one more table of an array. -/
def Entries.appendTable (path : List String) (key : String) (es : Entries) : Option Entries :=
  within false (fun _ es =>
    match Named.get? key es with
    | none => some (Named.insert key (.tables [] []) es)
    | some (.tables newest older) => some (Named.insert key (.tables [] (newest :: older)) es)
    | _ => none) path .header es

mutual
def Entry.node : Entry → Node
  | .leaf n => n
  | .table _ es => .table (entryNodes es)
  | .tables newest older => .list (tableNodes older [.table (entryNodes newest)])

/-- The entries of a table as the tree has them. -/
def entryNodes : List (String × Entry) → List (Option String × Node)
  | [] => []
  | (k, e) :: rest => (some k, e.node) :: entryNodes rest

/-- Tables from the newest on, put in order before the nodes in `after`. -/
def tableNodes : List (List (String × Entry)) → List Node → List Node
  | [], after => after
  | es :: older, after => tableNodes older (.table (entryNodes es) :: after)
end

end FeedPoller.Toml

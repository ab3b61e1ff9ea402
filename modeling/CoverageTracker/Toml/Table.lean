import CoverageTracker.Data.Value
set_option autoImplicit false

/-!
# Tables under construction

A TOML document writes a table in pieces, and how a table came about decides which
pieces may still be added.  A table that a header named is complete after its section,
save for further headers below it; a table that only stood on the way to a header may
still be named once, or else be taken over by dotted keys; a table of dotted keys grows by
dotted keys alone, save for headers below it; a value in braces or brackets is closed.
-/

namespace CoverageTracker.Toml

open CoverageTracker.Data

/-- How a table came about. -/
inductive Origin where
  /-- named by a header, or the document itself -/
  | header
  /-- on the way to a header -/
  | implied
  /-- on the way to a dotted key, whether or not it was there before -/
  | dotted
  deriving DecidableEq, Repr

/-- What stands under a key. -/
inductive Node where
  /-- a scalar, or an array or table written in one piece -/
  | closed (v : Value)
  /-- a table written in pieces -/
  | table (origin : Origin) (entries : List (String × Node))
  /-- the tables of one repeated header, the latest first -/
  | tables (latestFirst : List (List (String × Node)))

/-- The content of a table. -/
abbrev Entries := List (String × Node)

/-! ## Following a path -/

/-- Applies an edit to the table at the end of a path and tells it how that table came about.
Tables that are missing on the way are made with origin `made`; of repeated tables the
latest is meant.  A path of a dotted key may not lead through a table that a header
named, and takes over the tables that only stood on the way to one. -/
def Entries.edit (made : Origin) (act : Origin → Entries → Option Entries) :
    List String → Origin → Entries → Option Entries
  | [], origin, entries => act origin entries
  | key :: path, _, entries =>
    match lookup entries key with
    | none => (Entries.edit made act path made []).map fun es =>
        insert entries key (.table made es)
    | some (.table origin es) =>
      if made = .dotted ∧ origin = .header then none
      else
        let origin := if made = .dotted then .dotted else origin
        (Entries.edit made act path origin es).map fun es =>
          insert entries key (.table origin es)
    | some (.tables (es :: older)) => (Entries.edit made act path .header es).map fun es =>
        insert entries key (.tables (es :: older))
    | some (.tables []) => none
    | some (.closed _) => none

/-- Gives a dotted key its value.  The key may not be there yet, and its table must have been
made by dotted keys, unless the key has no dots. -/
def Entries.assign (path : List String) (key : String) (v : Value) :
    Origin → Entries → Option Entries :=
  Entries.edit .dotted (fun origin entries =>
    if (path.isEmpty || origin == .dotted) && (lookup entries key).isNone then
      some (insert entries key (.closed v))
    else none) path

/-- Opens the table of a header. -/
def Entries.openTable (path : List String) (key : String) (entries : Entries) : Option Entries :=
  Entries.edit .implied (fun _ es =>
    match lookup es key with
    | none => some (insert es key (.table .header []))
    | some (.table .implied content) => some (insert es key (.table .header content))
    | some _ => none) path .header entries

/-- Opens one more table of a repeated header. -/
def Entries.openRepeated (path : List String) (key : String) (entries : Entries) :
    Option Entries :=
  Entries.edit .implied (fun _ es =>
    match lookup es key with
    | none => some (insert es key (.tables [[]]))
    | some (.tables latestFirst) => some (insert es key (.tables ([] :: latestFirst)))
    | some _ => none) path .header entries

/-- Applies an edit to the table of the section that a header began. -/
def Entries.inSection (path : List String) (act : Origin → Entries → Option Entries)
    (entries : Entries) : Option Entries :=
  Entries.edit .implied act path .header entries

/-! ## Finished tables -/

mutual

/-- The value of a node. -/
def Node.value : Node → Value
  | .closed v => v
  | .table _ entries => .table (Node.values entries)
  | .tables latestFirst => .array (Node.elements latestFirst).reverse

/-- The entries of a table, with the values of their nodes. -/
def Node.values : Entries → List (String × Value)
  | [] => []
  | (key, node) :: entries => (key, node.value) :: Node.values entries

/-- The tables of a repeated header, in the order in which they were given. -/
def Node.elements : List Entries → List Value
  | [] => []
  | entries :: rest => .table (Node.values entries) :: Node.elements rest

end

end CoverageTracker.Toml

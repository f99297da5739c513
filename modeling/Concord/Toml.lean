/-
# TOML documents

A document is a sequence of statements: headers that open a table or a further
element of an array of tables, and pairs of a key and a value, which belong to
the table opened last. Keys may be dotted, and then lead through tables.

A key is given one value only, a table is opened by one header only, and what a
dotted key leads through is not opened by a header as well. Tables that a header
merely passes through may still be opened.

Key definitions: `Toml.Statement`, `Toml.Tables.pair`, `Toml.Document.run`.
-/
import Concord.Json

namespace Concord
namespace Toml

/-- How a table came into a document. -/
inductive Origin where
  /-- Its own header opened it. -/
  | header
  /-- The header of a table inside it passed through it. -/
  | passed
  /-- A dotted key leads through it. -/
  | dotted
  deriving DecidableEq, Repr

/-- What a key of a table stands for. -/
inductive Item where
  /-- A value, which nothing can be added to. -/
  | value (value : Json)
  /-- A table. -/
  | table (origin : Origin) (entries : List (String × Item))
  /-- An array of tables: the earlier ones, and the last, which is still open. -/
  | tables (earlier : List Json) (last : List (String × Item))

/-- The entries of a table, in the order in which they came. -/
abbrev Entries := List (String × Item)

mutual

/-- The value of an item. -/
def Item.toJson : Item → Json
  | .value value => value
  | .table _ entries => .object (membersOf entries)
  | .tables earlier last => .array (earlier ++ [.object (membersOf last)])

/-- The members of a table's value. -/
def membersOf : List (String × Item) → List (String × Json)
  | [] => []
  | (key, item) :: rest => (key, item.toJson) :: membersOf rest

end

namespace Entries

/-- The entries with an item for a key, in its place if the key is there. -/
def set (entries : Entries) (key : String) (item : Item) : Entries :=
  match entries with
  | [] => [(key, item)]
  | (k, old) :: rest => if k = key then (k, item) :: rest else (k, old) :: Entries.set rest key item

/-- The entries after a change to the table that a path of headers leads to. Tables on the way that
are not there yet are made; in an array of tables the way leads through the last. -/
def within (change : Entries → Option Entries) : List String → Entries → Option Entries
  | [], entries => change entries
  | key :: path, entries =>
    match entries.lookup key with
    | none => (within change path []).map fun inner => entries.set key (.table .passed inner)
    | some (.table origin inner) =>
      (within change path inner).map fun inner => entries.set key (.table origin inner)
    | some (.tables earlier last) =>
      (within change path last).map fun last => entries.set key (.tables earlier last)
    | some (.value _) => none

/-- The entries with a value for a key that may be dotted; none if the key has a value, or leads
through what only a header may open. -/
def pair (value : Json) : List String → Entries → Option Entries
  | [], _ => none
  | [key], entries =>
    match entries.lookup key with
    | none => some (entries.set key (.value value))
    | some _ => none
  | key :: next :: path, entries =>
    match entries.lookup key with
    | none =>
      (pair value (next :: path) []).map fun inner => entries.set key (.table .dotted inner)
    | some (.table .dotted inner) =>
      (pair value (next :: path) inner).map fun inner => entries.set key (.table .dotted inner)
    | some (.table .passed inner) =>
      if path.isEmpty then none
      else
        (pair value (next :: path) inner).map fun inner => entries.set key (.table .passed inner)
    | some (.tables earlier last) =>
      if path.isEmpty then none
      else
        (pair value (next :: path) last).map fun last => entries.set key (.tables earlier last)
    | some _ => none

/-- The entries with a table opened by its header. -/
def openTable (key : String) (entries : Entries) : Option Entries :=
  match entries.lookup key with
  | none => some (entries.set key (.table .header []))
  | some (.table .passed inner) => some (entries.set key (.table .header inner))
  | some _ => none

/-- The entries with a further element of an array of tables. -/
def openElement (key : String) (entries : Entries) : Option Entries :=
  match entries.lookup key with
  | none => some (entries.set key (.tables [] []))
  | some (.tables earlier last) =>
    some (entries.set key (.tables (earlier ++ [.object (membersOf last)]) []))
  | some _ => none

end Entries

/-- A statement of a document. Keys have at least one part; the last one stands apart. -/
inductive Statement where
  | blank
  | table (path : List String) (key : String)
  | element (path : List String) (key : String)
  | pair (key : List String) (value : Json)

/-- A document in the making: all its entries, and the path to the table opened last. -/
structure Document where
  entries : Entries
  current : List String

namespace Document

/-- The document after a statement. -/
def step (d : Document) : Statement → Option Document
  | .blank => some d
  | .table path key =>
    (d.entries.within (Entries.openTable key) path).map fun entries => ⟨entries, path ++ [key]⟩
  | .element path key =>
    (d.entries.within (Entries.openElement key) path).map fun entries => ⟨entries, path ++ [key]⟩
  | .pair key value =>
    (d.entries.within (Entries.pair value key) d.current).map fun entries => { d with entries }

/-- The members that a sequence of statements makes. -/
def run (statements : List Statement) : Option (List (String × Json)) :=
  (statements.foldlM step ⟨[], []⟩).map fun d => membersOf d.entries

end Document
end Toml
end Concord

/-
# Configurations

The configuration of a locale maps kind keys to token tables. A token table maps
the name of a token or alias to a description, or to `@` and the token it
stands for; the word `default` is mapped to the token that is meant if nothing
else is said. A configuration that was read may hold other data under a kind
key. It is kept, and refused when a lexicon is built from it.

Key definitions: `Config`, `Config.insertToken`, `Config.merge`.
-/
import Concord.Json

namespace Concord

/-- What a configuration holds under a kind key. -/
inductive Config.Entry where
  /-- Names with their values as written; a value may be missing. -/
  | tokens (table : Table (Option String))
  /-- Data that is no token table. -/
  | invalid (data : Json)

/-- A configuration: an entry for every kind key. -/
structure Config where
  kinds : Table Config.Entry

namespace Config

/-- The configuration without kinds. -/
def empty : Config := ⟨∅⟩

instance : Inhabited Config := ⟨empty⟩

/-- Whether a configuration has no kinds. -/
def isEmpty (c : Config) : Bool := c.kinds.isEmpty

namespace Entry

/-- The token table of an entry; none if there is no entry or it is no token table. -/
def table? : Option Entry → Option (Table (Option String))
  | some (.tokens table) => some table
  | _ => none

/-- An entry in the place of an older one: of two token tables the entries are joined. -/
def replacing (old : Option Entry) (new : Entry) : Entry :=
  match table? old, new with
  | some table, .tokens more => .tokens (table.union more)
  | _, new => new

end Entry

/-- The token table of a kind key. -/
def table? (c : Config) (kind : String) : Option (Table (Option String)) :=
  Entry.table? (c.kinds.get? kind)

/-- Set the value of a name of a kind. Data that is no token table gives way. -/
def insertToken (c : Config) (kind token : String) (value : Option String) : Config :=
  ⟨c.kinds.insert kind (.tokens (((c.table? kind).getD ∅).insert token value))⟩

/-- The entries of both configurations, those of the second over those of the first. -/
def merge (c d : Config) : Config :=
  ⟨c.kinds.union (d.kinds.mapWithKey fun kind new => Entry.replacing (c.kinds.get? kind) new)⟩

/-- Whether a name has a value in the token table of a kind. -/
def hasToken (c : Config) (kind token : String) : Bool :=
  ((c.table? kind).map (·.contains token)).getD false

/-- The configuration without a name of a kind. -/
def removeToken (c : Config) (kind token : String) : Config :=
  match c.table? kind with
  | some table => ⟨c.kinds.insert kind (.tokens (table.erase token))⟩
  | none => c

/-- Whether a kind key has an entry. -/
def hasKind (c : Config) (kind : String) : Bool := c.kinds.contains kind

/-- The configuration without a kind. -/
def removeKind (c : Config) (kind : String) : Config := ⟨c.kinds.erase kind⟩

theorem get?_merge (c d : Config) (kind : String) :
    (c.merge d).kinds.get? kind =
      ((d.kinds.get? kind).map (Entry.replacing (c.kinds.get? kind))).or (c.kinds.get? kind) := by
  rw [merge, Table.get?_union, Table.get?_mapWithKey]

end Config
end Concord

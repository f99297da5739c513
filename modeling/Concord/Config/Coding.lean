/-
# Configurations as JSON

A configuration is written as an object of objects. Read back, an object of only
strings and nulls is a token table, and every other value is kept as data. Where
a key is repeated its last value counts, but an object with one value that is
neither string nor null is no token table, even if that value is not the last
of its key.

Key definitions: `Config.ofMembers`, `Config.encode`.
-/
import Concord.Config

namespace Concord
namespace Config

/-- A value of a token table. -/
def tokenValue? : Json → Option (Option String)
  | .string text => some (some text)
  | .null => some none
  | _ => none

/-- The members of an object as the values of a token table. -/
def tokenValues? : List (String × Json) → Option (List (String × Option String))
  | [] => some []
  | (name, value) :: rest =>
    match tokenValue? value, tokenValues? rest with
    | some value, some values => some ((name, value) :: values)
    | _, _ => none

/-- The entry that a JSON value stands for. -/
def Entry.decode (value : Json) : Entry :=
  match value with
  | .object members =>
    match tokenValues? members with
    | some values => .tokens (Table.ofList values)
    | none => .invalid value.canonical
  | _ => .invalid value.canonical

/-- The JSON value of an entry. -/
def Entry.encode : Entry → Json
  | .tokens table => .object (table.entries.map fun e => (e.1, Json.ofOption e.2))
  | .invalid data => data

/-- The configuration that the members of an object stand for. -/
def ofMembers (members : List (String × Json)) : Config :=
  ⟨Table.ofList (members.map fun m => (m.1, Entry.decode m.2))⟩

/-- The configuration that a JSON value stands for; only objects are configurations. -/
def decode? : Json → Option Config
  | .object members => some (ofMembers members)
  | _ => none

/-- The JSON value of a configuration. -/
def encode (c : Config) : Json := .object (c.kinds.entries.map fun e => (e.1, e.2.encode))

end Config
end Concord

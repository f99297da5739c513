/-
# Entries of a translation

An entry is what a host stores for a translation: a text, a symbol, or a list or
map of entries. Data of any other kind passes through as it is.

Key definitions: `Entry`, `Entry.decode`, `Entry.encode`.
-/
import Concord.Json

namespace Concord

/-- An entry of a translation. The keys of a map increase. -/
inductive Entry where
  | text (content : String)
  /-- An identifier, which only a host can tell from a text. -/
  | symbol (name : String)
  | list (items : List Entry)
  | map (fields : List (String × Entry))
  /-- Other data. -/
  | other (data : Json)

namespace Entry

instance : Inhabited Entry := ⟨list []⟩

/-- The text of an entry that is one. -/
def text? : Entry → Option String
  | .text content => some content
  | _ => none

mutual

/-- The entry that a JSON value stands for. -/
def decode : Json → Entry
  | .string content => .text content
  | .array items => .list (decodeItems items)
  | .object members => .map (Table.ofList (decodeMembers members)).entries
  | value => .other value

/-- The entries that the items of an array stand for. -/
def decodeItems : List Json → List Entry
  | [] => []
  | item :: rest => decode item :: decodeItems rest

/-- The entries that the members of an object stand for. -/
def decodeMembers : List (String × Json) → List (String × Entry)
  | [] => []
  | (key, value) :: rest => (key, decode value) :: decodeMembers rest

end

mutual

/-- The JSON value of an entry. -/
def encode : Entry → Json
  | .text content | .symbol content => .string content
  | .list items => .array (encodeItems items)
  | .map fields => .object (encodeFields fields)
  | .other data => data

/-- The JSON values of the items of a list. -/
def encodeItems : List Entry → List Json
  | [] => []
  | item :: rest => encode item :: encodeItems rest

/-- The JSON values of the fields of a map. -/
def encodeFields : List (String × Entry) → List (String × Json)
  | [] => []
  | (key, entry) :: rest => (key, encode entry) :: encodeFields rest

end

end Entry
end Concord

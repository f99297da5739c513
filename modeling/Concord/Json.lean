/-
# JSON values

Values of the JSON data format. An object keeps its members as they were
written, repeated keys included; its canonical form lists them by key, the last
of a repeated key standing for all, and has no number that is not finite.

Key definitions: `Json`, `Json.canonical`.
-/
import Concord.Table

namespace Concord

/-- A JSON number: an integer, or an IEEE double given by its bits. -/
inductive Json.Number where
  | integer (value : Int)
  | double (bits : UInt64)
  deriving DecidableEq, Repr

/-- Whether a number is finite: not all bits of a double's exponent are set. -/
def Json.Number.isFinite : Json.Number → Bool
  | .integer _ => true
  | .double bits => bits.toNat / 4503599627370496 % 2048 != 2047

/-- A JSON value. -/
inductive Json where
  | null
  | bool (value : Bool)
  | number (value : Json.Number)
  | string (value : String)
  | array (items : List Json)
  | object (members : List (String × Json))
  deriving Repr, Inhabited

namespace Json

mutual

/-- The value with the members of every object in key order, the last of a repeated key kept, and
null for numbers that are not finite, which the format cannot write. -/
def canonical : Json → Json
  | .number n => if n.isFinite then .number n else .null
  | .array items => .array (canonicalItems items)
  | .object members => .object (Table.ofList (canonicalMembers members)).entries
  | value => value

/-- The canonical forms of the items of an array. -/
def canonicalItems : List Json → List Json
  | [] => []
  | item :: rest => canonical item :: canonicalItems rest

/-- The members of an object with their values in canonical form. -/
def canonicalMembers : List (String × Json) → List (String × Json)
  | [] => []
  | (key, value) :: rest => (key, canonical value) :: canonicalMembers rest

end

/-- A natural number as a value. -/
def ofNat (n : Nat) : Json := .number (.integer n)

/-- A text, or null. -/
def ofOption : Option String → Json
  | some text => .string text
  | none => .null

end Json
end Concord

/-
# Writing JSON

A value is written over several lines, with two spaces for each level. In
strings the quote, the backslash and the controls are escaped, the common ones
by a letter; all other characters stand for themselves.

Key definitions: `Json.stringText`, `Json.pretty`.
-/
import Concord.Json
import Concord.Json.Shortest

namespace Concord
namespace Json

/-- A character as it stands in a string. -/
def escapedChar (c : Char) : List Char :=
  if c = '"' then ['\\', '"']
  else if c = '\\' then ['\\', '\\']
  else if c = '\x08' then ['\\', 'b']
  else if c = '\x0c' then ['\\', 'f']
  else if c = '\n' then ['\\', 'n']
  else if c = '\r' then ['\\', 'r']
  else if c = '\t' then ['\\', 't']
  else if c.toNat < 0x10 then ['\\', 'u', '0', '0', '0'] ++ Nat.toDigits 16 c.toNat
  else if c.toNat < 0x20 then ['\\', 'u', '0', '0'] ++ Nat.toDigits 16 c.toNat
  else [c]

/-- A string in quotes. -/
def stringText (text : String) : String :=
  String.ofList ('"' :: text.toList.flatMap escapedChar ++ ['"'])

/-- A number as text. -/
def numberText : Number → String
  | .integer n => toString n
  | .double bits => doubleText bits

/-- The text of a value without items or members. -/
def leafText : Json → String
  | .null => "null"
  | .bool true => "true"
  | .bool false => "false"
  | .number n => numberText n
  | .string text => stringText text
  | .array _ => "[]"
  | .object _ => "\x7b\x7d"

/-- A new line at a level. -/
def newLine (level : Nat) : String := String.ofList ('\n' :: List.replicate (2 * level) ' ')

/-- Parts on lines of their own between brackets. -/
def spread (level : Nat) (start stop : String) (parts : List String) : String :=
  start ++ newLine (level + 1) ++ ("," ++ newLine (level + 1)).intercalate parts ++
    newLine level ++ stop

mutual

/-- A value over several lines, at a level. -/
def prettyAt (level : Nat) : Json → String
  | .array (item :: rest) => spread level "[" "]" (prettyItems (level + 1) (item :: rest))
  | .object (member :: rest) =>
    spread level "\x7b" "\x7d" (prettyMembers (level + 1) (member :: rest))
  | value => leafText value

/-- The items of an array, at a level. -/
def prettyItems (level : Nat) : List Json → List String
  | [] => []
  | item :: rest => prettyAt level item :: prettyItems level rest

/-- The members of an object, at a level. -/
def prettyMembers (level : Nat) : List (String × Json) → List String
  | [] => []
  | (key, value) :: rest =>
    (stringText key ++ ": " ++ prettyAt level value) :: prettyMembers level rest

end

/-- A value over several lines. -/
def pretty (value : Json) : String := prettyAt 0 value

end Json
end Concord

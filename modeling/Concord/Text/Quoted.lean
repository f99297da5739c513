/-
# Quoted text in messages

A message shows a caller's text in double quotes. Quotes and backslashes get a
backslash before them, the tab, the two line breaks and the null character have
short names, and any other character that would not show by itself is given by
its number.

Key definition: `Text.quoted`.
-/
import Concord.Text.Class

namespace Concord
namespace Text

/-- A character by its number, in hexadecimal digits. -/
def numbered (c : Char) : List Char :=
  ['\\', 'u', '{'] ++ Nat.toDigits 16 c.toNat ++ ['}']

/-- A character as it stands between quotes. -/
def quotedChar (c : Char) : List Char :=
  if c = '\x00' then ['\\', '0']
  else if c = '\t' then ['\\', 't']
  else if c = '\r' then ['\\', 'r']
  else if c = '\n' then ['\\', 'n']
  else if c = '"' ∨ c = '\\' then ['\\', c]
  else if (isExtending c && !isSoundMark c) || isUnprinted c then numbered c
  else [c]

/-- A text in quotes. -/
def quoted (text : String) : String :=
  String.ofList ('"' :: text.toList.flatMap quotedChar ++ ['"'])

end Text
end Concord

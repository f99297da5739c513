/-
# Reading from the start of a text

What a reader finds at the start of a text comes with the rest, which is shorter:
so a reader that goes on with the rest comes to an end.

Key definitions: `Text.Read`, `Text.digit`, `Text.hexDigit?`.
-/

namespace Concord
namespace Text

/-- Something read at the start of a text, and the rest. -/
structure Read (text : List Char) (α : Type) where
  value : α
  rest : List Char
  shorter : rest.length < text.length

/-- What is read behind a first character. -/
def Read.behind {text : List Char} {α : Type} (c : Char) (r : Read text α) :
    Read (c :: text) α :=
  ⟨r.value, r.rest, Nat.lt_succ_of_lt r.shorter⟩

theorem length_dropWhile_le (p : Char → Bool) (text : List Char) :
    (text.dropWhile p).length ≤ text.length :=
  List.Sublist.length_le (List.dropWhile_sublist p)

theorem shorter_of_dropWhile {p : Char → Bool} {text rest : List Char} {c : Char}
    (h : text.dropWhile p = c :: rest) : rest.length < text.length := by
  have := length_dropWhile_le p text
  rw [h, List.length_cons] at this
  omega

theorem length_dropWhile_of_le {p : Char → Bool} {text rest : List Char} (c : Char)
    (h : rest.length ≤ text.length) : (rest.dropWhile p).length ≤ (c :: text).length :=
  Nat.le_succ_of_le (Nat.le_trans (length_dropWhile_le p rest) h)

/-- What stands behind a character is shorter than what starts with it. -/
theorem shorter_behind (c : Char) (rest : List Char) : rest.length < (c :: rest).length :=
  Nat.lt_succ_self _

/-- What is shorter than a text is shorter than the text behind a character. -/
theorem shorter_cons (c : Char) {rest text : List Char} (h : rest.length < text.length) :
    rest.length < (c :: text).length :=
  Nat.lt_succ_of_lt h

theorem shorter_cons_trans (c : Char) {rest middle text : List Char}
    (h : middle.length < text.length) (h' : rest.length < middle.length) :
    rest.length < (c :: text).length :=
  shorter_cons c (Nat.lt_trans h' h)

theorem shorter_drop (c : Char) (n : Nat) (text : List Char) :
    (text.drop n).length < (c :: text).length :=
  Nat.lt_succ_of_le (List.Sublist.length_le (List.drop_sublist n text))

/-- The value of a decimal digit. -/
def digit (c : Char) : Nat := c.toNat - '0'.toNat

/-- The number that decimal digits make. -/
def ofDigits (digits : List Char) : Nat := digits.foldl (fun n c => n * 10 + digit c) 0

/-- The value of a hexadecimal digit. -/
def hexDigit? (c : Char) : Option Nat :=
  if '0' ≤ c ∧ c ≤ '9' then some (c.toNat - '0'.toNat)
  else if 'a' ≤ c ∧ c ≤ 'f' then some (c.toNat - 'a'.toNat + 10)
  else if 'A' ≤ c ∧ c ≤ 'F' then some (c.toNat - 'A'.toNat + 10)
  else none

/-- The number that hexadecimal digits make. -/
def ofHexDigits? (digits : List Char) : Option Nat :=
  digits.foldl (fun n c => n.bind fun n => (hexDigit? c).map (n * 16 + ·)) (some 0)

end Text
end Concord

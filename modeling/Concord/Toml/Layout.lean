/-
# Spaces, comments and line ends

What may stand between the parts of a TOML document. A line ends with a line
feed, with or without a carriage return before it; a comment runs up to the end
of its line.

Key definitions: `Toml.skipSpace`, `Toml.skipLines`.
-/
import Concord.Text.Read

namespace Concord
namespace Toml

open Text

/-- Spaces and tabs. -/
def isSpace (c : Char) : Bool := c == ' ' || c == '\t'

/-- The text from its first character that is no space. -/
def skipSpace (text : List Char) : List Char := text.dropWhile isSpace

theorem length_skipSpace (text : List Char) : (skipSpace text).length ≤ text.length :=
  length_dropWhile_le isSpace text

theorem shorter_of_skipSpace {text rest : List Char} {c : Char} (h : skipSpace text = c :: rest) :
    rest.length < text.length :=
  shorter_of_dropWhile h

theorem shorter_skipSpace {text rest : List Char} (h : rest.length < text.length) :
    (skipSpace rest).length < text.length :=
  Nat.lt_of_le_of_lt (length_skipSpace rest) h

/-- A character that may stand in comments and strings: any but the controls other than the tab. -/
def isPlain (c : Char) : Bool := c == '\t' || (0x20 ≤ c.toNat && c.toNat != 0x7F)

/-- The text behind a comment, if there is one. -/
def skipComment (text : List Char) : List Char :=
  match text with
  | '#' :: rest => rest.dropWhile isPlain
  | other => other

theorem length_skipComment (text : List Char) : (skipComment text).length ≤ text.length := by
  unfold skipComment
  split
  · exact Nat.le_succ_of_le (length_dropWhile_le _ _)
  · exact Nat.le_refl _

/-- The text behind a line end. -/
def lineEnd? : List Char → Option (List Char)
  | '\n' :: rest => some rest
  | '\r' :: '\n' :: rest => some rest
  | _ => none

theorem length_of_lineEnd {text rest : List Char} (h : lineEnd? text = some rest) :
    rest.length < text.length := by
  unfold lineEnd? at h
  split at h
  · cases h; simp
  · cases h; simp only [List.length_cons]; omega
  · cases h

/-- The text from its first character that is neither space, comment nor line end. -/
def skipLines (text : List Char) : List Char :=
  match _h : lineEnd? (skipComment (skipSpace text)) with
  | some rest => skipLines rest
  | none => skipComment (skipSpace text)
termination_by text.length
decreasing_by
  exact Nat.lt_of_lt_of_le (length_of_lineEnd ‹_›)
    (Nat.le_trans (length_skipComment _) (length_skipSpace text))

theorem length_skipLines (text : List Char) : (skipLines text).length ≤ text.length := by
  fun_induction skipLines text with
  | case1 text rest h ih =>
    exact Nat.le_trans ih (Nat.le_of_lt (Nat.lt_of_lt_of_le (length_of_lineEnd h)
      (Nat.le_trans (length_skipComment _) (length_skipSpace text))))
  | case2 text h => exact Nat.le_trans (length_skipComment _) (length_skipSpace text)

theorem shorter_of_skipLines {text rest : List Char} {c : Char} (h : skipLines text = c :: rest) :
    rest.length < text.length := by
  have := length_skipLines text
  rw [h, List.length_cons] at this
  omega

/-- The text behind spaces and, where a part may run over several lines, line ends and comments. -/
def skip (lines : Bool) (text : List Char) : List Char :=
  if lines then skipLines text else skipSpace text

theorem length_skip (lines : Bool) (text : List Char) : (skip lines text).length ≤ text.length := by
  unfold skip
  split
  · exact length_skipLines text
  · exact length_skipSpace text

theorem shorter_of_skip {lines : Bool} {text rest : List Char} {c : Char}
    (h : skip lines text = c :: rest) : rest.length < text.length := by
  have := length_skip lines text
  rw [h, List.length_cons] at this
  omega

end Toml
end Concord

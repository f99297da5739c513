/-
# Quoted strings

A string in double quotes has escapes, one in single quotes none; neither holds
a line end. Between three quotes a string may run over several lines: a line end
right behind the opening quotes is dropped, and so are all blanks and line ends
behind a backslash at the end of a line. One or two quotes may stand inside it,
also right before the closing ones.

Key definitions: `Toml.basicRest?`, `Toml.literalRest?`, `Toml.blockRest?`.
-/
import Concord.Toml.Layout

namespace Concord
namespace Toml

open Text

/-- The character that a letter names in an escape. -/
def namedEscape? : Char → Option Char
  | 'b' => some '\x08'
  | 't' => some '\t'
  | 'n' => some '\n'
  | 'f' => some '\x0c'
  | 'r' => some '\r'
  | 'e' => some '\x1b'
  | '"' => some '"'
  | '\\' => some '\\'
  | _ => none

/-- How many digits an escape by number has behind its letter. -/
def numberSize? : Char → Option Nat
  | 'x' => some 2
  | 'u' => some 4
  | 'U' => some 8
  | _ => none

/-- The character of a number in hexadecimal digits; surrogates are no characters. -/
def numbered? (digits : List Char) : Option Char :=
  (ofHexDigits? digits).bind fun n => if n.isValidChar then some (Char.ofNat n) else none

/-- The character of an escape, behind its backslash. -/
def escape? (text : List Char) : Option (Read text Char) :=
  match text with
  | [] => none
  | c :: rest =>
    match numberSize? c with
    | some size =>
      if (rest.take size).length = size then
        (numbered? (rest.take size)).map fun d => ⟨d, rest.drop size, shorter_drop c size rest⟩
      else none
    | none => (namedEscape? c).map fun d => ⟨d, rest, shorter_behind c rest⟩

/-- A string in double quotes, behind the first of them. -/
def basicRest? (text : List Char) : Option (Read text (List Char)) :=
  match text with
  | [] => none
  | c :: rest =>
    if c = '"' then some ⟨[], rest, shorter_behind c rest⟩
    else if c = '\\' then
      match escape? rest with
      | none => none
      | some ⟨d, rest', h⟩ =>
        match basicRest? rest' with
        | none => none
        | some ⟨ds, rest'', h'⟩ => some ⟨d :: ds, rest'', shorter_cons_trans c h h'⟩
    else if isPlain c then
      match basicRest? rest with
      | none => none
      | some ⟨ds, rest', h⟩ => some ⟨c :: ds, rest', shorter_cons c h⟩
    else none
termination_by text.length
decreasing_by
  · exact shorter_cons c h
  · exact shorter_behind c rest

/-- A string in single quotes, behind the first of them. -/
def literalRest? (text : List Char) : Option (Read text (List Char)) :=
  match h : text.dropWhile fun c => isPlain c && c != '\'' with
  | '\'' :: rest =>
    some ⟨text.takeWhile fun c => isPlain c && c != '\'', rest, shorter_of_dropWhile h⟩
  | _ => none

/-- The text without a line end at its start. -/
def skipLineEnd (text : List Char) : List Char := (lineEnd? text).getD text

theorem length_skipLineEnd (text : List Char) : (skipLineEnd text).length ≤ text.length := by
  unfold skipLineEnd
  cases h : lineEnd? text with
  | none => exact Nat.le_refl _
  | some rest => exact Nat.le_of_lt (length_of_lineEnd h)

/-- The text from its first character that is neither space nor line end. -/
def skipBlank (text : List Char) : List Char :=
  match _h : lineEnd? (skipSpace text) with
  | some rest => skipBlank rest
  | none => skipSpace text
termination_by text.length
decreasing_by exact Nat.lt_of_lt_of_le (length_of_lineEnd ‹_›) (length_skipSpace text)

theorem length_skipBlank (text : List Char) : (skipBlank text).length ≤ text.length := by
  fun_induction skipBlank text with
  | case1 text rest h ih =>
    exact Nat.le_trans ih
      (Nat.le_of_lt (Nat.lt_of_lt_of_le (length_of_lineEnd h) (length_skipSpace text)))
  | case2 text h => exact length_skipSpace text

/-- The end of a string between three quotes: the quotes that belong to it, at most two, and what
stands behind the closing ones. -/
def blockEnd? (quote : Char) (text : List Char) : Option (Read text (List Char)) :=
  match text with
  | a :: b :: c :: rest =>
    if a = quote && b = quote && c = quote then
      let more := (rest.takeWhile (· == quote)).take 2
      some ⟨more, rest.drop more.length, shorter_cons a (shorter_cons b (shorter_drop c _ rest))⟩
    else none
  | _ => none

/-- A string between three quotes of some kind, behind the opening ones. -/
def blockRest? (quote : Char) (text : List Char) : Option (Read text (List Char)) :=
  match blockEnd? quote text with
  | some r => some r
  | none =>
    match text with
    | [] => none
    | c :: rest =>
      if c = '\\' && quote = '"' then
        match h : lineEnd? (skipSpace rest) with
        | some rest' =>
          have hr : (skipBlank rest').length < (c :: rest).length :=
            Nat.lt_of_le_of_lt (length_skipBlank rest') (shorter_cons c
              (Nat.lt_of_lt_of_le (length_of_lineEnd h) (length_skipSpace rest)))
          match blockRest? quote (skipBlank rest') with
          | none => none
          | some ⟨ds, rest'', h'⟩ => some ⟨ds, rest'', Nat.lt_trans h' hr⟩
        | none =>
          match escape? rest with
          | none => none
          | some ⟨d, rest', h⟩ =>
            match blockRest? quote rest' with
            | none => none
            | some ⟨ds, rest'', h'⟩ => some ⟨d :: ds, rest'', shorter_cons_trans c h h'⟩
      else if isPlain c || (lineEnd? (c :: rest)).isSome then
        match blockRest? quote rest with
        | none => none
        | some ⟨ds, rest', h⟩ => some ⟨c :: ds, rest', shorter_cons c h⟩
      else none
termination_by text.length
decreasing_by
  · exact hr
  · exact shorter_cons c h
  · exact shorter_behind c rest

/-- A string value, behind its first quote. -/
def quotedRest? (quote : Char) (text : List Char) : Option (Read text (List Char)) :=
  match text with
  | a :: b :: rest =>
    if a = quote && b = quote then
      (blockRest? quote (skipLineEnd rest)).map fun r => ⟨r.value, r.rest,
        shorter_cons a (shorter_cons b (Nat.lt_of_lt_of_le r.shorter (length_skipLineEnd rest)))⟩
    else if quote = '"' then basicRest? (a :: b :: rest)
    else literalRest? (a :: b :: rest)
  | other => if quote = '"' then basicRest? other else literalRest? other

end Toml
end Concord

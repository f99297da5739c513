/-
# Reading TOML

A byte order mark may come first. Statements stand on lines of their own, which
may end in a comment. Keys are bare or quoted, and have parts with dots between
them. Values are quoted strings, numbers, the two truth values, dates and times,
arrays, and tables in braces. Arrays and such tables may run over several lines
and end in a comma; only the parts of a key stay on one line.

Key definitions: `Toml.statements`, `Toml.parse`.
-/
import Concord.Toml
import Concord.Toml.Layout
import Concord.Toml.Moment
import Concord.Toml.Number
import Concord.Toml.Quoted

namespace Concord
namespace Toml

open Text

/-! ### Keys -/

/-- Whether a character may stand in a bare key. -/
def isBare (c : Char) : Bool := c.isAlphanum || c == '_' || c == '-'

/-- A part of a key. -/
def simpleKey? (text : List Char) : Option (Read text String) :=
  match text with
  | [] => none
  | c :: rest =>
    if c = '"' then (basicRest? rest).map fun r => ⟨String.ofList r.value, r.rest,
      Nat.lt_succ_of_lt r.shorter⟩
    else if c = '\'' then (literalRest? rest).map fun r => ⟨String.ofList r.value, r.rest,
      Nat.lt_succ_of_lt r.shorter⟩
    else if isBare c then
      some ⟨String.ofList (c :: rest.takeWhile isBare), rest.dropWhile isBare,
        Nat.lt_succ_of_le (length_dropWhile_le isBare rest)⟩
    else none

/-- A key: its parts, with dots and perhaps spaces between them. -/
def key? (text : List Char) : Option (Read text (List String)) :=
  match simpleKey? text with
  | none => none
  | some ⟨part, rest, h⟩ =>
    match hd : skipSpace rest with
    | '.' :: rest' =>
      have hr := shorter_skipSpace (Nat.lt_trans (shorter_of_skipSpace hd) h)
      match key? (skipSpace rest') with
      | none => none
      | some ⟨parts, rest'', h'⟩ => some ⟨part :: parts, rest'', Nat.lt_trans h' hr⟩
    | _ => some ⟨[part], rest, h⟩
termination_by text.length
decreasing_by exact hr

/-- How many parts a key may have, and how many arrays and tables in braces may be open at a
time. -/
def nesting : Nat := 80

/-- A key of not too many parts. -/
def path? (text : List Char) : Option (Read text (List String)) :=
  (key? text).bind fun r => if r.value.length ≤ nesting then some r else none

/-! ### Values -/

/-- The characters of words: those of bare keys, and the marks in numbers and times. -/
def isWordChar (c : Char) : Bool := isBare c || c == '+' || c == '.' || c == ':'

/-- The value that a word is. A moment is a table with its text under a key of its own. -/
def wordValue? (word : List Char) : Option Json :=
  if word = ['t', 'r', 'u', 'e'] then some (.bool true)
  else if word = ['f', 'a', 'l', 's', 'e'] then some (.bool false)
  else
    match integer? word, float? word, Moment.parse? word with
    | some n, _, _ => some (.number (.integer n))
    | none, some bits, _ => some (.number (.double bits))
    | none, none, some moment =>
      some (.object [("$__toml_private_datetime", .string (String.ofList moment.text))])
    | none, none, none => none

/-- How many characters of a text, behind the first, belong to the word at its start. A date and a
time may stand in one word with a space between them. -/
def wordSize (c : Char) (text : List Char) : Nat :=
  let run := text.takeWhile isWordChar
  match Date.read? (c :: run), text.dropWhile isWordChar with
  | some (_, []), ' ' :: d :: rest =>
    if d.isDigit then run.length + 1 + ((d :: rest).takeWhile isWordChar).length else run.length
  | _, _ => run.length

/-- A value without parts that starts with a character. -/
def scalar? (c : Char) (text : List Char) : Option (Read (c :: text) Json) :=
  if c = '"' || c = '\'' then
    (quotedRest? c text).map fun r => ⟨.string (String.ofList r.value), r.rest,
      Nat.lt_succ_of_lt r.shorter⟩
  else
    let size := wordSize c text
    (wordValue? (c :: text.take size)).map fun v => ⟨v, text.drop size, shorter_drop c size text⟩

/-- A key and the equals sign, with spaces around it or, inside a value, line ends too. -/
def keyOfPair? (lines : Bool) (text : List Char) : Option (Read text (List String)) :=
  match path? text with
  | none => none
  | some ⟨key, rest, h⟩ =>
    match he : skip lines rest with
    | '=' :: rest' =>
      some ⟨key, skip lines rest', Nat.lt_of_le_of_lt (length_skip lines rest')
        (Nat.lt_trans (shorter_of_skip he) h)⟩
    | _ => none

/-- Texts are ordered by their length, and readers on texts of one length by their place. -/
theorem shorter_or_same {rest text : List Char} (h : rest.length ≤ text.length) :
    Prod.Lex Nat.lt Nat.lt (rest.length, 0) (text.length, 1) :=
  (Nat.lt_or_eq_of_le h).elim (.left _ _) fun h => h ▸ .right _ Nat.zero_lt_one

mutual

/-- A value, inside so many arrays and tables that no more than the given number can still be
opened. -/
def value? (depth : Nat) (text : List Char) : Option (Read text Json) :=
  match text with
  | [] => none
  | '[' :: rest =>
    if depth = 0 then none
    else
      match items? (depth - 1) rest with
      | none => none
      | some ⟨items, rest', h⟩ => some ⟨.array items, rest', shorter_cons '[' h⟩
  | '{' :: rest =>
    if depth = 0 then none
    else
      match pairs? (depth - 1) [] rest with
      | none => none
      | some ⟨entries, rest', h⟩ => some ⟨.object (membersOf entries), rest', shorter_cons '{' h⟩
  | c :: rest => scalar? c rest
termination_by (text.length, 0)
decreasing_by
  · exact .left _ _ (shorter_behind '[' rest)
  · exact .left _ _ (shorter_behind '{' rest)

/-- The items of an array, and the bracket that closes it. -/
def items? (depth : Nat) (text : List Char) : Option (Read text (List Json)) :=
  match hs : skipLines text with
  | ']' :: rest => some ⟨[], rest, shorter_of_skipLines hs⟩
  | start =>
    have hl : start.length ≤ text.length := hs ▸ length_skipLines text
    match value? depth start with
    | none => none
    | some ⟨item, rest, h⟩ =>
      match hc : skipLines rest with
      | ']' :: rest' =>
        some ⟨[item], rest', Nat.lt_trans (shorter_of_skipLines hc) (Nat.lt_of_lt_of_le h hl)⟩
      | ',' :: rest' =>
        have hr := Nat.lt_trans (shorter_of_skipLines hc) (Nat.lt_of_lt_of_le h hl)
        match items? depth rest' with
        | none => none
        | some ⟨items, rest'', h'⟩ => some ⟨item :: items, rest'', Nat.lt_trans h' hr⟩
      | _ => none
termination_by (text.length, 1)
decreasing_by
  · exact shorter_or_same hl
  · exact .left _ _ hr

/-- The pairs of a table in braces over those before them, and the brace that closes it. -/
def pairs? (depth : Nat) (entries : Entries) (text : List Char) : Option (Read text Entries) :=
  match hs : skipLines text with
  | '}' :: rest => some ⟨entries, rest, shorter_of_skipLines hs⟩
  | start =>
    have hl : start.length ≤ text.length := hs ▸ length_skipLines text
    match keyOfPair? true start with
    | none => none
    | some ⟨key, rest, h⟩ =>
      have hk := Nat.lt_of_lt_of_le h hl
      match value? depth rest with
      | none => none
      | some ⟨value, rest', h'⟩ =>
        match Entries.pair value key entries with
        | none => none
        | some entries =>
          match hc : skipLines rest' with
          | '}' :: rest'' =>
            some ⟨entries, rest'', Nat.lt_trans (shorter_of_skipLines hc) (Nat.lt_trans h' hk)⟩
          | ',' :: rest'' =>
            have hr := Nat.lt_trans (shorter_of_skipLines hc) (Nat.lt_trans h' hk)
            match pairs? depth entries rest'' with
            | none => none
            | some ⟨entries, rest₃, h₃⟩ => some ⟨entries, rest₃, Nat.lt_trans h₃ hr⟩
          | _ => none
termination_by (text.length, 0)
decreasing_by
  · exact .left _ _ hk
  · exact .left _ _ hr

end

/-! ### Statements -/

/-- A key's path and its last part. -/
def splitLast? : List String → Option (List String × String)
  | [] => none
  | [key] => some ([], key)
  | part :: rest => (splitLast? rest).map fun s => (part :: s.1, s.2)

/-- The text behind closing brackets. -/
def close? : Nat → List Char → Option (List Char)
  | 0, text => some text
  | n + 1, ']' :: rest => close? n rest
  | _ + 1, _ => none

/-- The key of a header between so many brackets, behind the opening ones, and the rest. -/
def header? (brackets : Nat) (text : List Char) :
    Option ((List String × String) × List Char) := do
  let r ← path? (skipSpace text)
  let rest ← close? brackets (skipSpace r.rest)
  let split ← splitLast? r.value
  return (split, rest)

/-- The statement at the start of a line, and the rest of the line. -/
def statement? (text : List Char) : Option (Statement × List Char) :=
  match text with
  | '[' :: '[' :: rest => (header? 2 rest).map fun h => (.element h.1.1 h.1.2, h.2)
  | '[' :: rest => (header? 1 rest).map fun h => (.table h.1.1 h.1.2, h.2)
  | [] => some (.blank, [])
  | '#' :: _ | '\n' :: _ | '\r' :: _ => some (.blank, text)
  | _ => do
    let key ← keyOfPair? false text
    let value ← value? nesting key.rest
    return (.pair key.value value.value, value.rest)

/-- The statement of a line, and the following lines; none of them if the text is at its end. -/
def line? (text : List Char) : Option (Statement × Option (List Char)) := do
  let (statement, rest) ← statement? (skipSpace text)
  match skipComment (skipSpace rest) with
  | [] => return (statement, none)
  | rest => return (statement, some (← lineEnd? rest))

/-- The statements of a text. Each line is shorter than the text it starts, so a text has no more
lines than it has characters, and one. -/
def statements (text : List Char) : Option (List Statement) := go (text.length + 1) text
where
  /-- The statements of at most so many lines. -/
  go : Nat → List Char → Option (List Statement)
    | 0, _ => none
    | lines + 1, text =>
      match line? text with
      | none => none
      | some (statement, none) => some [statement]
      | some (statement, some rest) => (go lines rest).map (statement :: ·)

/-- The text behind a byte order mark, if it starts with one. -/
def skipMark : List Char → List Char
  | '\uFEFF' :: rest => rest
  | text => text

/-- A text as the members of its document. -/
def parse (text : List Char) : Option (List (String × Json)) :=
  (statements (skipMark text)).bind Document.run

end Toml
end Concord

/-
# Reading JSON

The reader is strict: no comments, no trailing commas, no text behind the value,
no control characters in strings, no lone surrogates, and arrays and objects
nest at most 127 deep. Where it stops it says how much of the text it had not
yet read; the character that does not fit counts as read, in its first byte.

A number without fraction and exponent that fits 64 bits is an integer. Of any
other number the digits that fit 64 bits are read as an integer, and the double
nearest to it is multiplied or divided by the power of ten that is left.

Key definitions: `Json.Fault`, `Json.value`, `Json.parse`, `Json.parseObject`.
-/
import Concord.Json
import Concord.Text.Read

namespace Concord
namespace Json

open Text

/-- The size of a text in UTF-8. -/
def byteSize (text : List Char) : Nat := text.foldr (fun c n => c.utf8Size + n) 0

/-- The place where reading stopped: how many bytes of the text were left unread. -/
structure Fault where
  left : Nat
  deriving DecidableEq, Repr

namespace Fault

/-- Stopped before a text. -/
def before (text : List Char) : Fault := ⟨byteSize text⟩

/-- Stopped at the first byte of a text, or at its end. -/
def on (text : List Char) : Fault := ⟨byteSize text - 1⟩

end Fault

/-- Whether a character may stand between the parts of a value. -/
def isBlank (c : Char) : Bool := c == ' ' || c == '\n' || c == '\t' || c == '\r'

/-- The text from its first character that is not blank. -/
def skipBlank (text : List Char) : List Char := text.dropWhile isBlank

theorem length_skipBlank (text : List Char) : (skipBlank text).length ≤ text.length :=
  length_dropWhile_le isBlank text

theorem shorter_of_skipBlank {text rest : List Char} {c : Char} (h : skipBlank text = c :: rest) :
    rest.length < text.length :=
  shorter_of_dropWhile h

/-- The rest of a text behind a word. -/
def expect : List Char → List Char → Except Fault (List Char)
  | [], text => .ok text
  | _ :: _, [] => .error (.before [])
  | w :: word, c :: text => if c = w then expect word text else .error (.on (c :: text))

theorem length_of_expect {word text rest : List Char} (h : expect word text = .ok rest) :
    rest.length ≤ text.length := by
  fun_induction expect word text with
  | case1 => cases h; exact Nat.le_refl _
  | case2 => cases h
  | case3 word w text ih => exact Nat.le_succ_of_le (ih h)
  | case4 => cases h

/-! ### Strings -/

/-- Four hexadecimal digits. If they cannot be read, reading stops behind the four bytes. -/
def hex4 (text : List Char) : Except Fault (Read text Nat) :=
  match text with
  | a :: b :: c :: d :: rest =>
    match hexDigit? a, hexDigit? b, hexDigit? c, hexDigit? d with
    | some a, some b, some c, some d =>
      .ok ⟨((a * 16 + b) * 16 + c) * 16 + d, rest, by simp only [List.length_cons]; omega⟩
    | _, _, _, _ => .error ⟨byteSize text - 4⟩
  | _ => .error ⟨byteSize text - 4⟩

/-- Whether a code unit is the first half of a surrogate pair. -/
def isLeading (n : Nat) : Bool := 0xD800 ≤ n && n ≤ 0xDBFF

/-- Whether a code unit is the second half of a surrogate pair. -/
def isTrailing (n : Nat) : Bool := 0xDC00 ≤ n && n ≤ 0xDFFF

/-- The character of a numbered escape, behind its `u`. -/
def numberedEscape (text : List Char) : Except Fault (Read text Char) :=
  match hex4 text with
  | .error e => .error e
  | .ok ⟨n, rest, h⟩ =>
    if isTrailing n then .error (.before rest)
    else if isLeading n then
      match hr : rest with
      | [] => .error (.before [])
      | '\\' :: rest₂ =>
        match hr₂ : rest₂ with
        | [] => .error (.before [])
        | 'u' :: rest₃ =>
          match hex4 rest₃ with
          | .error e => .error e
          | .ok ⟨m, rest₄, h₄⟩ =>
            if isTrailing m then
              .ok ⟨Char.ofNat ((n - 0xD800) * 0x400 + (m - 0xDC00) + 0x10000), rest₄, by
                simp only [List.length_cons] at h
                omega⟩
            else .error (.before rest₄)
        | _ => .error (.on rest₂)
      | _ => .error (.on rest)
    else .ok ⟨Char.ofNat n, rest, h⟩

/-- The character that a letter names in an escape. -/
def namedEscape? : Char → Option Char
  | '"' => some '"'
  | '\\' => some '\\'
  | '/' => some '/'
  | 'b' => some '\x08'
  | 'f' => some '\x0c'
  | 'n' => some '\n'
  | 'r' => some '\r'
  | 't' => some '\t'
  | _ => none

/-- The character of an escape, behind its backslash. -/
def escape (text : List Char) : Except Fault (Read text Char) :=
  match text with
  | [] => .error (.before [])
  | c :: rest =>
    if c = 'u' then
      match numberedEscape rest with
      | .error e => .error e
      | .ok ⟨c, rest, h⟩ => .ok ⟨c, rest, Nat.lt_succ_of_lt h⟩
    else
      match namedEscape? c with
      | some c => .ok ⟨c, rest, by simp⟩
      | none => .error (.on text)

/-- A string, behind its opening quote. -/
def quotedRest (text : List Char) : Except Fault (Read text (List Char)) :=
  match text with
  | [] => .error (.before [])
  | c :: rest =>
    if c = '"' then .ok ⟨[], rest, by simp⟩
    else if c = '\\' then
      match escape rest with
      | .error e => .error e
      | .ok ⟨c, rest', h⟩ =>
        match quotedRest rest' with
        | .error e => .error e
        | .ok ⟨cs, rest'', h'⟩ => .ok ⟨c :: cs, rest'', by simp only [List.length_cons]; omega⟩
    else if c.toNat < 0x20 then .error (.on text)
    else
      match quotedRest rest with
      | .error e => .error e
      | .ok ⟨cs, rest', h⟩ => .ok ⟨c :: cs, rest', Nat.lt_succ_of_lt h⟩
termination_by text.length
decreasing_by all_goals simp only [List.length_cons]; omega

/-! ### Numbers -/

/-- The least number that takes more than 64 bits. -/
def wordBound : Nat := 18446744073709551616

/-- The least number that takes more than 63 bits. -/
def signBound : Nat := 9223372036854775808

/-- The number that digits make behind another, as long as it fits 64 bits, and how many digits
are in it. -/
def absorb (n : Nat) : List Char → Nat × Nat
  | [] => (n, 0)
  | c :: rest =>
    if n * 10 + digit c < wordBound then
      let r := absorb (n * 10 + digit c) rest
      (r.1, r.2 + 1)
    else (n, 0)

/-- An exponent as written: whether it is negative, and its digits. -/
structure Exponent where
  negative : Bool
  digits : List Char

/-- The value of an exponent. -/
def Exponent.value (e : Exponent) : Int :=
  if e.negative then -(ofDigits e.digits : Int) else ofDigits e.digits

/-- The least exponent that takes more than 31 bits. -/
def exponentBound : Nat := 2147483648

/-- The digits behind the one with which a number that starts like this leaves 31 bits. -/
def excess (n : Nat) : List Char → List Char
  | [] => []
  | c :: rest =>
    if n * 10 + digit c < exponentBound then excess (n * 10 + digit c) rest else rest

/-- A number as written: its sign, the digits before and behind the point, and the exponent. -/
structure Numeral where
  negative : Bool
  whole : List Char
  fraction : Option (List Char)
  exponent : Option Exponent

/-- A double divided by a power of ten, at most 308 places at a time. -/
def shiftDown (x : Float) (places : Nat) : Float :=
  if places ≤ 308 then x / Float.ofScientific 1 false places
  else if x == 0 then x
  else shiftDown (x / Float.ofScientific 1 false 308) (places - 308)
termination_by places

/-- A double times a power of ten; none if there is no such double. -/
def shift? (x : Float) (places : Int) : Option Float :=
  match places with
  | .ofNat n =>
    if n ≤ 308 then
      let y := x * Float.ofScientific 1 false n
      if y.isInf then none else some y
    else if x == 0 then some x
    else none
  | .negSucc n => some (shiftDown x (n + 1))

/-- The value of a numeral; none if it is too large for a double. -/
def Numeral.value? (n : Numeral) : Option Number :=
  let (whole, taken) := absorb 0 n.whole
  let dropped := n.whole.length - taken
  match n.fraction, n.exponent with
  | none, none =>
    if dropped = 0 then
      if !n.negative then some (.integer whole)
      else if 0 < whole ∧ whole ≤ signBound then some (.integer (-whole))
      else some (.double (-whole.toUInt64.toFloat).toBits)
    else double? whole dropped
  | fraction, exponent =>
    let (digits, places) := absorb whole (fraction.getD [])
    double? digits ((dropped : Int) - places + (exponent.map Exponent.value).getD 0)
where
  /-- The double of a number and a power of ten, with the sign of the numeral. -/
  double? (digits : Nat) (places : Int) : Option Number :=
    (shift? digits.toUInt64.toFloat places).map fun x =>
      .double (if n.negative then -x else x).toBits

/-- How many digits of a numeral that is too large are left unread: those behind the place where its
exponent leaves 31 bits. -/
def Numeral.unread (n : Numeral) : Nat :=
  (n.exponent.map fun e => (excess 0 e.digits).length).getD 0

/-- The digits of a number before its point. A zero is a number of its own. -/
def whole (text : List Char) : Except Fault (Read text (List Char)) :=
  match text with
  | [] => .error (.before [])
  | c :: rest =>
    if c = '0' then
      if rest.head?.any Char.isDigit then .error (.on rest) else .ok ⟨[c], rest, by simp⟩
    else if c.isDigit then
      .ok ⟨c :: rest.takeWhile Char.isDigit, rest.dropWhile Char.isDigit,
        Nat.lt_succ_of_le (length_dropWhile_le _ rest)⟩
    else .error (.on text)

/-- The point and the digits of a fraction, if there are any. -/
def fraction (text : List Char) :
    Except Fault { r : Option (List Char) × List Char // r.2.length ≤ text.length } :=
  match text with
  | '.' :: rest =>
    if (rest.takeWhile Char.isDigit).isEmpty then .error (.on rest)
    else
      .ok ⟨(some (rest.takeWhile Char.isDigit), rest.dropWhile Char.isDigit),
        Nat.le_succ_of_le (length_dropWhile_le _ rest)⟩
  | other => .ok ⟨(none, other), Nat.le_refl _⟩

/-- A sign. -/
def signed (text : List Char) : { r : Bool × List Char // r.2.length ≤ text.length } :=
  match text with
  | '+' :: rest => ⟨(false, rest), Nat.le_succ _⟩
  | '-' :: rest => ⟨(true, rest), Nat.le_succ _⟩
  | other => ⟨(false, other), Nat.le_refl _⟩

/-- The mark, the sign and the digits of an exponent, if there are any. -/
def exponent (text : List Char) :
    Except Fault { r : Option Exponent × List Char // r.2.length ≤ text.length } :=
  match text with
  | c :: rest =>
    if c = 'e' ∨ c = 'E' then
      match signed rest with
      | ⟨(negative, rest'), h⟩ =>
        if (rest'.takeWhile Char.isDigit).isEmpty then .error (.on rest')
        else
          .ok ⟨(some ⟨negative, rest'.takeWhile Char.isDigit⟩, rest'.dropWhile Char.isDigit),
            length_dropWhile_of_le c h⟩
    else .ok ⟨(none, c :: rest), Nat.le_refl _⟩
  | [] => .ok ⟨(none, []), Nat.le_refl _⟩

/-- A number, behind its sign. -/
def unsigned (negative : Bool) (text : List Char) : Except Fault (Read text Number) :=
  match whole text with
  | .error e => .error e
  | .ok ⟨digits, rest, h⟩ =>
    match fraction rest with
    | .error e => .error e
    | .ok ⟨(places, rest'), h'⟩ =>
      match exponent rest' with
      | .error e => .error e
      | .ok ⟨(power, rest''), h''⟩ =>
        let numeral : Numeral := ⟨negative, digits, places, power⟩
        match numeral.value? with
        | some n => .ok ⟨n, rest'', by simp only at h' h''; omega⟩
        | none => .error ⟨numeral.unread + byteSize rest''⟩

/-! ### Values -/

/-- One of the words for a value. -/
def word (spelling : List Char) (value : Json) (text : List Char) (c : Char) :
    Except Fault (Read (c :: text) Json) :=
  match h : expect spelling text with
  | .error e => .error e
  | .ok rest => .ok ⟨value, rest, Nat.lt_succ_of_le (length_of_expect h)⟩

/-- A value without parts that starts with a character. -/
def scalar (c : Char) (text : List Char) : Except Fault (Read (c :: text) Json) :=
  if c = 'n' then word ['u', 'l', 'l'] .null text c
  else if c = 't' then word ['r', 'u', 'e'] (.bool true) text c
  else if c = 'f' then word ['a', 'l', 's', 'e'] (.bool false) text c
  else if c = '"' then
    match quotedRest text with
    | .error e => .error e
    | .ok ⟨cs, rest, h⟩ => .ok ⟨.string (String.ofList cs), rest, Nat.lt_succ_of_lt h⟩
  else if c = '-' then
    match unsigned true text with
    | .error e => .error e
    | .ok ⟨n, rest, h⟩ => .ok ⟨.number n, rest, Nat.lt_succ_of_lt h⟩
  else if c.isDigit then
    match unsigned false (c :: text) with
    | .error e => .error e
    | .ok ⟨n, rest, h⟩ => .ok ⟨.number n, rest, h⟩
  else .error (.on (c :: text))

/-- A key and the colon behind it. -/
def key (text : List Char) : Except Fault (Read text String) :=
  match hk : skipBlank text with
  | '"' :: rest =>
    match quotedRest rest with
    | .error e => .error e
    | .ok ⟨cs, rest', h⟩ =>
      match hc : skipBlank rest' with
      | ':' :: rest'' => .ok ⟨String.ofList cs, rest'', by
          have := shorter_of_skipBlank hk
          have := shorter_of_skipBlank hc
          omega⟩
      | other => .error (.on other)
  | other => .error (.on other)

mutual

/-- A value, with blanks before it, inside so many open arrays and objects that no more than the
given number can still be opened. -/
def value (depth : Nat) (text : List Char) : Except Fault (Read text Json) :=
  match hv : skipBlank text with
  | [] => .error (.on [])
  | '[' :: rest =>
    if depth = 0 then .error (.on ('[' :: rest))
    else
      have hr := shorter_of_skipBlank hv
      match hi : skipBlank rest with
      | ']' :: rest' => .ok ⟨.array [], rest', by
          have := shorter_of_skipBlank hi
          omega⟩
      | _ =>
        match value (depth - 1) rest with
        | .error e => .error e
        | .ok ⟨item, rest', h⟩ =>
          match items (depth - 1) rest' with
          | .error e => .error e
          | .ok ⟨more, rest'', h'⟩ => .ok ⟨.array (item :: more), rest'', by omega⟩
  | '{' :: rest =>
    if depth = 0 then .error (.on ('{' :: rest))
    else
      have hr := shorter_of_skipBlank hv
      match hi : skipBlank rest with
      | '}' :: rest' => .ok ⟨.object [], rest', by
          have := shorter_of_skipBlank hi
          omega⟩
      | _ =>
        match key rest with
        | .error e => .error e
        | .ok ⟨name, rest₁, h₁⟩ =>
          match value (depth - 1) rest₁ with
          | .error e => .error e
          | .ok ⟨item, rest₂, h₂⟩ =>
            match members (depth - 1) rest₂ with
            | .error e => .error e
            | .ok ⟨more, rest₃, h₃⟩ => .ok ⟨.object ((name, item) :: more), rest₃, by omega⟩
  | c :: rest =>
    match scalar c rest with
    | .error e => .error e
    | .ok ⟨v, rest', h⟩ => .ok ⟨v, rest', by
        have := length_skipBlank text
        rw [hv] at this
        omega⟩
termination_by text.length

/-- The further items of an array, and the bracket that closes it. -/
def items (depth : Nat) (text : List Char) : Except Fault (Read text (List Json)) :=
  match hv : skipBlank text with
  | ']' :: rest => .ok ⟨[], rest, shorter_of_skipBlank hv⟩
  | ',' :: rest =>
    have hr := shorter_of_skipBlank hv
    match skipBlank rest with
    | ']' :: rest' => .error (.on (']' :: rest'))
    | _ =>
      match value depth rest with
      | .error e => .error e
      | .ok ⟨item, rest', h⟩ =>
        match items depth rest' with
        | .error e => .error e
        | .ok ⟨more, rest'', h'⟩ => .ok ⟨item :: more, rest'', by omega⟩
  | other => .error (.on other)
termination_by text.length

/-- The further members of an object, and the brace that closes it. -/
def members (depth : Nat) (text : List Char) : Except Fault (Read text (List (String × Json))) :=
  match hv : skipBlank text with
  | '}' :: rest => .ok ⟨[], rest, shorter_of_skipBlank hv⟩
  | ',' :: rest =>
    have hr := shorter_of_skipBlank hv
    match key rest with
    | .error e => .error e
    | .ok ⟨name, rest₁, h₁⟩ =>
      match value depth rest₁ with
      | .error e => .error e
      | .ok ⟨item, rest₂, h₂⟩ =>
        match members depth rest₂ with
        | .error e => .error e
        | .ok ⟨more, rest₃, h₃⟩ => .ok ⟨(name, item) :: more, rest₃, by omega⟩
  | other => .error (.on other)
termination_by text.length

end

/-- How many arrays and objects may be open at a time. -/
def depthLimit : Nat := 127

/-- A value, if nothing but blanks follows it. -/
def finish {text : List Char} (r : Read text Json) : Except Fault Json :=
  match skipBlank r.rest with
  | [] => .ok r.value
  | other => .error (.on other)

/-- A text as a value. -/
def parse (text : List Char) : Except Fault Json :=
  (value depthLimit text).bind finish

/-- A text as the members of an object. Any other value is refused: an array where it starts, all
others where they end. -/
def parseObject (text : List Char) : Except Fault (List (String × Json)) :=
  match skipBlank text with
  | '[' :: rest => .error (.before ('[' :: rest))
  | start =>
    match value depthLimit start with
    | .error e => .error e
    | .ok r =>
      match r.value with
      | .object members => (finish r).map fun _ => members
      | _ => .error (.before r.rest)

end Json
end Concord

/-
# Numbers of TOML documents

Integers are decimal, or hexadecimal, octal or binary behind a mark; they fit 64
bits, with a sign or without. Other decimals have a fraction or an exponent, and
stand for the nearest double. Single underscores may stand between digits.

Key definitions: `Toml.integer?`, `Toml.float?`.
-/
import Concord.Json
import Concord.Text.Read

namespace Concord
namespace Toml

open Text

/-- Digits of some kind with single underscores between them. -/
def digits? (isDigit : Char → Bool) : List Char → Option (List Char)
  | [] => none
  | [c] => if isDigit c then some [c] else none
  | c :: d :: rest =>
    if isDigit c then
      if d = '_' then (digits? isDigit rest).map (c :: ·)
      else (digits? isDigit (d :: rest)).map (c :: ·)
    else none

/-- Decimal digits, the first of several not zero. -/
def whole? (text : List Char) : Option (List Char) :=
  (digits? Char.isDigit text).bind fun digits =>
    if digits.head? = some '0' ∧ digits.length ≠ 1 then none else some digits

/-- A sign, if there is one, and the rest. -/
def signed : List Char → Bool × List Char
  | '+' :: rest => (false, rest)
  | '-' :: rest => (true, rest)
  | other => (false, other)

/-! ### Integers -/

/-- The least integer of 64 bits with a sign. -/
def leastInteger : Int := -9223372036854775808

/-- The greatest integer of 64 bits without a sign. -/
def greatestInteger : Int := 18446744073709551615

/-- The number that digits in a base make. -/
def inBase? (base : Nat) (text : List Char) : Option Nat :=
  let isDigit (c : Char) : Bool := (hexDigit? c).any (· < base)
  (digits? isDigit text).map fun digits =>
    digits.foldl (fun n c => n * base + (hexDigit? c).getD 0) 0

/-- The integer that a word is. -/
def integer? (word : List Char) : Option Int :=
  let value : Option Int := match word with
    | '0' :: 'x' :: rest => (inBase? 16 rest).map Int.ofNat
    | '0' :: 'o' :: rest => (inBase? 8 rest).map Int.ofNat
    | '0' :: 'b' :: rest => (inBase? 2 rest).map Int.ofNat
    | word =>
      let (negative, rest) := signed word
      (whole? rest).map fun digits =>
        if negative then -(ofDigits digits : Int) else ofDigits digits
  value.bind fun n => if leastInteger ≤ n ∧ n ≤ greatestInteger then some n else none

/-! ### Other numbers -/

/-- A decimal: its digits as a number, and the power of ten that they count. -/
structure Decimal where
  digits : Nat
  power : Int

/-- The digits of a fraction, behind its point. -/
def places? (text : List Char) : Option (List Char) := digits? Char.isDigit text

/-- The exponent behind its mark. -/
def power? (text : List Char) : Option Int :=
  let (negative, rest) := signed text
  (digits? Char.isDigit rest).map fun digits =>
    if negative then -(ofDigits digits : Int) else ofDigits digits

/-- Whether a character starts an exponent. -/
def isMark (c : Char) : Bool := c == 'e' || c == 'E'

/-- The decimal that a word without sign is, if it has a fraction or an exponent. -/
def decimal? (word : List Char) : Option Decimal := do
  let mantissa := word.takeWhile (!isMark ·)
  let whole ← whole? (mantissa.takeWhile (· != '.'))
  let fraction ← match mantissa.dropWhile (· != '.') with
    | [] => some []
    | _ :: rest => places? rest
  let power ← match word.dropWhile (!isMark ·) with
    | [] => some 0
    | _ :: rest => power? rest
  if mantissa.length = word.length ∧ fraction.isEmpty then none
  else return ⟨ofDigits (whole ++ fraction), power - fraction.length⟩

/-- The double nearest to a decimal; none if there is none so large. Below ten to the power -330 it
is zero, from ten to the power 310 on there is none. -/
def Decimal.nearest? (d : Decimal) : Option Float :=
  let point := ((Nat.toDigits 10 d.digits).length : Int) + d.power
  if d.digits = 0 || point < -330 then some (Float.ofScientific 0 false 0)
  else if 310 < point then none
  else
    let x := Float.ofScientific d.digits (d.power < 0) d.power.natAbs
    if x.isInf then none else some x

/-- The bits of the number that a word is: a decimal, or one of the names for what is no finite
number. -/
def float? (word : List Char) : Option UInt64 :=
  let (negative, rest) := signed word
  let x : Option Float :=
    if rest = ['i', 'n', 'f'] then some (Float.ofBits 0x7FF0000000000000)
    else if rest = ['n', 'a', 'n'] then some (Float.ofBits 0x7FF8000000000000)
    else (decimal? rest).bind Decimal.nearest?
  x.map fun x => (if negative then -x else x).toBits

end Toml
end Concord

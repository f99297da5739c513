/-
# Doubles in decimal

A finite double is a whole number times a power of two. Around it lies the
interval of the reals that round to it, whose ends belong to it if the number
is even. The decimal of a double is the one with the fewest digits in this
interval and, of those with so many digits, the nearest to the double; of two
that are as near, the even one.

Key definitions: `Json.Binary.ofBits`, `Json.Binary.shortest`, `Json.doubleText`.
-/

namespace Concord
namespace Json

/-- A finite double without its sign: `significand` times two to the power `exponent`. -/
structure Binary where
  significand : Nat
  exponent : Int
  /-- Whether the next smaller double is only half as far away as the next larger one. -/
  lopsided : Bool
  deriving DecidableEq, Repr

/-- A positive decimal: `digits` times ten to the power `exponent`. -/
structure Decimal where
  digits : Nat
  exponent : Int
  deriving DecidableEq, Repr

/-- How many fractions a double can have: they take 52 bits. -/
def fractionSize : Nat := 4503599627370496

/-- How many exponents a double can have: they take 11 bits. -/
def exponentSize : Nat := 2048

/-- The bit of the sign, above those of the exponent and the fraction. -/
def signBit : Nat := 9223372036854775808

namespace Binary

/-- The double of some bits, without its sign. -/
def ofBits (bits : UInt64) : Binary :=
  let field : Nat := bits.toNat / fractionSize % exponentSize
  let fraction : Nat := bits.toNat % fractionSize
  if field = 0 then ⟨fraction, -1074, false⟩
  else ⟨fractionSize + fraction, (field : Int) - 1075, fraction == 0 && field != 1⟩

/-- Four times the double and the ends of its interval, as numbers over a common denominator. -/
def scaled (b : Binary) : Nat × Nat × Nat × Nat :=
  let (up, down) := match b.exponent with
    | .ofNat n => (Nat.pow 2 n, 1)
    | .negSucc n => (1, Nat.pow 2 (n + 1))
  let m := b.significand
  (4 * m * up, (if b.lopsided then 4 * m - 1 else 4 * m - 2) * up, (4 * m + 2) * up, 4 * down)

/-- The number that a ratio is in units of a power of ten, rounded down, and the ratio of that
unit. -/
def units (num den : Nat) (power : Int) : Nat × Nat × Nat :=
  match power with
  | .ofNat n => (num / (den * Nat.pow 10 n), Nat.pow 10 n, 1)
  | .negSucc n => (num * Nat.pow 10 (n + 1) / den, 1, Nat.pow 10 (n + 1))

/-- The decimal on the grid of a power of ten that is nearest to the double, if there is one in its
interval. -/
def onGrid? (b : Binary) (power : Int) : Option Decimal :=
  let (value, low, high, den) := b.scaled
  let (below, up, down) := units value den power
  let inside (n : Nat) : Bool :=
    let x := n * up * den
    if b.significand % 2 = 0 then low * down ≤ x && x ≤ high * down
    else low * down < x && x < high * down
  let above := below + 1
  let lower := 0 < below && inside below
  let upper := inside above
  let nearer := 2 * value * down < (below + above) * up * den
  let even := 2 * value * down = (below + above) * up * den && below % 2 = 0
  if lower && (nearer || even || !upper) then some ⟨below, power⟩
  else if upper then some ⟨above, power⟩
  else none

/-- The least number of decimal digits of a whole number. -/
def digitCount (n : Nat) : Nat := (Nat.toDigits 10 n).length

/-- The power of ten of the first digit of the double. -/
def magnitude (b : Binary) : Int :=
  let (value, _, _, den) := b.scaled
  if den ≤ value then (digitCount (value / den) : Int) - 1
  else
    let size := digitCount (den / value)
    if den ≤ value * Nat.pow 10 (size - 1) then 1 - (size : Int) else -(size : Int)

/-- The first decimal found on ever finer grids, starting at a power of ten. -/
def search (b : Binary) : Nat → Int → Option Decimal
  | 0, _ => none
  | n + 1, power => (b.onGrid? power).or (search b n (power - 1))

/-- The shortest decimal in the interval of a double. -/
def shortest (b : Binary) : Option Decimal := b.search 20 (b.magnitude + 1)

end Binary

/-- A decimal without zeros at its end. -/
def Decimal.trimmed (d : Decimal) : Decimal :=
  let digits := Nat.toDigits 10 d.digits
  let zeros := (digits.reverse.takeWhile (· == '0')).length
  ⟨d.digits / Nat.pow 10 zeros, d.exponent + zeros⟩

/-- A decimal as text: positional from five zeros behind the point up to sixteen digits before it,
else with an exponent. -/
def Decimal.text (d : Decimal) : List Char :=
  let digits := Nat.toDigits 10 d.digits
  let point := (digits.length : Int) + d.exponent
  if 0 ≤ d.exponent && point ≤ 16 then
    digits ++ List.replicate d.exponent.toNat '0' ++ ['.', '0']
  else if 0 < point && point ≤ 16 then
    digits.take point.toNat ++ '.' :: digits.drop point.toNat
  else if -5 < point && point ≤ 0 then
    '0' :: '.' :: List.replicate (-point).toNat '0' ++ digits
  else
    let power := 'e' :: (toString (point - 1)).toList
    match digits with
    | [d] => d :: power
    | d :: rest => d :: '.' :: rest ++ power
    | [] => power

/-- The text of a finite double. -/
def doubleText (bits : UInt64) : String :=
  let b := Binary.ofBits bits
  let sign := if signBit ≤ bits.toNat then ['-'] else []
  match b.significand with
  | 0 => String.ofList (sign ++ ['0', '.', '0'])
  | _ => String.ofList (sign ++ (b.shortest.map fun d => d.trimmed.text).getD [])

end Json
end Concord

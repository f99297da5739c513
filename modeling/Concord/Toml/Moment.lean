/-
# Dates and times

A date, a time of day, or both, then perhaps with the distance from universal
time. The seconds of a time may be left out, and may have a fraction, of which
nine digits count. A moment is written with a capital T between date and time,
with seconds, and with no more of the fraction than it needs.

Key definitions: `Toml.Moment`, `Toml.Moment.parse?`, `Toml.Moment.text`.
-/
import Concord.Text.Read

namespace Concord
namespace Toml

open Text

/-- A day of the calendar. -/
structure Date where
  year : Nat
  month : Nat
  day : Nat
  deriving DecidableEq, Repr

/-- A time of day; the digits of its fraction end in no zero. -/
structure Time where
  hour : Nat
  minute : Nat
  second : Nat
  fraction : List Char
  deriving DecidableEq, Repr

/-- The distance of a time from universal time. -/
inductive Zone where
  /-- None. -/
  | universal
  /-- So many minutes ahead. -/
  | ahead (minutes : Int)
  deriving DecidableEq, Repr

/-- A date, a time, or both. -/
structure Moment where
  date : Option Date
  time : Option Time
  zone : Option Zone
  deriving DecidableEq, Repr

/-- The number that so many digits at the start of a text make, and the rest. Another digit must not
follow. -/
def fixed? (size : Nat) (text : List Char) : Option (Nat × List Char) :=
  let run := text.takeWhile Char.isDigit
  if run.length = size then some (ofDigits run, text.dropWhile Char.isDigit) else none

/-- The rest of a text behind a character. -/
def behind? (c : Char) : List Char → Option (List Char)
  | [] => none
  | d :: rest => if d = c then some rest else none

/-- A number in at least so many digits. -/
def padded (size n : Nat) : List Char :=
  let digits := Nat.toDigits 10 n
  List.replicate (size - digits.length) '0' ++ digits

namespace Date

/-- Whether a year has a 29th of February. -/
def isLeap (year : Nat) : Bool := year % 4 = 0 && (year % 100 != 0 || year % 400 = 0)

/-- How many days a month has. -/
def monthLength (year month : Nat) : Nat :=
  if month = 2 then if isLeap year then 29 else 28
  else if month = 4 || month = 6 || month = 9 || month = 11 then 30
  else 31

/-- A date at the start of a text, and the rest. -/
def read? (text : List Char) : Option (Date × List Char) := do
  let (year, rest) ← fixed? 4 text
  let (month, rest) ← fixed? 2 (← behind? '-' rest)
  let (day, rest) ← fixed? 2 (← behind? '-' rest)
  if 1 ≤ month ∧ month ≤ 12 ∧ 1 ≤ day ∧ day ≤ monthLength year month then
    return (⟨year, month, day⟩, rest)
  else none

/-- A date as text. -/
def text (d : Date) : List Char :=
  padded 4 d.year ++ '-' :: padded 2 d.month ++ '-' :: padded 2 d.day

end Date

namespace Time

/-- The digits of a fraction that count: the first nine, without zeros at the end. -/
def significant (digits : List Char) : List Char :=
  ((digits.take 9).reverse.dropWhile (· == '0')).reverse

/-- The seconds of a time, behind its minutes, and the rest. -/
def seconds? (text : List Char) : Option ((Nat × List Char) × List Char) :=
  match text with
  | ':' :: rest =>
    match fixed? 2 rest with
    | none => none
    | some (second, '.' :: rest) =>
      let run := rest.takeWhile Char.isDigit
      if run.isEmpty then none
      else some ((second, significant run), rest.dropWhile Char.isDigit)
    | some (second, rest) => some ((second, []), rest)
  | other => some ((0, []), other)

/-- A time at the start of a text, and the rest. -/
def read? (text : List Char) : Option (Time × List Char) := do
  let (hour, rest) ← fixed? 2 text
  let (minute, rest) ← fixed? 2 (← behind? ':' rest)
  let ((second, fraction), rest) ← seconds? rest
  if hour ≤ 23 ∧ minute ≤ 59 ∧ second ≤ 60 then
    return (⟨hour, minute, second, fraction⟩, rest)
  else none

/-- A time as text. -/
def text (t : Time) : List Char :=
  padded 2 t.hour ++ ':' :: padded 2 t.minute ++ ':' :: padded 2 t.second ++
    if t.fraction.isEmpty then [] else '.' :: t.fraction

end Time

namespace Zone

/-- Hours and minutes of a distance that fill a text. -/
def minutes? (text : List Char) : Option Nat := do
  let (hours, rest) ← fixed? 2 text
  let (minutes, rest) ← fixed? 2 (← behind? ':' rest)
  if rest.isEmpty ∧ hours ≤ 23 ∧ minutes ≤ 59 then return hours * 60 + minutes else none

/-- The zone that a text is; none is given by an empty text. -/
def parse? : List Char → Option (Option Zone)
  | [] => some none
  | ['Z'] | ['z'] => some (some .universal)
  | '+' :: rest => (minutes? rest).map fun n => some (.ahead n)
  | '-' :: rest => (minutes? rest).map fun n => some (.ahead (-(n : Int)))
  | _ => none

/-- A zone as text. -/
def text : Zone → List Char
  | .universal => ['Z']
  | .ahead minutes =>
    let n := minutes.natAbs
    (if minutes < 0 then '-' else '+') :: padded 2 (n / 60) ++ ':' :: padded 2 (n % 60)

end Zone

namespace Moment

/-- The moment that a text is. -/
def parse? (text : List Char) : Option Moment :=
  match Date.read? text with
  | some (date, []) => some ⟨some date, none, none⟩
  | some (date, c :: rest) =>
    if c = 'T' || c = 't' || c = ' ' then do
      let (time, rest) ← Time.read? rest
      let zone ← Zone.parse? rest
      return ⟨some date, some time, zone⟩
    else none
  | none =>
    match Time.read? text with
    | some (time, []) => some ⟨none, some time, none⟩
    | _ => none

/-- A moment as text. -/
def text (m : Moment) : List Char :=
  let date := (m.date.map Date.text).getD []
  let time := (m.time.map Time.text).getD []
  let zone := (m.zone.map Zone.text).getD []
  date ++ (if m.date.isSome && m.time.isSome then ['T'] else []) ++ time ++ zone

end Moment
end Toml
end Concord

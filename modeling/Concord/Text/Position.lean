/-
# Lines, columns and parts

The place of a byte in a text as a line and a column: lines are counted from one,
and the column is the number of bytes of the line that have been read. The way
back counts the lengths of the lines before, without their ends, and one byte for
each end. A part of a text is a span of its bytes.

Key definitions: `Text.Position.ofIndex`, `Text.lines`, `Text.Position.offset`, `Span.clamp`.
-/

namespace Concord
namespace Text

/-- A place in a text. -/
structure Position where
  line : Nat
  column : Nat
  deriving DecidableEq, Repr

/-- The line feed. -/
def lineFeed : UInt8 := 10

/-- The carriage return. -/
def carriageReturn : UInt8 := 13

/-- The place that is reached after so many bytes. -/
def Position.ofIndex (bytes : List UInt8) (index : Nat) : Position :=
  let read := bytes.take index
  ⟨1 + read.count lineFeed, (read.reverse.takeWhile (· != lineFeed)).length⟩

/-- A line without a carriage return at its end. -/
def withoutReturn (line : List UInt8) : List UInt8 :=
  if line.getLast? = some carriageReturn then line.dropLast else line

/-- The lines of a text without their ends. A line ends with a line feed and perhaps a carriage
return before it; the last line may lack an end. -/
def lines : List UInt8 → List (List UInt8)
  | [] => []
  | bytes => go [] bytes
where
  /-- The lines of a text behind the start of its first line, which is given backwards. -/
  go (start : List UInt8) : List UInt8 → List (List UInt8)
    | [] => if start.isEmpty then [] else [start.reverse]
    | b :: rest =>
      if b = lineFeed then withoutReturn start.reverse :: go [] rest else go (b :: start) rest

/-- How many bytes stand before a place, as far as the lines before it tell. -/
def Position.offset (bytes : List UInt8) (p : Position) : Nat :=
  ((lines bytes).take (p.line - 1)).foldr (fun l n => l.length + 1 + n) 0 + (p.column - 1)

end Text

/-- A part of a text: where it starts, and how many bytes it has. -/
structure Span where
  start : Nat
  length : Nat
  deriving DecidableEq, Repr

/-- The part of a text of some size that lies inside it. -/
def Span.clamp (size : Nat) (s : Span) : Span :=
  ⟨min s.start size, min s.length (size - min s.start size)⟩

end Concord

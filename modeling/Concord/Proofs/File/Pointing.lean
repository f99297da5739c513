/-
# Where diagnostics point

A reader of JSON tells a fault by its line and column, and the diagnostic points at
a byte. It goes back from the place to the byte by adding up the lines before, each
with one byte for its end. A line feed is one byte; but where a carriage return
stands before it, the end has two bytes, and the line is listed without both. So
for each such end the diagnostic points one byte too far to the left: it points at
the fault just when no line before the fault ends with the two. Wherever it points,
it points inside the text.

Key definitions: `Text.Position.ofByte`, `Text.pairedEnds`, `Span.Inside`.
Key theorems: `Text.offset_ofByte`, `Text.pairedEnds_eq_zero_iff`, `Diagnostic.inside_ofError`,
`Diagnostic.fault_pointed_at`.
-/
import Mathlib.Data.List.TakeWhile
import Concord.File.Diagnostic

namespace Concord
namespace Text

/-- How many bytes stand behind the last line feed. -/
def behindLineFeed (bytes : List UInt8) : Nat := (bytes.reverse.takeWhile (· != lineFeed)).length

/-- How many line feeds stand directly behind a carriage return. -/
def pairedEnds : List UInt8 → Nat
  | a :: b :: rest => (if a = carriageReturn ∧ b = lineFeed then 1 else 0) + pairedEnds (b :: rest)
  | _ => 0

/-- The place of the byte with an index: lines and columns count from one, and a column counts the
bytes behind the last line feed before it. -/
def Position.ofByte (bytes : List UInt8) (index : Nat) : Position :=
  ⟨1 + (bytes.take index).count lineFeed, 1 + behindLineFeed (bytes.take index)⟩

variable {bytes l r start : List UInt8} {b : UInt8} {index : Nat}

/-! ### Line ends -/

theorem behindLineFeed_append_cons (l r : List UInt8) :
    behindLineFeed (l ++ lineFeed :: r) = behindLineFeed r := by
  unfold behindLineFeed
  rw [List.reverse_append, List.reverse_cons, List.append_assoc, List.takeWhile_append]
  split
  · next hall =>
    rw [hall]
    simp
  · rfl

theorem behindLineFeed_of_not_mem (h : lineFeed ∉ l) : behindLineFeed l = l.length := by
  have hall : ∀ b ∈ l.reverse, (b != lineFeed) = true := by
    intro b hb
    rw [List.mem_reverse] at hb
    simpa using fun e : b = lineFeed => h (e ▸ hb)
  rw [behindLineFeed, List.takeWhile_eq_self_iff.mpr hall, List.length_reverse]

theorem pairedEnds_lineFeed_cons (r : List UInt8) : pairedEnds (lineFeed :: r) = pairedEnds r := by
  have hne : lineFeed ≠ carriageReturn := by decide
  cases r <;> simp [pairedEnds, hne]

theorem pairedEnds_of_not_mem : ∀ {l : List UInt8}, lineFeed ∉ l → pairedEnds l = 0
  | [], _ => rfl
  | [_], _ => rfl
  | a :: b :: l, h => by
    have hb : b ≠ lineFeed := by
      rintro rfl
      simp at h
    have hrest : lineFeed ∉ b :: l := fun hm => h (List.mem_cons_of_mem a hm)
    simp [pairedEnds, hb, pairedEnds_of_not_mem hrest]

/-- A line and its end: what is paired stands in the end, or behind it. -/
theorem pairedEnds_append_cons : ∀ {l : List UInt8} (r : List UInt8), lineFeed ∉ l →
    pairedEnds (l ++ lineFeed :: r) =
      (if l.getLast? = some carriageReturn then 1 else 0) + pairedEnds r
  | [], r, _ => by simp [pairedEnds_lineFeed_cons]
  | [a], r, _ => by simp [pairedEnds, pairedEnds_lineFeed_cons]
  | a :: b :: l, r, h => by
    have hb : b ≠ lineFeed := by
      rintro rfl
      simp at h
    have hrest : lineFeed ∉ b :: l := fun hm => h (List.mem_cons_of_mem a hm)
    have ih := pairedEnds_append_cons r hrest
    rw [List.cons_append] at ih
    rw [List.cons_append, List.cons_append, pairedEnds, ih, List.getLast?_cons_cons]
    simp [hb]

/-- No line feed is paired if none stands directly behind a carriage return. -/
theorem pairedEnds_eq_zero_iff : ∀ {l : List UInt8},
    pairedEnds l = 0 ↔ ∀ i, ¬(l[i]? = some carriageReturn ∧ l[i + 1]? = some lineFeed)
  | [] => by simp [pairedEnds]
  | [_] => by simp [pairedEnds]
  | a :: b :: l => by
    have ih := pairedEnds_eq_zero_iff (l := b :: l)
    constructor
    · intro h i
      simp only [pairedEnds, Nat.add_eq_zero_iff] at h
      cases i with
      | zero => simpa using h.1
      | succ i => exact ih.mp h.2 i
    · intro h
      have hfirst : ¬(a = carriageReturn ∧ b = lineFeed) := by simpa using h 0
      have hrest : pairedEnds (b :: l) = 0 := ih.mpr fun i => h (i + 1)
      simp [pairedEnds, hfirst, hrest]

theorem pairedEnds_take_eq_zero_iff :
    pairedEnds (bytes.take index) = 0 ↔
      ∀ i, i + 1 < index → ¬(bytes[i]? = some carriageReturn ∧ bytes[i + 1]? = some lineFeed) := by
  rw [pairedEnds_eq_zero_iff]
  refine forall_congr' fun i => ?_
  rw [List.getElem?_take, List.getElem?_take]
  by_cases hi : i + 1 < index
  · simp [hi, Nat.lt_of_succ_lt hi]
  · simp [hi]

/-! ### The way back from a place -/

/-- How many bytes some lines have, each with one byte for its end. -/
def extent (lines : List (List UInt8)) : Nat := lines.foldr (fun l n => l.length + 1 + n) 0

theorem lines_eq (bytes : List UInt8) : lines bytes = lines.go [] bytes := by
  cases bytes <;> rfl

/-- What a line lacks in the listing is the carriage return of its end. -/
theorem length_withoutReturn (l : List UInt8) :
    (withoutReturn l).length + (if l.getLast? = some carriageReturn then 1 else 0) = l.length := by
  unfold withoutReturn
  split
  · next h =>
    have hpos : 0 < l.length := List.length_pos_of_mem (List.mem_of_getLast? h)
    rw [List.length_dropLast]
    omega
  · rfl

/-- The lines that end before a byte, and what stands before it in its own line, are all bytes before
it but for the carriage returns of line ends. The induction is along the listing, with the start of
the line that is being listed. -/
theorem extent_go : ∀ (bytes start : List UInt8) (index : Nat), lineFeed ∉ start → index ≤ bytes.length →
    extent ((lines.go start bytes).take ((bytes.take index).count lineFeed)) +
        behindLineFeed (start.reverse ++ bytes.take index) +
        pairedEnds (start.reverse ++ bytes.take index) =
      start.length + index
  | bytes, start, 0, hstart, _ => by
    have hnot : lineFeed ∉ start.reverse := by simpa using hstart
    simp [extent, behindLineFeed_of_not_mem hnot, pairedEnds_of_not_mem hnot]
  | b :: bytes, start, index + 1, hstart, hle => by
    have hle' : index ≤ bytes.length := Nat.le_of_succ_le_succ hle
    rw [List.take_succ_cons, lines.go]
    by_cases hb : b = lineFeed
    · -- The line ends: it is listed, and the next one starts with nothing.
      subst hb
      have hnot : lineFeed ∉ start.reverse := by simpa using hstart
      have ih := extent_go bytes [] index List.not_mem_nil hle'
      have hline := length_withoutReturn start.reverse
      rw [List.length_reverse] at hline
      simp only [List.reverse_nil, List.nil_append, List.length_nil, Nat.zero_add] at ih
      rw [if_pos rfl, List.count_cons_self, List.take_succ_cons, behindLineFeed_append_cons,
        pairedEnds_append_cons _ hnot]
      simp only [extent, List.foldr_cons] at ih ⊢
      omega
    · have hstart' : lineFeed ∉ b :: start := by simpa [hstart] using fun e => hb e.symm
      have ih := extent_go bytes (b :: start) index hstart' hle'
      rw [List.reverse_cons, List.append_assoc, List.singleton_append, List.length_cons] at ih
      rw [if_neg hb, List.count_cons_of_ne hb, ih]
      omega

/-- **The way back.** From the place of a byte the offset is the byte's index, less one for each line
end before it that has a carriage return. -/
theorem offset_ofByte (h : index ≤ bytes.length) :
    (Position.ofByte bytes index).offset bytes + pairedEnds (bytes.take index) = index := by
  have hgo := extent_go bytes [] index List.not_mem_nil h
  simp only [List.reverse_nil, List.nil_append, List.length_nil, Nat.zero_add, ← lines_eq] at hgo
  simp only [Position.offset, Position.ofByte, Nat.add_sub_cancel_left]
  exact hgo

/-- Behind a byte that is no line feed the place that is reached is the place of the byte. -/
theorem ofIndex_succ (hb : bytes[index]? = some b) (hne : b ≠ lineFeed) :
    Position.ofIndex bytes (index + 1) = Position.ofByte bytes index := by
  have htake : bytes.take (index + 1) = bytes.take index ++ [b] := by
    rw [List.take_add_one, hb]
    rfl
  simp only [Position.ofIndex, Position.ofByte, behindLineFeed, htake, List.count_append,
    List.reverse_append, List.reverse_singleton, List.singleton_append]
  simp [hne, Nat.add_comm 1]

end Text

/-! ### Spans -/

/-- A part of a text of some size lies inside it. -/
def Span.Inside (s : Span) (size : Nat) : Prop := s.start + s.length ≤ size

theorem Span.inside_clamp (s : Span) (size : Nat) : (s.clamp size).Inside size := by
  have hstart : min s.start size ≤ size := Nat.min_le_right ..
  have hlength : min s.length (size - min s.start size) ≤ size - min s.start size :=
    Nat.min_le_right ..
  show min s.start size + min s.length (size - min s.start size) ≤ size
  omega

namespace Diagnostic

open Text

/-- Inside a text a place is pointed at with one byte. -/
theorem spanAt_of_lt {bytes : List UInt8} {place : Position} (h : place.offset bytes < bytes.length) :
    spanAt bytes place = ⟨place.offset bytes, 1⟩ := by
  have hstart : min (place.offset bytes) bytes.length = place.offset bytes :=
    Nat.min_eq_left (Nat.le_of_lt h)
  have hlength : min 1 (bytes.length - place.offset bytes) = 1 := by omega
  simp [spanAt, Span.clamp, hstart, hlength]

/-- Whatever place or part an error has, its diagnostic points inside the text. -/
theorem inside_ofError {content : String} {e : LoadError} {s : Span}
    (h : (ofError content e).span = some s) : s.Inside content.toUTF8.toList.length := by
  cases e with
  | notToml path complaint =>
    obtain ⟨p, -, rfl⟩ := Option.map_eq_some_iff.mp h
    exact p.inside_clamp _
  | notJson path place said =>
    obtain rfl := Option.some.inj h
    exact Span.inside_clamp ..
  | unreadable path reason => cases h
  | config e => cases h
  | noPath locale => cases h

/-- The bytes of a text. -/
abbrev bytesOf (content : String) : List UInt8 := content.toUTF8.toList

/-- **A fault is pointed at.** A reader that stops behind a byte tells the place of the byte, unless it
is a line feed. From that place the offset is the index of the byte, less one for each line end before
it that has a carriage return, and the diagnostic points at the one byte that stands there: so it
points at the fault if no such line end stands before it, and only then. Whatever the place, and
whatever part of the text is at fault, the diagnostic points inside the text. -/
theorem fault_pointed_at (content : String) :
    (∀ index b, (bytesOf content)[index]? = some b →
      (b ≠ lineFeed →
        Position.ofIndex (bytesOf content) (index + 1) = Position.ofByte (bytesOf content) index) ∧
      (Position.ofByte (bytesOf content) index).offset (bytesOf content) +
          pairedEnds ((bytesOf content).take index) = index ∧
      ∀ path said,
        (ofError content (.notJson path (Position.ofByte (bytesOf content) index) said)).span =
          some ⟨index - pairedEnds ((bytesOf content).take index), 1⟩ ∧
        ((ofError content (.notJson path (Position.ofByte (bytesOf content) index) said)).span =
            some ⟨index, 1⟩ ↔
          ∀ i, i + 1 < index →
            ¬((bytesOf content)[i]? = some carriageReturn ∧
              (bytesOf content)[i + 1]? = some lineFeed))) ∧
    ∀ e s, (ofError content e).span = some s → s.Inside (bytesOf content).length := by
  refine ⟨fun index b hb => ?_, fun e s => inside_ofError⟩
  have hlt : index < (bytesOf content).length := (List.getElem?_eq_some_iff.mp hb).1
  have hoffset := offset_ofByte (Nat.le_of_lt hlt)
  refine ⟨ofIndex_succ hb, hoffset, fun path said => ?_⟩
  have heq : (Position.ofByte (bytesOf content) index).offset (bytesOf content) =
      index - pairedEnds ((bytesOf content).take index) := by omega
  have hinside : (Position.ofByte (bytesOf content) index).offset (bytesOf content) <
      (bytesOf content).length := by omega
  have hspan :
      (ofError content (.notJson path (Position.ofByte (bytesOf content) index) said)).span =
        some ⟨index - pairedEnds ((bytesOf content).take index), 1⟩ :=
    congrArg some ((spanAt_of_lt hinside).trans (by rw [heq]))
  have hnone : index - pairedEnds ((bytesOf content).take index) = index ↔
      pairedEnds ((bytesOf content).take index) = 0 := by omega
  refine ⟨hspan, ?_⟩
  rw [hspan, Option.some_inj, Span.mk.injEq, hnone, pairedEnds_take_eq_zero_iff]
  exact and_iff_left rfl

/-- A text with a fault behind two line ends, the second of which has a carriage return. -/
def sampleText : String := "\x7b\n\r\n\"g\": x\x7d"

theorem pointed_sample :
    (bytesOf sampleText)[9]? = some 120 ∧ (120 : UInt8) ≠ lineFeed ∧
      Position.ofIndex (bytesOf sampleText) 10 = Position.ofByte (bytesOf sampleText) 9 ∧
      pairedEnds ((bytesOf sampleText).take 9) = 1 ∧
      (ofError sampleText
        (.notJson "en.json" (Position.ofByte (bytesOf sampleText) 9) "expected value")).span =
        some ⟨8, 1⟩ ∧
      (ofError sampleText (.notToml "en.toml" ⟨"", "", some ⟨9, 40⟩⟩)).span = some ⟨9, 2⟩ ∧
      Span.Inside ⟨9, 2⟩ (bytesOf sampleText).length := by
  have hbyte : (bytesOf sampleText)[9]? = some 120 := by decide +kernel
  have hpaired : pairedEnds ((bytesOf sampleText).take 9) = 1 := by decide +kernel
  have hpart : (ofError sampleText (.notToml "en.toml" ⟨"", "", some ⟨9, 40⟩⟩)).span =
      some ⟨9, 2⟩ := by decide +kernel
  obtain ⟨hfaults, hinside⟩ := fault_pointed_at sampleText
  obtain ⟨hplace, -, hspan⟩ := hfaults 9 120 hbyte
  refine ⟨hbyte, by decide, hplace (by decide), hpaired, ?_, hpart, hinside _ _ hpart⟩
  rw [(hspan "en.json" _).1, hpaired]

/-- A text with a fault behind a line end with a carriage return. -/
def samplePaired : String := "\x7b\r\n\"g\": x\x7d"

/-- This text wherever a file is read, and a word for texts that are no JSON. -/
def sampleFiles : Files where
  content _ := .ok samplePaired.toUTF8
  toml _ := ⟨"", "", none⟩
  json _ := "expected value at line 2 column 6"

/-- Behind a carriage return in a line end a fault is told right, and pointed at one byte before. -/
theorem points_before_fault :
    Lexicon.ofFile sampleFiles "en.json" "en" =
        .error (.notJson "en.json" ⟨2, 6⟩ "expected value at line 2 column 6") ∧
      (bytesOf samplePaired)[8]? = some 120 ∧
      Position.ofByte (bytesOf samplePaired) 8 = ⟨2, 6⟩ ∧
      ofError samplePaired (.notJson "en.json" ⟨2, 6⟩ "expected value at line 2 column 6") =
        ⟨"syntax error: expected value at line 2 column 6", some ⟨7, 1⟩, none⟩ ∧
      ¬∀ index < (bytesOf samplePaired).length,
        (Position.ofByte (bytesOf samplePaired) index).offset (bytesOf samplePaired) = index := by
  refine ⟨by decide +kernel, by decide +kernel, by decide +kernel, by decide +kernel, fun h => ?_⟩
  have hoffset : (Position.ofByte (bytesOf samplePaired) 8).offset (bytesOf samplePaired) = 7 := by
    decide +kernel
  have hwrong := h 8 (by decide +kernel)
  omega

end Diagnostic
end Concord

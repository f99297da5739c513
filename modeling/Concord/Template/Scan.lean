/-
# Scanning a string

A string is cut, from the left, into *pieces*. A chain is an `@`, a header and
one or more bodies in braces; it stands for a block for each body, all with
the kinds of the header. A chain behind a second `@` or a backslash is escaped:
it stands for its own text, without that first mark. Where neither can be read,
the next character stands for itself. Adjacent texts are one literal segment.

Scanning never fails: a chain that does not close is ordinary text.

Key definitions: `Template.Piece`, `Template.pieces`, `Template.scan`.
Key theorems: `Template.Piece.written_of_read`, `Template.flatten_pieces`.
-/
import Concord.Template.Body

namespace Concord
namespace Template

/-- A character of a header: anything but white space, braces, `|`, `@` and the backslash. -/
def isHeaderChar (c : Char) : Bool :=
  !Text.isBlank c && c != '{' && c != '}' && c != '|' && c != '@' && c != '\\'

/-- A piece of a string, as the scanner cuts it. -/
inductive Piece where
  /-- A character that stands for itself. -/
  | char (c : Char)
  /-- A chain that its mark keeps from being one. -/
  | escaped (mark : Char) (header : List Char) (bodies : List (List Char))
  /-- A header and one or more bodies. -/
  | chain (header : List Char) (bodies : List (List Char))
  deriving DecidableEq, Repr

/-- A body in its braces. -/
def braced (body : List Char) : List Char := '{' :: body ++ ['}']

/-- A header and bodies, without the `@` before them. -/
def chainText (header : List Char) (bodies : List (List Char)) : List Char :=
  header ++ (bodies.map braced).flatten

/-- The text a piece was cut from. -/
def Piece.written : Piece → List Char
  | .char c => [c]
  | .escaped mark header bodies => mark :: '@' :: chainText header bodies
  | .chain header bodies => '@' :: chainText header bodies

/-! ### Reading a chain -/

/-- As many bodies as can be read, and the rest. -/
def readBodies (text : List Char) : List (List Char) × List Char :=
  match text with
  | '{' :: inner =>
    match _h : cutFirst '}' inner with
    | some (body, rest) =>
      let more := readBodies rest
      (body :: more.1, more.2)
    | none => ([], text)
  | _ => ([], text)
termination_by text.length
decreasing_by
  have := length_of_cutFirst ‹_›
  simp only [List.length_cons]
  omega

/-- A header and one or more bodies, and the rest. -/
def readChain (text : List Char) : Option (List Char × List (List Char) × List Char) :=
  let read := readBodies (text.dropWhile isHeaderChar)
  if read.1.isEmpty then none else some (text.takeWhile isHeaderChar, read.1, read.2)

theorem eq_of_readBodies (text : List Char) :
    ((readBodies text).1.map braced).flatten ++ (readBodies text).2 = text := by
  fun_induction readBodies text with
  | case1 inner body rest h more ih =>
    simp only [List.map_cons, List.flatten_cons, List.append_assoc, more, ih]
    rw [eq_of_cutFirst h]
    simp [braced]
  | case2 => rfl
  | case3 => rfl

theorem eq_of_readChain {text header rest : List Char} {bodies : List (List Char)}
    (h : readChain text = some (header, bodies, rest)) :
    chainText header bodies ++ rest = text := by
  unfold readChain at h
  simp only at h
  split at h
  · cases h
  · cases h
    rw [chainText, List.append_assoc, eq_of_readBodies, List.takeWhile_append_dropWhile]

/-- An escaped chain at a character, and the rest. -/
def readEscaped (c : Char) : List Char → Option (Piece × List Char)
  | '@' :: rest =>
    if c = '@' ∨ c = '\\' then
      (readChain rest).map fun r => (.escaped c r.1 r.2.1, r.2.2)
    else none
  | _ => none

/-- A chain at a character, and the rest. -/
def readPlain (c : Char) (text : List Char) : Option (Piece × List Char) :=
  if c = '@' then (readChain text).map fun r => (.chain r.1 r.2.1, r.2.2) else none

/-- The piece at a character, and the rest: an escaped chain, else a chain, else the character. -/
def readPiece (c : Char) (text : List Char) : Piece × List Char :=
  ((readEscaped c text).or (readPlain c text)).getD (.char c, text)

/-- A piece and what is left of the text make up the text. -/
theorem Piece.written_of_read (c : Char) (text : List Char) :
    (readPiece c text).1.written ++ (readPiece c text).2 = c :: text := by
  unfold readPiece
  cases he : readEscaped c text with
  | some r =>
    unfold readEscaped at he
    split at he
    · split at he
      · obtain ⟨⟨header, bodies, rest⟩, hr, rfl⟩ := Option.map_eq_some_iff.mp he
        simp [Piece.written, eq_of_readChain hr]
      · cases he
    · cases he
  | none =>
    cases hp : readPlain c text with
    | some r =>
      unfold readPlain at hp
      split at hp
      · next hc =>
        obtain ⟨⟨header, bodies, rest⟩, hr, rfl⟩ := Option.map_eq_some_iff.mp hp
        simp [Piece.written, eq_of_readChain hr, hc]
      · cases hp
    | none => rfl

theorem Piece.written_ne_nil (p : Piece) : p.written ≠ [] := by
  cases p <;> simp [Piece.written]

theorem length_of_readPiece (c : Char) (text : List Char) :
    (readPiece c text).2.length ≤ text.length := by
  have h := congrArg List.length (Piece.written_of_read c text)
  have hw := List.length_pos_iff.mpr (Piece.written_ne_nil (readPiece c text).1)
  rw [List.length_append, List.length_cons] at h
  omega

/-- The pieces of a text. -/
def pieces : List Char → List Piece
  | [] => []
  | c :: text =>
    let read := readPiece c text
    read.1 :: pieces read.2
termination_by text => text.length
decreasing_by
  have := length_of_readPiece c text
  simp only [List.length_cons]
  omega

/-- Nothing of the text is lost, and nothing is read twice. -/
theorem flatten_pieces (text : List Char) : ((pieces text).map Piece.written).flatten = text := by
  fun_induction pieces text with
  | case1 => rfl
  | case2 c text read ih =>
    simp only [List.map_cons, List.flatten_cons, ih]
    exact Piece.written_of_read c text

/-! ### From pieces to segments -/

/-- The kinds of a header: its parts between `+`, none for an empty header. -/
def parsePath (header : List Char) : List String :=
  if header.isEmpty then [] else (header.splitOn '+').map String.ofList

/-- The block of a header and a body. -/
def blockOf (header body : List Char) : Block where
  path := parsePath header
  alternatives := parseBody (String.ofList body) (parsePath header).length
  source := String.ofList ('@' :: header ++ braced body)

/-- A literal segment before others, unless it is empty. -/
def literalBefore (text : List Char) (segments : List Segment) : List Segment :=
  if text.isEmpty then segments else .literal (String.ofList text) :: segments

/-- The segments of the pieces, with the text that they start with kept apart. -/
def gather : List Piece → List Char × List Segment
  | [] => ([], [])
  | .char c :: rest =>
    let g := gather rest
    (c :: g.1, g.2)
  | .escaped _ header bodies :: rest =>
    let g := gather rest
    ('@' :: chainText header bodies ++ g.1, g.2)
  | .chain header bodies :: rest =>
    let g := gather rest
    ([], bodies.map (fun body => .block (blockOf header body)) ++ literalBefore g.1 g.2)

/-- A string as a template. -/
def scan (text : String) : Template :=
  let g := gather (pieces text.toList)
  ⟨literalBefore g.1 g.2⟩

end Template
end Concord

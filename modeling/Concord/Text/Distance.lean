/-
# Edit distance

The edit distance of two texts is the least number of characters to insert,
remove or replace that turns one into the other. It is computed row by row: the
row of a text holds its distances from all ends of the other text, the longest
end first.

Key definitions: `Text.editDistance`, `Text.distance`.
Key theorem: `Text.distance_eq`.
-/

namespace Concord
namespace Text

/-- The least number of insertions, removals and replacements between two texts. -/
def editDistance : List Char → List Char → Nat
  | [], t => t.length
  | s, [] => s.length
  | c :: s, d :: t =>
    if c = d then editDistance s t
    else 1 + min (editDistance s (d :: t)) (min (editDistance s t) (editDistance (c :: s) t))

/-- The row of a text that starts with a further character, from the row of the text. -/
def nextRow (c : Char) : List Char → List Nat → List Nat
  | d :: t, above :: left :: row =>
    let next := nextRow c t (left :: row)
    (if c = d then left else 1 + min above (min left (next.headD 0))) :: next
  | _, row => row.map (· + 1)

/-- The distances of a text from all ends of another. -/
def distances (t : List Char) : List Char → List Nat
  | [] => (List.range (t.length + 1)).reverse
  | c :: s => nextRow c t (distances t s)

/-- The edit distance of two texts. -/
def distance (s t : List Char) : Nat := (distances t s).headD 0

/-- All ends of a text, from the whole to the empty one. -/
def ends : List Char → List (List Char)
  | [] => [[]]
  | c :: s => (c :: s) :: ends s

theorem ends_cons (t : List Char) : ∃ rest, ends t = t :: rest := by
  cases t <;> simp [ends]

theorem editDistance_nil (s : List Char) : editDistance s [] = s.length := by
  cases s <;> simp [editDistance]

theorem nextRow_eq (c : Char) (s : List Char) : ∀ t : List Char,
    nextRow c t ((ends t).map (editDistance s)) = (ends t).map (editDistance (c :: s))
  | [] => by simp [nextRow, ends, editDistance_nil]
  | d :: t => by
    obtain ⟨rest, hr⟩ := ends_cons t
    have ih := nextRow_eq c s t
    rw [hr, List.map_cons] at ih
    simp only [ends, hr, List.map_cons, nextRow, ih, List.headD_cons]
    congr 1
    by_cases h : c = d <;> simp [editDistance, h]

theorem distances_nil : ∀ t : List Char,
    (List.range (t.length + 1)).reverse = (ends t).map (editDistance [])
  | [] => by simp [ends, editDistance]
  | d :: t => by
    rw [List.length_cons, List.range_succ, List.reverse_append, ends, List.map_cons,
      ← distances_nil t]
    simp [editDistance]

theorem distances_eq (t : List Char) : ∀ s : List Char,
    distances t s = (ends t).map (editDistance s)
  | [] => distances_nil t
  | c :: s => by rw [distances, distances_eq t s, nextRow_eq]

/-- The rows compute the edit distance. -/
theorem distance_eq (s t : List Char) : distance s t = editDistance s t := by
  obtain ⟨rest, hr⟩ := ends_cons t
  rw [distance, distances_eq, hr, List.map_cons, List.headD_cons]

end Text
end Concord

/-
# Suggestions for a name that is not known

At most three of the names that are known and nearly like the one given: a name
of up to three characters may differ by one edit, a longer one by two. The
closest come first, and of equally close ones the smaller name.

Key definition: `suggestions`.
-/
import Concord.Text.Distance

namespace Concord

/-- A known name with its distance from the name that was given. -/
structure Suggestion where
  distance : Nat
  name : String
  deriving DecidableEq, Repr

namespace Suggestion

/-- The order of suggestions: by distance, then by name. -/
def le (a b : Suggestion) : Bool :=
  decide (a.distance < b.distance) || (a.distance == b.distance && decide (a.name ≤ b.name))

end Suggestion

/-- How many edits a suggestion may be away from a name. -/
def suggestionLimit (name : String) : Nat := if name.toList.length ≤ 3 then 1 else 2

/-- How many suggestions are made. -/
def suggestionCount : Nat := 3

/-- The known names that are close enough to a name, with their distances. -/
def closeNames (name : String) (known : List String) : List Suggestion :=
  (known.map fun k => ⟨Text.distance name.toList k.toList, k⟩).filter fun s =>
    s.distance ≤ suggestionLimit name

/-- The closest known names for a name. -/
def suggestions (name : String) (known : List String) : List String :=
  (((closeNames name known).mergeSort Suggestion.le).take suggestionCount).map (·.name)

end Concord

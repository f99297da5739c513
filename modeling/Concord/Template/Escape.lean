/-
# Backslashes in blocks

Inside the braces of a block a backslash escapes the character after it,
whatever that is; so of two backslashes the second is escaped and escapes
nothing. `cutFirst` finds the first occurrence of a mark that is not escaped
and is what ends a body, separates alternatives (`cut`) and separates tokens
from wording. `unescape` removes backslashes from a wording: those directly
before `|`, `:`, an opening or a closing brace.

Key definitions: `Template.cutFirst`, `Template.cut`, `Template.unescape`.
Key theorem: `Template.eq_of_cutFirst`.
-/

namespace Concord
namespace Template

/-- The text before and after the first mark that no backslash escapes; none if there is no such
mark, or a last backslash has nothing to escape before one is found. -/
def cutFirst (mark : Char) : List Char → Option (List Char × List Char)
  | [] => none
  | c :: rest =>
    if c = mark then some ([], rest)
    else if c = '\\' then
      match rest with
      | [] => none
      | d :: rest => (cutFirst mark rest).map fun p => (c :: d :: p.1, p.2)
    else (cutFirst mark rest).map fun p => (c :: p.1, p.2)

/-- Cutting loses nothing but the mark. -/
theorem eq_of_cutFirst {mark : Char} {text before after : List Char}
    (h : cutFirst mark text = some (before, after)) : text = before ++ mark :: after := by
  fun_induction cutFirst mark text generalizing before after with
  | case1 => cases h
  | case2 => cases h; rfl
  | case3 => cases h
  | case4 d rest hne ih =>
    obtain ⟨⟨b, a⟩, hp, he⟩ := Option.map_eq_some_iff.mp h
    cases he
    simp [ih hp]
  | case5 c rest hne hb ih =>
    obtain ⟨⟨b, a⟩, hp, he⟩ := Option.map_eq_some_iff.mp h
    cases he
    simp [ih hp]

/-- What follows a mark is shorter than the whole. -/
theorem length_of_cutFirst {mark : Char} {text before after : List Char}
    (h : cutFirst mark text = some (before, after)) : after.length < text.length := by
  rw [eq_of_cutFirst h, List.length_append, List.length_cons]
  omega

/-- The texts between the marks that no backslash escapes. -/
def cut (mark : Char) (text : List Char) : List (List Char) :=
  match _h : cutFirst mark text with
  | none => [text]
  | some (before, after) => before :: cut mark after
termination_by text.length
decreasing_by exact length_of_cutFirst ‹_›

theorem cut_of_eq_none {mark : Char} {text : List Char} (h : cutFirst mark text = none) :
    cut mark text = [text] := by
  unfold cut
  split
  · rfl
  · next hsome =>
    rw [h] at hsome
    cases hsome

theorem cut_of_eq_some {mark : Char} {text before after : List Char}
    (h : cutFirst mark text = some (before, after)) :
    cut mark text = before :: cut mark after := by
  conv => lhs; unfold cut
  split
  · next hnone =>
    rw [h] at hnone
    cases hnone
  · next hsome =>
    rw [h] at hsome
    cases hsome
    rfl

theorem cut_ne_nil (mark : Char) (text : List Char) : cut mark text ≠ [] := by
  unfold cut
  split <;> simp

/-- The characters that a backslash makes literal in a wording. -/
def escapable : List Char := ['|', ':', '{', '}']

/-- A wording without the backslashes directly before an escapable character. -/
def unescape : List Char → List Char
  | [] => []
  | c :: rest =>
    match rest with
    | [] => [c]
    | d :: rest' =>
      if c = '\\' ∧ d ∈ escapable then d :: unescape rest' else c :: unescape (d :: rest')

end Template
end Concord

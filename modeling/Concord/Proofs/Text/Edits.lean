/-
# The least number of edits

An edit inserts a character somewhere in a text, removes one, or replaces one. The
edit distance goes along both texts from the left, and where they start alike it
skips what they share without trying anything else. It is nevertheless the least
number of edits: it can be spent, and one edit never takes more than one off it.

Key definitions: `Text.Edit`, `Text.Edits`, `Text.IsDistance`.
Key theorems: `Text.edits_editDistance`, `Text.Edit.editDistance_le`, `Text.isDistance_iff`.
-/
import Concord.Text.Distance

namespace Concord
namespace Text

/-- One edit of a text. -/
inductive Edit : List Char → List Char → Prop where
  | insert (p s : List Char) (c : Char) : Edit (p ++ s) (p ++ c :: s)
  | remove (p s : List Char) (c : Char) : Edit (p ++ c :: s) (p ++ s)
  | replace (p s : List Char) (c d : Char) : Edit (p ++ c :: s) (p ++ d :: s)

/-- One text becomes another by so many edits. -/
inductive Edits : Nat → List Char → List Char → Prop where
  | none (s : List Char) : Edits 0 s s
  | more {n : Nat} {s t u : List Char} : Edit s t → Edits n t u → Edits (n + 1) s u

/-- The least number of edits between two texts. -/
def IsDistance (s t : List Char) (n : Nat) : Prop := Edits n s t ∧ ∀ m, Edits m s t → n ≤ m

variable {s s' t : List Char} {n : Nat}

/-! ### Spending the distance -/

theorem Edit.cons (c : Char) (h : Edit s t) : Edit (c :: s) (c :: t) := by
  cases h with
  | insert p s d => exact .insert (c :: p) s d
  | remove p s d => exact .remove (c :: p) s d
  | replace p s d e => exact .replace (c :: p) s d e

theorem Edits.cons (c : Char) (h : Edits n s t) : Edits n (c :: s) (c :: t) := by
  induction h with
  | none s => exact .none _
  | more hfirst _ ih => exact .more (hfirst.cons c) ih

theorem edits_length_nil : ∀ t : List Char, Edits t.length [] t
  | [] => .none []
  | c :: t => .more (.insert [] [] c) ((edits_length_nil t).cons c)

theorem edits_nil_length : ∀ s : List Char, Edits s.length s []
  | [] => .none []
  | c :: s => .more (.remove [] s c) (edits_nil_length s)

/-- The edit distance can be spent. -/
theorem edits_editDistance (s t : List Char) : Edits (editDistance s t) s t := by
  induction s, t using editDistance.induct with
  | case1 t =>
    rw [editDistance]
    exact edits_length_nil t
  | case2 s _ =>
    rw [editDistance_nil]
    exact edits_nil_length s
  | case3 s c t ih =>
    rw [editDistance, if_pos rfl]
    exact ih.cons c
  | case4 c s d t hne hremove hreplace hinsert =>
    rw [editDistance, if_neg hne, Nat.add_comm]
    -- Of the three distances the first edit leads to the least one.
    rcases Nat.le_total (editDistance s (d :: t)) (min (editDistance s t) (editDistance (c :: s) t))
      with hle | hle
    · rw [Nat.min_eq_left hle]
      exact .more (.remove [] s c) hremove
    · rw [Nat.min_eq_right hle]
      rcases Nat.le_total (editDistance s t) (editDistance (c :: s) t) with hle | hle
      · rw [Nat.min_eq_left hle]
        exact .more (.replace [] s c d) (hreplace.cons d)
      · rw [Nat.min_eq_right hle]
        exact .more (.insert [] (c :: s) d) (hinsert.cons d)

/-! ### What one edit takes off -/

theorem editDistance_comm (s t : List Char) : editDistance s t = editDistance t s := by
  induction s, t using editDistance.induct with
  | case1 t => rw [editDistance_nil, editDistance]
  | case2 s _ => rw [editDistance_nil, editDistance]
  | case3 s c t ih => rw [editDistance, editDistance, if_pos rfl, if_pos rfl, ih]
  | case4 c s d t hne hremove hreplace hinsert =>
    rw [editDistance, editDistance, if_neg hne, if_neg (Ne.symm hne), hremove, hreplace, hinsert]
    omega

/-- To replace the first character takes one edit. -/
theorem editDistance_cons_cons_le (c d : Char) (s t : List Char) :
    editDistance (c :: s) (d :: t) ≤ 1 + editDistance s t := by
  rw [editDistance]
  split <;> omega

/-- A character in front of a text takes no more than one edit off. The induction is on the other
text; that a character in front of it costs no more than one edit follows on the way. -/
theorem editDistance_le_cons : ∀ (t s : List Char) (c : Char),
    editDistance s t ≤ 1 + editDistance (c :: s) t
  | [], s, c => by
    rw [editDistance_nil, editDistance_nil, List.length_cons]
    omega
  | d :: t, s, c => by
    have hadded : editDistance s (d :: t) ≤ 1 + editDistance s t := by
      cases s with
      | nil =>
        simp only [editDistance, List.length_cons]
        omega
      | cons a s =>
        have ih := editDistance_le_cons t s a
        rw [editDistance]
        split <;> omega
    have ih := editDistance_le_cons t s c
    rw [editDistance]
    split <;> omega

theorem editDistance_cons_le (c : Char) (s t : List Char) :
    editDistance (c :: s) t ≤ 1 + editDistance s t := by
  cases t with
  | nil =>
    rw [editDistance_nil, editDistance_nil, List.length_cons]
    omega
  | cons d t =>
    have hother := editDistance_le_cons s t d
    rw [editDistance_comm t s, editDistance_comm (d :: t) s] at hother
    rw [editDistance]
    split <;> omega

theorem editDistance_replace_le (c d : Char) (s : List Char) : ∀ t : List Char,
    editDistance (c :: s) t ≤ 1 + editDistance (d :: s) t
  | [] => by
    simp only [editDistance_nil, List.length_cons]
    omega
  | e :: t => by
    have hfirst := editDistance_cons_le c s (e :: t)
    have hboth := editDistance_cons_cons_le c e s t
    have ih := editDistance_replace_le c d s t
    have hadded : editDistance (c :: s) (e :: t) ≤ 1 + editDistance (c :: s) t := by
      rw [editDistance_comm (c :: s), editDistance_comm (c :: s)]
      exact editDistance_cons_le e t (c :: s)
    rw [editDistance.eq_def (d :: s)]
    simp only
    split <;> omega

/-- What holds of two texts holds of them behind the same character. -/
theorem editDistance_cons_le_cons (h : ∀ t, editDistance s t ≤ 1 + editDistance s' t) (c : Char) :
    ∀ t, editDistance (c :: s) t ≤ 1 + editDistance (c :: s') t
  | [] => by
    have hnil := h []
    rw [editDistance_nil, editDistance_nil] at hnil ⊢
    simp only [List.length_cons]
    omega
  | d :: t => by
    have hsame := h t
    have hremove := h (d :: t)
    have ih := editDistance_cons_le_cons h c t
    rw [editDistance, editDistance]
    split <;> omega

/-- One edit takes no more than one off the distance. -/
theorem Edit.editDistance_le (h : Edit s s') (t : List Char) :
    editDistance s t ≤ 1 + editDistance s' t := by
  have hbehind : ∀ (p : List Char) {s s' : List Char},
      (∀ t, editDistance s t ≤ 1 + editDistance s' t) →
      ∀ t, editDistance (p ++ s) t ≤ 1 + editDistance (p ++ s') t := by
    intro p
    induction p with
    | nil => exact fun h => h
    | cons c p ih => exact fun h => editDistance_cons_le_cons (ih h) c
  cases h with
  | insert p s c => exact hbehind p (fun t => editDistance_le_cons t s c) t
  | remove p s c => exact hbehind p (fun t => editDistance_cons_le c s t) t
  | replace p s c d => exact hbehind p (fun t => editDistance_replace_le c d s t) t

theorem editDistance_self : ∀ s : List Char, editDistance s s = 0
  | [] => editDistance_nil []
  | c :: s => by rw [editDistance, if_pos rfl, editDistance_self s]

/-- No fewer edits will do. -/
theorem Edits.editDistance_le (h : Edits n s t) : editDistance s t ≤ n := by
  induction h with
  | none s => exact Nat.le_of_eq (editDistance_self s)
  | @more n s t u hfirst _ ih =>
    have hone := hfirst.editDistance_le u
    omega

/-- The rows compute the least number of edits. -/
theorem isDistance_iff : IsDistance s t n ↔ distance s t = n := by
  rw [distance_eq]
  constructor
  · rintro ⟨hedits, hleast⟩
    exact Nat.le_antisymm hedits.editDistance_le (hleast _ (edits_editDistance s t))
  · rintro rfl
    exact ⟨edits_editDistance s t, fun _ hedits => hedits.editDistance_le⟩

end Text
end Concord

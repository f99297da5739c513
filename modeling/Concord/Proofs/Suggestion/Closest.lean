/-
# Which names are suggested

Of the known names those are suggested that are close enough to the one given, the
closest first and the smaller first of two that are as close; and if these are more
than three, the first three. Two different names are never equal in this order, so
there is one such list only, and it does not depend on the order in which the names
are known. A name that is known twice may be suggested twice.

Key definitions: `Suggestion.NoLater`, `Suggestion.Selected`.
Key theorems: `Suggestion.Selected.unique`, `Suggestion.selected_suggestions`,
`Suggestion.selection_determined`.
-/
import Concord.Proofs.Text.Edits
import Concord.Suggestion

namespace Concord
namespace Suggestion

open Text

/-! ### The order of suggestions -/

/-- For a name that was given, one name comes no later than another: it takes fewer edits, or as many
and is no greater. -/
def NoLater (name a b : String) : Prop :=
  ∃ m n, IsDistance name.toList a.toList m ∧ IsDistance name.toList b.toList n ∧
    (m < n ∨ m = n ∧ a ≤ b)

/-- A name is close enough to one that was given: one edit may lie between them if the given name has
no more than three characters, and two edits if it has more. -/
def CloseEnough (name k : String) : Prop :=
  ∃ n, IsDistance name.toList k.toList n ∧ n ≤ if name.toList.length ≤ 3 then 1 else 2

/-- A selection of known names for a name that was given: no more than three, all of them close enough,
in order; and those that are left out, as often as they are known, are not close enough, or three
others are selected and come no later. -/
structure Selected (name : String) (known selection : List String) : Prop where
  few : selection.length ≤ 3
  close : ∀ k ∈ selection, CloseEnough name k
  ordered : selection.Pairwise (NoLater name)
  left : ∃ rest, (selection ++ rest).Perm known ∧
    ∀ k ∈ rest, CloseEnough name k → selection.length = 3 ∧ ∀ s ∈ selection, NoLater name s k

variable {name a b c k : String} {known other selection : List String}

/-- A known name with its distance. -/
def ofName (name k : String) : Suggestion := ⟨Text.distance name.toList k.toList, k⟩

theorem le_iff {s t : Suggestion} :
    s.le t = true ↔ s.distance < t.distance ∨ s.distance = t.distance ∧ s.name ≤ t.name := by
  simp [le]

theorem noLater_iff : NoLater name a b ↔ (ofName name a).le (ofName name b) = true := by
  simp only [NoLater, isDistance_iff, le_iff, exists_and_left, exists_eq_left', ofName]

instance (name a b : String) : Decidable (NoLater name a b) := decidable_of_iff _ noLater_iff.symm

theorem closeEnough_iff :
    CloseEnough name k ↔ (ofName name k).distance ≤ suggestionLimit name := by
  simp only [CloseEnough, isDistance_iff, exists_eq_left', ofName, suggestionLimit]

theorem NoLater.trans (hab : NoLater name a b) (hbc : NoLater name b c) : NoLater name a c := by
  rw [noLater_iff, le_iff] at *
  rcases hab with hab | ⟨hab, hnames⟩
  · rcases hbc with hbc | ⟨hbc, -⟩ <;> exact .inl (by omega)
  · rcases hbc with hbc | ⟨hbc, hnames'⟩
    · exact .inl (by omega)
    · exact .inr ⟨by omega, String.le_trans hnames hnames'⟩

theorem noLater_total (name a b : String) : NoLater name a b ∨ NoLater name b a := by
  rw [noLater_iff, noLater_iff, le_iff, le_iff]
  rcases Nat.lt_trichotomy (ofName name a).distance (ofName name b).distance with h | h | h
  · exact .inl (.inl h)
  · rcases String.le_total a b with hab | hba
    · exact .inl (.inr ⟨h, hab⟩)
    · exact .inr (.inr ⟨h.symm, hba⟩)
  · exact .inr (.inl h)

theorem NoLater.antisymm (hab : NoLater name a b) (hba : NoLater name b a) : a = b := by
  rw [noLater_iff, le_iff] at *
  rcases hab with hab | ⟨hab, hnames⟩ <;> rcases hba with hba | ⟨hba, hnames'⟩
  · omega
  · omega
  · omega
  · exact String.le_antisymm hnames hnames'

/-! ### Names in order -/

/-- The names of a list that are close enough. -/
def closest (name : String) (known : List String) : List String :=
  known.filter fun k => (ofName name k).distance ≤ suggestionLimit name

/-- A list of names in the order of suggestions. -/
def inOrder (name : String) (names : List String) : List String :=
  names.mergeSort fun a b => (ofName name a).le (ofName name b)

theorem mem_closest_iff : k ∈ closest name known ↔ k ∈ known ∧ CloseEnough name k := by
  simp [closest, closeEnough_iff]

theorem perm_inOrder (name : String) (names : List String) : (inOrder name names).Perm names :=
  List.mergeSort_perm ..

theorem inOrder_ordered (name : String) (names : List String) :
    (inOrder name names).Pairwise (NoLater name) := by
  have htrans : ∀ a b c, (ofName name a).le (ofName name b) = true →
      (ofName name b).le (ofName name c) = true → (ofName name a).le (ofName name c) = true := by
    simp only [← noLater_iff]
    exact fun a b c => NoLater.trans
  have htotal : ∀ a b, ((ofName name a).le (ofName name b) || (ofName name b).le (ofName name a)) = true := by
    simp only [Bool.or_eq_true, ← noLater_iff]
    exact noLater_total name
  exact (List.pairwise_mergeSort htrans htotal names).imp noLater_iff.mpr

/-- Names have one order only. -/
theorem eq_inOrder {names l : List String} (hperm : l.Perm names) (hordered : l.Pairwise (NoLater name)) :
    l = inOrder name names :=
  List.Perm.eq_of_pairwise (fun _ _ _ _ => NoLater.antisymm) hordered (inOrder_ordered name names)
    (hperm.trans (perm_inOrder name names).symm)

/-- The suggestions are the first three of the names that are close enough, in order. -/
theorem suggestions_eq (name : String) (known : List String) :
    suggestions name known = (inOrder name (closest name known)).take 3 := by
  have hclose : closeNames name known = (closest name known).map (ofName name) := List.filter_map
  have hsort : (closeNames name known).mergeSort le = (inOrder name (closest name known)).map (ofName name) := by
    rw [hclose]
    exact (List.map_mergeSort (f := ofName name) (s := le) fun _ _ _ _ => rfl).symm
  rw [suggestions, hsort, ← List.map_take, List.map_map]
  exact List.map_id' _

/-! ### Selections -/

/-- The suggestions are a selection. -/
theorem selected_suggestions (name : String) (known : List String) :
    Selected name known (suggestions name known) := by
  have hsplit := List.take_append_drop 3 (inOrder name (closest name known))
  have hordered := inOrder_ordered name (closest name known)
  rw [← hsplit, List.pairwise_append] at hordered
  rw [suggestions_eq]
  refine ⟨List.length_take_le .., fun k hk => ?_, hordered.1, ?_⟩
  · have hmem := (perm_inOrder name _).mem_iff.mp (List.mem_of_mem_take hk)
    exact (mem_closest_iff.mp hmem).2
  · -- Left out are the names behind the first three, and those that are not close enough.
    refine ⟨(inOrder name (closest name known)).drop 3 ++
      known.filter fun k => !decide ((ofName name k).distance ≤ suggestionLimit name), ?_, fun k hk hclose => ?_⟩
    · rw [← List.append_assoc, hsplit]
      exact ((perm_inOrder name _).append_right _).trans (List.filter_append_perm _ known)
    · rcases List.mem_append.mp hk with hk | hk
      · have hlong : 3 < (inOrder name (closest name known)).length := by
          have hpos := List.length_pos_of_mem hk
          rw [List.length_drop] at hpos
          omega
        exact ⟨List.length_take_of_le (Nat.le_of_lt hlong), fun s hs => hordered.2.2 s hs k hk⟩
      · rw [closeEnough_iff] at hclose
        simp [hclose] at hk

/-- There is no other selection. -/
theorem Selected.unique (h : Selected name known selection) : selection = suggestions name known := by
  obtain ⟨rest, hperm, hleft⟩ := h.left
  -- What is left out of the names that are close enough, put in order, comes behind the selection.
  have hclosest : (selection ++ inOrder name (closest name rest)).Perm (closest name known) := by
    have hselection : closest name selection = selection :=
      List.filter_eq_self.mpr fun k hk => decide_eq_true (closeEnough_iff.mp (h.close k hk))
    have hfilter : (closest name (selection ++ rest)).Perm (closest name known) := hperm.filter _
    rw [closest, List.filter_append] at hfilter
    refine List.Perm.trans ?_ hfilter
    exact (List.Perm.of_eq hselection.symm).append (perm_inOrder ..)
  have hbehind : ∀ k ∈ inOrder name (closest name rest),
      selection.length = 3 ∧ ∀ s ∈ selection, NoLater name s k := by
    intro k hk
    obtain ⟨hrest, hclose⟩ := mem_closest_iff.mp ((perm_inOrder ..).mem_iff.mp hk)
    exact hleft k hrest hclose
  have hordered : (selection ++ inOrder name (closest name rest)).Pairwise (NoLater name) :=
    List.pairwise_append.mpr ⟨h.ordered, inOrder_ordered .., fun s hs k hk => (hbehind k hk).2 s hs⟩
  rw [suggestions_eq, ← eq_inOrder hclosest hordered]
  cases hbeyond : inOrder name (closest name rest) with
  | nil => rw [List.append_nil, List.take_of_length_le h.few]
  | cons k _ =>
    have hthree := (hbehind k (by simp [hbeyond])).1
    rw [List.take_left' hthree]

theorem Selected.of_perm (hperm : known.Perm other) (h : Selected name known selection) :
    Selected name other selection := by
  obtain ⟨rest, hknown, hleft⟩ := h.left
  exact ⟨h.few, h.close, h.ordered, rest, hknown.trans hperm, hleft⟩

/-- **Suggestions.** The suggestions are the selection of the known names, and the only one; and they
are the same in whatever order the names are known. -/
theorem selection_determined (name : String) (known : List String) :
    (∀ selection, Selected name known selection ↔ selection = suggestions name known) ∧
      ∀ other, known.Perm other → suggestions name other = suggestions name known := by
  refine ⟨fun selection => ⟨Selected.unique, ?_⟩, fun other hperm => ?_⟩
  · rintro rfl
    exact selected_suggestions name known
  · exact ((selected_suggestions name other).of_perm hperm.symm).unique

/-- Names that are close to `abc`, one of them known twice, and one that is not. -/
def sampleKnown : List String := ["abd", "ab", "xyz", "abcd", "ab"]

theorem determined_sample :
    sampleKnown.Perm sampleKnown.reverse ∧
      suggestions "abc" sampleKnown.reverse = suggestions "abc" sampleKnown ∧
      Selected "abc" sampleKnown ["ab", "ab", "abcd"] := by
  obtain ⟨honly, horder⟩ := selection_determined "abc" sampleKnown
  have hperm : sampleKnown.Perm sampleKnown.reverse := (List.reverse_perm sampleKnown).symm
  have hclosest : ["ab", "ab", "abcd", "abd"].Perm (closest "abc" sampleKnown) := by decide +kernel
  have hordered : ["ab", "ab", "abcd", "abd"].Pairwise (NoLater "abc") := by decide +kernel
  have hthree : ["ab", "ab", "abcd"] = suggestions "abc" sampleKnown := by
    rw [suggestions_eq, ← eq_inOrder hclosest hordered]
    rfl
  exact ⟨hperm, horder _ hperm, (honly _).mpr hthree⟩

end Suggestion
end Concord

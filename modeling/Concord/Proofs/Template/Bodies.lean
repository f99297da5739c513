/-
# What a body keeps

Nothing of a body's structure is lost when its alternatives are read: a body is
parted at the bars that are not escaped, and each part is read as one alternative.
What stands in a part before the first `:` that is not escaped can be written
again from the specs that were read from it, also from those that name nothing.
So it can be told from the text alone whether an alternative has the groups that
the header of its block asks for: by its `+`, and by whether something stands
between them.

Key definitions: `Template.HasGap`, `Template.Divided`, `Alternative.KeptFrom`.
Key theorems: `Spec.written_parse`, `Alternative.writtenGroups_parseGroups`,
`Spec.parse_cases`, `Template.nil_mem_splitOn_iff`, `Alternative.isWellFormed_parseGroups_iff`,
`Template.body_kept`.
-/
import Mathlib.Data.List.Forall2
import Concord.Proofs.Template.Backslashes
import Concord.Proofs.Template.Written

namespace Concord

/-! ### Writing what was read -/

/-- What a spec was read from can be written again. -/
theorem Spec.written_parse (text : String) : (Spec.parse text).written = text.toList := by
  unfold Spec.parse
  by_cases hstar : text = "*"
  · rw [if_pos hstar, hstar]
    rfl
  · rw [if_neg hstar]
    split
    · next rest heq =>
      dsimp only
      split
      · simp [written, heq]
      · rfl
    · split <;> rfl

/-- What was read names something, or is a wildcard, or else nothing of the kind is written as it is. -/
theorem Spec.parse_cases (text : String) :
    (Spec.parse text).IsWritable ∨
      Spec.parse text = .invalid text ∧ ∀ other : Spec, other.IsWritable → other.written ≠ text.toList := by
  by_cases hwritable : (Spec.parse text).IsWritable
  · exact .inl hwritable
  · have hinvalid : Spec.parse text = .invalid text := by
      unfold Spec.parse at hwritable ⊢
      split
      · next hstar =>
        rw [if_pos hstar] at hwritable
        exact absurd trivial hwritable
      · grind [Spec.IsWritable]
    refine .inr ⟨hinvalid, fun other hother heq => hwritable ?_⟩
    have hread := Spec.parse_written hother
    rw [heq, String.ofList_toList] at hread
    rwa [hread]

namespace Alternative

theorem writtenGroup_parseGroup (text : List Char) : writtenGroup (parseGroup text) = text := by
  unfold parseGroup writtenGroup
  split
  · next hempty =>
    rw [List.isEmpty_iff.mp hempty]
    rfl
  · have hspecs : ((text.splitOn ',').map fun s => Spec.parse (String.ofList s)).map Spec.written =
        text.splitOn ',' := by
      simp [Function.comp_def, Spec.written_parse]
    rw [hspecs, List.intercalate_splitOn]

/-- The groups that were read from a text can be written as that text, however many are asked for. -/
theorem writtenGroups_parseGroups (arity : Nat) (text : List Char) :
    writtenGroups (parseGroups arity text) = text := by
  unfold parseGroups writtenGroups
  split
  · have hgroups : ((text.splitOn '+').map parseGroup).map writtenGroup = text.splitOn '+' := by
      simp [Function.comp_def, writtenGroup_parseGroup]
    rw [hgroups, List.intercalate_splitOn]
  · rw [List.map_singleton, List.intercalate_singleton, writtenGroup_parseGroup]

theorem parseGroup_eq_nil_iff {text : List Char} : parseGroup text = [] ↔ text = [] := by
  unfold parseGroup
  split
  · next hempty => exact iff_of_true rfl (List.isEmpty_iff.mp hempty)
  · next hne =>
    rw [List.isEmpty_iff] at hne
    rw [List.map_eq_nil_iff]
    exact iff_of_false (List.splitOn_ne_nil ',' text) hne

end Alternative

/-! ### Separators -/

namespace Template

/-- At the start of a text, or behind a separator in it, nothing stands before the next separator or
the end. -/
def HasGap (sep : Char) (text : List Char) : Prop :=
  ∃ rest, (rest = text ∨ (sep :: rest) <:+ text) ∧ ∀ c ∈ rest.head?, c = sep

/-- The tokens of an alternative are divided as a header of so many kinds asks for: into a group for
each kind, none of them empty. For one kind, or none, all of them are one group. -/
def Divided (arity : Nat) (tokens : List Char) : Prop :=
  if 1 < arity then tokens.count '+' = max arity 1 - 1 ∧ ¬HasGap '+' tokens else tokens ≠ []

variable {sep : Char} {text : List Char}

theorem length_splitOn (sep : Char) (text : List Char) :
    (text.splitOn sep).length = text.count sep + 1 := by
  induction text with
  | nil => rfl
  | cons c text ih =>
    rw [List.splitOn_cons_eq_if_modifyHead, List.count_cons]
    split <;> simp [ih]

/-- A text starts with an empty part if it starts with a separator, or is empty. -/
theorem head?_splitOn_eq_nil_iff :
    (text.splitOn sep).head? = some [] ↔ ∀ c ∈ text.head?, c = sep := by
  cases text with
  | nil => simp
  | cons c text =>
    obtain ⟨part, parts, hsplit⟩ := List.exists_cons_of_ne_nil (List.splitOn_ne_nil sep text)
    rw [List.splitOn_cons_eq_if_modifyHead, hsplit]
    by_cases hc : c = sep <;> simp [hc]

theorem nil_mem_splitOn_iff_tail :
    [] ∈ text.splitOn sep ↔ (∀ c ∈ text.head?, c = sep) ∨ [] ∈ (text.splitOn sep).tail := by
  obtain ⟨part, parts, hsplit⟩ := List.exists_cons_of_ne_nil (List.splitOn_ne_nil sep text)
  rw [← head?_splitOn_eq_nil_iff, hsplit, List.mem_cons, List.head?_cons, List.tail_cons,
    Option.some_inj, eq_comm]

/-- A later part is empty if behind some separator nothing stands. -/
theorem nil_mem_tail_splitOn_iff :
    [] ∈ (text.splitOn sep).tail ↔ ∃ rest, (sep :: rest) <:+ text ∧ ∀ c ∈ rest.head?, c = sep := by
  induction text with
  | nil => simp
  | cons c text ih =>
    simp only [List.splitOn_cons_eq_if_modifyHead, List.suffix_cons_iff, List.cons.injEq, or_and_right,
      exists_or]
    by_cases hc : c = sep
    · subst hc
      rw [if_pos (beq_self_eq_true c), List.tail_cons, nil_mem_splitOn_iff_tail, ih]
      simp
    · have hne : ¬sep = c := fun h => hc h.symm
      rw [if_neg (by rwa [beq_iff_eq]), List.tail_modifyHead, ih]
      simp [hne]

/-- A text has an empty part if it has a gap. -/
theorem nil_mem_splitOn_iff : [] ∈ text.splitOn sep ↔ HasGap sep text := by
  rw [nil_mem_splitOn_iff_tail, nil_mem_tail_splitOn_iff, HasGap]
  simp only [or_and_right, exists_or, exists_eq_left]

end Template

/-! ### Alternatives -/

namespace Alternative

open Template

/-- What an alternative, read in a block with a header of so many kinds, keeps of the part of the
body that it was read from. -/
structure KeptFrom (arity : Nat) (part : List Char) (a : Alternative) : Prop where
  /-- It is free if no `:` divides its part. -/
  free : a.isFree = true ↔ ∀ i, ¬BareAt ':' part i
  /-- A spec of it is invalid only if no spec that can be written is written as it is. -/
  specs : ∀ spec ∈ a.specs, spec.IsWritable ∨
    ∃ text, spec = .invalid text ∧ ∀ other : Spec, other.IsWritable → other.written ≠ text.toList
  /-- Its specs, written again, are what stands before the first `:`. -/
  written : ∀ tokens wording, FirstBare ':' part tokens wording → writtenGroups a.groups = tokens
  /-- In a block of one kind, or of none named, it has one group. -/
  single : ∀ tokens wording, FirstBare ':' part tokens wording → arity ≤ 1 → a.groups.length = 1
  /-- It has the groups that the header asks for if its tokens are so divided. -/
  wellFormed : ∀ tokens wording, FirstBare ':' part tokens wording →
    (a.isWellFormed arity = true ↔ Divided arity tokens)
  /-- Its wording is what stands behind the first `:`. -/
  wording : ∀ tokens wording, FirstBare ':' part tokens wording →
    a.wording = Wording.parse (String.ofList wording)
  /-- Without a `:` the whole part is its wording. -/
  freeWording : (∀ i, ¬BareAt ':' part i) → a.wording = Wording.parse (String.ofList part)

variable {arity : Nat} {text tokens wording part : List Char}

theorem exists_parse_of_mem_parseGroups {group : List Spec} {spec : Spec}
    (hgroup : group ∈ parseGroups arity text) (hspec : spec ∈ group) : ∃ s, spec = Spec.parse s := by
  have hread : ∀ t, spec ∈ parseGroup t → ∃ s, spec = Spec.parse s := by
    intro t ht
    unfold parseGroup at ht
    split at ht
    · exact absurd ht List.not_mem_nil
    · obtain ⟨s, -, rfl⟩ := List.mem_map.mp ht
      exact ⟨String.ofList s, rfl⟩
  unfold parseGroups at hgroup
  split at hgroup
  · obtain ⟨t, -, rfl⟩ := List.mem_map.mp hgroup
    exact hread t hspec
  · obtain rfl := List.mem_singleton.mp hgroup
    exact hread text hspec

theorem parseGroups_ne_nil (arity : Nat) (text : List Char) : parseGroups arity text ≠ [] := by
  unfold parseGroups
  split
  · rw [Ne, List.map_eq_nil_iff]
    exact List.splitOn_ne_nil '+' text
  · exact List.cons_ne_nil _ _

theorem length_parseGroups (harity : arity ≤ 1) (text : List Char) :
    (parseGroups arity text).length = 1 := by
  rw [parseGroups, if_neg (by omega), List.length_singleton]

/-- Groups are read as a header asks for if the text is so divided. -/
theorem isWellFormed_parseGroups_iff {w : Wording} :
    (⟨parseGroups arity text, w⟩ : Alternative).isWellFormed arity = true ↔ Divided arity text := by
  unfold isWellFormed Divided parseGroups
  by_cases harity : 1 < arity
  · have hcount : (text.splitOn '+').length = max arity 1 ↔ text.count '+' = max arity 1 - 1 := by
      rw [length_splitOn]
      omega
    have hempty : (∀ part ∈ text.splitOn '+', ¬parseGroup part = []) ↔ ¬HasGap '+' text := by
      rw [← nil_mem_splitOn_iff]
      simp only [parseGroup_eq_nil_iff]
      exact ⟨fun h hmem => h [] hmem rfl, fun h part hpart heq => h (heq ▸ hpart)⟩
    rw [if_pos harity, if_pos harity, ← hcount, ← hempty]
    simp
  · have hmax : max arity 1 = 1 := by omega
    rw [if_neg harity, if_neg harity, hmax]
    simp [parseGroup_eq_nil_iff]

theorem parse_of_firstBare (h : FirstBare ':' part tokens wording) :
    parse arity part = ⟨parseGroups arity tokens, Wording.parse (String.ofList wording)⟩ := by
  rw [parse, (firstBare_iff (by decide)).mp h]

theorem parse_of_not_bareAt (h : ∀ i, ¬BareAt ':' part i) :
    parse arity part = ⟨[], Wording.parse (String.ofList part)⟩ := by
  rw [parse, (cutFirst_eq_none_iff (by decide)).mpr h]

/-- An alternative keeps what it is read from. -/
theorem keptFrom_parse (arity : Nat) (part : List Char) : KeptFrom arity part (parse arity part) where
  free := by
    constructor
    · intro hfree i hi
      obtain ⟨tokens, wording, hfirst⟩ := exists_firstBare hi
      rw [parse_of_firstBare hfirst, isFree, List.isEmpty_iff] at hfree
      exact parseGroups_ne_nil arity tokens hfree
    · intro h
      rw [parse_of_not_bareAt h]
      rfl
  specs spec hspec := by
    obtain ⟨group, hgroup, hmem⟩ := List.mem_flatten.mp hspec
    obtain ⟨s, rfl⟩ : ∃ s, spec = Spec.parse s := by
      unfold parse at hgroup
      split at hgroup
      · exact absurd hgroup List.not_mem_nil
      · exact exists_parse_of_mem_parseGroups hgroup hmem
    exact (Spec.parse_cases s).imp_right fun h => ⟨s, h⟩
  written tokens wording h := by
    rw [parse_of_firstBare h]
    exact writtenGroups_parseGroups arity tokens
  single tokens wording h harity := by
    rw [parse_of_firstBare h]
    exact length_parseGroups harity tokens
  wellFormed tokens wording h := by
    rw [parse_of_firstBare h]
    exact isWellFormed_parseGroups_iff
  wording tokens wording h := by rw [parse_of_firstBare h]
  freeWording h := by rw [parse_of_not_bareAt h]

end Alternative

/-! ### Main statement -/

/-- **Nothing of a body is lost.** A body is parted in one way at the bars that are not escaped, and
for each of the parts, in order, there is one alternative, which keeps what stands there: it is free
if there is no `:` that is not escaped, and else its specs can be written as the text before the
first one, which tells whether it has the groups that the header asks for. -/
theorem Template.body_kept (body : String) (arity : Nat) :
    ∃ parts, (∀ other, Parted '|' body.toList other ↔ other = parts) ∧
      List.Forall₂ (Alternative.KeptFrom arity) parts (parseBody body arity) := by
  refine ⟨cut '|' body.toList, fun other => parted_iff (by decide), ?_⟩
  rw [parseBody, List.forall₂_map_right_iff, List.forall₂_same]
  exact fun part _ => Alternative.keptFrom_parse arity part

end Concord

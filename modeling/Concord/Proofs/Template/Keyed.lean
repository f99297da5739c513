/-
# Keyed inflections as they are written

The block of a keyed inflection is made of its keys and texts, without being
scanned. As it is written, it is a pattern, which is scanned as this very block:
if the kind is a name, the keys list specs, and the marks that end texts stand
in the texts only escaped. A free text has no tokens, so there `:` is such a mark
too.

Key definitions: `Spec.ListedAs`, `Keyed.IsWritable`, `Keyed.parts`.
Key theorems: `Template.scan_chain`, `Keyed.IsWritable.parse_parts`,
`Keyed.IsWritable.scan_source`.
-/
import Concord.Keyed
import Concord.Proofs.Template.Written

namespace Concord

/-- Some specs, at least one, are listed as a key. -/
def Spec.ListedAs (specs : List Spec) (key : String) : Prop :=
  specs ≠ [] ∧ (∀ spec ∈ specs, spec.IsWritable) ∧ key.toList = Alternative.writtenGroup specs

namespace Keyed

/-- A keyed inflection whose block is read as it is written. -/
structure IsWritable (k : Keyed) : Prop where
  kind : ∀ kind ∈ k.kind, Name.isKind kind = true
  keys : ∀ t ∈ k.tokens, ∃ specs, Spec.ListedAs specs t.1
  texts : ∀ t ∈ k.tokens, Template.Clear '|' t.2.toList ∧ Template.Clear '}' t.2.toList
  free : ∀ text ∈ k.free, Template.Clear '|' text.toList ∧ Template.Clear '}' text.toList ∧
    Template.Clear ':' text.toList
  ne_nil : k.tokens ≠ [] ∨ k.free ≠ none

/-- The alternatives of the block as they are written. -/
def parts (k : Keyed) : List (List Char) :=
  (k.tokens.map fun t => t.1.toList ++ ':' :: t.2.toList) ++ k.free.toList.map String.toList

end Keyed

/-! ### Keys -/

namespace Spec.ListedAs

open Template

variable {specs : List Spec} {key : String}

theorem clear (h : ListedAs specs key) {mark : Char} (hmark : mark ∈ escapable) :
    Clear mark key.toList := by
  obtain ⟨-, hspecs, hkey⟩ := h
  have hgroups : Alternative.writtenGroups [specs] = key.toList := by
    rw [Alternative.writtenGroups, List.map_singleton, List.intercalate_singleton, hkey]
  rw [← hgroups]
  exact Alternative.clear_writtenGroups (List.forall_mem_singleton.mpr hspecs) hmark

/-- A key before a `:` and a text is read as the alternative of the key. -/
theorem parse_alternative (h : ListedAs specs key) {arity : Nat} (harity : arity ≤ 1)
    (text : String) :
    Alternative.parse arity (key.toList ++ ':' :: text.toList) = Keyed.alternative key text := by
  have hempty : ¬key.toList.isEmpty = true := by
    obtain ⟨hne, hspecs, hkey⟩ := h
    rw [List.isEmpty_iff, hkey]
    exact Alternative.writtenGroup_ne_nil hne hspecs
  unfold Alternative.parse
  rw [cutFirst_of_clear (by decide) (h.clear (by decide))]
  dsimp only
  rw [Alternative.parseGroups, if_neg (by omega), Alternative.parseGroup, if_neg hempty,
    String.ofList_toList]
  rfl

/-- The specs of a key are those that are read from it. -/
theorem eq_parseGroup (h : ListedAs specs key) : Alternative.parseGroup key.toList = specs := by
  obtain ⟨-, hspecs, hkey⟩ := h
  rw [hkey, Alternative.parseGroup_written hspecs]

end Spec.ListedAs

/-! ### Blocks -/

namespace Template

/-- A chain of one body, and nothing else, is scanned as a block. -/
theorem scan_chain {header body : List Char} (h : Chain header [body]) :
    (scan (String.ofList ('@' :: header ++ braced body))).segments =
      [.block (blockOf header body)] := by
  have hcut : Cut ('@' :: header ++ braced body) [.chain header [body]] := by
    have hchain := Cut.chain_append h (ends_of_head? (by decide)) .nil
    simpa [chainText] using hchain
  unfold scan
  rw [String.toList_ofList, ← cut_iff.mp hcut]
  rfl

end Template

namespace Keyed

open Template

variable {k : Keyed}

theorem toList_body (k : Keyed) : k.body.toList = ['|'].intercalate k.parts := by
  have hmark : "|".toList = ['|'] := rfl
  simp [body, parts, String.toList_intercalate, hmark, Function.comp_def]

theorem source_eq (k : Keyed) :
    k.toBlock.source =
      String.ofList ('@' :: writtenHeader k.kind.toList ++ braced (['|'].intercalate k.parts)) := by
  have hheader : (k.kind.getD "").toList = writtenHeader k.kind.toList := by
    cases k.kind <;> simp [writtenHeader]
  rw [← String.toList_inj, String.toList_ofList, ← hheader, ← toList_body]
  simp [toBlock, braced]

/-- A mark that stands in the texts only escaped stands so in the alternatives. -/
theorem IsWritable.clear_parts (h : k.IsWritable) {mark : Char} (hmark : mark ∈ escapable)
    (hcolon : mark ≠ ':') (htexts : ∀ t ∈ k.tokens, Clear mark t.2.toList)
    (hfree : ∀ text ∈ k.free, Clear mark text.toList) : ∀ part ∈ k.parts, Clear mark part := by
  intro part hpart
  rcases List.mem_append.mp hpart with hp | hp
  · obtain ⟨t, ht, rfl⟩ := List.mem_map.mp hp
    obtain ⟨specs, hlisted⟩ := h.keys t ht
    exact (hlisted.clear hmark).append (.plain (by decide) hcolon.symm (htexts t ht))
  · obtain ⟨text, ht, rfl⟩ := List.mem_map.mp hp
    exact hfree text (Option.mem_toList.mp ht)

theorem IsWritable.clear_bar (h : k.IsWritable) : ∀ part ∈ k.parts, Clear '|' part :=
  h.clear_parts (by decide) (by decide) (fun t ht => (h.texts t ht).1) fun text ht =>
    (h.free text ht).1

theorem IsWritable.clear_brace (h : k.IsWritable) : ∀ part ∈ k.parts, Clear '}' part :=
  h.clear_parts (by decide) (by decide) (fun t ht => (h.texts t ht).2) fun text ht =>
    (h.free text ht).2.1

/-- The alternatives are read as those of the keys. -/
theorem IsWritable.parse_parts (h : k.IsWritable) {arity : Nat} (harity : arity ≤ 1) :
    k.parts.map (Alternative.parse arity) = k.toBlock.alternatives := by
  have htyped : ∀ t ∈ k.tokens,
      Alternative.parse arity (t.1.toList ++ ':' :: t.2.toList) = alternative t.1 t.2 := by
    intro t ht
    obtain ⟨specs, hlisted⟩ := h.keys t ht
    exact hlisted.parse_alternative harity t.2
  have hfree : ∀ text ∈ k.free.toList,
      Alternative.parse arity text.toList = ⟨[], Wording.parse text⟩ := by
    intro text ht
    have hclear := (h.free text (Option.mem_toList.mp ht)).2.2
    rw [Alternative.parse, cutFirst_eq_none_of_clear (by decide) hclear, String.ofList_toList]
  unfold parts toBlock
  rw [List.map_append, List.map_map, List.map_map]
  exact congrArg₂ (· ++ ·) (List.map_congr_left htyped) (List.map_congr_left hfree)

theorem IsWritable.parts_ne_nil (h : k.IsWritable) : k.parts ≠ [] := by
  rw [parts, Ne, List.append_eq_nil_iff, List.map_eq_nil_iff, List.map_eq_nil_iff,
    Option.toList_eq_nil_iff, not_and_or]
  exact h.ne_nil

theorem IsWritable.chain (h : k.IsWritable) :
    Chain (writtenHeader k.kind.toList) [['|'].intercalate k.parts] where
  isHeader := isHeaderChar_of_mem_writtenHeader fun kind hk => h.kind kind (Option.mem_toList.mp hk)
  clear := List.forall_mem_singleton.mpr
    (Clear.intercalate (by decide) (by decide) h.clear_brace)
  ne_nil := List.cons_ne_nil _ _

/-- A keyed inflection, as it is written, is scanned as its block. -/
theorem IsWritable.scan_source (h : k.IsWritable) :
    (scan k.toBlock.source).segments = [.block k.toBlock] := by
  have hpath : parsePath (writtenHeader k.kind.toList) = k.kind.toList :=
    parsePath_written fun kind hk => h.kind kind (Option.mem_toList.mp hk)
  have harity : k.kind.toList.length ≤ 1 := by
    cases k.kind <;> simp
  have hbody : parseBody (String.ofList (['|'].intercalate k.parts)) k.kind.toList.length =
      k.toBlock.alternatives := by
    rw [parseBody, String.toList_ofList,
      cut_intercalate (by decide) h.parts_ne_nil h.clear_bar, h.parse_parts harity]
  rw [source_eq, scan_chain h.chain, blockOf, hpath, hbody, ← source_eq]
  rfl

instance (key : String) : Decidable (∃ specs, Spec.ListedAs specs key) :=
  have : Decidable (Spec.ListedAs (Alternative.parseGroup key.toList) key) :=
    inferInstanceAs (Decidable (_ ∧ _ ∧ _))
  decidable_of_iff (Spec.ListedAs (Alternative.parseGroup key.toList) key)
    ⟨fun h => ⟨_, h⟩, fun ⟨_, h⟩ => h.eq_parseGroup.symm ▸ h⟩

instance (k : Keyed) : Decidable k.IsWritable :=
  decidable_of_iff
    ((∀ kind ∈ k.kind, Name.isKind kind = true) ∧
      (∀ t ∈ k.tokens, ∃ specs, Spec.ListedAs specs t.1) ∧
      (∀ t ∈ k.tokens, Clear '|' t.2.toList ∧ Clear '}' t.2.toList) ∧
      (∀ text ∈ k.free, Clear '|' text.toList ∧ Clear '}' text.toList ∧ Clear ':' text.toList) ∧
      (k.tokens ≠ [] ∨ k.free ≠ none))
    ⟨fun h => ⟨h.1, h.2.1, h.2.2.1, h.2.2.2.1, h.2.2.2.2⟩,
      fun h => ⟨h.kind, h.keys, h.texts, h.free, h.ne_nil⟩⟩

end Keyed
end Concord

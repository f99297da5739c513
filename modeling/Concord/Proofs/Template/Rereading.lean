/-
# A block is read again from its source

A block keeps the text that it stands for: an `@`, the header of its chain and
its own body. Of a later body in a chain the header stood further to the left, so
this text need not be in the string at all. Scanned by itself it is the block
again, whatever was around the block: what a header may hold and where a body
ends is told from the header and the body alone. So the bodies of a chain may as
well be written with a header each.

Key definitions: `Template.apart`.
Key theorems: `Template.mem_blocks_scan_iff`, `Template.cut_apart`,
`Template.blocks_reread`.
-/
import Concord.Proofs.Template.Segments
import Concord.Proofs.Template.Keyed

namespace Concord
namespace Template

variable {text : List Char} {ps : List Piece} {header : List Char} {bodies : List (List Char)}
  {b : Block}

/-! ### Blocks and the chains they come from -/

theorem mem_blocks_iff {t : Template} : b ∈ t.blocks ↔ .block b ∈ t.segments := by
  unfold blocks
  rw [List.mem_filterMap]
  constructor
  · rintro ⟨segment, hmem, hb⟩
    cases segment with
    | literal text => cases hb
    | block b' =>
      cases hb
      exact hmem
  · exact fun hmem => ⟨.block b, hmem, rfl⟩

theorem block_mem_iff_atoms {segments : List Segment} :
    .block b ∈ segments ↔ .inr b ∈ atoms segments := by
  induction segments with
  | nil => simp [atoms]
  | cons segment rest ih => cases segment <;> simp [atoms, ih]

/-- Putting texts together neither adds nor drops a block. -/
theorem Merges.block_mem_iff {parts merged : List Segment} (h : Merges parts merged) :
    .block b ∈ merged ↔ .block b ∈ parts := by
  rw [block_mem_iff_atoms, h.atoms_eq, ← block_mem_iff_atoms]

theorem Piece.block_mem_iff {p : Piece} :
    .block b ∈ p.segments ↔
      ∃ header bodies, p = .chain header bodies ∧ ∃ body ∈ bodies, b = blockOf header body := by
  cases p with
  | char c => simp [Piece.segments]
  | escaped mark header bodies => simp [Piece.segments]
  | chain header bodies => simp [Piece.segments, eq_comm]

theorem Cut.chain_of_mem (h : Cut text ps) (hp : .chain header bodies ∈ ps) :
    Chain header bodies := by
  induction h with
  | nil => exact absurd hp List.not_mem_nil
  | cons hcut _ ih =>
    rcases List.mem_cons.mp hp with rfl | hp
    · cases hcut with
      | chain _ hchain _ _ => exact hchain
    · exact ih hp

/-- The blocks of a string are those of the bodies of its chains. -/
theorem mem_blocks_scan_iff {text : String} (hcut : Cut text.toList ps) :
    b ∈ (scan text).blocks ↔
      ∃ header bodies, .chain header bodies ∈ ps ∧ ∃ body ∈ bodies, b = blockOf header body := by
  rw [mem_blocks_iff, (merges_scan hcut).block_mem_iff, List.mem_flatten]
  constructor
  · rintro ⟨segments, hsegments, hb⟩
    obtain ⟨p, hp, rfl⟩ := List.mem_map.mp hsegments
    obtain ⟨header, bodies, rfl, hbody⟩ := Piece.block_mem_iff.mp hb
    exact ⟨header, bodies, hp, hbody⟩
  · rintro ⟨header, bodies, hp, hbody⟩
    exact ⟨_, List.mem_map_of_mem hp, Piece.block_mem_iff.mpr ⟨header, bodies, rfl, hbody⟩⟩

/-- A body of a chain makes a chain by itself. -/
theorem Chain.of_mem {body : List Char} (h : Chain header bodies) (hbody : body ∈ bodies) :
    Chain header [body] where
  isHeader := h.isHeader
  clear := List.forall_mem_singleton.mpr (h.clear body hbody)
  ne_nil := List.cons_ne_nil body []

/-- The source of a block is scanned as this block. -/
theorem scan_source_of_mem {text : String} (hb : b ∈ (scan text).blocks) :
    (scan b.source).segments = [.block b] := by
  have hcut : Cut text.toList (pieces text.toList) := cut_iff.mpr rfl
  obtain ⟨header, bodies, hp, body, hbody, rfl⟩ := (mem_blocks_scan_iff hcut).mp hb
  have hchain : Chain header [body] := (hcut.chain_of_mem hp).of_mem hbody
  exact scan_chain hchain

/-! ### Headers written for each body -/

/-- Chains of one body each, all with the same header. -/
def apart (header : List Char) (bodies : List (List Char)) : List Char :=
  (bodies.map fun body => '@' :: chainText header [body]).flatten

/-- Where such chains start, no body can be read: an `@` comes first, or nothing. -/
theorem ends_apart (header : List Char) (bodies : List (List Char)) :
    Ends (apart header bodies) := by
  apply ends_of_head?
  cases bodies with
  | nil => simp [apart]
  | cons body bodies => simp [apart]

theorem cut_apart (hheader : ∀ c ∈ header, isHeaderChar c = true)
    (hbodies : ∀ body ∈ bodies, Clear '}' body) :
    Cut (apart header bodies) (bodies.map fun body => .chain header [body]) := by
  induction bodies with
  | nil => exact .nil
  | cons body bodies ih =>
    obtain ⟨hbody, hrest⟩ := List.forall_mem_cons.mp hbodies
    have hchain : Chain header [body] :=
      ⟨hheader, List.forall_mem_singleton.mpr hbody, List.cons_ne_nil body []⟩
    exact Cut.chain_append hchain (ends_apart header bodies) (ih hrest)

theorem gather_apart (header : List Char) (bodies : List (List Char)) :
    gather (bodies.map fun body => .chain header [body]) =
      ([], bodies.map fun body => .block (blockOf header body)) := by
  induction bodies with
  | nil => rfl
  | cons body bodies ih =>
    rw [List.map_cons, gather, ih]
    rfl

/-- A chain and the same bodies with a header each are scanned alike. -/
theorem scan_apart (h : Chain header bodies) :
    (scan (String.ofList ('@' :: chainText header bodies))).segments =
      (scan (String.ofList (apart header bodies))).segments := by
  have hchain : Cut ('@' :: chainText header bodies) [.chain header bodies] := by
    have hends : Ends [] := ends_of_head? (by simp)
    simpa using Cut.chain_append h hends .nil
  have hapart := cut_apart h.isHeader h.clear
  unfold scan
  rw [String.toList_ofList, String.toList_ofList, ← cut_iff.mp hchain, ← cut_iff.mp hapart,
    gather_apart]
  simp [gather, literalBefore]

/-! ### Main statement -/

/-- **A block is read again from its source.** Whatever string a block was found in, its source is
scanned as this block and nothing else. So a header and the bodies that can be read behind it are
scanned alike whether the header is written once, before all bodies, or before each of them. -/
theorem blocks_reread :
    (∀ text : String, ∀ b ∈ (scan text).blocks, (scan b.source).segments = [.block b]) ∧
    ∀ header bodies, Chain header bodies →
      (scan (String.ofList ('@' :: chainText header bodies))).segments =
        (scan (String.ofList (apart header bodies))).segments :=
  ⟨fun _ _ hb => scan_source_of_mem hb, fun _ _ h => scan_apart h⟩

/-- The header of a chain of two kinds. -/
def sampleHeader : List Char := "g+h".toList

/-- Two bodies: one of an alternative without specs for the second kind, and one with an escaped
brace. -/
def sampleBodies : List (List Char) := ["m+:a|~".toList, "!b+*:x\\\x7dy".toList]

/-- The block of the second body. -/
def sampleBlock : Block where
  path := ["g", "h"]
  alternatives := [⟨[[.butNot "b"], [.wildcard]], .plain "x\x7dy"⟩]
  source := "@g+h\x7b!b+*:x\\\x7dy\x7d"

/-- Before the chain stands an escaped one, behind it a brace that nothing closes. -/
def sampleChained : String := "\\@g\x7bx\x7d@g+h\x7bm+:a|~\x7d\x7b!b+*:x\\\x7dy\x7d\x7bz"

/-- The source of the second block is nowhere in the string. -/
theorem reread_sample :
    sampleBlock ∈ (scan sampleChained).blocks ∧
      (scan sampleBlock.source).segments = [.block sampleBlock] ∧
      Chain sampleHeader sampleBodies ∧
      (scan (String.ofList ('@' :: chainText sampleHeader sampleBodies))).segments =
        (scan (String.ofList (apart sampleHeader sampleBodies))).segments := by
  have hblock : sampleBlock ∈ (scan sampleChained).blocks := by decide +kernel
  have hchain : Chain sampleHeader sampleBodies :=
    ⟨List.all_eq_true.mp (by decide +kernel), by decide +kernel, by simp [sampleBodies]⟩
  exact ⟨hblock, blocks_reread.1 sampleChained sampleBlock hblock, hchain,
    blocks_reread.2 sampleHeader sampleBodies hchain⟩

end Template
end Concord

/-
# The segments of a string

Each of the pieces into which a string is cut stands for segments of its own: a
character and an escaped chain for literal text, a chain for a block for each of
its bodies. The segments of the string are all of these, with adjacent texts put
together: the one list in which no text is empty, no two texts are adjacent, and
the characters and blocks follow each other as in the pieces.

Key definitions: `Template.SplitsInto`, `Template.IsBlockOf`, `Template.Piece.Gives`,
`Template.atoms`, `Template.Merges`.
Key theorems: `Template.isBlockOf_iff`, `Template.Tidy.eq_of_atoms_eq`,
`Template.merges_scan`, `Template.scan_merges_pieces`.
-/
import Mathlib.Data.List.Forall2
import Concord.Proofs.Template.Cutting

namespace Concord
namespace Template

/-! ### Blocks -/

/-- The kinds that a header names: none if it is empty, else the texts between its `+`. -/
inductive SplitsInto : List Char → List String → Prop where
  | empty : SplitsInto [] []
  | parts {header : List Char} {path : List String} :
      header ≠ [] → path ≠ [] → (∀ kind ∈ path, '+' ∉ kind.toList) →
      header = ['+'].intercalate (path.map String.toList) → SplitsInto header path

/-- The block that a header and a body stand for. -/
structure IsBlockOf (header body : List Char) (b : Block) : Prop where
  path : SplitsInto header b.path
  alternatives : b.alternatives = parseBody (String.ofList body) b.path.length
  source : b.source = String.ofList ('@' :: header ++ braced body)

theorem not_mem_of_mem_splitOn {c : Char} {text part : List Char} (h : part ∈ text.splitOn c) :
    c ∉ part := by
  induction text generalizing part with
  | nil =>
    rw [List.splitOn_nil, List.mem_singleton] at h
    rw [h]
    exact List.not_mem_nil
  | cons d rest ih =>
    obtain ⟨first, more, hsplit⟩ := List.exists_cons_of_ne_nil (List.splitOn_ne_nil c rest)
    rw [hsplit] at ih
    rw [List.splitOn_cons_eq_if_modifyHead, hsplit] at h
    obtain ⟨hfirst, hmore⟩ := List.forall_mem_cons.mp fun part hp => @ih part hp
    by_cases hd : d = c
    · rw [if_pos (by rw [hd, beq_self_eq_true]), List.mem_cons] at h
      rcases h with rfl | h
      · exact List.not_mem_nil
      · exact ih h
    · rw [if_neg (by rwa [beq_iff_eq]), List.modifyHead_cons, List.mem_cons] at h
      rcases h with rfl | h
      · rw [List.mem_cons, not_or]
        exact ⟨fun hc => hd hc.symm, hfirst⟩
      · exact hmore part h

theorem splitsInto_iff {header : List Char} {path : List String} :
    SplitsInto header path ↔ path = parsePath header := by
  unfold parsePath
  constructor
  · rintro (_ | ⟨hne, hpath, hkinds, rfl⟩)
    · rfl
    · have hparts : ∀ part ∈ path.map String.toList, '+' ∉ part := by
        simpa using hkinds
      rw [if_neg (by rwa [List.isEmpty_iff]),
        List.splitOn_intercalate '+' hparts (by rwa [Ne, List.map_eq_nil_iff])]
      simp
  · rintro rfl
    by_cases hne : header = []
    · subst hne
      exact .empty
    · rw [if_neg (by rwa [List.isEmpty_iff])]
      refine .parts hne ?_ ?_ ?_
      · rw [Ne, List.map_eq_nil_iff]
        exact List.splitOn_ne_nil '+' header
      · intro kind hk
        obtain ⟨part, hp, rfl⟩ := List.mem_map.mp hk
        rw [String.toList_ofList]
        exact not_mem_of_mem_splitOn hp
      · have hparts : ((header.splitOn '+').map String.ofList).map String.toList =
            header.splitOn '+' := by simp
        rw [hparts, List.intercalate_splitOn]

theorem isBlockOf_iff (header body : List Char) (b : Block) :
    IsBlockOf header body b ↔ b = blockOf header body := by
  constructor
  · rintro ⟨hpath, halternatives, hsource⟩
    obtain ⟨path, alternatives, source⟩ := b
    dsimp only at hpath halternatives hsource
    rw [splitsInto_iff] at hpath
    rw [halternatives, hsource, hpath]
    rfl
  · rintro rfl
    exact ⟨splitsInto_iff.mpr rfl, rfl, rfl⟩

/-! ### Pieces -/

/-- The segments that a piece stands for. -/
inductive Piece.Gives : Piece → List Segment → Prop where
  /-- A character stands for itself. -/
  | char (c : Char) : Gives (.char c) [.literal (String.ofList [c])]
  /-- An escaped chain stands for its text without the first mark. -/
  | escaped (mark : Char) (header : List Char) (bodies : List (List Char)) :
      Gives (.escaped mark header bodies)
        [.literal (String.ofList ('@' :: chainText header bodies))]
  /-- A chain stands for a block for each of its bodies. -/
  | chain {header : List Char} {bodies : List (List Char)} {blocks : List Block} :
      List.Forall₂ (IsBlockOf header) bodies blocks →
      Gives (.chain header bodies) (blocks.map .block)

/-- The segments of a piece, computed. -/
def Piece.segments : Piece → List Segment
  | .char c => [.literal (String.ofList [c])]
  | .escaped _ header bodies => [.literal (String.ofList ('@' :: chainText header bodies))]
  | .chain header bodies => bodies.map fun body => .block (blockOf header body)

theorem forall₂_iff_map {α β : Type} {r : α → β → Prop} {f : α → β} (h : ∀ a b, r a b ↔ b = f a)
    {as : List α} {bs : List β} : List.Forall₂ r as bs ↔ bs = as.map f := by
  have hr : r = fun a b => f a = b := by
    funext a b
    exact propext ((h a b).trans eq_comm)
  rw [hr, ← List.forall₂_map_left_iff (R := fun a b => a = b), List.forall₂_eq_eq_eq, eq_comm]

theorem Piece.gives_iff (p : Piece) (segments : List Segment) :
    p.Gives segments ↔ segments = p.segments := by
  constructor
  · rintro (c | ⟨mark, header, bodies⟩ | hblocks)
    · rfl
    · rfl
    · rw [forall₂_iff_map (isBlockOf_iff _)] at hblocks
      rw [hblocks, List.map_map]
      rfl
  · rintro rfl
    cases p with
    | char c => exact .char c
    | escaped mark header bodies => exact .escaped mark header bodies
    | chain header bodies =>
      have hblocks : List.Forall₂ (IsBlockOf header) bodies (bodies.map (blockOf header)) :=
        (forall₂_iff_map (isBlockOf_iff header)).mpr rfl
      have hgives := Gives.chain hblocks
      rw [List.map_map] at hgives
      exact hgives

/-! ### Adjacent texts -/

/-- The characters and blocks of segments, in order. -/
def atoms : List Segment → List (Char ⊕ Block)
  | [] => []
  | .literal text :: rest => text.toList.map .inl ++ atoms rest
  | .block b :: rest => .inr b :: atoms rest

/-- No text is empty, and no two texts are adjacent. -/
structure Tidy (segments : List Segment) : Prop where
  ne_empty : ∀ text, .literal text ∈ segments → text ≠ ""
  apart : ∀ before after text text',
    segments ≠ before ++ .literal text :: .literal text' :: after

/-- Segments that come of others by putting adjacent texts together. -/
structure Merges (parts merged : List Segment) : Prop where
  tidy : Tidy merged
  atoms_eq : atoms merged = atoms parts

/-- The first segment is no text. -/
def StartsApart (segments : List Segment) : Prop :=
  ∀ text rest, segments ≠ .literal text :: rest

theorem atoms_append (segments more : List Segment) :
    atoms (segments ++ more) = atoms segments ++ atoms more := by
  induction segments with
  | nil => rfl
  | cons s rest ih => cases s <;> simp [atoms, ih]

theorem tidy_nil : Tidy [] :=
  ⟨fun _ h => absurd h List.not_mem_nil, fun before after text text' h => by simp at h⟩

theorem tidy_block_iff {b : Block} {segments : List Segment} :
    Tidy (.block b :: segments) ↔ Tidy segments := by
  constructor
  · rintro ⟨hne, hapart⟩
    refine ⟨fun text h => hne text (List.mem_cons_of_mem _ h), fun before after text text' h => ?_⟩
    exact hapart (.block b :: before) after text text' (by rw [h, List.cons_append])
  · rintro ⟨hne, hapart⟩
    refine ⟨fun text h => hne text (by simpa using h), fun before after text text' h => ?_⟩
    cases before with
    | nil => cases h
    | cons s before => exact hapart before after text text' (List.cons.inj h).2

theorem tidy_literal_iff {text : String} {segments : List Segment} :
    Tidy (.literal text :: segments) ↔ text ≠ "" ∧ StartsApart segments ∧ Tidy segments := by
  constructor
  · rintro ⟨hne, hapart⟩
    refine ⟨hne text List.mem_cons_self, fun text' rest h => hapart [] rest text text' (by rw [h]; rfl),
      fun text' h => hne text' (List.mem_cons_of_mem _ h), fun before after a b h => ?_⟩
    exact hapart (.literal text :: before) after a b (by rw [h, List.cons_append])
  · rintro ⟨hne, hstart, hmem, hapart⟩
    refine ⟨fun text' h => ?_, fun before after a b h => ?_⟩
    · rcases List.mem_cons.mp h with h | h
      · cases h
        exact hne
      · exact hmem text' h
    · cases before with
      | nil => exact hstart b after (List.cons.inj h).2
      | cons s before => exact hapart before after a b (List.cons.inj h).2

/-- Behind a text comes a block, or nothing. -/
theorem StartsApart.atoms_ne {segments : List Segment} (h : StartsApart segments) (c : Char)
    (rest : List (Char ⊕ Block)) : atoms segments ≠ .inl c :: rest := by
  cases segments with
  | nil => exact fun h => nomatch h
  | cons s segments =>
    cases s with
    | literal text => exact absurd rfl (h text segments)
    | block b => exact fun h => nomatch h

/-- Two texts with different atoms behind them are told apart by where the blocks start. -/
theorem eq_of_append_atoms {s t : List Char} {x y : List (Char ⊕ Block)}
    (hx : ∀ c rest, x ≠ .inl c :: rest) (hy : ∀ c rest, y ≠ .inl c :: rest)
    (h : s.map .inl ++ x = t.map .inl ++ y) : s = t ∧ x = y := by
  induction s generalizing t with
  | nil =>
    cases t with
    | nil => exact ⟨rfl, h⟩
    | cons c t => exact absurd h (hx c _)
  | cons c s ih =>
    cases t with
    | nil => exact absurd h.symm (hy c _)
    | cons d t =>
      obtain ⟨hc, hrest⟩ := List.cons.inj h
      obtain ⟨rfl, hxy⟩ := ih hrest
      cases hc
      exact ⟨rfl, hxy⟩

theorem Tidy.atoms_literal {text : String} {segments : List Segment}
    (h : Tidy (.literal text :: segments)) :
    ∃ c rest, atoms (.literal text :: segments) = .inl c :: rest := by
  have hne : text.toList ≠ [] := fun hnil =>
    (tidy_literal_iff.mp h).1 (String.toList_eq_nil_iff.mp hnil)
  obtain ⟨c, cs, hc⟩ := List.exists_cons_of_ne_nil hne
  exact ⟨c, cs.map .inl ++ atoms segments, by rw [atoms, hc, List.map_cons, List.cons_append]⟩

/-- Tidy segments are told by their characters and blocks. -/
theorem Tidy.eq_of_atoms_eq {segments more : List Segment} (h : Tidy segments) (h' : Tidy more)
    (heq : atoms segments = atoms more) : segments = more := by
  -- a text gives at least one character, so it is not mistaken for a block or for the end
  induction segments generalizing more with
  | nil =>
    rcases more with _ | ⟨text | b, more⟩
    · rfl
    · obtain ⟨c, rest, hc⟩ := h'.atoms_literal
      exact absurd (heq.trans hc) (nomatch ·)
    · exact absurd heq (nomatch ·)
  | cons s segments ih =>
    rcases s with text | b
    · obtain ⟨-, hs, htidy⟩ := tidy_literal_iff.mp h
      obtain ⟨c, rest, hc⟩ := h.atoms_literal
      rcases more with _ | ⟨text' | b, more⟩
      · exact absurd (heq.symm.trans hc) (nomatch ·)
      · obtain ⟨-, hs', htidy'⟩ := tidy_literal_iff.mp h'
        obtain ⟨htext, hrest⟩ := eq_of_append_atoms hs.atoms_ne hs'.atoms_ne heq
        rw [String.toList_inj.mp htext, ih htidy htidy' hrest]
      · exact absurd (heq.symm.trans hc) (nomatch ·)
    · rcases more with _ | ⟨text | b', more⟩
      · exact absurd heq (nomatch ·)
      · obtain ⟨c, rest, hc⟩ := h'.atoms_literal
        exact absurd (heq.trans hc) (nomatch ·)
      · obtain ⟨hb, hrest⟩ := List.cons.inj heq
        rw [Sum.inr.inj hb, ih (tidy_block_iff.mp h) (tidy_block_iff.mp h') hrest]

/-! ### Gathering -/

/-- A chain has bodies. -/
def Piece.HasBodies : Piece → Prop
  | .chain _ bodies => bodies ≠ []
  | _ => True

theorem Cut.hasBodies {text : List Char} {ps : List Piece} (h : Cut text ps) :
    ∀ p ∈ ps, p.HasBodies := by
  induction h with
  | nil => exact fun _ h => absurd h List.not_mem_nil
  | cons hp _ ih =>
    refine List.forall_mem_cons.mpr ⟨?_, ih⟩
    rcases hp with _ | ⟨_, hchain, _, _⟩ | _
    · trivial
    · exact hchain.ne_nil
    · trivial

theorem atoms_literalBefore (text : List Char) (segments : List Segment) :
    atoms (literalBefore text segments) = text.map .inl ++ atoms segments := by
  unfold literalBefore
  split
  · next h => rw [List.isEmpty_iff.mp h, List.map_nil, List.nil_append]
  · rw [atoms, String.toList_ofList]

theorem Tidy.literalBefore {segments : List Segment} (h : Tidy segments)
    (hstart : StartsApart segments) (text : List Char) : Tidy (literalBefore text segments) := by
  unfold Template.literalBefore
  split
  · exact h
  · next hne =>
    refine tidy_literal_iff.mpr ⟨fun hempty => hne ?_, hstart, h⟩
    rw [String.ofList_eq_empty_iff.mp hempty]
    rfl

theorem tidy_map_block_append {segments : List Segment} (h : Tidy segments) (blocks : List Block) :
    Tidy (blocks.map .block ++ segments) := by
  induction blocks with
  | nil => exact h
  | cons b rest ih => exact tidy_block_iff.mpr ih

/-- What is gathered has the characters and blocks of the pieces; the segments behind the text that
it starts with are tidy, and do not start with a text themselves. -/
theorem gather_spec {ps : List Piece} (h : ∀ p ∈ ps, p.HasBodies) :
    (gather ps).1.map .inl ++ atoms (gather ps).2 = atoms (ps.map Piece.segments).flatten ∧
      Tidy (gather ps).2 ∧ StartsApart (gather ps).2 := by
  induction ps with
  | nil => exact ⟨rfl, tidy_nil, fun _ _ h => nomatch h⟩
  | cons p ps ih =>
    obtain ⟨hp, hps⟩ := List.forall_mem_cons.mp h
    obtain ⟨hatoms, htidy, hstart⟩ := ih hps
    rw [List.map_cons, List.flatten_cons, atoms_append, ← hatoms]
    cases p with
    | char c => exact ⟨by simp [gather, Piece.segments, atoms], htidy, hstart⟩
    | escaped mark header bodies =>
      exact ⟨by simp [gather, Piece.segments, atoms], htidy, hstart⟩
    | chain header bodies =>
      obtain ⟨body, more, rfl⟩ := List.exists_cons_of_ne_nil hp
      have hblocks : ((body :: more).map fun body => Segment.block (blockOf header body)) =
          ((body :: more).map (blockOf header)).map .block := by rw [List.map_map]; rfl
      refine ⟨?_, ?_, fun text rest h => ?_⟩
      · rw [gather, List.map_nil, List.nil_append, atoms_append, atoms_literalBefore]
        rfl
      · rw [gather, hblocks]
        exact tidy_map_block_append (htidy.literalBefore hstart _) _
      · rw [gather, List.map_cons, List.cons_append] at h
        cases h

theorem merges_scan {text : String} {ps : List Piece} (h : Cut text.toList ps) :
    Merges (ps.map Piece.segments).flatten (scan text).segments := by
  obtain ⟨hatoms, htidy, hstart⟩ := gather_spec h.hasBodies
  unfold scan
  rw [← cut_iff.mp h]
  exact ⟨htidy.literalBefore hstart _, (atoms_literalBefore _ _).trans hatoms⟩

/-! ### Main statement -/

/-- **A string is the segments of its pieces.** It is cut into pieces in one way, and they make up
the whole string. The template that is scanned has the segments for which the pieces stand, one
after the other, with adjacent texts put together, and no other template has. -/
theorem scan_merges_pieces (text : String) :
    ∃ ps, (∀ qs, Cut text.toList qs ↔ qs = ps) ∧
      (ps.map Piece.written).flatten = text.toList ∧
      ∀ t : Template, t = scan text ↔
        ∃ parts, List.Forall₂ Piece.Gives ps parts ∧ Merges parts.flatten t.segments := by
  refine ⟨pieces text.toList, fun qs => cut_iff, flatten_pieces _, fun t => ?_⟩
  have hscan : Merges ((pieces text.toList).map Piece.segments).flatten (scan text).segments :=
    merges_scan (cut_iff.mpr rfl)
  constructor
  · rintro rfl
    exact ⟨_, (forall₂_iff_map Piece.gives_iff).mpr rfl, hscan⟩
  · rintro ⟨parts, hparts, htidy, hatoms⟩
    rw [(forall₂_iff_map Piece.gives_iff).mp hparts, ← hscan.atoms_eq] at hatoms
    obtain ⟨segments⟩ := t
    exact congrArg Template.mk (htidy.eq_of_atoms_eq hscan.tidy hatoms)

end Template
end Concord

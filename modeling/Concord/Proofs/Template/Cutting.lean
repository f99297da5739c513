/-
# How a string is cut into pieces

The rules by which a string is cut, apart from the scanner that does it. Inside
the braces of a body a backslash goes with the character behind it, whatever
that is, and the body ends at the first closing brace that is left over. A chain
has as many bodies as can be read. From the left an escaped chain is cut off
where there is one, else a chain, else a single character; so a string is cut in
one way only, which is the scanner's.

Key definitions: `Template.Clear`, `Template.Chain`, `Template.CutsOff`,
`Template.Cut`.
Key theorems: `Template.cutFirst_eq_some_iff`, `Template.readChain_eq_some_iff`,
`Template.cutsOff_iff`, `Template.cut_iff`.
-/
import Mathlib.Logic.Basic
import Concord.Template.Scan

namespace Concord
namespace Template

/-! ### Marks that no backslash escapes -/

/-- Every backslash of a text has a character to escape, and the mark stands in it only escaped. -/
inductive Clear (mark : Char) : List Char → Prop where
  | nil : Clear mark []
  | escaped (c : Char) {rest : List Char} : Clear mark rest → Clear mark ('\\' :: c :: rest)
  | plain {c : Char} {rest : List Char} :
      c ≠ '\\' → c ≠ mark → Clear mark rest → Clear mark (c :: rest)

variable {mark : Char} {text before after : List Char}

theorem clear_escaped_iff {c : Char} : Clear mark ('\\' :: c :: text) ↔ Clear mark text := by
  constructor
  · intro h
    cases h with
    | escaped _ h => exact h
    | plain hb _ _ => exact absurd rfl hb
  · exact .escaped c

theorem clear_plain_iff {c : Char} (hb : c ≠ '\\') :
    Clear mark (c :: text) ↔ c ≠ mark ∧ Clear mark text := by
  constructor
  · intro h
    cases h with
    | escaped _ _ => exact absurd rfl hb
    | plain _ hm h => exact ⟨hm, h⟩
  · exact fun h => .plain hb h.1 h.2

instance Clear.decidable (mark : Char) : (text : List Char) → Decidable (Clear mark text)
  | [] => isTrue .nil
  | c :: rest =>
    if hb : c = '\\' then
      match rest with
      | [] => isFalse fun h => by cases h with | plain hc _ _ => exact hc hb
      | _ :: rest =>
        have := Clear.decidable mark rest
        decidable_of_iff _ (hb ▸ clear_escaped_iff.symm)
    else
      have := Clear.decidable mark rest
      decidable_of_iff _ (clear_plain_iff hb).symm

theorem Clear.append (h : Clear mark before) (h' : Clear mark after) :
    Clear mark (before ++ after) := by
  induction h with
  | nil => exact h'
  | escaped c _ ih => exact .escaped c ih
  | plain hb hm _ ih => exact .plain hb hm ih

theorem Clear.of_forall (h : ∀ c ∈ text, c ≠ '\\' ∧ c ≠ mark) : Clear mark text := by
  induction text with
  | nil => exact .nil
  | cons c rest ih =>
    obtain ⟨hc, hrest⟩ := List.forall_mem_cons.mp h
    exact .plain hc.1 hc.2 (ih hrest)

theorem cutFirst_mark (mark : Char) (text : List Char) :
    cutFirst mark (mark :: text) = some ([], text) := by
  unfold cutFirst
  rw [if_pos rfl]

theorem cutFirst_escaped (hmark : mark ≠ '\\') (c : Char) (text : List Char) :
    cutFirst mark ('\\' :: c :: text) =
      (cutFirst mark text).map fun p => ('\\' :: c :: p.1, p.2) := by
  simp [cutFirst, hmark.symm]

theorem cutFirst_plain {c : Char} (hb : c ≠ '\\') (hm : c ≠ mark) (text : List Char) :
    cutFirst mark (c :: text) = (cutFirst mark text).map fun p => (c :: p.1, p.2) := by
  conv => lhs; unfold cutFirst
  rw [if_neg hm, if_neg hb]

theorem cutFirst_of_clear (hmark : mark ≠ '\\') (h : Clear mark before) :
    cutFirst mark (before ++ mark :: after) = some (before, after) := by
  induction h with
  | nil => exact cutFirst_mark mark after
  | escaped c _ ih =>
    rw [List.cons_append, List.cons_append, cutFirst_escaped hmark, ih, Option.map_some]
  | plain hb hm _ ih => rw [List.cons_append, cutFirst_plain hb hm, ih, Option.map_some]

theorem clear_of_cutFirst (h : cutFirst mark text = some (before, after)) : Clear mark before := by
  fun_induction cutFirst mark text generalizing before after with
  | case1 => cases h
  | case2 => cases h; exact .nil
  | case3 => cases h
  | case4 d rest hne ih =>
    obtain ⟨⟨b, a⟩, hp, he⟩ := Option.map_eq_some_iff.mp h
    cases he
    exact .escaped d (ih hp)
  | case5 c rest hne hb ih =>
    obtain ⟨⟨b, a⟩, hp, he⟩ := Option.map_eq_some_iff.mp h
    cases he
    exact .plain hb hne (ih hp)

/-- A text is cut at the first mark that no backslash escapes. -/
theorem cutFirst_eq_some_iff (hmark : mark ≠ '\\') :
    cutFirst mark text = some (before, after) ↔
      Clear mark before ∧ text = before ++ mark :: after := by
  constructor
  · intro h
    exact ⟨clear_of_cutFirst h, eq_of_cutFirst h⟩
  · rintro ⟨h, rfl⟩
    exact cutFirst_of_clear hmark h

/-- A text in which the mark stands only escaped is not cut. -/
theorem cutFirst_eq_none_of_clear (hmark : mark ≠ '\\') (h : Clear mark text) :
    cutFirst mark text = none := by
  induction h with
  | nil => rfl
  | escaped c _ ih => rw [cutFirst_escaped hmark, ih, Option.map_none]
  | plain hb hm _ ih => rw [cutFirst_plain hb hm, ih, Option.map_none]

/-! ### Chains -/

/-- A header and one or more bodies, none of which a closing brace ends before its end. -/
structure Chain (header : List Char) (bodies : List (List Char)) : Prop where
  isHeader : ∀ c ∈ header, isHeaderChar c = true
  clear : ∀ body ∈ bodies, Clear '}' body
  ne_nil : bodies ≠ []

/-- A chain can be read where a text starts. -/
def StartsChain (text : List Char) : Prop :=
  ∃ header bodies rest, Chain header bodies ∧ text = chainText header bodies ++ rest

/-- No body can be read where a text starts. -/
def Ends (text : List Char) : Prop := ∀ body rest, Clear '}' body → text ≠ braced body ++ rest

theorem braced_append (body rest : List Char) :
    braced body ++ rest = '{' :: (body ++ '}' :: rest) := by
  simp [braced]

theorem ends_of_head? (h : text.head? ≠ some '{') : Ends text := by
  rintro body rest - rfl
  exact h (by rw [braced_append, List.head?_cons])

theorem readBodies_braced {body : List Char} (h : Clear '}' body) (rest : List Char) :
    readBodies (braced body ++ rest) = (body :: (readBodies rest).1, (readBodies rest).2) := by
  have hcut : cutFirst '}' (body ++ '}' :: rest) = some (body, rest) :=
    cutFirst_of_clear (by decide) h
  rw [braced_append, readBodies]
  split
  · next before after hb =>
    rw [hcut] at hb
    cases hb
    rfl
  · next hb =>
    rw [hcut] at hb
    cases hb

theorem readBodies_of_ends (h : Ends text) : readBodies text = ([], text) := by
  unfold readBodies
  split
  · next inner =>
    split
    · next body rest hcut =>
      have hne := h body rest (clear_of_cutFirst hcut)
      rw [braced_append, ← eq_of_cutFirst hcut] at hne
      exact absurd rfl hne
    · rfl
  · rfl

/-- Bodies are read while there are any. -/
theorem ends_readBodies (text : List Char) : Ends (readBodies text).2 := by
  fun_induction readBodies text with
  | case1 inner body rest h more ih => exact ih
  | case2 inner h =>
    intro body rest hbody htext
    rw [braced_append] at htext
    cases htext
    rw [cutFirst_of_clear (by decide) hbody] at h
    cases h
  | case3 text h =>
    intro body rest _ htext
    exact h _ (htext.trans (braced_append body rest))

theorem clear_of_readBodies (text : List Char) : ∀ body ∈ (readBodies text).1, Clear '}' body := by
  fun_induction readBodies text with
  | case1 inner body rest h more ih => exact List.forall_mem_cons.mpr ⟨clear_of_cutFirst h, ih⟩
  | case2 => exact fun _ h => absurd h List.not_mem_nil
  | case3 => exact fun _ h => absurd h List.not_mem_nil

theorem readBodies_flatten {bodies : List (List Char)} (h : ∀ body ∈ bodies, Clear '}' body)
    (rest : List Char) :
    readBodies ((bodies.map braced).flatten ++ rest) =
      (bodies ++ (readBodies rest).1, (readBodies rest).2) := by
  induction bodies with
  | nil => rfl
  | cons body bodies ih =>
    obtain ⟨hbody, hbodies⟩ := List.forall_mem_cons.mp h
    rw [List.map_cons, List.flatten_cons, List.append_assoc, readBodies_braced hbody, ih hbodies]
    rfl

theorem isHeaderChar_brace : isHeaderChar '{' = false := by decide

theorem isHeaderChar_at : isHeaderChar '@' = false := by decide

/-- A header ends where the first body starts. -/
theorem span_chainText {header : List Char} {bodies : List (List Char)} (h : Chain header bodies)
    (rest : List Char) :
    (chainText header bodies ++ rest).takeWhile isHeaderChar = header ∧
      (chainText header bodies ++ rest).dropWhile isHeaderChar =
        (bodies.map braced).flatten ++ rest := by
  obtain ⟨body, more, rfl⟩ := List.exists_cons_of_ne_nil h.ne_nil
  unfold chainText
  rw [List.append_assoc, List.takeWhile_append_of_pos h.isHeader,
    List.dropWhile_append_of_pos h.isHeader]
  simp [braced, isHeaderChar_brace]

/-- A chain is read with all the bodies that follow its header. -/
theorem readChain_eq_some_iff {header rest : List Char} {bodies : List (List Char)} :
    readChain text = some (header, bodies, rest) ↔
      Chain header bodies ∧ Ends rest ∧ text = chainText header bodies ++ rest := by
  constructor
  · intro h
    have htext := eq_of_readChain h
    unfold readChain at h
    simp only at h
    split at h
    · cases h
    · next hne =>
      cases h
      have hheader : ∀ c ∈ text.takeWhile isHeaderChar, isHeaderChar c = true :=
        fun c hc => List.all_eq_true.mp List.all_takeWhile c hc
      have hbodies := clear_of_readBodies (text.dropWhile isHeaderChar)
      exact ⟨⟨hheader, hbodies, fun hnil => hne (List.isEmpty_iff.mpr hnil)⟩,
        ends_readBodies _, htext.symm⟩
  · rintro ⟨hchain, hends, rfl⟩
    obtain ⟨htake, hdrop⟩ := span_chainText hchain rest
    unfold readChain
    rw [htake, hdrop, readBodies_flatten hchain.clear, readBodies_of_ends hends, List.append_nil]
    exact if_neg fun hnil => hchain.ne_nil (List.isEmpty_iff.mp hnil)

/-- A chain that can be read is read. -/
theorem readChain_eq_none_iff : readChain text = none ↔ ¬StartsChain text := by
  constructor
  · rintro h ⟨header, bodies, rest, hchain, rfl⟩
    obtain ⟨-, hdrop⟩ := span_chainText hchain rest
    have hmore : ¬(bodies ++ (readBodies rest).1).isEmpty = true := by
      rw [List.isEmpty_iff]
      exact List.append_ne_nil_of_left_ne_nil hchain.ne_nil _
    unfold readChain at h
    simp only [hdrop, readBodies_flatten hchain.clear, if_neg hmore] at h
    cases h
  · intro h
    cases hr : readChain text with
    | none => rfl
    | some r =>
      obtain ⟨hchain, -, htext⟩ := readChain_eq_some_iff.mp hr
      exact absurd ⟨_, _, _, hchain, htext⟩ h

/-! ### Where chains start -/

section

variable {c : Char}

/-- A chain is a header with a body behind it. -/
theorem startsChain_iff :
    StartsChain text ↔
      ∃ header rest, (∀ c ∈ header, isHeaderChar c = true) ∧ ¬Ends rest ∧ text = header ++ rest := by
  constructor
  · rintro ⟨header, bodies, rest, hchain, rfl⟩
    obtain ⟨body, more, rfl⟩ := List.exists_cons_of_ne_nil hchain.ne_nil
    refine ⟨header, braced body ++ ((more.map braced).flatten ++ rest), hchain.isHeader, ?_, ?_⟩
    · exact fun hends => hends body _ (hchain.clear body List.mem_cons_self) rfl
    · simp [chainText]
  · rintro ⟨header, rest, hheader, hends, rfl⟩
    simp only [Ends, not_forall, ne_eq, not_not] at hends
    obtain ⟨body, rest, hbody, rfl⟩ := hends
    exact ⟨header, [body], rest, ⟨hheader, by simpa using hbody, by simp⟩, by simp [chainText]⟩

/-- Behind a character of a header a chain goes on as it would start. -/
theorem startsChain_cons_of_header (hc : isHeaderChar c = true) :
    StartsChain (c :: text) ↔ StartsChain text := by
  rw [startsChain_iff, startsChain_iff]
  constructor
  · rintro ⟨header, rest, hheader, hends, heq⟩
    cases header with
    | nil =>
      have hbrace : c ≠ '{' := by
        rintro rfl
        rw [isHeaderChar_brace] at hc
        cases hc
      refine absurd (ends_of_head? ?_) hends
      rw [← List.nil_append rest, ← heq]
      simpa using hbrace
    | cons d header =>
      obtain ⟨-, rfl⟩ := List.cons.inj heq
      exact ⟨header, rest, (List.forall_mem_cons.mp hheader).2, hends, rfl⟩
  · rintro ⟨header, rest, hheader, hends, rfl⟩
    exact ⟨c :: header, rest, List.forall_mem_cons.mpr ⟨hc, hheader⟩, hends, rfl⟩

/-- Where no header starts, a chain starts with a body. -/
theorem startsChain_cons_of_not_header (hc : isHeaderChar c = false) :
    StartsChain (c :: text) ↔ ¬Ends (c :: text) := by
  rw [startsChain_iff]
  constructor
  · rintro ⟨header, rest, hheader, hends, heq⟩
    cases header with
    | nil => exact heq ▸ hends
    | cons d header =>
      obtain ⟨rfl, -⟩ := List.cons.inj heq
      rw [(List.forall_mem_cons.mp hheader).1] at hc
      cases hc
  · exact fun hends => ⟨[], c :: text, List.forall_mem_nil _, hends, rfl⟩

theorem not_startsChain_at : ¬StartsChain ('@' :: text) := by
  rw [startsChain_cons_of_not_header isHeaderChar_at, not_not]
  exact ends_of_head? (by simp)

end

/-! ### Pieces -/

/-- An `@` and a chain start a text. -/
def OpensChain (text : List Char) : Prop := ∃ rest, text = '@' :: rest ∧ StartsChain rest

/-- An escaped chain starts a text: an `@` or a backslash, and then an `@` and a chain. -/
def OpensEscaped (text : List Char) : Prop :=
  ∃ mark rest, (mark = '@' ∨ mark = '\\') ∧ text = mark :: rest ∧ OpensChain rest

/-- The piece that is cut off where a text starts, and the rest of the text. -/
inductive CutsOff (text : List Char) : Piece → List Char → Prop where
  /-- An escaped chain, with all its bodies. -/
  | escaped {mark : Char} {header rest : List Char} {bodies : List (List Char)} :
      mark = '@' ∨ mark = '\\' → Chain header bodies → Ends rest →
      text = (Piece.escaped mark header bodies).written ++ rest →
      CutsOff text (.escaped mark header bodies) rest
  /-- If there is no escaped chain, a chain, with all its bodies. -/
  | chain {header rest : List Char} {bodies : List (List Char)} :
      ¬OpensEscaped text → Chain header bodies → Ends rest →
      text = (Piece.chain header bodies).written ++ rest →
      CutsOff text (.chain header bodies) rest
  /-- If there is neither, a character. -/
  | char {c : Char} {rest : List Char} :
      ¬OpensEscaped text → ¬OpensChain text → text = (Piece.char c).written ++ rest →
      CutsOff text (.char c) rest

/-- The pieces into which a text is cut, one after the other. -/
inductive Cut : List Char → List Piece → Prop where
  | nil : Cut [] []
  | cons {text rest : List Char} {p : Piece} {ps : List Piece} :
      CutsOff text p rest → Cut rest ps → Cut text (p :: ps)

variable {c : Char} {p : Piece} {rest : List Char}

theorem opensChain_cons_iff : OpensChain (c :: text) ↔ c = '@' ∧ StartsChain text := by
  constructor
  · rintro ⟨rest, heq, h⟩
    cases heq
    exact ⟨rfl, h⟩
  · rintro ⟨rfl, h⟩
    exact ⟨text, rfl, h⟩

theorem opensEscaped_cons_iff :
    OpensEscaped (c :: text) ↔ (c = '@' ∨ c = '\\') ∧ OpensChain text := by
  constructor
  · rintro ⟨mark, rest, hm, heq, h⟩
    cases heq
    exact ⟨hm, h⟩
  · rintro ⟨hm, h⟩
    exact ⟨c, text, hm, rfl, h⟩

theorem readPlain_eq_some_iff :
    readPlain c text = some (p, rest) ↔
      ∃ header bodies, p = .chain header bodies ∧ Chain header bodies ∧ Ends rest ∧
        c :: text = p.written ++ rest := by
  unfold readPlain
  rw [Option.ite_none_right_eq_some, Option.map_eq_some_iff]
  constructor
  · rintro ⟨rfl, ⟨header, bodies, rest⟩, hr, heq⟩
    cases heq
    obtain ⟨hchain, hends, rfl⟩ := readChain_eq_some_iff.mp hr
    exact ⟨header, bodies, rfl, hchain, hends, rfl⟩
  · rintro ⟨header, bodies, rfl, hchain, hends, heq⟩
    cases heq
    exact ⟨rfl, (header, bodies, rest), readChain_eq_some_iff.mpr ⟨hchain, hends, rfl⟩, rfl⟩

theorem readPlain_eq_none_iff : readPlain c text = none ↔ ¬OpensChain (c :: text) := by
  unfold readPlain
  rw [opensChain_cons_iff, not_and, ← readChain_eq_none_iff]
  by_cases hc : c = '@'
  · rw [if_pos hc, Option.map_eq_none_iff]
    exact ⟨fun h _ => h, fun h => h hc⟩
  · rw [if_neg hc]
    exact ⟨fun _ hc' => absurd hc' hc, fun _ => rfl⟩

/-- An escaped chain is a chain behind a mark. -/
theorem readEscaped_cons (c d : Char) (text : List Char) :
    readEscaped c (d :: text) =
      if c = '@' ∨ c = '\\' then
        if d = '@' then (readChain text).map fun r => (.escaped c r.1 r.2.1, r.2.2) else none
      else none := by
  unfold readEscaped
  split
  · next heq =>
    cases heq
    rw [if_pos rfl]
  · next hne =>
    have hd : d ≠ '@' := fun hd => hne text (by rw [hd])
    rw [if_neg hd, ite_self]

theorem readEscaped_eq_some_iff :
    readEscaped c text = some (p, rest) ↔
      ∃ header bodies, p = .escaped c header bodies ∧ (c = '@' ∨ c = '\\') ∧
        Chain header bodies ∧ Ends rest ∧ c :: text = p.written ++ rest := by
  cases text with
  | nil =>
    constructor
    · intro h
      cases h
    · rintro ⟨header, bodies, rfl, -, -, -, heq⟩
      simp [Piece.written] at heq
  | cons d text =>
    rw [readEscaped_cons, Option.ite_none_right_eq_some, Option.ite_none_right_eq_some,
      Option.map_eq_some_iff]
    constructor
    · rintro ⟨hm, rfl, ⟨header, bodies, rest⟩, hr, heq⟩
      cases heq
      obtain ⟨hchain, hends, rfl⟩ := readChain_eq_some_iff.mp hr
      exact ⟨header, bodies, rfl, hm, hchain, hends, rfl⟩
    · rintro ⟨header, bodies, rfl, hm, hchain, hends, heq⟩
      cases heq
      exact ⟨hm, rfl, (header, bodies, rest), readChain_eq_some_iff.mpr ⟨hchain, hends, rfl⟩, rfl⟩

theorem readEscaped_eq_none_iff : readEscaped c text = none ↔ ¬OpensEscaped (c :: text) := by
  rw [opensEscaped_cons_iff]
  cases text with
  | nil =>
    refine ⟨fun _ h => ?_, fun _ => rfl⟩
    obtain ⟨-, rest, heq, -⟩ := h
    cases heq
  | cons d text =>
    rw [readEscaped_cons, opensChain_cons_iff]
    by_cases hm : c = '@' ∨ c = '\\'
    · by_cases hd : d = '@'
      · rw [if_pos hm, if_pos hd, Option.map_eq_none_iff, readChain_eq_none_iff]
        exact ⟨fun h h' => h h'.2.2, fun h h' => h ⟨hm, hd, h'⟩⟩
      · rw [if_pos hm, if_neg hd]
        exact ⟨fun _ h => hd h.2.1, fun _ => rfl⟩
    · rw [if_neg hm]
      exact ⟨fun _ h => hm h.1, fun _ => rfl⟩

/-- The scanner cuts off the piece that the rules cut off. -/
theorem cutsOff_iff : CutsOff (c :: text) p rest ↔ readPiece c text = (p, rest) := by
  unfold readPiece
  constructor
  · rintro (⟨hm, hchain, hends, heq⟩ | ⟨hesc, hchain, hends, heq⟩ | ⟨hesc, hopen, heq⟩)
    · cases heq
      rw [readEscaped_eq_some_iff.mpr ⟨_, _, rfl, hm, hchain, hends, rfl⟩]
      rfl
    · rw [readEscaped_eq_none_iff.mpr hesc,
        readPlain_eq_some_iff.mpr ⟨_, _, rfl, hchain, hends, heq⟩]
      rfl
    · rw [readEscaped_eq_none_iff.mpr hesc, readPlain_eq_none_iff.mpr hopen]
      cases heq
      rfl
  · intro h
    cases he : readEscaped c text with
    | some r =>
      rw [he] at h
      cases h
      obtain ⟨header, bodies, rfl, hm, hchain, hends, heq⟩ := readEscaped_eq_some_iff.mp he
      exact .escaped hm hchain hends heq
    | none =>
      have hesc := readEscaped_eq_none_iff.mp he
      rw [he, Option.none_or] at h
      cases hp : readPlain c text with
      | some r =>
        rw [hp] at h
        cases h
        obtain ⟨header, bodies, rfl, hchain, hends, heq⟩ := readPlain_eq_some_iff.mp hp
        exact .chain hesc hchain hends heq
      | none =>
        rw [hp] at h
        cases h
        exact .char hesc (readPlain_eq_none_iff.mp hp) rfl

theorem not_cutsOff_nil : ¬CutsOff [] p rest := by
  rintro (⟨-, -, -, heq⟩ | ⟨-, -, -, heq⟩ | ⟨-, -, heq⟩) <;> cases heq

/-- A text is cut in one way, the scanner's. -/
theorem cut_iff {ps : List Piece} : Cut text ps ↔ ps = pieces text := by
  constructor
  · intro h
    induction h with
    | nil => rw [pieces]
    | @cons text rest p ps hp _ ih =>
      cases text with
      | nil => exact absurd hp not_cutsOff_nil
      | cons c text =>
        rw [pieces, cutsOff_iff.mp hp]
        exact congrArg (p :: ·) ih
  · rintro rfl
    fun_induction pieces text with
    | case1 => exact .nil
    | case2 c text read ih => exact .cons (cutsOff_iff.mpr rfl) ih

end Template
end Concord

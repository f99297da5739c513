/-
# Blocks as they are written

How a block is written, and that the scanner reads back what was written. Specs,
groups and alternatives are joined by their separators, and in a wording a
backslash is put before each character that it makes literal. A wording that is
nothing but backslashes and `~` gets one more backslash instead, since `~` alone
is the loud one.

A wording can be written if no backslash of it would escape what is written
behind it: backslashes at its end, or before a character that a backslash makes
literal, come in pairs (`Template.Settled`).

Key definitions: `Wording.written`, `Alternative.written`, `Template.writtenBlock`,
`Template.Settled`, `Template.Writable`.
Key theorems: `Template.clear_escape`, `Wording.parse_written`,
`Alternative.parse_written`, `Template.parseBody_written`,
`Template.scan_writtenBlock`.
-/
import Concord.Proofs.Template.Cutting

namespace Concord

/-! ### Writing -/

/-- A spec as it is written. -/
def Spec.written : Spec → List Char
  | .name text => text.toList
  | .butNot text => '!' :: text.toList
  | .wildcard => ['*']
  | .invalid text => text.toList

/-- A text with a backslash before each character that a backslash makes literal. -/
def Template.escape (text : List Char) : List Char :=
  text.flatMap fun c => if c ∈ escapable then ['\\', c] else [c]

/-- A wording as it is written. A `~` behind nothing but backslashes gets one backslash more. -/
def Wording.written : Wording → List Char
  | .loud => ['~']
  | .plain text =>
    if text.toList.dropWhile (· == '\\') = ['~'] then '\\' :: text.toList
    else Template.escape text.toList

namespace Alternative

/-- A group as it is written. -/
def writtenGroup (group : List Spec) : List Char := [','].intercalate (group.map Spec.written)

/-- The groups of an alternative as they are written. -/
def writtenGroups (groups : List (List Spec)) : List Char :=
  ['+'].intercalate (groups.map writtenGroup)

/-- An alternative as it is written. -/
def written (a : Alternative) : List Char :=
  if a.isFree then a.wording.written else writtenGroups a.groups ++ ':' :: a.wording.written

end Alternative

namespace Template

/-- A header as it is written. -/
def writtenHeader (path : List String) : List Char := ['+'].intercalate (path.map String.toList)

/-- The text between the braces of a block. -/
def writtenBody (alternatives : List Alternative) : List Char :=
  ['|'].intercalate (alternatives.map Alternative.written)

/-- A block as it is written. -/
def writtenBlock (path : List String) (alternatives : List Alternative) : String :=
  String.ofList ('@' :: writtenHeader path ++ braced (writtenBody alternatives))

/-! ### What can be written -/

/-- Every run of backslashes at the end of a text, or before a character that a backslash makes
literal, is of even length. -/
def Settled (text : List Char) : Prop :=
  ∀ before count after, text = before ++ List.replicate count '\\' ++ after →
    before.getLast? ≠ some '\\' → (after = [] ∨ ∃ c ∈ after.head?, c ∈ escapable) → count % 2 = 0

/-- The same, read from the left: every backslash goes with a character behind it that it does not
make literal. -/
def pairsUp : List Char → Bool
  | [] => true
  | c :: rest =>
    if c = '\\' then
      match rest with
      | [] => false
      | d :: rest => d ∉ escapable && pairsUp rest
    else pairsUp rest

end Template

/-- A spec that can be written: any but an invalid one. -/
def Spec.IsWritable : Spec → Prop
  | .name text | .butNot text => Name.isToken text = true
  | .wildcard => True
  | .invalid _ => False

/-- A wording that can be written. -/
def Wording.IsWritable : Wording → Prop
  | .plain text => Template.Settled text.toList
  | .loud => True

/-- An alternative that can be written in a block with a header of so many kinds. -/
structure Alternative.IsWritable (arity : Nat) (a : Alternative) : Prop where
  groups : arity ≤ 1 → a.groups.length ≤ 1
  specs : ∀ group ∈ a.groups, ∀ spec ∈ group, spec.IsWritable
  wording : a.wording.IsWritable

/-- A header and alternatives that can be written as a block. -/
structure Template.Writable (path : List String) (alternatives : List Alternative) : Prop where
  kinds : ∀ kind ∈ path, Name.isKind kind = true
  ne_nil : alternatives ≠ []
  alternatives : ∀ a ∈ alternatives, a.IsWritable path.length

/-! ### Joining -/

namespace Template

variable {mark sep : Char}

theorem forall_mem_intercalate {p : Char → Prop} {parts : List (List Char)} (hsep : p sep)
    (h : ∀ part ∈ parts, ∀ c ∈ part, p c) : ∀ c ∈ [sep].intercalate parts, p c := by
  induction parts with
  | nil => exact fun c hc => absurd hc List.not_mem_nil
  | cons part parts ih =>
    obtain ⟨hpart, hparts⟩ := List.forall_mem_cons.mp h
    cases parts with
    | nil => rwa [List.intercalate_singleton]
    | cons next parts =>
      rw [List.intercalate_cons_cons, List.forall_mem_append, List.forall_mem_append]
      exact ⟨⟨hpart, List.forall_mem_singleton.mpr hsep⟩, ih hparts⟩

/-- Parts that are not empty are not joined to an empty text. -/
theorem intercalate_ne_nil {parts : List (List Char)} (hne : parts ≠ [])
    (h : ∀ part ∈ parts, part ≠ []) : [sep].intercalate parts ≠ [] := by
  obtain ⟨part, rest, rfl⟩ := List.exists_cons_of_ne_nil hne
  have hpart := h part List.mem_cons_self
  cases rest with
  | nil => rwa [List.intercalate_singleton]
  | cons next rest =>
    rw [List.intercalate_cons_cons, List.append_assoc]
    exact List.append_ne_nil_of_left_ne_nil hpart _

theorem Clear.intercalate {parts : List (List Char)} (hb : sep ≠ '\\') (hm : sep ≠ mark)
    (h : ∀ part ∈ parts, Clear mark part) : Clear mark ([sep].intercalate parts) := by
  induction parts with
  | nil => exact .nil
  | cons part parts ih =>
    obtain ⟨hpart, hparts⟩ := List.forall_mem_cons.mp h
    cases parts with
    | nil => rwa [List.intercalate_singleton]
    | cons next parts =>
      rw [List.intercalate_cons_cons]
      exact (hpart.append (.plain hb hm .nil)).append (ih hparts)

/-- Parts in which the mark stands only escaped are told apart by the marks between them. -/
theorem cut_intercalate {parts : List (List Char)} (hmark : mark ≠ '\\') (hne : parts ≠ [])
    (h : ∀ part ∈ parts, Clear mark part) : cut mark ([mark].intercalate parts) = parts := by
  induction parts with
  | nil => exact absurd rfl hne
  | cons part parts ih =>
    obtain ⟨hpart, hparts⟩ := List.forall_mem_cons.mp h
    cases parts with
    | nil =>
      rw [List.intercalate_singleton, cut_of_eq_none (cutFirst_eq_none_of_clear hmark hpart)]
    | cons next parts =>
      have hjoin : [mark].intercalate (part :: next :: parts) =
          part ++ mark :: [mark].intercalate (next :: parts) := by
        rw [List.intercalate_cons_cons, List.append_assoc, List.singleton_append]
      rw [hjoin, cut_of_eq_some (cutFirst_of_clear hmark hpart),
        ih (List.cons_ne_nil next parts) hparts]

end Template

/-! ### Wordings -/

namespace Template

variable {mark : Char} {text : List Char}

theorem escape_cons (c : Char) (text : List Char) :
    escape (c :: text) = (if c ∈ escapable then ['\\', c] else [c]) ++ escape text :=
  List.flatMap_cons

theorem unescape_cons {c : Char} (h : c = '\\' → ∀ d ∈ text.head?, d ∉ escapable) :
    unescape (c :: text) = c :: unescape text := by
  cases text with
  | nil => rfl
  | cons d text =>
    rw [unescape]
    exact if_neg fun hd => h hd.1 d rfl hd.2

theorem unescape_of_forall (h : ∀ c ∈ text, c ∉ escapable) : unescape text = text := by
  induction text with
  | nil => rfl
  | cons c text ih =>
    obtain ⟨-, htext⟩ := List.forall_mem_cons.mp h
    rw [unescape_cons fun _ d hd => htext d (List.mem_of_mem_head? hd), ih htext]

theorem unescape_of_no_backslash (h : ∀ c ∈ text, c ≠ '\\') : unescape text = text := by
  induction text with
  | nil => rfl
  | cons c text ih =>
    obtain ⟨hc, htext⟩ := List.forall_mem_cons.mp h
    rw [unescape_cons fun hslash => absurd hslash hc, ih htext]

/-- Behind a backslash of the text no escape starts, since escapes start with a backslash. -/
theorem head_escape (text : List Char) : ∀ d ∈ (escape text).head?, d ∉ escapable := by
  cases text with
  | nil => exact fun d hd => nomatch hd
  | cons c text =>
    rw [escape_cons]
    intro d hd
    by_cases hc : c ∈ escapable
    · rw [if_pos hc] at hd
      cases hd
      decide
    · rw [if_neg hc] at hd
      cases hd
      exact hc

/-- Unescaping undoes escaping. -/
theorem unescape_escape (text : List Char) : unescape (escape text) = text := by
  induction text with
  | nil => rfl
  | cons c text ih =>
    rw [escape_cons]
    by_cases hc : c ∈ escapable
    · rw [if_pos hc, List.cons_append, List.cons_append, List.nil_append, unescape,
        if_pos ⟨rfl, hc⟩, ih]
    · rw [if_neg hc, List.cons_append, List.nil_append,
        unescape_cons fun _ => head_escape text, ih]

theorem Settled.of_append (lead : List Char) {rest : List Char} {c : Char} (hc : c ≠ '\\')
    (h : Settled (lead ++ c :: rest)) : Settled rest := by
  intro before count after heq hbefore hafter
  refine h (lead ++ c :: before) count after (by rw [heq]; simp) ?_ hafter
  rw [List.getLast?_append, List.getLast?_cons]
  cases hb : before.getLast? with
  | none => simpa using hc
  | some d => simpa [hb] using hbefore

theorem Settled.of_pair {rest : List Char} (h : Settled ('\\' :: '\\' :: rest)) : Settled rest := by
  intro before count after heq hbefore hafter
  cases before with
  | nil =>
    have hcount := h [] (count + 2) after (by rw [heq]; rfl) (by simp) hafter
    omega
  | cons c before =>
    exact h ('\\' :: '\\' :: c :: before) count after (by rw [heq]; rfl)
      (by simpa [List.getLast?_cons] using hbefore) hafter

/-- A backslash is not the last character, nor does it stand alone before an escapable one. -/
theorem not_settled_backslash {rest : List Char}
    (h : rest = [] ∨ ∃ c ∈ rest.head?, c ∈ escapable) : ¬Settled ('\\' :: rest) := by
  intro hs
  have hcount := hs [] 1 rest rfl (by simp) h
  omega

theorem pairsUp_of_settled (h : Settled text) : pairsUp text = true := by
  fun_induction pairsUp text with
  | case1 => rfl
  | case2 => exact absurd h (not_settled_backslash (.inl rfl))
  | case3 d rest ih =>
    have hd : d ∉ escapable := fun hd => not_settled_backslash (.inr ⟨d, rfl, hd⟩) h
    rw [Bool.and_eq_true, decide_eq_true_eq]
    refine ⟨hd, ih ?_⟩
    by_cases hb : d = '\\'
    · subst hb
      exact h.of_pair
    · exact Settled.of_append ['\\'] hb h
  | case4 c rest hb ih => exact ih (Settled.of_append [] hb h)

theorem settled_of_pairsUp (h : pairsUp text = true) : Settled text := by
  fun_induction pairsUp text with
  | case1 =>
    intro before count after heq _ _
    cases count with
    | zero => rfl
    | succ count => simp [List.replicate_succ] at heq
  | case2 => cases h
  | case3 d rest ih =>
    obtain ⟨hd, hrest⟩ := Bool.and_eq_true_iff.mp h
    intro before count after heq hbefore hafter
    rcases before with _ | ⟨b, _ | ⟨b', before⟩⟩
    · -- the run starts with this backslash: it is at least a pair, or there is none
      rcases count with _ | _ | count
      · rfl
      · have hrun : d :: rest = after := (List.cons.inj heq).2
        subst hrun
        obtain hnil | ⟨c, hc, hesc⟩ := hafter
        · cases hnil
        · cases hc
          exact absurd hesc (of_decide_eq_true hd)
      · have hcount := ih hrest [] count after (List.cons.inj (List.cons.inj heq).2).2
          (by simp) hafter
        omega
    · exact absurd (congrArg some (List.cons.inj heq).1.symm) hbefore
    · refine ih hrest before count after (List.cons.inj (List.cons.inj heq).2).2 ?_ hafter
      intro hlast
      exact hbefore (by simp [List.getLast?_cons, hlast])
  | case4 c rest hb ih =>
    intro before count after heq hbefore hafter
    cases before with
    | nil =>
      cases count with
      | zero => rfl
      | succ count => exact absurd (List.cons.inj heq).1 hb
    | cons b before =>
      refine ih h before count after (List.cons.inj heq).2 ?_ hafter
      intro hlast
      exact hbefore (by simp [List.getLast?_cons, hlast])

/-- Runs of backslashes may be told from the left. -/
theorem settled_iff : Settled text ↔ pairsUp text = true := ⟨pairsUp_of_settled, settled_of_pairsUp⟩

instance : Decidable (Settled text) := decidable_of_iff _ settled_iff.symm

/-- In a settled text that is escaped, the marks stand only escaped. -/
theorem clear_escape (hmark : mark ∈ escapable) (h : Settled text) : Clear mark (escape text) := by
  rw [settled_iff] at h
  fun_induction pairsUp text with
  | case1 => exact .nil
  | case2 => cases h
  | case3 d rest ih =>
    obtain ⟨hd, hrest⟩ := Bool.and_eq_true_iff.mp h
    rw [escape_cons, if_neg (by decide), escape_cons, if_neg (of_decide_eq_true hd)]
    exact .escaped d (ih hrest)
  | case4 c rest hb ih =>
    rw [escape_cons]
    by_cases hc : c ∈ escapable
    · rw [if_pos hc]
      exact .escaped c (ih h)
    · rw [if_neg hc]
      exact .plain hb (fun hm => hc (hm ▸ hmark)) (ih h)

theorem mem_of_dropWhile_eq (h : text.dropWhile (· == '\\') = ['~']) :
    ∀ c ∈ text, c = '\\' ∨ c = '~' := by
  intro c hc
  rw [← List.takeWhile_append_dropWhile (p := (· == '\\')) (l := text), h, List.mem_append] at hc
  rcases hc with hc | hc
  · exact .inl (by simpa using List.all_eq_true.mp List.all_takeWhile c hc)
  · exact .inr (List.mem_singleton.mp hc)

/-- Backslashes before a `~` escape each other, or the `~`. -/
theorem clear_of_dropWhile_eq (hmark : mark ≠ '~') :
    ∀ {text : List Char}, text.dropWhile (· == '\\') = ['~'] → Clear mark text
  | [], h => nomatch h
  | c :: rest, h => by
    by_cases hb : c = '\\'
    · subst hb
      rw [List.dropWhile_cons_of_pos (by rfl)] at h
      cases rest with
      | nil => cases h
      | cons d rest =>
        by_cases hd : d = '\\'
        · subst hd
          rw [List.dropWhile_cons_of_pos (by rfl)] at h
          exact .escaped _ (clear_of_dropWhile_eq hmark h)
        · rw [List.dropWhile_cons_of_neg (by simpa using hd)] at h
          cases h
          exact .escaped _ .nil
    · rw [List.dropWhile_cons_of_neg (by simpa using hb)] at h
      cases h
      exact .plain hb hmark.symm .nil
termination_by text => text.length

end Template

namespace Wording

open Template

theorem clear_written {w : Wording} (h : w.IsWritable) {mark : Char} (hmark : mark ∈ escapable) :
    Clear mark w.written := by
  have htilde : mark ≠ '~' := by
    rintro rfl
    exact absurd hmark (by decide)
  cases w with
  | loud => exact .plain (by decide) htilde.symm .nil
  | plain text =>
    unfold written
    dsimp only
    split
    · next hdrop =>
      refine clear_of_dropWhile_eq htilde ?_
      rwa [List.dropWhile_cons_of_pos (by rfl)]
    · exact clear_escape hmark h

/-- A wording is read as it was written. -/
theorem parse_written (w : Wording) : Wording.parse (String.ofList w.written) = w := by
  unfold parse
  rw [String.toList_ofList]
  cases w with
  | loud => rfl
  | plain text =>
    by_cases hdrop : text.toList.dropWhile (· == '\\') = ['~']
    · have hwritten : (plain text).written = '\\' :: text.toList := if_pos hdrop
      have hplain : ∀ c ∈ '\\' :: text.toList, c ∉ escapable := by
        refine List.forall_mem_cons.mpr ⟨by decide, fun c hc => ?_⟩
        rcases mem_of_dropWhile_eq hdrop c hc with rfl | rfl <;> decide
      rw [hwritten, unescape_of_forall hplain]
      simp [hdrop]
    · have hwritten : (plain text).written = escape text.toList := if_neg hdrop
      rw [hwritten, unescape_escape]
      have hloud : text.toList ≠ ['~'] := fun h => hdrop (by rw [h]; rfl)
      dsimp only
      rw [if_neg hloud]
      split
      · next rest heq =>
        rw [heq, List.dropWhile_cons_of_pos (by rfl)] at hdrop
        rw [if_neg hdrop, String.ofList_toList]
      · rw [String.ofList_toList]

end Wording

/-! ### Specs and groups -/

namespace Name

theorem spelled {name : String} (h : isToken name = true) :
    name.toList ≠ [] ∧ ∀ c ∈ name.toList, isNameChar c = true := by
  simp only [isToken, isSpelled, Bool.and_eq_true, List.all_eq_true] at h
  refine ⟨fun hnil => ?_, h.1.2⟩
  rw [hnil] at h
  exact absurd h.1.1 (by decide)

end Name

namespace Spec

/-- The characters that a spec has none of: those that end specs, groups, alternatives, bodies, and
the backslash. -/
def delimiters : List Char := [',', '+', ':', '|', '{', '}', '\\']

theorem not_mem_delimiters {c : Char} (h : Name.isNameChar c = true) : c ∉ delimiters := by
  intro hc
  have hall : (delimiters.all fun d => !Name.isNameChar d) = true := by decide
  have hnot := List.all_eq_true.mp hall c hc
  rw [h] at hnot
  cases hnot

theorem written_spelled {spec : Spec} (h : spec.IsWritable) :
    spec.written ≠ [] ∧ ∀ c ∈ spec.written, c ∉ delimiters := by
  cases spec with
  | name name =>
    obtain ⟨hne, hchars⟩ := Name.spelled h
    exact ⟨hne, fun c hc => not_mem_delimiters (hchars c hc)⟩
  | butNot name =>
    obtain ⟨-, hchars⟩ := Name.spelled h
    refine ⟨List.cons_ne_nil _ _, List.forall_mem_cons.mpr ⟨by decide, fun c hc => ?_⟩⟩
    exact not_mem_delimiters (hchars c hc)
  | wildcard => exact ⟨List.cons_ne_nil _ _, List.forall_mem_singleton.mpr (by decide)⟩
  | invalid written => exact h.elim

/-- A spec is read as it was written. -/
theorem parse_written {spec : Spec} (h : spec.IsWritable) :
    Spec.parse (String.ofList spec.written) = spec := by
  cases spec with
  | wildcard => rfl
  | invalid written => exact h.elim
  | butNot name =>
    have hname : Name.isToken name = true := h
    have hstar : String.ofList ('!' :: name.toList) ≠ "*" := by
      intro heq
      have hlist := congrArg String.toList heq
      rw [String.toList_ofList] at hlist
      exact absurd (List.cons.inj hlist).1 (by decide)
    unfold written parse
    rw [if_neg hstar, String.toList_ofList]
    simp [hname]
  | name name =>
    have hname : Name.isToken name = true := h
    obtain ⟨-, hchars⟩ := Name.spelled hname
    have hstar : name ≠ "*" := by
      rintro rfl
      exact absurd hname (by decide)
    unfold written parse
    rw [String.ofList_toList, if_neg hstar]
    split
    · next rest heq =>
      exact absurd (hchars '!' (by rw [heq]; exact List.mem_cons_self)) (by decide)
    · rw [if_pos hname]

end Spec

namespace Alternative

open Template

variable {group : List Spec} {groups : List (List Spec)} {arity : Nat} {a : Alternative}

theorem mem_writtenGroup (h : ∀ spec ∈ group, spec.IsWritable) :
    ∀ c ∈ writtenGroup group, c = ',' ∨ c ∉ Spec.delimiters := by
  refine forall_mem_intercalate (.inl rfl) fun part hpart c hc => ?_
  obtain ⟨spec, hspec, rfl⟩ := List.mem_map.mp hpart
  exact .inr ((Spec.written_spelled (h spec hspec)).2 c hc)

theorem writtenGroup_ne_nil (hne : group ≠ []) (h : ∀ spec ∈ group, spec.IsWritable) :
    writtenGroup group ≠ [] := by
  refine intercalate_ne_nil (by rwa [Ne, List.map_eq_nil_iff]) fun part hpart => ?_
  obtain ⟨spec, hspec, rfl⟩ := List.mem_map.mp hpart
  exact (Spec.written_spelled (h spec hspec)).1

theorem parseGroup_written (h : ∀ spec ∈ group, spec.IsWritable) :
    parseGroup (writtenGroup group) = group := by
  cases group with
  | nil => rfl
  | cons spec rest =>
    have hcomma : ∀ part ∈ (spec :: rest).map Spec.written, ',' ∉ part := by
      intro part hpart hc
      obtain ⟨s, hs, rfl⟩ := List.mem_map.mp hpart
      exact (Spec.written_spelled (h s hs)).2 ',' hc (by decide)
    have hsplit : (writtenGroup (spec :: rest)).splitOn ',' = (spec :: rest).map Spec.written :=
      List.splitOn_intercalate ',' hcomma (List.cons_ne_nil _ _)
    have hne := writtenGroup_ne_nil (List.cons_ne_nil spec rest) h
    unfold parseGroup
    rw [if_neg (by rwa [List.isEmpty_iff]), hsplit, List.map_map]
    exact (List.map_congr_left fun s hs => Spec.parse_written (h s hs)).trans (List.map_id _)

theorem parseGroups_written (hne : groups ≠ []) (harity : arity ≤ 1 → groups.length ≤ 1)
    (h : ∀ group ∈ groups, ∀ spec ∈ group, spec.IsWritable) :
    parseGroups arity (writtenGroups groups) = groups := by
  unfold parseGroups writtenGroups
  by_cases ha : 1 < arity
  · have hplus : ∀ part ∈ groups.map writtenGroup, '+' ∉ part := by
      intro part hpart hc
      obtain ⟨group, hgroup, rfl⟩ := List.mem_map.mp hpart
      rcases mem_writtenGroup (h group hgroup) '+' hc with heq | hmem
      · exact absurd heq (by decide)
      · exact hmem (by decide)
    rw [if_pos ha, List.splitOn_intercalate '+' hplus (by rwa [Ne, List.map_eq_nil_iff]),
      List.map_map]
    exact (List.map_congr_left fun g hg => parseGroup_written (h g hg)).trans (List.map_id _)
  · obtain ⟨group, rfl⟩ : ∃ group, groups = [group] := by
      have hlength := List.length_pos_iff.mpr hne
      exact List.length_eq_one_iff.mp (by omega)
    rw [if_neg ha, List.map_singleton, List.intercalate_singleton,
      parseGroup_written (h group List.mem_cons_self)]

theorem clear_writtenGroups (h : ∀ group ∈ groups, ∀ spec ∈ group, spec.IsWritable) {mark : Char}
    (hmark : mark ∈ escapable) : Clear mark (writtenGroups groups) := by
  have hchars : ∀ c ∈ writtenGroups groups, c = '+' ∨ c = ',' ∨ c ∉ Spec.delimiters := by
    refine forall_mem_intercalate (.inl rfl) fun part hpart c hc => ?_
    obtain ⟨group, hgroup, rfl⟩ := List.mem_map.mp hpart
    exact .inr (mem_writtenGroup (h group hgroup) c hc)
  refine .of_forall fun c hc => ?_
  rcases hchars c hc with rfl | rfl | hmem
  · exact ⟨by decide, fun heq => absurd (heq ▸ hmark) (by decide)⟩
  · exact ⟨by decide, fun heq => absurd (heq ▸ hmark) (by decide)⟩
  · have hsub : ∀ d ∈ '\\' :: escapable, d ∈ Spec.delimiters := by
      simp [escapable, Spec.delimiters]
    exact ⟨fun heq => hmem (hsub c (heq ▸ List.mem_cons_self)),
      fun heq => hmem (hsub c (heq ▸ List.mem_cons_of_mem _ hmark))⟩

theorem clear_written (h : a.IsWritable arity) {mark : Char} (hmark : mark ∈ escapable)
    (hcolon : mark ≠ ':') : Clear mark a.written := by
  have hwording := Wording.clear_written h.wording hmark
  unfold written
  split
  · exact hwording
  · exact (clear_writtenGroups h.specs hmark).append (.plain (by decide) hcolon.symm hwording)

/-- An alternative is read as it was written. -/
theorem parse_written (h : a.IsWritable arity) : Alternative.parse arity a.written = a := by
  have hcolon : ':' ∈ escapable := by decide
  obtain ⟨groups, wording⟩ := a
  unfold parse
  by_cases hfree : groups = []
  · subst hfree
    have hwritten : written ⟨[], wording⟩ = wording.written := rfl
    rw [hwritten, cutFirst_eq_none_of_clear (by decide) (Wording.clear_written h.wording hcolon)]
    dsimp only
    rw [Wording.parse_written]
  · have hwritten : written ⟨groups, wording⟩ = writtenGroups groups ++ ':' :: wording.written :=
      if_neg (by simpa [isFree] using hfree)
    rw [hwritten, cutFirst_of_clear (by decide) (clear_writtenGroups h.specs hcolon)]
    dsimp only
    rw [Wording.parse_written, parseGroups_written hfree h.groups h.specs]

end Alternative

/-! ### Blocks -/

namespace Template

variable {path : List String} {alternatives : List Alternative}

/-- The alternatives are read as they were written. -/
theorem parseBody_written (h : Writable path alternatives) :
    parseBody (String.ofList (writtenBody alternatives)) path.length = alternatives := by
  have hclear : ∀ part ∈ alternatives.map Alternative.written, Clear '|' part := by
    intro part hpart
    obtain ⟨a, ha, rfl⟩ := List.mem_map.mp hpart
    exact Alternative.clear_written (h.alternatives a ha) (by decide) (by decide)
  unfold parseBody writtenBody
  rw [String.toList_ofList,
    cut_intercalate (by decide) (by rw [Ne, List.map_eq_nil_iff]; exact h.ne_nil) hclear,
    List.map_map]
  exact (List.map_congr_left fun a ha => Alternative.parse_written (h.alternatives a ha)).trans
    (List.map_id _)

theorem parsePath_written (h : ∀ kind ∈ path, Name.isKind kind = true) :
    parsePath (writtenHeader path) = path := by
  cases path with
  | nil => rfl
  | cons kind rest =>
    have hspelled := fun k hk => Name.spelled (Name.isToken_of_isKind (h k hk))
    have hplus : ∀ part ∈ (kind :: rest).map String.toList, '+' ∉ part := by
      intro part hpart hc
      obtain ⟨k, hk, rfl⟩ := List.mem_map.mp hpart
      exact absurd ((hspelled k hk).2 '+' hc) (by decide)
    have hsplit : (writtenHeader (kind :: rest)).splitOn '+' = (kind :: rest).map String.toList :=
      List.splitOn_intercalate '+' hplus (List.cons_ne_nil _ _)
    have hne : writtenHeader (kind :: rest) ≠ [] := by
      refine intercalate_ne_nil (List.cons_ne_nil _ _) fun part hpart => ?_
      obtain ⟨k, hk, rfl⟩ := List.mem_map.mp hpart
      exact (hspelled k hk).1
    unfold parsePath
    rw [if_neg (by rwa [List.isEmpty_iff]), hsplit, List.map_map]
    exact (List.map_congr_left fun k _ => String.ofList_toList).trans (List.map_id _)

theorem isHeaderChar_of_isNameChar {c : Char} (h : Name.isNameChar c = true) :
    isHeaderChar c = true := by
  have hmarks : (['{', '}', '|', '@', '\\'].all fun d => !Name.isNameChar d) = true := by decide
  have hne : ∀ d ∈ ['{', '}', '|', '@', '\\'], c ≠ d := by
    rintro d hd rfl
    have hnot := List.all_eq_true.mp hmarks c hd
    rw [h] at hnot
    cases hnot
  unfold Name.isNameChar at h
  simp only [List.forall_mem_cons, ne_eq] at hne
  simp [isHeaderChar, (Bool.and_eq_true_iff.mp h).1, hne]

theorem isHeaderChar_of_mem_writtenHeader (h : ∀ kind ∈ path, Name.isKind kind = true) :
    ∀ c ∈ writtenHeader path, isHeaderChar c = true := by
  refine forall_mem_intercalate (by decide) fun part hpart c hc => ?_
  obtain ⟨kind, hkind, rfl⟩ := List.mem_map.mp hpart
  have hspelled := Name.spelled (Name.isToken_of_isKind (h kind hkind))
  exact isHeaderChar_of_isNameChar (hspelled.2 c hc)

theorem chain_written (h : Writable path alternatives) :
    Chain (writtenHeader path) [writtenBody alternatives] where
  isHeader := isHeaderChar_of_mem_writtenHeader h.kinds
  clear := by
    refine List.forall_mem_singleton.mpr (Clear.intercalate (by decide) (by decide) fun part hp => ?_)
    obtain ⟨a, ha, rfl⟩ := List.mem_map.mp hp
    exact Alternative.clear_written (h.alternatives a ha) (by decide) (by decide)
  ne_nil := List.cons_ne_nil _ _

theorem blockOf_written (h : Writable path alternatives) :
    blockOf (writtenHeader path) (writtenBody alternatives) =
      ⟨path, alternatives, writtenBlock path alternatives⟩ := by
  unfold blockOf
  rw [parsePath_written h.kinds, parseBody_written h]
  rfl

/-! ### Between other texts -/

variable {text : List Char} {ps : List Piece}

theorem Cut.char_append {lead : List Char} (hlead : ∀ c ∈ lead, c ≠ '@' ∧ c ≠ '\\')
    (h : Cut text ps) : Cut (lead ++ text) (lead.map .char ++ ps) := by
  induction lead with
  | nil => exact h
  | cons c lead ih =>
    obtain ⟨hc, hrest⟩ := List.forall_mem_cons.mp hlead
    refine .cons (.char ?_ ?_ rfl) (ih hrest)
    · rw [List.cons_append, opensEscaped_cons_iff]
      exact fun hopen => hopen.1.elim hc.1 hc.2
    · rw [List.cons_append, opensChain_cons_iff]
      exact fun hopen => hc.1 hopen.1

theorem Cut.chain_append {header : List Char} {bodies : List (List Char)}
    (hchain : Chain header bodies) (hends : Ends text) (h : Cut text ps) :
    Cut ('@' :: chainText header bodies ++ text) (.chain header bodies :: ps) := by
  refine .cons (.chain ?_ hchain hends rfl) h
  rw [List.cons_append, opensEscaped_cons_iff]
  rintro ⟨-, rest, heq, -⟩
  have hstarts : StartsChain (chainText header bodies ++ text) := ⟨header, bodies, text, hchain, rfl⟩
  rw [heq] at hstarts
  exact not_startsChain_at hstarts

theorem gather_char_append (lead : List Char) (ps : List Piece) :
    gather (lead.map .char ++ ps) = (lead ++ (gather ps).1, (gather ps).2) := by
  induction lead with
  | nil => rfl
  | cons c lead ih => rw [List.map_cons, List.cons_append, gather, ih, List.cons_append]

/-! ### Main statement -/

/-- **What is written is read back.** A block that can be written, behind text without `@` and
backslash and before text that does not start with a brace, is scanned as that text, the block, and
what is scanned of the text behind it. -/
theorem scan_writtenBlock (h : Writable path alternatives) (lead trail : String)
    (hlead : ∀ c ∈ lead.toList, c ≠ '@' ∧ c ≠ '\\') (htrail : trail.toList.head? ≠ some '{') :
    (scan (lead ++ writtenBlock path alternatives ++ trail)).segments =
      (if lead = "" then [] else [.literal lead]) ++
        .block ⟨path, alternatives, writtenBlock path alternatives⟩ :: (scan trail).segments := by
  have hcut : Cut (lead ++ writtenBlock path alternatives ++ trail).toList
      (lead.toList.map .char ++
        .chain (writtenHeader path) [writtenBody alternatives] :: pieces trail.toList) := by
    have hblock := (Cut.chain_append (chain_written h) (ends_of_head? htrail)
      (cut_iff.mpr rfl)).char_append hlead
    simpa [writtenBlock, chainText, String.toList_append] using hblock
  unfold scan
  rw [← cut_iff.mp hcut, gather_char_append, gather]
  simp only [List.append_nil, List.map_singleton, blockOf_written h, literalBefore,
    List.isEmpty_iff, String.ofList_toList, String.toList_eq_nil_iff]
  split <;> rfl

instance : (spec : Spec) → Decidable spec.IsWritable
  | .name text | .butNot text => inferInstanceAs (Decidable (Name.isToken text = true))
  | .wildcard => isTrue trivial
  | .invalid _ => isFalse id

instance : (w : Wording) → Decidable w.IsWritable
  | .plain text => inferInstanceAs (Decidable (Settled text.toList))
  | .loud => isTrue trivial

instance (arity : Nat) (a : Alternative) : Decidable (a.IsWritable arity) :=
  decidable_of_iff
    ((arity ≤ 1 → a.groups.length ≤ 1) ∧
      (∀ group ∈ a.groups, ∀ spec ∈ group, spec.IsWritable) ∧ a.wording.IsWritable)
    ⟨fun h => ⟨h.1, h.2.1, h.2.2⟩, fun h => ⟨h.groups, h.specs, h.wording⟩⟩

instance (path : List String) (alternatives : List Alternative) :
    Decidable (Writable path alternatives) :=
  decidable_of_iff
    ((∀ kind ∈ path, Name.isKind kind = true) ∧ alternatives ≠ [] ∧
      ∀ a ∈ alternatives, a.IsWritable path.length)
    ⟨fun h => ⟨h.1, h.2.1, h.2.2⟩, fun h => ⟨h.kinds, h.ne_nil, h.alternatives⟩⟩

/-- Alternatives with an empty group, with marks and backslashes in their wordings, a loud one, and
one that is a backslash and `~`. -/
def sampleAlternatives : List Alternative :=
  [⟨[[.name "m"], [.butNot "past", .wildcard]], .plain "a:b\\\\"⟩,
    ⟨[[], [.name "now"]], .loud⟩, ⟨[], .plain "\\~"⟩]

theorem scan_sample :
    (scan "to \x7b@gender+tense\x7bm+!past,*:a\\:b\\\\|+now:~|\\\\~\x7d\x7d@@").segments =
      .literal "to \x7b" ::
        .block ⟨["gender", "tense"], sampleAlternatives,
          "@gender+tense\x7bm+!past,*:a\\:b\\\\|+now:~|\\\\~\x7d"⟩ ::
        (scan "\x7d@@").segments := by
  have h : Writable ["gender", "tense"] sampleAlternatives := by decide
  have hlead : ∀ c ∈ "to \x7b".toList, c ≠ '@' ∧ c ≠ '\\' := by simp
  exact scan_writtenBlock h "to \x7b" "\x7d@@" hlead (by decide)

end Template
end Concord

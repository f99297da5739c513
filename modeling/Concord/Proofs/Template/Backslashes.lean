/-
# Which characters are escaped

A backslash escapes the character behind it, whatever that is, unless it is
escaped itself. This says of every position of a text whether the character there
is escaped, and so where a mark counts. The readers of a body keep no positions:
they go along the text and step over a backslash with the character behind it.
It comes to the same: a body ends, and an alternative's tokens end, at the first
mark that is not escaped, and alternatives are parted at all of them.

Removing backslashes from a wording is another matter. It looks at the character
behind a backslash only, and so takes away an escaped backslash too if it stands
before a character that a backslash makes literal.

Key definitions: `Template.Escaped`, `Template.BareAt`, `Template.FirstBare`,
`Template.Parted`, `Template.dropAt`.
Key theorems: `Template.escaped_append_right`, `Template.clear_iff`,
`Template.firstBare_iff`, `Template.parted_iff`, `Template.unescape_eq_dropAt`,
`Template.backslashes_read`.
-/
import Mathlib.Data.List.Basic
import Mathlib.Data.Nat.Find
import Concord.Proofs.Template.Cutting

namespace Concord
namespace Template

/-! ### Escaped characters -/

/-- The character at a position is escaped: it stands behind a backslash that is not escaped
itself. -/
def Escaped (text : List Char) : Nat → Prop
  | 0 => False
  | i + 1 => text[i]? = some '\\' ∧ ¬Escaped text i

instance Escaped.decidable (text : List Char) : DecidablePred (Escaped text)
  | 0 => isFalse id
  | i + 1 =>
    have := Escaped.decidable text i
    inferInstanceAs (Decidable (_ ∧ ¬_))

/-- A mark stands at a position and is not escaped. -/
def BareAt (mark : Char) (text : List Char) (i : Nat) : Prop :=
  text[i]? = some mark ∧ ¬Escaped text i

instance (mark : Char) (text : List Char) : DecidablePred (BareAt mark text) := fun _ =>
  inferInstanceAs (Decidable (_ ∧ _))

/-- What stands before the first mark that is not escaped, and what stands behind it. -/
structure FirstBare (mark : Char) (text before after : List Char) : Prop where
  eq : text = before ++ mark :: after
  unescaped : ¬Escaped text before.length
  first : ∀ i < before.length, ¬BareAt mark text i

/-- Where a mark comes between two parts that it joins. -/
def Joint (mark : Char) (parts : List (List Char)) (i : Nat) : Prop :=
  ∃ n, 0 < n ∧ n < parts.length ∧ i = ([mark].intercalate (parts.take n)).length

/-- A text is parted at every mark that is not escaped, and nowhere else. -/
structure Parted (mark : Char) (text : List Char) (parts : List (List Char)) : Prop where
  ne_nil : parts ≠ []
  joined : [mark].intercalate parts = text
  joints : ∀ i, BareAt mark text i ↔ Joint mark parts i

variable {mark : Char} {text before after : List Char} {i : Nat}

/-- What stands before a position tells whether the character there is escaped. -/
theorem escaped_append_left (after : List Char) (h : i ≤ before.length) :
    Escaped (before ++ after) i ↔ Escaped before i := by
  induction i with
  | zero => rfl
  | succ i ih =>
    have hi : i < before.length := h
    rw [Escaped, Escaped, List.getElem?_append_left hi, ih (Nat.le_of_lt hi)]

/-- Where nothing is escaped, reading may start anew. -/
theorem escaped_append_right (h : ¬Escaped before before.length) (after : List Char) (i : Nat) :
    Escaped (before ++ after) (before.length + i) ↔ Escaped after i := by
  induction i with
  | zero => exact iff_of_false (fun he => h ((escaped_append_left after le_rfl).mp he)) id
  | succ i ih =>
    rw [← Nat.add_assoc, Escaped, Escaped, List.getElem?_append_right (by omega),
      Nat.add_sub_cancel_left, ih]

theorem BareAt.lt_length (h : BareAt mark text i) : i < text.length :=
  (List.getElem?_eq_some_iff.mp h.1).1

theorem not_bareAt_nil : ¬BareAt mark [] i := fun h => absurd h.lt_length (Nat.not_lt_zero i)

theorem bareAt_append_left (after : List Char) (h : i < before.length) :
    BareAt mark (before ++ after) i ↔ BareAt mark before i := by
  rw [BareAt, BareAt, List.getElem?_append_left h, escaped_append_left after (Nat.le_of_lt h)]

theorem bareAt_append_right (h : ¬Escaped before before.length) (after : List Char) (i : Nat) :
    BareAt mark (before ++ after) (before.length + i) ↔ BareAt mark after i := by
  rw [BareAt, BareAt, escaped_append_right h, List.getElem?_append_right (by omega),
    Nat.add_sub_cancel_left]

/-- The marks of two texts, one behind the other, are those of both. -/
theorem forall_not_bareAt_append (h : ¬Escaped before before.length) (after : List Char) :
    (∀ i, ¬BareAt mark (before ++ after) i) ↔
      (∀ i, ¬BareAt mark before i) ∧ ∀ i, ¬BareAt mark after i := by
  constructor
  · intro hnone
    refine ⟨fun i hi => hnone i ?_, fun i hi => hnone (before.length + i) ?_⟩
    · exact (bareAt_append_left after hi.lt_length).mpr hi
    · exact (bareAt_append_right h after i).mpr hi
  · rintro ⟨hbefore, hafter⟩ i hi
    obtain hlt | hge := Nat.lt_or_ge i before.length
    · exact hbefore i ((bareAt_append_left after hlt).mp hi)
    · obtain ⟨j, rfl⟩ := Nat.exists_eq_add_of_le hge
      exact hafter j ((bareAt_append_right h after j).mp hi)

/-! ### Reading from the left -/

/-- A text is taken apart from the left, a backslash with the character behind it. -/
theorem pairs_induction {motive : List Char → Prop} (nil : motive []) (lone : motive ['\\'])
    (pair : ∀ c rest, motive rest → motive ('\\' :: c :: rest))
    (plain : ∀ c rest, c ≠ '\\' → motive rest → motive (c :: rest)) : ∀ text, motive text
  | [] => nil
  | c :: rest => by
    by_cases hc : c = '\\'
    · subst hc
      cases rest with
      | nil => exact lone
      | cons d rest => exact pair d rest (pairs_induction nil lone pair plain rest)
    · exact plain c rest hc (pairs_induction nil lone pair plain rest)
termination_by text => text.length

theorem not_escaped_pair (c : Char) : ¬Escaped ['\\', c] 2 := by simp [Escaped]

theorem not_escaped_plain {c : Char} (hc : c ≠ '\\') : ¬Escaped [c] 1 := by simp [Escaped, hc]

theorem not_bareAt_pair (hmark : mark ≠ '\\') (c : Char) : ∀ i, ¬BareAt mark ['\\', c] i
  | 0 => by simp [BareAt, hmark.symm]
  | 1 => by simp [BareAt, Escaped]
  | i + 2 => by simp [BareAt]

theorem forall_not_bareAt_plain_iff {c : Char} : (∀ i, ¬BareAt mark [c] i) ↔ c ≠ mark := by
  constructor
  · rintro h rfl
    exact h 0 ⟨rfl, id⟩
  · intro h i hi
    obtain rfl : i = 0 := Nat.lt_one_iff.mp hi.lt_length
    exact h (Option.some.inj hi.1)

/-- A mark stands only escaped in a text, and nothing behind the text would be escaped. -/
theorem clear_iff (hmark : mark ≠ '\\') :
    Clear mark text ↔ ¬Escaped text text.length ∧ ∀ i, ¬BareAt mark text i := by
  induction text using pairs_induction with
  | nil => exact iff_of_true .nil ⟨id, fun i => not_bareAt_nil⟩
  | lone =>
    refine iff_of_false (fun h => ?_) fun h => h.1 ⟨rfl, id⟩
    cases h with
    | plain hb _ _ => exact hb rfl
  | pair c rest ih =>
    have hpair := not_escaped_pair c
    have hlength : ('\\' :: c :: rest).length = ['\\', c].length + rest.length := by simp; omega
    rw [clear_escaped_iff, ih, hlength, show '\\' :: c :: rest = ['\\', c] ++ rest from rfl,
      escaped_append_right hpair, forall_not_bareAt_append hpair,
      and_iff_right (not_bareAt_pair hmark c)]
  | plain c rest hc ih =>
    have hplain := not_escaped_plain hc
    have hlength : (c :: rest).length = [c].length + rest.length := by simp; omega
    rw [clear_plain_iff hc, ih, hlength, show c :: rest = [c] ++ rest from rfl,
      escaped_append_right hplain, forall_not_bareAt_append hplain, forall_not_bareAt_plain_iff,
      and_left_comm]

/-! ### The first mark -/

theorem firstBare_iff_clear (hmark : mark ≠ '\\') :
    FirstBare mark text before after ↔ Clear mark before ∧ text = before ++ mark :: after := by
  rw [clear_iff hmark]
  constructor
  · rintro ⟨rfl, hescaped, hfirst⟩
    rw [escaped_append_left _ le_rfl] at hescaped
    refine ⟨⟨hescaped, fun i hi => hfirst i hi.lt_length ?_⟩, rfl⟩
    exact (bareAt_append_left _ hi.lt_length).mpr hi
  · rintro ⟨⟨hescaped, hnone⟩, rfl⟩
    refine ⟨rfl, (escaped_append_left _ le_rfl).not.mpr hescaped, fun i hi => ?_⟩
    exact (bareAt_append_left _ hi).not.mpr (hnone i)

/-- A text is cut at the first mark that is not escaped. -/
theorem firstBare_iff (hmark : mark ≠ '\\') :
    FirstBare mark text before after ↔ cutFirst mark text = some (before, after) :=
  (firstBare_iff_clear hmark).trans (cutFirst_eq_some_iff hmark).symm

theorem FirstBare.bareAt (h : FirstBare mark text before after) :
    BareAt mark text before.length := by
  refine ⟨?_, h.unescaped⟩
  rw [h.eq, List.getElem?_append_right le_rfl, Nat.sub_self]
  rfl

/-- Of the marks that are not escaped there is a first one. -/
theorem exists_firstBare (h : BareAt mark text i) :
    ∃ before after, FirstBare mark text before after := by
  have hex : ∃ i, BareAt mark text i := ⟨i, h⟩
  have hfound := Nat.find_spec hex
  have hlt := hfound.lt_length
  have hlength : (text.take (Nat.find hex)).length = Nat.find hex := by
    rw [List.length_take, Nat.min_eq_left (Nat.le_of_lt hlt)]
  refine ⟨text.take (Nat.find hex), text.drop (Nat.find hex + 1), ?_, ?_, ?_⟩
  · have hmark : text[Nat.find hex] = mark := (List.getElem?_eq_some_iff.mp hfound.1).2
    calc text = text.take (Nat.find hex) ++ text.drop (Nat.find hex) :=
        (List.take_append_drop _ _).symm
      _ = text.take (Nat.find hex) ++ mark :: text.drop (Nat.find hex + 1) := by
        rw [List.drop_eq_getElem_cons hlt, hmark]
  · rw [hlength]
    exact hfound.2
  · intro j hj
    rw [hlength] at hj
    exact Nat.find_min hex hj

/-- A text is not cut if every mark in it is escaped. -/
theorem cutFirst_eq_none_iff (hmark : mark ≠ '\\') :
    cutFirst mark text = none ↔ ∀ i, ¬BareAt mark text i := by
  constructor
  · intro hnone i hi
    obtain ⟨before, after, hfirst⟩ := exists_firstBare hi
    rw [(firstBare_iff hmark).mp hfirst] at hnone
    cases hnone
  · intro h
    refine Option.eq_none_iff_forall_ne_some.mpr fun p hp => ?_
    have hfirst : FirstBare mark text p.1 p.2 := (firstBare_iff hmark).mpr hp
    exact h _ hfirst.bareAt

/-- The marks of a text that are not escaped: the first one, and those behind it. -/
theorem FirstBare.bareAt_iff (hmark : mark ≠ '\\') (h : FirstBare mark text before after) :
    BareAt mark text i ↔ i = before.length ∨ ∃ j, i = before.length + 1 + j ∧ BareAt mark after j := by
  have hnext : ¬Escaped (before ++ [mark]) (before ++ [mark]).length := by
    rw [List.length_append, List.length_singleton, Escaped]
    simp [hmark]
  have hbehind : ∀ j, BareAt mark text (before.length + 1 + j) ↔ BareAt mark after j := by
    intro j
    have htext : text = before ++ [mark] ++ after := by rw [h.eq]; simp
    rw [htext, ← bareAt_append_right hnext after j, List.length_append, List.length_singleton]
  constructor
  · intro hi
    obtain hlt | rfl | hgt := Nat.lt_trichotomy i before.length
    · exact absurd hi (h.first i hlt)
    · exact .inl rfl
    · obtain ⟨j, rfl⟩ := Nat.exists_eq_add_of_le hgt
      exact .inr ⟨j, rfl, (hbehind j).mp hi⟩
  · rintro (rfl | ⟨j, rfl, hj⟩)
    · exact h.bareAt
    · exact (hbehind j).mpr hj

/-! ### All marks -/

theorem not_joint_singleton (part : List Char) : ¬Joint mark [part] i := by
  rintro ⟨n, hpos, hlt, -⟩
  rw [List.length_singleton] at hlt
  omega

/-- The joints of parts: the one behind the first part, and those of the other parts. -/
theorem joint_cons_iff {part : List Char} {rest : List (List Char)} (hrest : rest ≠ []) :
    Joint mark (part :: rest) i ↔
      i = part.length ∨ ∃ j, i = part.length + 1 + j ∧ Joint mark rest j := by
  have hpos := List.length_pos_iff.mpr hrest
  have hlength : ∀ n, 0 < n → ([mark].intercalate ((part :: rest).take (n + 1))).length =
      part.length + 1 + ([mark].intercalate (rest.take n)).length := by
    intro n hn
    have htake : rest.take n ≠ [] := by
      rw [Ne, List.take_eq_nil_iff, not_or]
      exact ⟨Nat.ne_of_gt hn, hrest⟩
    rw [List.take_succ_cons, List.intercalate_cons_of_ne_nil htake]
    simp [Nat.add_comm, Nat.add_left_comm]
  constructor
  · rintro ⟨n, hn, hlt, rfl⟩
    obtain ⟨n, rfl⟩ := Nat.exists_eq_add_of_lt hn
    rw [Nat.zero_add] at *
    rw [List.length_cons] at hlt
    cases n with
    | zero => exact .inl (by simp)
    | succ n => exact .inr ⟨_, hlength (n + 1) (by omega), n + 1, by omega, by omega, rfl⟩
  · rintro (rfl | ⟨j, rfl, n, hn, hlt, rfl⟩)
    · exact ⟨1, by omega, by rw [List.length_cons]; omega, by simp⟩
    · exact ⟨n + 1, by omega, by rw [List.length_cons]; omega, (hlength n hn).symm⟩

theorem parted_singleton_iff {part : List Char} :
    Parted mark text [part] ↔ part = text ∧ ∀ i, ¬BareAt mark text i := by
  constructor
  · rintro ⟨-, hjoined, hjoints⟩
    rw [List.intercalate_singleton] at hjoined
    exact ⟨hjoined, fun i hi => not_joint_singleton part ((hjoints i).mp hi)⟩
  · rintro ⟨rfl, hnone⟩
    exact ⟨by simp, by simp, fun i => iff_of_false (hnone i) (not_joint_singleton part)⟩

/-- A text is parted at its first mark, and what stands behind is parted. -/
theorem parted_cons_iff (hmark : mark ≠ '\\') {part : List Char} {rest : List (List Char)}
    (hrest : rest ≠ []) :
    Parted mark text (part :: rest) ↔
      ∃ after, FirstBare mark text part after ∧ Parted mark after rest := by
  have hjoined : [mark].intercalate (part :: rest) = part ++ mark :: [mark].intercalate rest := by
    rw [List.intercalate_cons_of_ne_nil hrest]
    simp
  constructor
  · rintro ⟨-, rfl, hjoints⟩
    have hbare := fun i => (hjoints i).trans (joint_cons_iff hrest)
    have hfirst : FirstBare mark ([mark].intercalate (part :: rest)) part
        ([mark].intercalate rest) := by
      refine ⟨hjoined, ((hbare part.length).mpr (.inl rfl)).2, fun i hi hi' => ?_⟩
      rcases (hbare i).mp hi' with rfl | ⟨j, rfl, -⟩ <;> omega
    refine ⟨_, hfirst, hrest, rfl, fun i => ?_⟩
    -- behind the first mark, both the marks and the joints are moved by as much
    have hi := (hfirst.bareAt_iff hmark).symm.trans (hbare (part.length + 1 + i))
    simpa [Nat.add_assoc] using hi
  · rintro ⟨after, hfirst, -, rfl, hjoints⟩
    refine ⟨List.cons_ne_nil part rest, hjoined.trans hfirst.eq.symm, fun i => ?_⟩
    simp only [hfirst.bareAt_iff hmark, joint_cons_iff hrest, hjoints]

/-- A text is parted in one way. -/
theorem parted_iff (hmark : mark ≠ '\\') {parts : List (List Char)} :
    Parted mark text parts ↔ parts = cut mark text := by
  constructor
  · intro h
    induction parts generalizing text with
    | nil => exact absurd rfl h.ne_nil
    | cons part rest ih =>
      by_cases hrest : rest = []
      · subst hrest
        obtain ⟨rfl, hnone⟩ := parted_singleton_iff.mp h
        exact (cut_of_eq_none ((cutFirst_eq_none_iff hmark).mpr hnone)).symm
      · obtain ⟨after, hfirst, hparted⟩ := (parted_cons_iff hmark hrest).mp h
        rw [cut_of_eq_some ((firstBare_iff hmark).mp hfirst), ← ih hparted]
  · rintro rfl
    fun_induction cut mark text with
    | case1 text h => exact parted_singleton_iff.mpr ⟨rfl, (cutFirst_eq_none_iff hmark).mp h⟩
    | case2 text before after h ih =>
      exact (parted_cons_iff hmark (cut_ne_nil mark after)).mpr
        ⟨after, (firstBare_iff hmark).mpr h, ih⟩

/-! ### Bodies -/

theorem readBodies_of_firstBare {inner body : List Char} (h : FirstBare '}' inner body after) :
    readBodies ('{' :: inner) = (body :: (readBodies after).1, (readBodies after).2) := by
  obtain ⟨hclear, rfl⟩ := (firstBare_iff_clear (by decide)).mp h
  rw [← readBodies_braced hclear after, braced_append]

theorem readBodies_of_not_bareAt {inner : List Char} (h : ∀ i, ¬BareAt '}' inner i) :
    readBodies ('{' :: inner) = ([], '{' :: inner) := by
  refine readBodies_of_ends fun body rest hbody heq => ?_
  rw [braced_append, List.cons.injEq] at heq
  exact h _ ((firstBare_iff_clear (by decide)).mpr ⟨hbody, heq.2⟩).bareAt

/-! ### Wordings -/

/-- The text without the characters at the positions that pass a test. -/
def dropAt (p : Nat → Prop) [DecidablePred p] (text : List Char) : List Char :=
  (text.zipIdx.filter fun e => ¬p e.2).map (·.1)

/-- A backslash stands directly before a character that a backslash makes literal. -/
def Touches (text : List Char) (i : Nat) : Prop :=
  text[i]? = some '\\' ∧ ∃ c ∈ text[i + 1]?, c ∈ escapable

instance (text : List Char) : DecidablePred (Touches text) := fun i =>
  have : Decidable (∃ c ∈ text[i + 1]?, c ∈ escapable) := Option.decidableExistsMem _
  inferInstanceAs (Decidable (_ ∧ _))

/-- A backslash escapes a character that it makes literal. -/
def Frees (text : List Char) (i : Nat) : Prop :=
  Escaped text (i + 1) ∧ ∃ c ∈ text[i + 1]?, c ∈ escapable

instance (text : List Char) : DecidablePred (Frees text) := fun i =>
  have : Decidable (∃ c ∈ text[i + 1]?, c ∈ escapable) := Option.decidableExistsMem _
  inferInstanceAs (Decidable (_ ∧ _))

theorem frees_iff : Frees text i ↔ Touches text i ∧ ¬Escaped text i := and_right_comm

section

variable {p q : Nat → Prop} [DecidablePred p] [DecidablePred q]

theorem dropAt_cons (c : Char) (text : List Char) :
    dropAt p (c :: text) = (if p 0 then [] else [c]) ++ dropAt (fun i => p (i + 1)) text := by
  have hrest : (text.zipIdx 1).filter (fun e => ¬p e.2) =
      ((text.zipIdx.filter fun e => ¬p (e.2 + 1)).map fun e => (e.1, e.2 + 1)) := by
    rw [List.zipIdx_succ, List.filter_map]
    rfl
  rw [dropAt, List.zipIdx_cons, List.filter_cons, Nat.zero_add, hrest]
  split <;> simp_all [dropAt]

/-- A test that fewer positions pass leaves as much of a text only if it is no other test there. -/
theorem dropAt_eq_iff (h : ∀ i, q i → p i) :
    dropAt p text = dropAt q text ↔ ∀ i < text.length, p i → q i := by
  have hsub : (text.zipIdx.filter fun e => ¬p e.2).Sublist (text.zipIdx.filter fun e => ¬q e.2) := by
    refine List.monotone_filter_right _ fun e he => ?_
    simp only [decide_eq_true_eq] at he ⊢
    exact fun hq => he (h _ hq)
  constructor
  · intro heq i hi hp
    have hlength : (text.zipIdx.filter fun e => ¬p e.2).length =
        (text.zipIdx.filter fun e => ¬q e.2).length := by
      simpa [dropAt] using congrArg List.length heq
    have hmem : (text[i], i) ∈ text.zipIdx := by
      rw [List.mk_mem_zipIdx_iff_getElem?, List.getElem?_eq_getElem hi]
    by_contra hq
    have hkept : (text[i], i) ∈ text.zipIdx.filter fun e => ¬q e.2 :=
      List.mem_filter.mpr ⟨hmem, decide_eq_true hq⟩
    rw [← hsub.eq_of_length hlength, List.mem_filter] at hkept
    exact of_decide_eq_true hkept.2 hp
  · intro himp
    refine congrArg _ (List.filter_congr fun e he => ?_)
    have hi := List.snd_lt_of_mem_zipIdx he
    exact decide_eq_decide.mpr (not_congr ⟨himp e.2 hi, h e.2⟩)

end

/-- Removing backslashes takes away each that stands before a character it could make literal. -/
theorem unescape_eq_dropAt (text : List Char) : unescape text = dropAt (Touches text) text := by
  fun_induction unescape text with
  | case1 => rfl
  | case2 c => simp [dropAt, Touches]
  | case3 c d rest h ih =>
    have hd : d ≠ '\\' := by
      rintro rfl
      exact absurd h.2 (by decide)
    rw [dropAt_cons, if_pos ⟨congrArg some h.1, d, rfl, h.2⟩, dropAt_cons,
      if_neg fun ht => hd (Option.some.inj ht.1), ih]
    rfl
  | case4 c d rest h ih =>
    rw [dropAt_cons, if_neg fun ht => h ⟨Option.some.inj ht.1, ?_⟩, ih]
    · rfl
    · obtain ⟨-, e, he, hmem⟩ := ht
      cases he
      exact hmem

/-- Removing backslashes follows the reading of a text exactly if no escaped backslash stands before
a character that a backslash makes literal. -/
theorem unescape_eq_dropAt_frees_iff :
    unescape text = dropAt (Frees text) text ↔ ∀ i, Escaped text i → ¬Touches text i := by
  rw [unescape_eq_dropAt, dropAt_eq_iff fun i h => (frees_iff.mp h).1]
  constructor
  · intro h i hescaped ht
    have hlt : i < text.length := (List.getElem?_eq_some_iff.mp ht.1).1
    exact (frees_iff.mp (h i hlt ht)).2 hescaped
  · intro h i _ ht
    exact frees_iff.mpr ⟨ht, fun hescaped => h i hescaped ht⟩

/-! ### Main statement -/

/-- **One reading of backslashes, but for wordings.** A text is cut at the first mark that is not
escaped, and if there is none it is not cut; it is parted at all such marks; and a body ends at the
first closing brace that is not escaped. From a wording each backslash is removed that stands
directly before a character that a backslash makes literal, and nothing else. These are just the
backslashes that escape such a character if none of them is escaped itself, and only then. -/
theorem backslashes_read (text : List Char) :
    (∀ mark ≠ '\\',
      (∀ before after, cutFirst mark text = some (before, after) ↔
        FirstBare mark text before after) ∧
      (cutFirst mark text = none ↔ ∀ i, ¬BareAt mark text i) ∧
      ∀ parts, parts = cut mark text ↔ Parted mark text parts) ∧
    ((∀ body after, FirstBare '}' text body after →
        readBodies ('{' :: text) = (body :: (readBodies after).1, (readBodies after).2)) ∧
      ((∀ i, ¬BareAt '}' text i) → readBodies ('{' :: text) = ([], '{' :: text))) ∧
    unescape text = dropAt (Touches text) text ∧
    (unescape text = dropAt (Frees text) text ↔ ∀ i, Escaped text i → ¬Touches text i) := by
  refine ⟨fun mark hmark => ?_, ⟨?_, readBodies_of_not_bareAt⟩, unescape_eq_dropAt text,
    unescape_eq_dropAt_frees_iff⟩
  · exact ⟨fun _ _ => (firstBare_iff hmark).symm, cutFirst_eq_none_iff hmark,
      fun _ => (parted_iff hmark).symm⟩
  · exact fun _ _ => readBodies_of_firstBare

/-- A text with an escaped bar, a bar behind an escaped backslash, and an escaped closing brace before
one that is not. -/
def sampleEscapes : List Char := "m:a\\|b\\\\|c\\\x7dd\x7de".toList

theorem backslashes_sample :
    ('|' ≠ '\\' ∧ cutFirst '|' sampleEscapes =
        some ("m:a\\|b\\\\".toList, "c\\\x7dd\x7de".toList) ∧
      Parted '|' sampleEscapes ["m:a\\|b\\\\".toList, "c\\\x7dd\x7de".toList]) ∧
    (FirstBare '}' sampleEscapes "m:a\\|b\\\\|c\\\x7dd".toList ['e'] ∧
      readBodies ('{' :: sampleEscapes) = (["m:a\\|b\\\\|c\\\x7dd".toList], ['e'])) ∧
    (∀ i, ¬BareAt '}' ['x', '\\', '}'] i) ∧
      readBodies ['{', 'x', '\\', '}'] = ([], ['{', 'x', '\\', '}']) := by
  obtain ⟨hmarks, ⟨hclosed, -⟩, -⟩ := backslashes_read sampleEscapes
  obtain ⟨hcut, -, hparted⟩ := hmarks '|' (by decide)
  have hfirst : FirstBare '|' sampleEscapes "m:a\\|b\\\\".toList "c\\\x7dd\x7de".toList :=
    ⟨by decide, by decide, by decide⟩
  have hbody : FirstBare '}' sampleEscapes "m:a\\|b\\\\|c\\\x7dd".toList ['e'] :=
    ⟨by decide, by decide, by decide⟩
  have hrest : readBodies ['e'] = ([], ['e']) := readBodies_of_ends (ends_of_head? (by decide))
  obtain ⟨hbraces, ⟨-, hopen⟩, -⟩ := backslashes_read ['x', '\\', '}']
  have hnone : ∀ i, ¬BareAt '}' ['x', '\\', '}'] i := (hbraces '}' (by decide)).2.1.mp (by decide)
  refine ⟨⟨by decide, (hcut _ _).mpr hfirst, (hparted _).mp (by decide +kernel)⟩, ⟨hbody, ?_⟩,
    hnone, hopen hnone⟩
  rw [hclosed _ _ hbody, hrest]

/-- In the wording of this block two backslashes stand before a `:`. The second is escaped, and so
escapes nothing; it is removed all the same. -/
theorem escaped_backslash_removed :
    (scan "@gender\x7bm:a\\\\:b\x7d").blocks.map (·.alternatives) =
      [[⟨[[.name "m"]], Wording.parse "a\\\\:b"⟩]] ∧
    dropAt (Frees "a\\\\:b".toList) "a\\\\:b".toList = "a\\\\:b".toList ∧
    unescape "a\\\\:b".toList = "a\\:b".toList ∧
    Wording.parse "a\\\\:b" = .plain "a\\:b" ∧
    ¬∀ text, unescape text = dropAt (Frees text) text := by
  refine ⟨by decide +kernel, by decide, by decide, by decide, fun h => ?_⟩
  exact absurd (h "a\\\\:b".toList) (by decide)

end Template
end Concord

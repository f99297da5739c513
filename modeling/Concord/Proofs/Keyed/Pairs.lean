/-
# Which keys and texts count

Keys and texts come as a list, and a key may come in it more than once; then it
says what it says last. The keys that list specs stand in the order in which they
come first, and this is the order in which alternatives are tried. Those that
start with `@` say the same from any place, if they direct, and nothing if they do
not. So neighbours in the list may change places unless both list specs or both
are the same key.

Key definitions: `Keyed.Says`, `Keyed.ReadFrom`.
Key theorems: `Keyed.directive_ofPairs`, `Keyed.keys_ordered`, `Keyed.readFrom_ofPairs`,
`Keyed.ReadFrom.unique`, `Keyed.add_right_comm`, `Keyed.pairs_read`.
-/
import Mathlib.Data.List.Basic
import Mathlib.Data.List.Induction
import Mathlib.Data.List.Nodup
import Concord.Keyed
import Concord.Table

namespace Concord

attribute [ext] Keyed

namespace Keyed

/-- What a key says in a list of keys and texts. -/
inductive Says (pairs : List (String × String)) (key : String) : Option String → Prop where
  /-- It says the text with which it comes last. -/
  | last {before after : List (String × String)} {text : String} :
      pairs = before ++ (key, text) :: after → (∀ p ∈ after, p.1 ≠ key) →
      Says pairs key (some text)
  /-- It says nothing if it does not come. -/
  | absent : (∀ p ∈ pairs, p.1 ≠ key) → Says pairs key none

/-- The keys that direct. -/
def directives : List String := ["@kind", "@free", "@prefix", "@suffix"]

/-- An inflection is what a list of keys and texts says. -/
structure ReadFrom (pairs : List (String × String)) (k : Keyed) : Prop where
  kind : Says pairs "@kind" k.kind
  free : Says pairs "@free" k.free
  /-- A literal text of which nothing is said is empty. -/
  lead : ∃ said, Says pairs "@prefix" said ∧ k.lead = said.getD ""
  trail : ∃ said, Says pairs "@suffix" said ∧ k.trail = said.getD ""
  /-- The keys that do not start with `@` stand with what they say. -/
  texts : ∀ key text, (key, text) ∈ k.tokens ↔
    Name.unmarked? key = none ∧ Says pairs key (some text)
  /-- They stand in the order in which they come first. -/
  ordered : (k.tokens.map (·.1)).Pairwise fun a b =>
    (pairs.map (·.1)).idxOf a < (pairs.map (·.1)).idxOf b

variable {pairs : List (String × String)} {key text : String} {k : Keyed}

/-! ### What a key says -/

/-- What a key says is what is found for it from behind. -/
theorem says_iff {said : Option String} :
    Says pairs key said ↔ pairs.reverse.lookup key = said := by
  constructor
  · intro h
    cases h with
    | last hpairs hafter =>
      rw [hpairs, List.reverse_append, List.reverse_cons, List.append_assoc]
      refine List.lookup_eq_some_iff.mpr ⟨_, _, rfl, fun p hp => ?_⟩
      exact bne_iff_ne.mpr (hafter p (List.mem_reverse.mp hp)).symm
    | absent h =>
      refine List.lookup_eq_none_iff.mpr fun p hp => ?_
      exact bne_iff_ne.mpr (h p (List.mem_reverse.mp hp)).symm
  · intro h
    cases said with
    | some text =>
      obtain ⟨after, before, hpairs, hafter⟩ := List.lookup_eq_some_iff.mp h
      have hplace : pairs = before.reverse ++ (key, text) :: after.reverse := by
        rw [← List.reverse_reverse pairs, hpairs, List.reverse_append, List.reverse_cons,
          List.append_assoc]
        rfl
      refine .last hplace fun p hp => ?_
      exact (bne_iff_ne.mp (hafter p (List.mem_reverse.mp hp))).symm
    | none =>
      refine .absent fun p hp => ?_
      exact (bne_iff_ne.mp (List.lookup_eq_none_iff.mp h p (List.mem_reverse.mpr hp))).symm

theorem Says.unique {said said' : Option String} (h : Says pairs key said)
    (h' : Says pairs key said') : said = said' :=
  (says_iff.mp h).symm.trans (says_iff.mp h')

/-- The last of some pairs is found first. -/
theorem lookup_concat (pairs : List (String × String)) (p : String × String) (key : String) :
    (pairs ++ [p]).reverse.lookup key =
      if key = p.1 then some p.2 else pairs.reverse.lookup key := by
  rw [List.reverse_append, List.reverse_singleton, List.singleton_append]
  exact Table.lookup_cons key p.1 p.2 pairs.reverse

/-! ### One more key -/

/-- A key that starts with `@` is none that does not. -/
theorem ne_of_marked {other : String} (hkey : Name.unmarked? key = none)
    (hother : (Name.unmarked? other).isSome = true) : key ≠ other := by
  rintro rfl
  rw [hkey] at hother
  cases hother

theorem not_mem_directives_iff :
    key ∉ directives ↔ key ≠ "@kind" ∧ key ≠ "@free" ∧ key ≠ "@prefix" ∧ key ≠ "@suffix" := by
  simp only [directives, List.mem_cons, List.not_mem_nil, or_false, not_or, ne_eq]

/-- Each directive sets its own part, and a key that does not start with `@` its text. -/
theorem add_eq (k : Keyed) (key text : String) :
    k.add key text =
      { kind := if key = "@kind" then some text else k.kind
        tokens := if (Name.unmarked? key).isSome then k.tokens else setText key text k.tokens
        free := if key = "@free" then some text else k.free
        lead := if key = "@prefix" then text else k.lead
        trail := if key = "@suffix" then text else k.trail } := by
  by_cases h : key ∈ directives
  · simp only [directives, List.mem_cons, List.not_mem_nil, or_false] at h
    rcases h with rfl | rfl | rfl | rfl <;> rfl
  · obtain ⟨hkind, hfree, hlead, htrail⟩ := not_mem_directives_iff.mp h
    unfold add
    simp only [if_neg hkind, if_neg hfree, if_neg hlead, if_neg htrail]
    split <;> rfl

theorem tokens_add (k : Keyed) (key text : String) :
    (k.add key text).tokens =
      if (Name.unmarked? key).isSome then k.tokens else setText key text k.tokens :=
  congrArg tokens (add_eq k key text)

/-- Keys that do not both list specs, and are not the same, may be added in either order. -/
theorem add_right_comm {key key' : String} (hne : key ≠ key')
    (hmarked : (Name.unmarked? key).isSome = true ∨ (Name.unmarked? key').isSome = true)
    (text text' : String) :
    (k.add key text).add key' text' = (k.add key' text').add key text := by
  have hswap : ∀ directive : String, key' = directive → ¬key = directive :=
    fun _ h' h => hne (h.trans h'.symm)
  ext1 <;> simp only [add_eq]
  case tokens => rcases hmarked with h | h <;> simp only [h, if_true]
  all_goals exact ite_ite_comm _ _ _ _ (hswap _)

/-- A key that starts with `@` and does not direct has no effect. -/
theorem add_of_not_mem (hmarked : (Name.unmarked? key).isSome = true) (hkey : key ∉ directives) :
    k.add key text = k := by
  obtain ⟨hkind, hfree, hlead, htrail⟩ := not_mem_directives_iff.mp hkey
  unfold add
  rw [if_neg hkind, if_neg hfree, if_neg hlead, if_neg htrail, if_pos hmarked]

/-! ### The list of specs -/

/-- Only the key whose text is set has another text. -/
theorem lookup_setText (key text other : String) : ∀ l : List (String × String),
    (setText key text l).lookup other = if other = key then some text else l.lookup other
  | [] => Table.lookup_cons other key text []
  | (k, old) :: rest => by
    unfold setText
    split
    · next h =>
      subst h
      rw [Table.lookup_cons, Table.lookup_cons]
      split <;> rfl
    · next h =>
      rw [Table.lookup_cons, Table.lookup_cons, lookup_setText key text other rest]
      by_cases hother : other = k
      · subst hother
        rw [if_pos rfl, if_pos rfl, if_neg h]
      · rw [if_neg hother, if_neg hother]

/-- A key that has a text keeps its place, and another one comes last. -/
theorem keys_setText (key text : String) : ∀ l : List (String × String),
    (setText key text l).map (·.1) =
      if key ∈ l.map (·.1) then l.map (·.1) else l.map (·.1) ++ [key]
  | [] => rfl
  | (k, old) :: rest => by
    unfold setText
    split
    · next h => simp [h]
    · next h =>
      have hmem : key ∈ ((k, old) :: rest).map (·.1) ↔ key ∈ rest.map (·.1) := by
        simp [Ne.symm h]
      rw [List.map_cons, keys_setText key text rest, if_congr hmem rfl rfl, List.map_cons]
      split <;> rfl

theorem mem_keys_setText {other : String} {l : List (String × String)} :
    other ∈ (setText key text l).map (·.1) ↔ other ∈ l.map (·.1) ∨ other = key := by
  rw [keys_setText]
  split
  · next h => exact ⟨.inl, fun hor => hor.elim id fun e => e ▸ h⟩
  · rw [List.mem_append, List.mem_singleton]

/-! ### All keys -/

theorem ofPairs_concat (pairs : List (String × String)) (p : String × String) :
    ofPairs (pairs ++ [p]) = (ofPairs pairs).add p.1 p.2 := by
  simp [ofPairs]

/-- A part of an inflection that a directive sets is what the directive says. -/
theorem directive_ofPairs {α : Type} (field : Keyed → α) (value : Option String → α)
    {directive : String} (hempty : field empty = value none)
    (hadd : ∀ k key text, field (add k key text) =
      if key = directive then value (some text) else field k)
    (pairs : List (String × String)) :
    field (ofPairs pairs) = value (pairs.reverse.lookup directive) := by
  induction pairs using List.reverseRecOn with
  | nil => exact hempty
  | append_singleton pairs p ih =>
    rw [ofPairs_concat, hadd, lookup_concat, ih]
    by_cases h : p.1 = directive
    · rw [if_pos h, if_pos h.symm]
    · rw [if_neg h, if_neg (Ne.symm h)]

/-- A key that lists specs has the text that it says. -/
theorem lookup_tokens (hkey : Name.unmarked? key = none) :
    (ofPairs pairs).tokens.lookup key = pairs.reverse.lookup key := by
  induction pairs using List.reverseRecOn with
  | nil => rfl
  | append_singleton pairs p ih =>
    rw [ofPairs_concat, tokens_add, lookup_concat]
    split
    · next h => rw [if_neg (ne_of_marked hkey h), ih]
    · rw [lookup_setText, ih]

/-- The keys that list specs are those that do not start with `@`. -/
theorem mem_keys_iff :
    key ∈ (ofPairs pairs).tokens.map (·.1) ↔
      Name.unmarked? key = none ∧ key ∈ pairs.map (·.1) := by
  induction pairs using List.reverseRecOn with
  | nil => exact iff_of_false List.not_mem_nil fun h => List.not_mem_nil h.2
  | append_singleton pairs p ih =>
    rw [ofPairs_concat, tokens_add, List.map_append, List.mem_append, List.map_singleton,
      List.mem_singleton]
    split
    · next h =>
      rw [ih]
      exact and_congr_right fun hkey => (or_iff_left (ne_of_marked hkey h)).symm
    · next h =>
      rw [mem_keys_setText, ih]
      constructor
      · rintro (⟨hkey, hmem⟩ | rfl)
        · exact ⟨hkey, .inl hmem⟩
        · exact ⟨by simpa using h, .inr rfl⟩
      · rintro ⟨hkey, hmem | rfl⟩
        · exact .inl ⟨hkey, hmem⟩
        · exact .inr rfl

/-- They stand in the order in which they come first. -/
theorem keys_ordered (pairs : List (String × String)) :
    ((ofPairs pairs).tokens.map (·.1)).Pairwise fun a b =>
      (pairs.map (·.1)).idxOf a < (pairs.map (·.1)).idxOf b := by
  induction pairs using List.reverseRecOn with
  | nil => exact .nil
  | append_singleton pairs p ih =>
    -- a key that has come before has its first place where it had it
    have hplace : ∀ a ∈ (ofPairs pairs).tokens.map (·.1),
        ((pairs ++ [p]).map (·.1)).idxOf a = (pairs.map (·.1)).idxOf a := by
      intro a ha
      rw [List.map_append, List.idxOf_append_of_mem (mem_keys_iff.mp ha).2]
    have hold : ((ofPairs pairs).tokens.map (·.1)).Pairwise fun a b =>
        ((pairs ++ [p]).map (·.1)).idxOf a < ((pairs ++ [p]).map (·.1)).idxOf b := by
      refine ih.imp_of_mem fun ha hb hlt => ?_
      rw [hplace _ ha, hplace _ hb]
      exact hlt
    rw [ofPairs_concat, tokens_add]
    split
    · exact hold
    · next hmarked =>
      rw [keys_setText]
      split
      · exact hold
      · next hnew =>
        have hkey : Name.unmarked? p.1 = none := by simpa using hmarked
        have hfirst : p.1 ∉ pairs.map (·.1) := fun h => hnew (mem_keys_iff.mpr ⟨hkey, h⟩)
        refine List.pairwise_append.mpr ⟨hold, List.pairwise_singleton _ _, fun a ha b hb => ?_⟩
        rw [List.mem_singleton.mp hb, hplace a ha, List.map_append,
          List.idxOf_append_of_notMem hfirst]
        exact Nat.lt_add_right _ (List.idxOf_lt_length_iff.mpr (mem_keys_iff.mp ha).2)

/-! ### What is read -/

theorem nodup_of_ordered {l keys : List String}
    (h : l.Pairwise fun a b => keys.idxOf a < keys.idxOf b) : l.Nodup := by
  refine h.imp ?_
  rintro a _ hlt rfl
  exact Nat.lt_irrefl _ hlt

theorem readFrom_ofPairs (pairs : List (String × String)) : ReadFrom pairs (ofPairs pairs) := by
  have hordered := keys_ordered pairs
  have hdistinct := nodup_of_ordered hordered
  have hkind := directive_ofPairs kind id rfl (fun _ _ _ => congrArg kind (add_eq ..)) pairs
  have hfree := directive_ofPairs free id rfl (fun _ _ _ => congrArg free (add_eq ..)) pairs
  have hlead := directive_ofPairs lead (·.getD "") rfl (fun _ _ _ => congrArg lead (add_eq ..)) pairs
  have htrail :=
    directive_ofPairs trail (·.getD "") rfl (fun _ _ _ => congrArg trail (add_eq ..)) pairs
  constructor
  case kind => exact says_iff.mpr hkind.symm
  case free => exact says_iff.mpr hfree.symm
  case lead => exact ⟨_, says_iff.mpr rfl, hlead⟩
  case trail => exact ⟨_, says_iff.mpr rfl, htrail⟩
  case texts =>
    intro key text
    rw [says_iff]
    constructor
    · intro hmem
      have hkey := (mem_keys_iff.mp (List.mem_map_of_mem hmem)).1
      refine ⟨hkey, ?_⟩
      rw [← lookup_tokens hkey]
      refine Table.lookup_of_unique (fun other hother => ?_) hmem
      exact congrArg Prod.snd (List.inj_on_of_nodup_map hdistinct hother hmem rfl)
    · rintro ⟨hkey, hsaid⟩
      rw [← lookup_tokens hkey] at hsaid
      exact Table.mem_of_lookup hsaid
  case ordered => exact hordered

theorem ReadFrom.places (h : ReadFrom pairs k) :
    k.tokens.Pairwise fun s t =>
      (pairs.map (·.1)).idxOf s.1 < (pairs.map (·.1)).idxOf t.1 := by
  have hordered := h.ordered
  rwa [List.pairwise_map] at hordered

theorem ReadFrom.tokens_eq {k' : Keyed} (h : ReadFrom pairs k) (h' : ReadFrom pairs k') :
    k.tokens = k'.tokens := by
  have hnodup : k.tokens.Nodup := (nodup_of_ordered h.ordered).of_map
  have hnodup' : k'.tokens.Nodup := (nodup_of_ordered h'.ordered).of_map
  have hperm : k.tokens.Perm k'.tokens := by
    refine (List.perm_ext_iff_of_nodup hnodup hnodup').mpr fun ⟨key, text⟩ => ?_
    rw [h.texts, h'.texts]
  refine List.Perm.eq_of_pairwise (fun s t _ _ hst hts => ?_) h.places h'.places hperm
  exact absurd hst (Nat.lt_asymm hts)

/-- A list of keys and texts says one inflection only. -/
theorem ReadFrom.unique {k' : Keyed} (h : ReadFrom pairs k) (h' : ReadFrom pairs k') : k = k' := by
  obtain ⟨said, hsaid, hlead⟩ := h.lead
  obtain ⟨said', hsaid', hlead'⟩ := h'.lead
  obtain ⟨told, htold, htrail⟩ := h.trail
  obtain ⟨told', htold', htrail'⟩ := h'.trail
  ext1
  · exact h.kind.unique h'.kind
  · exact h.tokens_eq h'
  · exact h.free.unique h'.free
  · rw [hlead, hlead', hsaid.unique hsaid']
  · rw [htrail, htrail', htold.unique htold']

/-! ### Main statement -/

/-- **Of a repeated key the last text counts, at the place of the first.** An inflection is the one of
a list of keys and texts exactly if it is what the list says: keys that do not start with `@` stand in
the order in which they come first, each with its last text, and the directives count as they come
last. So no key stands twice, another key that starts with `@` may be left out, and two neighbours may
change places if they are not the same key and do not both list specs. -/
theorem pairs_read (pairs : List (String × String)) :
    (∀ k, k = ofPairs pairs ↔ ReadFrom pairs k) ∧
    ((ofPairs pairs).tokens.map (·.1)).Nodup ∧
    (∀ before after key text, pairs = before ++ (key, text) :: after →
      (Name.unmarked? key).isSome = true → key ∉ directives →
        ofPairs (before ++ after) = ofPairs pairs) ∧
    ∀ before after p q, pairs = before ++ p :: q :: after → p.1 ≠ q.1 →
      ((Name.unmarked? p.1).isSome = true ∨ (Name.unmarked? q.1).isSome = true) →
        ofPairs (before ++ q :: p :: after) = ofPairs pairs := by
  have hread := readFrom_ofPairs pairs
  have hdistinct := nodup_of_ordered hread.ordered
  refine ⟨fun k => ⟨fun h => h ▸ hread, fun h => h.unique hread⟩, hdistinct, ?_, ?_⟩
  · rintro before after key text rfl hmarked hkey
    simp only [ofPairs, List.foldl_append, List.foldl_cons]
    rw [add_of_not_mem hmarked hkey]
  · rintro before after p q rfl hne hmarked
    simp only [ofPairs, List.foldl_append, List.foldl_cons]
    rw [add_right_comm hne hmarked]

/-- Keys that come twice, and one that directs nothing. -/
def sampleRepeated : List (String × String) :=
  [("m", "Sir"), ("@free", "All"), ("*", "Any"), ("@ignored", "x"), ("m", "Lord"), ("@free", "You")]

/-- The first key keeps its place and has its later text; the free text may be said before the second
key, and what directs nothing may be left out. -/
theorem read_sample :
    ReadFrom sampleRepeated ⟨none, [("m", "Lord"), ("*", "Any")], some "You", "", ""⟩ ∧
    ofPairs [("m", "Sir"), ("*", "Any"), ("@free", "All"), ("@ignored", "x"), ("m", "Lord"),
      ("@free", "You")] = ofPairs sampleRepeated ∧
    ofPairs [("m", "Sir"), ("@free", "All"), ("*", "Any"), ("m", "Lord"), ("@free", "You")] =
      ofPairs sampleRepeated := by
  obtain ⟨hread, -, hleft, hswap⟩ := pairs_read sampleRepeated
  refine ⟨(hread _).mp (by decide), ?_, ?_⟩
  · exact hswap [("m", "Sir")] _ ("@free", "All") ("*", "Any") rfl (by decide) (.inl (by decide))
  · exact hleft [("m", "Sir"), ("@free", "All"), ("*", "Any")] _ "@ignored" "x" rfl (by decide)
      (by decide)

end Keyed
end Concord

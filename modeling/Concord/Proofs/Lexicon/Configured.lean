/-
# Which configurations have a lexicon

A configuration makes sense (`Config.Valid`) if its entries are token tables
under names of kinds, if in each table the names are names, aliases and the
default name other entries of the table, and if no name stands in two tables of
the loose namespace. Nothing is said there of an order, and the lexicon is
built in one: the proof is that the turns in which a table is added, first
descriptions, then aliases, then the default, put what an entry needs before
the entry (`additions_ordered`), and that nothing is added twice. Conversely a
configuration makes sense if it collects additions that all succeed, whatever
their order is (`Lexicon.Collects`).

Key definitions: `Config.Valid`, `Kind.Holds`, `Lexicon.Collects`.
Key theorems: `Lexicon.Collects.valid`, `Lexicon.admissible_of_valid`,
`Lexicon.holds_of_ofConfig`, `Lexicon.ofConfig_spec`.
-/
import Concord.Proofs.Lexicon.History

namespace Concord

theorem Scope.split_injective {key key' : String} (h : Scope.split key = Scope.split key') :
    key = key' := by
  unfold Scope.split at h
  cases hu : Name.unmarked? key with
  | none =>
    cases hu' : Name.unmarked? key' with
    | none =>
      rw [hu, hu'] at h
      exact congrArg (·.2) h
    | some name' =>
      rw [hu, hu'] at h
      cases h
  | some name =>
    cases hu' : Name.unmarked? key' with
    | none =>
      rw [hu, hu'] at h
      cases h
    | some name' =>
      rw [hu, hu'] at h
      cases h
      rw [Name.unmarked?_eq_some_iff.mp hu, Name.unmarked?_eq_some_iff.mp hu']

/-! ### What makes sense -/

/-- A configuration that makes sense. -/
structure Config.Valid (c : Config) : Prop where
  /-- Every entry is a token table. -/
  tables : ∀ key entry, c.kinds.get? key = some entry → ∃ table, entry = .tokens table
  /-- Every key is the name of a kind, perhaps behind an `@`. -/
  keys : ∀ key, c.kinds.contains key = true → Name.isKind (Name.stripped key) = true
  /-- Every name is one, and has a value that says something. -/
  names : ∀ key table name value, c.kinds.get? key = some (.tokens table) →
    table.get? name = some value → name ≠ Name.defaultWord →
      Name.isToken name = true ∧ ∃ text, value = some text ∧ text ≠ "" ∧ text ≠ "@"
  /-- Every alias names an entry of its table that is no alias. -/
  aliases : ∀ key table name target, c.kinds.get? key = some (.tokens table) →
    table.get? name = some (some (Name.marked target)) → name ≠ Name.defaultWord →
      target ≠ Name.defaultWord ∧
        ∃ value, table.get? target = some value ∧ ∀ rest, value ≠ some (Name.marked rest)
  /-- Every default names an entry of its table, perhaps behind an `@`. -/
  defaults : ∀ key table value, c.kinds.get? key = some (.tokens table) →
    table.get? Name.defaultWord = some value →
      ∃ text, value = some text ∧ Name.stripped text ≠ Name.defaultWord ∧
        table.contains (Name.stripped text) = true
  /-- No name stands in two tables whose keys have no `@`. -/
  apart : ∀ key key' table table' name, c.kinds.get? key = some (.tokens table) →
    c.kinds.get? key' = some (.tokens table') → (Scope.split key).1 = .loose →
      (Scope.split key').1 = .loose → name ≠ Name.defaultWord → table.contains name = true →
        table'.contains name = true → key = key'

/-- The true token that a name of a token table reaches: itself, or the target of the alias. -/
def Reaches (table : Table (Option String)) (name token : String) : Prop :=
  name ≠ Name.defaultWord ∧
    ((token = name ∧ ∃ text, table.get? name = some (some text) ∧ ∀ rest, text ≠ Name.marked rest) ∨
      table.get? name = some (some (Name.marked token)))

/-- A kind holds what a token table says: the plain entries with their descriptions, the `@` entries
with their targets, and the token that the `default` entry reaches. -/
structure Kind.Holds (k : Kind) (table : Table (Option String)) : Prop where
  tokens : ∀ name text, k.tokens.get? name = some text ↔ name ≠ Name.defaultWord ∧
    table.get? name = some (some text) ∧ ∀ rest, text ≠ Name.marked rest
  aliases : ∀ name target, k.aliases.get? name = some target ↔ name ≠ Name.defaultWord ∧
    table.get? name = some (some (Name.marked target))
  standard : ∀ token, k.standard = some token ↔ ∃ text,
    table.get? Name.defaultWord = some (some text) ∧ Reaches table (Name.stripped text) token

namespace Lexicon

/-! ### The order of additions -/

/-- The turn in which an entry of a table is added. -/
def turn (e : String × Option String) : Nat :=
  if e.1 = Name.defaultWord then 2 else if isAliasValue e.2 then 1 else 0

theorem mem_additions {table : Table (Option String)} {e : String × Option String} :
    e ∈ additions table ↔ e ∈ table.entries := by
  simp only [additions, List.mem_append, List.mem_filter, bne_iff_ne, beq_iff_eq, ne_eq,
    Bool.not_eq_true']
  by_cases hn : e.1 = Name.defaultWord <;> by_cases ha : isAliasValue e.2 = true <;> simp [hn, ha]

/-- Nothing is added twice, and descriptions come before aliases, both before the default. -/
theorem additions_ordered (table : Table (Option String)) :
    (additions table).Pairwise fun a b => a ≠ b ∧ turn a ≤ turn b := by
  have hpart : ∀ {n : Nat} {l : List (String × Option String)}, l.Nodup → (∀ e ∈ l, turn e = n) →
      l.Pairwise fun a b => a ≠ b ∧ turn a ≤ turn b := by
    intro n l hl h
    refine hl.imp_of_mem fun {a b} ha hb hab => ⟨hab, ?_⟩
    exact Nat.le_of_eq ((h a ha).trans (h b hb).symm)
  have hacross : ∀ {a b : String × Option String}, turn a < turn b → a ≠ b ∧ turn a ≤ turn b :=
    fun h => ⟨fun e => Nat.lt_irrefl _ (e ▸ h), Nat.le_of_lt h⟩
  have hplain : ∀ e ∈ (table.entries.filter fun e => e.1 != Name.defaultWord).filter
      fun e => !isAliasValue e.2, turn e = 0 := by
    intro e he
    simp only [List.mem_filter, bne_iff_ne, Bool.not_eq_true'] at he
    rw [turn, if_neg he.1.2, he.2]
    rfl
  have halias : ∀ e ∈ (table.entries.filter fun e => e.1 != Name.defaultWord).filter
      fun e => isAliasValue e.2, turn e = 1 := by
    intro e he
    simp only [List.mem_filter, bne_iff_ne] at he
    rw [turn, if_neg he.1.2, if_pos he.2]
  have hdefault : ∀ e ∈ table.entries.filter fun e => e.1 == Name.defaultWord, turn e = 2 := by
    intro e he
    simp only [List.mem_filter, beq_iff_eq] at he
    rw [turn, if_pos he.2]
  have hentries := table.entries_nodup
  refine List.pairwise_append.mpr ⟨List.pairwise_append.mpr
    ⟨hpart ((hentries.filter _).filter _) hplain, hpart ((hentries.filter _).filter _) halias, ?_⟩,
    hpart (hentries.filter _) hdefault, ?_⟩
  · intro a ha b hb
    apply hacross
    rw [hplain a ha, halias b hb]
    exact Nat.zero_lt_one
  · intro a ha b hb
    apply hacross
    rw [hdefault b hb]
    rcases List.mem_append.mp ha with ha | ha
    · rw [hplain a ha]
      exact Nat.zero_lt_two
    · rw [halias a ha]
      exact Nat.one_lt_two

theorem mem_tableChanges_iff {key : String} {table : Table (Option String)} {c : Change} :
    c ∈ tableChanges key table ↔ c = .kind key ∨
      ∃ name value, table.get? name = some value ∧ c = .token key name value := by
  simp only [tableChanges, List.mem_cons, List.mem_map, mem_additions]
  refine or_congr_right ?_
  constructor
  · intro h
    obtain ⟨⟨name, value⟩, he, rfl⟩ := h
    exact ⟨name, value, Table.mem_entries_iff.mp he, rfl⟩
  · intro h
    obtain ⟨name, value, he, rfl⟩ := h
    exact ⟨(name, value), Table.mem_entries_iff.mpr he, rfl⟩

theorem key_of_mem_tableChanges {key : String} {table : Table (Option String)} {c : Change}
    (h : c ∈ tableChanges key table) : c.key = key := by
  rcases mem_tableChanges_iff.mp h with rfl | ⟨name, value, -, rfl⟩ <;> rfl

theorem mem_entryChanges_iff {l : List (String × Config.Entry)} {c : Change} :
    c ∈ entryChanges l ↔ ∃ key table, (key, .tokens table) ∈ l ∧ c ∈ tableChanges key table := by
  induction l with
  | nil => simp [entryChanges]
  | cons e rest ih =>
    obtain ⟨key, entry⟩ := e
    cases entry with
    | invalid data => simp [entryChanges, ih]
    | tokens table =>
      simp only [entryChanges, List.mem_append, ih]
      constructor
      · intro hyp
        rcases hyp with h | ⟨key', table', hmem, h⟩
        · exact ⟨key, table, List.mem_cons_self, h⟩
        · exact ⟨key', table', List.mem_cons_of_mem _ hmem, h⟩
      · intro hyp
        obtain ⟨key', table', hmem, h⟩ := hyp
        rcases List.mem_cons.mp hmem with e | hmem
        · cases e
          exact .inl h
        · exact .inr ⟨key', table', hmem, h⟩

/-- Two additions differ, and if they put names into one kind the first has no later turn. -/
def Precedes (c c' : Change) : Prop :=
  c ≠ c' ∧ ∀ key name name' value value', c = .token key name value →
    c' = .token key name' value' → turn (name, value) ≤ turn (name', value')

theorem tableChanges_ordered (key : String) (table : Table (Option String)) :
    (tableChanges key table).Pairwise Precedes := by
  refine List.pairwise_cons.mpr ⟨fun c hc => ?_, List.pairwise_map.mpr ?_⟩
  · obtain ⟨e, -, rfl⟩ := List.mem_map.mp hc
    exact ⟨fun e => (nomatch e), fun _ _ _ _ _ e => (nomatch e)⟩
  · refine (additions_ordered table).imp fun {a b} h => ⟨fun e => ?_, ?_⟩
    · injection e with _ h₁ h₂
      exact h.1 (Prod.ext h₁ h₂)
    · rintro key' name name' value value' e e'
      cases e
      cases e'
      exact h.2

theorem entryChanges_ordered {l : List (String × Config.Entry)} (h : (l.map (·.1)).Nodup) :
    (entryChanges l).Pairwise Precedes := by
  induction l with
  | nil => exact .nil
  | cons e rest ih =>
    obtain ⟨key, entry⟩ := e
    obtain ⟨hkey, hrest⟩ := List.nodup_cons.mp h
    cases entry with
    | invalid data => exact ih hrest
    | tokens table =>
      refine List.pairwise_append.mpr ⟨tableChanges_ordered key table, ih hrest, ?_⟩
      intro c hc c' hc'
      -- the entries have different keys, and so have their additions
      have hne : c.key ≠ c'.key := by
        intro e
        obtain ⟨key', table', hmem, hc'⟩ := mem_entryChanges_iff.mp hc'
        rw [key_of_mem_tableChanges hc, key_of_mem_tableChanges hc'] at e
        exact hkey (List.mem_map.mpr ⟨_, hmem, e.symm⟩)
      refine ⟨fun e => hne (congrArg Change.key e), ?_⟩
      rintro key' name name' value value' rfl rfl
      exact absurd rfl hne

/-! ### The history of a configuration -/

section Config

variable {config : Config} {key : String} {table : Table (Option String)}

/-- The additions that a configuration asks for. -/
abbrev changesOf (config : Config) : List Change := entryChanges config.kinds.entries

theorem mem_changesOf_token_iff {name : String} {value : Option String} :
    Change.token key name value ∈ changesOf config ↔
      ∃ table, config.kinds.get? key = some (.tokens table) ∧ table.get? name = some value := by
  rw [mem_entryChanges_iff]
  constructor
  · intro h
    obtain ⟨key', table, hmem, hc⟩ := h
    rcases mem_tableChanges_iff.mp hc with e | ⟨name', value', hn, e⟩
    · cases e
    · cases e
      exact ⟨table, Table.mem_entries_iff.mp hmem, hn⟩
  · intro h
    obtain ⟨table, hk, hn⟩ := h
    exact ⟨key, table, Table.mem_entries_iff.mpr hk,
      mem_tableChanges_iff.mpr (.inr ⟨name, value, hn, rfl⟩)⟩

theorem exists_table_of_mem {c : Change} (h : c ∈ changesOf config) :
    ∃ table, config.kinds.get? c.key = some (.tokens table) := by
  obtain ⟨key, table, hmem, hc⟩ := mem_entryChanges_iff.mp h
  exact ⟨table, key_of_mem_tableChanges hc ▸ Table.mem_entries_iff.mp hmem⟩

theorem mem_changesOf_kind (hk : config.kinds.get? key = some (.tokens table)) :
    Change.kind key ∈ changesOf config :=
  mem_entryChanges_iff.mpr ⟨key, table, Table.mem_entries_iff.mpr hk,
    mem_tableChanges_iff.mpr (.inl rfl)⟩

theorem changesOf_ordered (config : Config) : (changesOf config).Pairwise Precedes :=
  entryChanges_ordered config.kinds.keys_nodup

/-- What is put into a kind in an earlier turn has been put before. -/
theorem mem_before {before after : List Change} {name name' : String}
    {value value' : Option String}
    (e : changesOf config = before ++ .token key name value :: after)
    (hk : config.kinds.get? key = some (.tokens table)) (hn : table.get? name' = some value')
    (ht : turn (name', value') < turn (name, value)) : .token key name' value' ∈ before := by
  have hmem : Change.token key name' value' ∈ changesOf config :=
    mem_changesOf_token_iff.mpr ⟨table, hk, hn⟩
  have hordered := changesOf_ordered config
  rw [e] at hmem hordered
  have hafter := (List.pairwise_cons.mp (List.pairwise_append.mp hordered).2.1).1
  rcases List.mem_append.mp hmem with hmem | hmem
  · exact hmem
  · rcases List.mem_cons.mp hmem with e | hmem
    · cases e
      exact absurd ht (Nat.lt_irrefl _)
    · have hle := (hafter _ hmem).2 key name name' value value' rfl rfl
      exact absurd ht (Nat.not_lt.mpr hle)

/-- What has been added before is in the configuration, and not what is added next. -/
theorem of_mem_before {before after : List Change} {c : Change} {name : String}
    {value : Option String} (e : changesOf config = before ++ c :: after)
    (h : Change.token key name value ∈ before) :
    c ≠ .token key name value ∧
      ∃ table, config.kinds.get? key = some (.tokens table) ∧ table.get? name = some value := by
  have hordered := changesOf_ordered config
  rw [e] at hordered
  refine ⟨?_, mem_changesOf_token_iff.mp (e ▸ List.mem_append_left _ h)⟩
  exact ((List.pairwise_append.mp hordered).2.2 _ h c List.mem_cons_self).1.symm

theorem isAliasValue_iff {value : Option String} :
    isAliasValue value = true ↔ ∃ target, value = some (Name.marked target) := by
  cases value with
  | none => simp [isAliasValue]
  | some text =>
    simp only [isAliasValue, Option.bind_some, Option.isSome_iff_exists,
      Name.unmarked?_eq_some_iff, Option.some.injEq]

theorem turn_plain {name : String} {value : Option String} (hn : name ≠ Name.defaultWord)
    (hv : ∀ rest, value ≠ some (Name.marked rest)) : turn (name, value) = 0 := by
  rw [turn, if_neg hn, if_neg]
  intro ha
  obtain ⟨target, ht⟩ := isAliasValue_iff.mp ha
  exact hv target ht

theorem turn_alias {name target : String} (hn : name ≠ Name.defaultWord) :
    turn (name, some (Name.marked target)) = 1 := by
  rw [turn, if_neg hn, if_pos (isAliasValue_iff.mpr ⟨target, rfl⟩)]

theorem turn_default (value : Option String) : turn (Name.defaultWord, value) = 2 := if_pos rfl

theorem turn_lt_default {name : String} (hn : name ≠ Name.defaultWord) (value : Option String) :
    turn (name, value) < 2 := by
  rw [turn, if_neg hn]
  split <;> decide

/-- A value says something if it is there, and neither empty nor a lone `@`. -/
theorem ofValue?_isSome_iff {value : Option String} :
    (∃ t, RawToken.ofValue? value = some t) ↔
      ∃ text, value = some text ∧ text ≠ "" ∧ text ≠ "@" := by
  constructor
  · intro h
    obtain ⟨t, ht⟩ := h
    cases t with
    | description text =>
      obtain ⟨rfl, hne, hmark⟩ := RawToken.ofValue?_eq_description_iff.mp ht
      exact ⟨text, rfl, hne, hmark ""⟩
    | aliasOf target =>
      obtain ⟨rfl, hne⟩ := RawToken.ofValue?_eq_aliasOf_iff.mp ht
      exact ⟨_, rfl, Name.marked_ne_empty target,
        fun e => hne (Name.marked_injective (b := "") e)⟩
  · intro h
    obtain ⟨text, rfl, hne, hmark⟩ := h
    cases hu : Name.unmarked? text with
    | none =>
      exact ⟨.description text, RawToken.ofValue?_eq_description_iff.mpr
        ⟨rfl, hne, Name.unmarked?_eq_none_iff.mp hu⟩⟩
    | some target =>
      have htext := Name.unmarked?_eq_some_iff.mp hu
      refine ⟨.aliasOf target, RawToken.ofValue?_eq_aliasOf_iff.mpr ⟨by rw [htext], ?_⟩⟩
      rintro rfl
      exact hmark htext

/-! ### Collecting a history -/

/-- There is one word at most on the default of a kind. -/
def OneDefault (cs : List Change) : Prop :=
  ∀ key value value', .token key Name.defaultWord value ∈ cs →
    .token key Name.defaultWord value' ∈ cs → value = value'

theorem defaultOf_eq_some_iff {scope : Scope} {kind target : String} {c : Change} :
    defaultOf scope kind c = some target ↔ ∃ key value,
      c = .token key Name.defaultWord value ∧ Scope.split key = (scope, kind) ∧
        defaultTarget value = target := by
  cases c with
  | kind key => simp [defaultOf]
  | token key name value =>
    simp only [defaultOf, Option.ite_none_right_eq_some, Option.some.injEq, Change.token.injEq]
    constructor
    · rintro ⟨⟨hsplit, hname⟩, htarget⟩
      exact ⟨key, value, ⟨rfl, hname, rfl⟩, hsplit, htarget⟩
    · rintro ⟨key', value', ⟨rfl, rfl, rfl⟩, hsplit, htarget⟩
      exact ⟨⟨hsplit, rfl⟩, htarget⟩

/-- The only word on a default is the last one. -/
theorem lastDefault_eq_some_iff {cs : List Change} {scope : Scope} {kind target : String}
    (hone : OneDefault cs) :
    lastDefault scope kind cs = some target ↔ ∃ key value,
      .token key Name.defaultWord value ∈ cs ∧ Scope.split key = (scope, kind) ∧
        defaultTarget value = target := by
  constructor
  · intro h
    obtain ⟨c, hc, hword⟩ := List.exists_of_findSome?_eq_some h
    obtain ⟨key, value, rfl, htarget⟩ := defaultOf_eq_some_iff.mp hword
    exact ⟨key, value, List.mem_reverse.mp hc, htarget⟩
  · rintro ⟨key, value, hc, hsplit, rfl⟩
    have hword := defaultOf_eq_some_iff.mpr ⟨key, value, rfl, hsplit, rfl⟩
    cases hl : lastDefault scope kind cs with
    | none =>
      have hnone := List.findSome?_eq_none_iff.mp hl _ (List.mem_reverse.mpr hc)
      rw [hword] at hnone
      cases hnone
    | some target' =>
      obtain ⟨c', hc', hword'⟩ := List.exists_of_findSome?_eq_some hl
      obtain ⟨key', value', rfl, hsplit', rfl⟩ := defaultOf_eq_some_iff.mp hword'
      obtain rfl := Scope.split_injective (hsplit.trans hsplit'.symm)
      rw [hone key value value' hc (List.mem_reverse.mp hc')]

/-- A configuration collects a history: it has the kinds that the history is about, and the value of
each name that the history adds. -/
structure Collects (config : Config) (cs : List Change) : Prop where
  tables : ∀ key entry, config.kinds.get? key = some entry → ∃ table, entry = .tokens table
  keys : ∀ key, config.kinds.contains key = true ↔ ∃ c ∈ cs, c.key = key
  values : ∀ key name value, (∃ table, config.kinds.get? key = some (.tokens table) ∧
    table.get? name = some value) ↔ .token key name value ∈ cs

/-- What a configuration asks for is collected by it. -/
theorem collects_changesOf (ht : ∀ e ∈ config.kinds.entries, ∃ table, e.2 = .tokens table) :
    Collects config (changesOf config) := by
  have htables : ∀ key entry, config.kinds.get? key = some entry →
      ∃ table, entry = .tokens table :=
    fun key entry hk => ht (key, entry) (Table.mem_entries_iff.mpr hk)
  refine ⟨htables, fun key => ⟨fun hc => ?_, ?_⟩,
    fun key name value => mem_changesOf_token_iff.symm⟩
  · obtain ⟨entry, he⟩ := Table.contains_iff.mp hc
    obtain ⟨table, rfl⟩ := htables key entry he
    exact ⟨.kind key, mem_changesOf_kind he, rfl⟩
  · rintro ⟨c, hc, rfl⟩
    obtain ⟨table, hk⟩ := exists_table_of_mem hc
    exact Table.contains_iff.mpr ⟨_, hk⟩

section Collects

variable {cs : List Change} (h : Collects config cs)

include h

/-- A configuration has one value for a default. -/
theorem Collects.oneDefault : OneDefault cs := by
  intro key value value' hv hv'
  obtain ⟨table, hk, hn⟩ := (h.values _ _ _).mpr hv
  obtain ⟨table', hk', hn'⟩ := (h.values _ _ _).mpr hv'
  rw [hk] at hk'
  cases hk'
  rw [hn] at hn'
  exact Option.some.inj hn'

theorem Collects.token_mem {name : String} {value : Option String}
    (hk : config.kinds.get? key = some (.tokens table)) (hn : table.get? name = some value) :
    .token key name value ∈ cs :=
  (h.values key name value).mp ⟨table, hk, hn⟩

/-- Of a kind is said what its table says. -/
theorem Collects.says_iff (hk : config.kinds.get? key = some (.tokens table)) {name : String}
    {t : RawToken} :
    Says cs (Scope.split key).1 (Scope.split key).2 name t ↔
      name ≠ Name.defaultWord ∧
        ∃ value, table.get? name = some value ∧ RawToken.ofValue? value = some t := by
  constructor
  · rintro ⟨key', value, hmem, hsplit, hne, hv⟩
    obtain rfl := Scope.split_injective hsplit
    obtain ⟨table', hk', hn⟩ := (h.values key' name value).mpr hmem
    rw [hk] at hk'
    cases hk'
    exact ⟨hne, value, hn, hv⟩
  · rintro ⟨hne, value, hn, hv⟩
    exact ⟨key, value, h.token_mem hk hn, rfl, hne, hv⟩

/-- The last word on the default of a kind is that of its table. -/
theorem Collects.lastDefault_eq (hk : config.kinds.get? key = some (.tokens table)) :
    lastDefault (Scope.split key).1 (Scope.split key).2 cs =
      (table.get? Name.defaultWord).map defaultTarget := by
  apply Option.ext
  intro target
  rw [lastDefault_eq_some_iff h.oneDefault, Option.map_eq_some_iff]
  constructor
  · rintro ⟨key', value, hmem, hsplit, htarget⟩
    obtain rfl := Scope.split_injective hsplit
    obtain ⟨table', hk', hn⟩ := (h.values key' _ value).mpr hmem
    rw [hk] at hk'
    cases hk'
    exact ⟨value, hn, htarget⟩
  · rintro ⟨value, hn, htarget⟩
    exact ⟨key, value, h.token_mem hk hn, rfl, htarget⟩

variable {d : Lexicon} {locale : String} (hd : (empty locale).run? cs = .ok d)

include hd

/-- A kind has what its table says. -/
theorem Collects.has_iff (hk : config.kinds.get? key = some (.tokens table)) {name : String}
    {t : RawToken} :
    ((d.side (Scope.split key).1).kind (Scope.split key).2).Has name t ↔
      name ≠ Name.defaultWord ∧
        ∃ value, table.get? name = some value ∧ RawToken.ofValue? value = some t :=
  ((tells_of_run? hd).names _ _ _ _).trans (h.says_iff hk)

/-- A name of a table stands for something in the kind of the table. -/
theorem Collects.has_of_value {name : String} {value : Option String}
    (hk : config.kinds.get? key = some (.tokens table)) (hn : table.get? name = some value)
    (hne : name ≠ Name.defaultWord) :
    ∃ t, RawToken.ofValue? value = some t ∧
      ((d.side (Scope.split key).1).kind (Scope.split key).2).Has name t := by
  obtain ⟨-, t, ht⟩ := named_of_run? hd (h.token_mem hk hn) hne
  exact ⟨t, ht, (h.has_iff hd hk).mpr ⟨hne, value, hn, ht⟩⟩

theorem Collects.target_of_alias {name target : String}
    (hk : config.kinds.get? key = some (.tokens table))
    (hn : table.get? name = some (some (Name.marked target))) (hne : name ≠ Name.defaultWord) :
    target ≠ Name.defaultWord ∧
      ∃ value, table.get? target = some value ∧ ∀ rest, value ≠ some (Name.marked rest) := by
  have hsound : d.Sound := (sound_empty locale).run? hd
  have hkind := (hsound.side (Scope.split key).1).kind (Scope.split key).2
  obtain ⟨t, ht, hhas⟩ := h.has_of_value hd hk hn hne
  cases t with
  | description text =>
    obtain ⟨hvalue, -, hmark⟩ := RawToken.ofValue?_eq_description_iff.mp ht
    exact absurd (Option.some.inj hvalue).symm (hmark target)
  | aliasOf other =>
    obtain ⟨hvalue, -⟩ := RawToken.ofValue?_eq_aliasOf_iff.mp ht
    obtain rfl := Name.marked_injective (Option.some.inj hvalue)
    obtain ⟨text, htext⟩ := Table.contains_iff.mp (hkind.targets name target hhas)
    have hplain : ((d.side (Scope.split key).1).kind (Scope.split key).2).Has target
        (.description text) := htext
    obtain ⟨hne', value, hget, hv⟩ := (h.has_iff hd hk).mp hplain
    obtain ⟨rfl, -, hmark⟩ := RawToken.ofValue?_eq_description_iff.mp hv
    exact ⟨hne', _, hget, fun rest e => hmark rest (Option.some.inj e)⟩

theorem Collects.target_of_default {value : Option String}
    (hk : config.kinds.get? key = some (.tokens table))
    (hn : table.get? Name.defaultWord = some value) :
    ∃ text, value = some text ∧ Name.stripped text ≠ Name.defaultWord ∧
      table.contains (Name.stripped text) = true := by
  have hsound : d.Sound := (sound_empty locale).run? hd
  have hkind := (hsound.side (Scope.split key).1).kind (Scope.split key).2
  have hlast : lastDefault (Scope.split key).1 (Scope.split key).2 cs =
      some (defaultTarget value) := by
    rw [h.lastDefault_eq hk, hn]
    rfl
  have htarget := (tells_of_run? hd).targets _ _ _ hlast
  obtain ⟨t, ht⟩ := Kind.hasToken_iff_has.mp htarget
  obtain ⟨hne, value', hget, -⟩ := (h.has_iff hd hk).mp ht
  cases value with
  | some text => exact ⟨text, rfl, hne, Table.contains_iff.mpr ⟨value', hget⟩⟩
  | none =>
    -- no value stands for the empty text, which is no name
    have hempty : Name.isToken "" = true := hkind.named "" htarget
    rw [Name.not_isToken_empty] at hempty
    cases hempty

/-- A name of a loose table is owned by the kind of the table. -/
theorem Collects.owner_of_contains {name : String}
    (hk : config.kinds.get? key = some (.tokens table)) (hs : (Scope.split key).1 = .loose)
    (hne : name ≠ Name.defaultWord) (hn : table.contains name = true) :
    d.loose.owners.get? name = some (Scope.split key).2 := by
  have hsound : d.Sound := (sound_empty locale).run? hd
  obtain ⟨value, hn⟩ := Table.contains_iff.mp hn
  obtain ⟨t, -, ht⟩ := h.has_of_value hd hk hn hne
  rw [hs] at ht
  exact (Namespace.owned_iff.mp hsound.owned name _).mpr (Kind.hasToken_iff_has.mpr ⟨t, ht⟩)

/-- What collects additions that all succeed makes sense, in whatever order they did. -/
theorem Collects.valid : config.Valid where
  tables := h.tables
  keys key hk := by
    have hsound : d.Sound := (sound_empty locale).run? hd
    obtain ⟨a, ha, rfl⟩ := (h.keys key).mp hk
    obtain ⟨k, hkind⟩ := Table.contains_iff.mp (((tells_of_run? hd).kinds _ _).mpr ⟨a, ha, rfl⟩)
    rw [← Scope.split_snd]
    exact (hsound.side _).named _ k hkind
  names key table name value hk hn hne := by
    obtain ⟨hname, ht⟩ := named_of_run? hd (h.token_mem hk hn) hne
    exact ⟨hname, ofValue?_isSome_iff.mp ht⟩
  aliases key table name target hk hn hne := h.target_of_alias hd hk hn hne
  defaults key table value hk hn := h.target_of_default hd hk hn
  apart key key' table table' name hk hk' hs hs' hne hn hn' := by
    have howner := h.owner_of_contains hd hk hs hne hn
    rw [h.owner_of_contains hd hk' hs' hne hn'] at howner
    exact Scope.split_injective (Prod.ext (hs.trans hs'.symm) (Option.some.inj howner).symm)

end Collects

/-! ### Sense and success -/

/-- What a name of a configuration that makes sense stands for has been said before its turn. -/
theorem says_before (hv : config.Valid) {before after : List Change} {name name' : String}
    {value value' : Option String}
    (e : changesOf config = before ++ .token key name value :: after)
    (hk : config.kinds.get? key = some (.tokens table)) (hn : table.get? name' = some value')
    (hd : name' ≠ Name.defaultWord) (ht : turn (name', value') < turn (name, value)) :
    ∃ t, Says before (Scope.split key).1 (Scope.split key).2 name' t ∧
      RawToken.ofValue? value' = some t := by
  obtain ⟨t, hof⟩ := ofValue?_isSome_iff.mpr (hv.names key table name' value' hk hn hd).2
  exact ⟨t, ⟨key, value', mem_before e hk hn ht, rfl, hd, hof⟩, hof⟩

/-- A name of a configuration that makes sense is free when its turn comes. -/
theorem free_before (hv : config.Valid) {before after : List Change} {name : String}
    {value : Option String} (e : changesOf config = before ++ .token key name value :: after)
    (hk : config.kinds.get? key = some (.tokens table)) (hn : table.get? name = some value)
    (hd : name ≠ Name.defaultWord) :
    Free before (Scope.split key).1 (Scope.split key).2 name := by
  -- what said something of the name before can only be the same entry of the same table
  have hsame : ∀ {key' value'}, Change.token key' name value' ∈ before → key' ≠ key := by
    rintro key' value' hmem rfl
    obtain ⟨hne, table', hk', hn'⟩ := of_mem_before e hmem
    rw [hk] at hk'
    cases hk'
    rw [hn] at hn'
    cases hn'
    exact hne rfl
  cases hscope : (Scope.split key).1 with
  | loose =>
    rintro other t ⟨key', value', hmem, hsplit, -, -⟩
    obtain ⟨-, table', hk', hn'⟩ := of_mem_before e hmem
    refine hsame hmem (hv.apart key' key table' table name hk' hk ?_ hscope hd ?_ ?_)
    · rw [hsplit]
    · exact Table.contains_iff.mpr ⟨value', hn'⟩
    · exact Table.contains_iff.mpr ⟨value, hn⟩
  | strict =>
    rintro t ⟨key', value', hmem, hsplit, -, -⟩
    exact hsame hmem (Scope.split_injective (hsplit.trans (by rw [← hscope])))

/-- In a configuration that makes sense every addition makes sense when its turn comes. -/
theorem admissible_of_valid (hv : config.Valid) {before after : List Change} {c : Change}
    (e : changesOf config = before ++ c :: after) : Admissible before c := by
  have hmem : c ∈ changesOf config := by
    rw [e]
    exact List.mem_append_right _ List.mem_cons_self
  have hkind : Name.isKind (Scope.split c.key).2 = true := by
    obtain ⟨table, hk⟩ := exists_table_of_mem hmem
    rw [Scope.split_snd]
    exact hv.keys _ (Table.contains_iff.mpr ⟨_, hk⟩)
  cases c with
  | kind key => exact hkind
  | token key name value =>
    obtain ⟨table, hk, hn⟩ := mem_changesOf_token_iff.mp hmem
    refine ⟨hkind, ?_⟩
    by_cases hd : name = Name.defaultWord
    · rw [if_pos hd]
      subst hd
      obtain ⟨text, rfl, hne, hc⟩ := hv.defaults key table value hk hn
      obtain ⟨value', hn'⟩ := Table.contains_iff.mp hc
      have ht : turn (Name.stripped text, value') < turn (Name.defaultWord, some text) := by
        rw [turn_default]
        exact turn_lt_default hne value'
      obtain ⟨t, hsaid, -⟩ := says_before hv e hk hn' hne ht
      exact ⟨t, hsaid⟩
    · rw [if_neg hd]
      obtain ⟨htoken, hvalue⟩ := hv.names key table name value hk hn hd
      obtain ⟨t, hof⟩ := ofValue?_isSome_iff.mpr hvalue
      refine ⟨htoken, free_before hv e hk hn hd, t, hof, ?_⟩
      rintro target rfl
      obtain ⟨rfl, -⟩ := RawToken.ofValue?_eq_aliasOf_iff.mp hof
      obtain ⟨hne, value', hn', hplain⟩ := hv.aliases key table name target hk hn hd
      have ht : turn (target, value') < turn (name, some (Name.marked target)) := by
        rw [turn_plain hne hplain, turn_alias hd]
        exact Nat.zero_lt_one
      obtain ⟨u, hsaid, hof'⟩ := says_before hv e hk hn' hne ht
      cases u with
      | description text => exact ⟨text, hsaid⟩
      | aliasOf other =>
        obtain ⟨rfl, -⟩ := RawToken.ofValue?_eq_aliasOf_iff.mp hof'
        exact absurd rfl (hplain other)

/-- **A configuration has a lexicon if it makes sense.** -/
theorem ofConfig_isOk_iff {locale : String} :
    (∃ d, ofConfig locale config = .ok d) ↔ config.Valid := by
  simp only [ofConfig_eq_ok_iff]
  constructor
  · intro h
    obtain ⟨d, ht, hrun⟩ := h
    exact (collects_changesOf ht).valid hrun
  · intro hv
    have hok : ∃ d, (empty locale).run? (changesOf config) = .ok d :=
      run?_isOk_iff.mpr fun before c after e => admissible_of_valid hv e
    obtain ⟨d, hrun⟩ := hok
    exact ⟨d, fun e he => hv.tables e.1 e.2 (Table.mem_entries_iff.mp he), hrun⟩

/-! ### The lexicon of a configuration -/

theorem mentions_changesOf_iff (hv : config.Valid) {scope : Scope} {name : String} :
    Mentions (changesOf config) scope name ↔
      ∃ key, config.kinds.contains key = true ∧ Scope.split key = (scope, name) := by
  constructor
  · intro h
    obtain ⟨c, hc, hsplit⟩ := h
    obtain ⟨table, hk⟩ := exists_table_of_mem hc
    exact ⟨c.key, Table.contains_iff.mpr ⟨_, hk⟩, hsplit⟩
  · intro h
    obtain ⟨key, hk, hsplit⟩ := h
    obtain ⟨entry, hk⟩ := Table.contains_iff.mp hk
    obtain ⟨table, rfl⟩ := hv.tables key entry hk
    exact ⟨.kind key, mem_changesOf_kind hk, hsplit⟩

/-- A name of a kind stands for the true token that it reaches in the kind's table. -/
theorem trueToken?_eq_some_iff {k : Kind}
    (ht : ∀ name text, k.tokens.get? name = some text ↔ name ≠ Name.defaultWord ∧
      table.get? name = some (some text) ∧ ∀ rest, text ≠ Name.marked rest)
    (ha : ∀ name target, k.aliases.get? name = some target ↔ name ≠ Name.defaultWord ∧
      table.get? name = some (some (Name.marked target))) {name token : String} :
    k.trueToken? name = some token ↔ Reaches table name token := by
  have hplain : k.tokens.contains name = true ↔ name ≠ Name.defaultWord ∧
      ∃ text, table.get? name = some (some text) ∧ ∀ rest, text ≠ Name.marked rest := by
    rw [Table.contains_iff]
    simp only [ht, exists_and_left]
  unfold Kind.trueToken? Reaches
  by_cases hc : k.tokens.contains name = true
  · rw [if_pos hc]
    obtain ⟨hd, text, hn, hmark⟩ := hplain.mp hc
    constructor
    · intro h
      exact ⟨hd, .inl ⟨(Option.some.inj h).symm, text, hn, hmark⟩⟩
    · intro hyp
      obtain ⟨-, ⟨rfl, -⟩ | hn'⟩ := hyp
      · rfl
      · rw [hn] at hn'
        exact absurd (Option.some.inj (Option.some.inj hn')) (hmark token)
  · rw [if_neg hc, ha]
    refine and_congr_right fun hd => (or_iff_right ?_).symm
    intro hyp
    obtain ⟨-, h⟩ := hyp
    exact hc (hplain.mpr ⟨hd, h⟩)

/-- In a table that makes sense the plain entries are descriptions, the `@` entries aliases. -/
theorem has_iff_of_valid (hv : config.Valid) (hk : config.kinds.get? key = some (.tokens table))
    {k : Kind} (hhas : ∀ name t, k.Has name t ↔ name ≠ Name.defaultWord ∧
      ∃ value, table.get? name = some value ∧ RawToken.ofValue? value = some t) :
    (∀ name text, k.tokens.get? name = some text ↔ name ≠ Name.defaultWord ∧
      table.get? name = some (some text) ∧ ∀ rest, text ≠ Name.marked rest) ∧
    ∀ name target, k.aliases.get? name = some target ↔ name ≠ Name.defaultWord ∧
      table.get? name = some (some (Name.marked target)) := by
  have hbounds : ∀ {name text}, name ≠ Name.defaultWord → table.get? name = some (some text) →
      text ≠ "" ∧ text ≠ "@" := by
    intro name text hne hn
    obtain ⟨-, text', htext, h⟩ := hv.names key table name (some text) hk hn hne
    cases htext
    exact h
  constructor
  · intro name text
    refine (hhas name (.description text)).trans (and_congr_right fun hne => ?_)
    simp only [RawToken.ofValue?_eq_description_iff]
    constructor
    · intro h
      obtain ⟨value, hn, rfl, -, hmark⟩ := h
      exact ⟨hn, hmark⟩
    · intro h
      obtain ⟨hn, hmark⟩ := h
      exact ⟨_, hn, rfl, (hbounds hne hn).1, hmark⟩
  · intro name target
    refine (hhas name (.aliasOf target)).trans (and_congr_right fun hne => ?_)
    simp only [RawToken.ofValue?_eq_aliasOf_iff]
    constructor
    · intro h
      obtain ⟨value, hn, rfl, -⟩ := h
      exact hn
    · intro hn
      refine ⟨_, hn, rfl, ?_⟩
      rintro rfl
      exact (hbounds hne hn).2 rfl

/-- Every kind of the lexicon of a configuration holds what its table says. -/
theorem holds_of_ofConfig {locale : String} {d : Lexicon} (hd : ofConfig locale config = .ok d)
    (hk : config.kinds.get? key = some (.tokens table)) :
    ∃ k, (d.side (Scope.split key).1).kinds.get? (Scope.split key).2 = some k ∧ k.Holds table := by
  obtain ⟨ht, hrun⟩ := ofConfig_eq_ok_iff.mp hd
  have hcollects := collects_changesOf ht
  have hv : config.Valid := hcollects.valid hrun
  have htells : Tells (changesOf config) d := tells_of_run? hrun
  have hmentions : Mentions (changesOf config) (Scope.split key).1 (Scope.split key).2 :=
    ⟨.kind key, mem_changesOf_kind hk, rfl⟩
  obtain ⟨k, hget⟩ := Table.contains_iff.mp ((htells.kinds _ _).mpr hmentions)
  have hhas : ∀ name t, k.Has name t ↔ name ≠ Name.defaultWord ∧
      ∃ value, table.get? name = some value ∧ RawToken.ofValue? value = some t := by
    intro name t
    rw [← hcollects.has_iff hrun hk, Namespace.kind_of_get? hget]
  obtain ⟨htokens, haliases⟩ := has_iff_of_valid hv hk hhas
  refine ⟨k, hget, htokens, haliases, fun token => ?_⟩
  have hstandard := htells.standard (Scope.split key).1 (Scope.split key).2
  rw [Namespace.kind_of_get? hget, hcollects.lastDefault_eq hk] at hstandard
  rw [hstandard]
  constructor
  · intro h
    obtain ⟨target, hl, ht⟩ := Option.bind_eq_some_iff.mp h
    obtain ⟨value, hn, rfl⟩ := Option.map_eq_some_iff.mp hl
    obtain ⟨text, rfl, -⟩ := hv.defaults key table value hk hn
    exact ⟨text, hn, (trueToken?_eq_some_iff htokens haliases).mp ht⟩
  · intro h
    obtain ⟨text, hn, hr⟩ := h
    rw [hn]
    exact (trueToken?_eq_some_iff htokens haliases).mpr hr

/-- **What a configuration has a lexicon for, and which.** If it makes sense its lexicon has the
kinds of its keys, each in the namespace of its key, and each holds what its table says; else it has
none. -/
theorem ofConfig_spec (locale : String) (config : Config) :
    match ofConfig locale config with
    | .ok d =>
      config.Valid ∧ d.locale = locale ∧
        (∀ scope name, (d.side scope).kinds.contains name = true ↔
          ∃ key, config.kinds.contains key = true ∧ Scope.split key = (scope, name)) ∧
        ∀ key table, config.kinds.get? key = some (.tokens table) →
          ∃ k, (d.side (Scope.split key).1).kinds.get? (Scope.split key).2 = some k ∧
            k.Holds table
    | .error _ => ¬config.Valid := by
  cases hd : ofConfig locale config with
  | ok d =>
    have hv : config.Valid := ofConfig_isOk_iff.mp ⟨d, hd⟩
    have hrun := (ofConfig_eq_ok_iff.mp hd).2
    refine ⟨hv, locale_run? hrun, fun scope name => ?_, fun key table hk => ?_⟩
    · rw [(tells_of_run? hrun).kinds, mentions_changesOf_iff hv]
    · exact holds_of_ofConfig hd hk
  | error e =>
    intro hv
    obtain ⟨d, h⟩ := ofConfig_isOk_iff.mpr hv
    rw [hd] at h
    cases h

end Config

end Lexicon
end Concord

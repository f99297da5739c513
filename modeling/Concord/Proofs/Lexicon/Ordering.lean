/-
# The order of additions does not show

Additions depend on each other: an alias and a default need the token they name,
and a loose name can be added but once. So not every order of the same additions
succeeds. But of two orders that do, neither says more than the other: one
configuration collects both, and tells which kinds are mentioned, what is said of
a name, and what the only word on a default is (`Collects.saysAlike`). What
histories say determines the kinds (`Tells.kinds_eq`), and the kinds determine
the loose owners.

The configuration asks for the additions in an order of its own. It makes sense
whenever some order succeeds, and what it asks for is one history more that it
collects.

Key definitions: `Item`, `Addition.items`, `Item.collect`, `Lexicon.SaysAlike`,
`Lexicon.SameKinds`.
Key theorems: `Lexicon.Tells.kinds_eq`, `Lexicon.Collects.saysAlike`,
`Item.collects_collect`, `Item.distinct_of_run?`, `Lexicon.order_unseen`.
-/
import Concord.Proofs.Lexicon.Adding
import Concord.Proofs.Lexicon.Rebuilding

namespace Concord

/-! ### Items -/

/-- A name to be added to a kind, or a default: the key of the kind, the name, and its value. -/
structure Item where
  key : String
  name : String
  value : Option String
  deriving DecidableEq, Repr

/-- Add items in place, one after the other. -/
def Addition.items : List Item → Addition Unit
  | [] => return
  | i :: rest => do
    token i.key i.name i.value
    items rest

namespace Item

/-- The addition that an item asks for. -/
def change (i : Item) : Lexicon.Change := .token i.key i.name i.value

/-- Whether an item is the default of a kind. -/
def isDefaultOf (key : String) (i : Item) : Bool := i.key == key && i.name == Name.defaultWord

/-- The configuration that collects items. -/
def collect (is : List Item) : Config :=
  is.foldl (fun c i => c.insertToken i.key i.name i.value) .empty

end Item

namespace Addition

/-- Items are added in place if all of their additions succeed. -/
theorem run_items_eq_ok_iff {is : List Item} {d d' : Lexicon} :
    (items is).run d = (.ok (), d') ↔ d.run? (is.map Item.change) = .ok d' := by
  induction is generalizing d with
  | nil =>
    show ((.ok (), d) : Except ConfigError Unit × Lexicon) = (.ok (), d') ↔ Except.ok d = .ok d'
    rw [Prod.mk.injEq, and_iff_right rfl, Except.ok.injEq]
  | cons i rest ih =>
    have hstep : d.run? ((i :: rest).map Item.change) =
        (d.addToken? i.key i.name i.value).bind (·.run? (rest.map Item.change)) := rfl
    rw [items, run_bind, run_token, hstep, Lexicon.addToken?]
    cases d.addKind i.key with
    | error e => exact iff_of_false (fun h => by cases h) fun h => by cases h
    | ok d₁ =>
      show _ ↔ ((d₁.putToken i.key i.name i.value).bind _) = _
      dsimp only [settled]
      cases d₁.putToken i.key i.name i.value with
      | error e => exact iff_of_false (fun h => by cases h) fun h => by cases h
      | ok d₂ => exact ih

theorem eq_of_toOption {r : Except ConfigError Unit × Lexicon} (h : r.1.toOption = some ()) :
    r = (.ok (), r.2) := by
  rcases r with ⟨e | u, d⟩
  · cases h
  · rfl

end Addition

/-! ### What histories say -/

namespace Kind

variable {k k' : Kind}

/-- Kinds are the same whose names stand for the same and whose defaults are. -/
theorem eq_of_has (h : ∀ name t, k.Has name t ↔ k'.Has name t) (hs : k.standard = k'.standard) :
    k = k' := by
  have htokens : k.tokens = k'.tokens :=
    Table.ext_get? fun name => Option.ext fun text => h name (.description text)
  have haliases : k.aliases = k'.aliases :=
    Table.ext_get? fun name => Option.ext fun target => h name (.aliasOf target)
  cases k
  cases k'
  congr

/-- What a name stands for is told by what the names do. -/
theorem trueToken?_eq_of_has (h : ∀ name t, k.Has name t ↔ k'.Has name t) :
    k.trueToken? = k'.trueToken? := by
  have hsame : ({ k with standard := none } : Kind) = { k' with standard := none } :=
    eq_of_has h rfl
  have hmeans : ({ k with standard := none } : Kind).trueToken? =
      ({ k' with standard := none } : Kind).trueToken? := congrArg trueToken? hsame
  exact hmeans

end Kind

namespace Lexicon

/-- Two histories mention the same kinds, say the same of the same names, and have the same last
word on the default of each kind. -/
structure SaysAlike (cs cs' : List Change) : Prop where
  kinds : ∀ scope kind, Mentions cs scope kind ↔ Mentions cs' scope kind
  names : ∀ scope kind name t, Says cs scope kind name t ↔ Says cs' scope kind name t
  standard : ∀ scope kind, lastDefault scope kind cs = lastDefault scope kind cs'

variable {cs cs' : List Change} {d d' : Lexicon} {scope : Scope} {kind target : String}

/-- Histories that say the same build the same kinds. -/
theorem Tells.kinds_eq (h : Tells cs d) (h' : Tells cs' d') (hsame : SaysAlike cs cs')
    (scope : Scope) : (d'.side scope).kinds = (d.side scope).kinds := by
  have hkind : ∀ kind, (d'.side scope).kind kind = (d.side scope).kind kind := by
    intro kind
    have hhas : ∀ name t, ((d'.side scope).kind kind).Has name t ↔
        ((d.side scope).kind kind).Has name t := by
      intro name t
      rw [h'.names, h.names, hsame.names]
    refine Kind.eq_of_has hhas ?_
    rw [h'.standard, h.standard, hsame.standard, Kind.trueToken?_eq_of_has hhas]
  refine Table.ext_get? fun kind => ?_
  have hthere : (d'.side scope).kinds.contains kind = (d.side scope).kinds.contains kind := by
    rw [Bool.eq_iff_iff, h.kinds, h'.kinds, hsame.kinds]
  cases hk : (d.side scope).kinds.get? kind with
  | none =>
    rw [Table.contains, Table.contains, hk] at hthere
    exact Option.isNone_iff_eq_none.mp (by simpa using hthere)
  | some k =>
    rw [Table.contains, Table.contains, hk] at hthere
    obtain ⟨k', hk'⟩ := Option.isSome_iff_exists.mp hthere
    rw [hk', ← Namespace.kind_of_get? hk, ← Namespace.kind_of_get? hk', hkind]

/-- Histories that one configuration collects say the same, in whatever order. -/
theorem Collects.saysAlike {config : Config} (h : Collects config cs)
    (h' : Collects config cs') : SaysAlike cs cs' := by
  have htokens : ∀ key name value, .token key name value ∈ cs ↔ .token key name value ∈ cs' :=
    fun key name value => (h.values key name value).symm.trans (h'.values key name value)
  have hkeys : ∀ key, (∃ c ∈ cs, c.key = key) ↔ ∃ c ∈ cs', c.key = key :=
    fun key => (h.keys key).symm.trans (h'.keys key)
  refine ⟨fun scope kind => ⟨?_, ?_⟩, fun scope kind name t => ?_, fun scope kind => ?_⟩
  · rintro ⟨c, hc, hsplit⟩
    obtain ⟨c', hc', hkey⟩ := (hkeys c.key).mp ⟨c, hc, rfl⟩
    exact ⟨c', hc', hkey ▸ hsplit⟩
  · rintro ⟨c, hc, hsplit⟩
    obtain ⟨c', hc', hkey⟩ := (hkeys c.key).mpr ⟨c, hc, rfl⟩
    exact ⟨c', hc', hkey ▸ hsplit⟩
  · simp only [Says, htokens]
  · apply Option.ext
    intro target
    rw [lastDefault_eq_some_iff h.oneDefault, lastDefault_eq_some_iff h'.oneDefault]
    simp only [htokens]

theorem Collects.of_perm {config : Config} (h : Collects config cs) (hperm : cs.Perm cs') :
    Collects config cs' where
  tables := h.tables
  keys key := by
    simp only [h.keys, hperm.mem_iff]
  values key name value := by
    rw [h.values, hperm.mem_iff]

end Lexicon

/-! ### Collecting items -/

namespace Config

variable {c : Config} {key name : String} {value : Option String}

/-- The value of a name in the token table of a kind. -/
def value? (c : Config) (key name : String) : Option (Option String) :=
  (c.table? key).bind (·.get? name)

theorem table?_eq_some_iff {table : Table (Option String)} :
    c.table? key = some table ↔ c.kinds.get? key = some (.tokens table) := by
  unfold table?
  rcases c.kinds.get? key with _ | (t | data) <;> simp [Entry.table?]

theorem value?_eq_some_iff :
    c.value? key name = some value ↔
      ∃ table, c.kinds.get? key = some (.tokens table) ∧ table.get? name = some value := by
  rw [value?, Option.bind_eq_some_iff]
  simp only [table?_eq_some_iff]

theorem value?_of_table {table : Table (Option String)}
    (h : c.kinds.get? key = some (.tokens table)) (name : String) :
    c.value? key name = table.get? name := by
  rw [value?, table?_eq_some_iff.mpr h, Option.bind_some]

theorem value?_insertToken (c : Config) (key name : String) (value : Option String)
    (key' name' : String) :
    (c.insertToken key name value).value? key' name' =
      if key' = key ∧ name' = name then some value else c.value? key' name' := by
  by_cases hk : key' = key
  · subst hk
    have htable : (c.insertToken key' name value).kinds.get? key' =
        some (.tokens (((c.table? key').getD ∅).insert name value)) := Table.get?_insert_self ..
    rw [value?_of_table htable, Table.get?_insert]
    by_cases hn : name' = name
    · rw [if_pos hn, if_pos ⟨rfl, hn⟩]
    · rw [if_neg hn, if_neg fun e => hn e.2, value?]
      cases c.table? key' <;> rfl
  · have hother : (c.insertToken key name value).kinds.get? key' = c.kinds.get? key' := by
      rw [insertToken, Table.get?_insert, if_neg hk]
    rw [if_neg fun e => hk e.1, value?, table?, hother]
    rfl

end Config

namespace Item

/-- Two items are not about the same name of the same kind. -/
def Differ (i j : Item) : Prop := ¬(i.key = j.key ∧ i.name = j.name)

theorem differ_symm {i j : Item} (h : Differ i j) : Differ j i :=
  fun e => h ⟨e.1.symm, e.2.symm⟩

/-- No two items are about the same name of the same kind. -/
def Distinct (is : List Item) : Prop := is.Pairwise Differ

theorem mem_map_change_iff {is : List Item} {key name : String} {value : Option String} :
    .token key name value ∈ is.map change ↔ ⟨key, name, value⟩ ∈ is := by
  rw [List.mem_map]
  constructor
  · rintro ⟨i, hi, e⟩
    cases e
    exact hi
  · exact fun hi => ⟨_, hi, rfl⟩

theorem collect_concat (is : List Item) (i : Item) :
    collect (is ++ [i]) = (collect is).insertToken i.key i.name i.value := by
  simp [collect]

/-- The configuration that collects items collects their additions if they are distinct. -/
theorem collects_collect {is : List Item} (h : Distinct is) :
    Lexicon.Collects (collect is) (is.map change) := by
  induction is using List.reverseRecOn with
  | nil =>
    exact ⟨nofun, fun key => by simp [collect, Config.empty],
      fun _ _ _ => iff_of_false nofun List.not_mem_nil⟩
  | append_singleton is i ih =>
    obtain ⟨his, -, hlast⟩ := List.pairwise_append.mp h
    rw [collect_concat]
    refine ⟨fun key entry he => ?_, fun key => ?_, fun key name value => ?_⟩
    · rw [Config.insertToken, Table.get?_insert] at he
      split at he
      · exact ⟨_, (Option.some.inj he).symm⟩
      · exact (ih his).tables key entry he
    · rw [Config.insertToken, Table.contains_insert_iff, (ih his).keys]
      simp [or_comm, eq_comm, change, Lexicon.Change.key]
    · rw [← Config.value?_eq_some_iff, Config.value?_insertToken, mem_map_change_iff,
        List.mem_append, List.mem_singleton]
      by_cases hi : key = i.key ∧ name = i.name
      · obtain ⟨rfl, rfl⟩ := hi
        have hnew : ⟨i.key, i.name, value⟩ ∉ is := fun hj =>
          hlast _ hj i (List.mem_singleton_self i) ⟨rfl, rfl⟩
        rw [if_pos ⟨rfl, rfl⟩, or_iff_right hnew, Option.some.injEq, eq_comm]
        exact ⟨fun e => e ▸ rfl, fun e => congrArg Item.value e⟩
      · rw [if_neg hi, Config.value?_eq_some_iff, (ih his).values, mem_map_change_iff, or_iff_left]
        rintro rfl
        exact hi ⟨rfl, rfl⟩

end Item

namespace Lexicon

variable {cs cs' : List Change} {c : Config} {d d' : Lexicon} {locale : String}

/-- What has been said of a name keeps it from being free. -/
theorem Free.not_says {scope : Scope} {kind name : String} {t : RawToken}
    (h : Free cs scope kind name) : ¬Says cs scope kind name t := by
  cases scope with
  | loose => exact h kind t
  | strict => exact h t

end Lexicon

/-- Items that all succeed are distinct, if there is one default of each kind at most: no name can
be added twice. -/
theorem Item.distinct_of_run? {is : List Item} {locale : String} {d : Lexicon}
    (h : (Lexicon.empty locale).run? (is.map change) = .ok d)
    (hone : ∀ key, is.countP (isDefaultOf key) ≤ 1) : Distinct is := by
  refine List.pairwise_iff_forall_sublist.mpr fun {j i} hsub => ?_
  rintro ⟨hkey, hname⟩
  by_cases hd : i.name = Name.defaultWord
  · have hcount : [j, i].countP (isDefaultOf i.key) ≤ 1 := Nat.le_trans hsub.countP_le (hone i.key)
    have htwo : [j, i].countP (isDefaultOf i.key) = 2 := by
      simp [isDefaultOf, hkey, hname, hd]
    omega
  · obtain ⟨before, rest, rfl, hj, hrest⟩ := List.cons_sublist_iff.mp hsub
    obtain ⟨between, after, rfl⟩ := List.append_of_mem (List.singleton_sublist.mp hrest)
    have hsplit : (before ++ (between ++ i :: after)).map change =
        (before ++ between).map change ++ i.change :: after.map change := by
      simp
    obtain ⟨-, hadm⟩ := Lexicon.run?_isOk_iff.mp ⟨d, h⟩ _ _ _ hsplit
    rw [if_neg hd] at hadm
    obtain ⟨-, hfree, -⟩ := hadm
    have hbefore : .token i.key i.name j.value ∈ (before ++ between).map change := by
      rw [← hkey, ← hname]
      exact mem_map_change_iff.mpr (List.mem_append_left _ hj)
    have hall : .token i.key i.name j.value ∈ (before ++ (between ++ i :: after)).map change := by
      rw [hsplit]
      exact List.mem_append_left _ hbefore
    obtain ⟨-, t, ht⟩ := Lexicon.named_of_run? h hall hd
    have hsaid : Lexicon.Says ((before ++ between).map change) (Scope.split i.key).1
        (Scope.split i.key).2 i.name t := ⟨i.key, j.value, hbefore, rfl, hd, ht⟩
    exact hfree.not_says hsaid

/-! ### Main statement -/

namespace Lexicon

/-- Two lexicons have the same kinds in both namespaces and the same owners of loose names. So their
views give the same answers, and their kinds have the same names. -/
structure SameKinds (d d' : Lexicon) : Prop where
  locale : d'.locale = d.locale
  kinds : ∀ scope, (d'.side scope).kinds = (d.side scope).kinds
  owners : d'.loose.owners = d.loose.owners
  views : ∀ scope, (d'.view scope).Alike (d.view scope)
  named : ∀ name, d'.namedKind? name = d.namedKind? name

variable {cs cs' : List Change} {d d' : Lexicon} {locale : String}

/-- Histories that say the same build lexicons that nobody can tell apart. -/
theorem sameKinds_of_saysAlike (h : (empty locale).run? cs = .ok d)
    (h' : (empty locale).run? cs' = .ok d') (hsame : SaysAlike cs cs') : SameKinds d d' := by
  have hkinds := (tells_of_run? h).kinds_eq (tells_of_run? h') hsame
  have hloose : d'.loose = d.loose :=
    ((sound_empty locale).run? h).owned.eq_of_kinds ((sound_empty locale).run? h').owned
      (hkinds .loose)
  refine ⟨(locale_run? h').trans (locale_run? h).symm, hkinds, congrArg (·.owners) hloose,
    alike_of_eq hloose (hkinds .strict), fun name => ?_⟩
  have hstrict : d'.strict.kinds = d.strict.kinds := hkinds .strict
  rw [namedKind?, hstrict, hloose, namedKind?]

/-- **The order of additions does not show.** Where names are added one after the other to a lexicon
without kinds, with one default for each kind at most, and every addition succeeds: if they all
succeed in another order, that comes to the same kinds in both namespaces and the same owners of
loose names, and so to the same answers of all views; and the configuration that collects them, in
whatever order, has a lexicon, with the same kinds and owners. -/
theorem order_unseen {is is' : List Item} (hperm : is.Perm is')
    (hone : ∀ key, is.countP (Item.isDefaultOf key) ≤ 1)
    (h : (Addition.items is).run (empty locale) = (.ok (), d)) :
    (∀ d', (Addition.items is').run (empty locale) = (.ok (), d') → SameKinds d d') ∧
    ∃ d', ofConfig locale (Item.collect is') = .ok d' ∧ SameKinds d d' := by
  have hrun : (empty locale).run? (is.map Item.change) = .ok d := Addition.run_items_eq_ok_iff.mp h
  have hdistinct : Item.Distinct is' :=
    (hperm.pairwise_iff Item.differ_symm).mp (Item.distinct_of_run? hrun hone)
  have hchanges := hperm.map Item.change
  have hcollects' := Item.collects_collect hdistinct
  have hcollects : Collects (Item.collect is') (is.map Item.change) :=
    hcollects'.of_perm hchanges.symm
  constructor
  · intro d' h'
    have hrun' := Addition.run_items_eq_ok_iff.mp h'
    exact sameKinds_of_saysAlike hrun hrun' (hcollects.saysAlike hcollects')
  · obtain ⟨d', hd'⟩ := ofConfig_isOk_iff.mpr (hcollects.valid hrun)
    obtain ⟨htables, hrun'⟩ := ofConfig_eq_ok_iff.mp hd'
    have hasks := collects_changesOf htables
    exact ⟨d', hd', sameKinds_of_saysAlike hrun hrun' (hcollects.saysAlike hasks)⟩

/-- Two strict kinds with a name in common, and a loose kind with an alias and a default. -/
def sampleItems : List Item :=
  [⟨"@tense", "now", some "present"⟩, ⟨"@aspect", "now", some "ongoing"⟩,
    ⟨"gender", "m", some "male"⟩, ⟨"gender", "masculine", some "@m"⟩,
    ⟨"gender", "default", some "masculine"⟩, ⟨"@tense", "default", some "@now"⟩]

/-- The same in another order. -/
def sampleReordered : List Item :=
  [⟨"@aspect", "now", some "ongoing"⟩, ⟨"gender", "m", some "male"⟩,
    ⟨"gender", "masculine", some "@m"⟩, ⟨"@tense", "now", some "present"⟩,
    ⟨"@tense", "default", some "@now"⟩, ⟨"gender", "default", some "masculine"⟩]

theorem perm_sampleReordered : sampleItems.Perm sampleReordered := by decide

/-- Each kind has one default at most. -/
theorem oneDefault_sampleItems (key : String) :
    sampleItems.countP (Item.isDefaultOf key) ≤ 1 := by
  by_cases h : key = "gender"
  · subst h
    decide
  · have hcount : sampleItems.countP (Item.isDefaultOf key) =
        if "@tense" = key then 1 else 0 := by
      simp [sampleItems, Item.isDefaultOf, List.countP_cons, Name.defaultWord, Ne.symm h]
    rw [hcount]
    split <;> decide

/-- In both orders all additions succeed, and only the owner of the common strict name tells the
orders apart. From back to front they fail, yet the configuration that collects them so is that of
the same lexicon. -/
theorem order_sample :
    ∃ d d', (Addition.items sampleItems).run (empty "en") = (.ok (), d) ∧
      (Addition.items sampleReordered).run (empty "en") = (.ok (), d') ∧
      d.strict.owners.get? "now" = some "tense" ∧ d'.strict.owners.get? "now" = some "aspect" ∧
      SameKinds d d' ∧
      ((Addition.items sampleItems.reverse).run (empty "en")).1.toOption = none ∧
      ∃ d'', ofConfig "en" (Item.collect sampleItems.reverse) = .ok d'' ∧ SameKinds d d'' := by
  have hd : (Addition.items sampleItems).run (empty "en") = (.ok (), _) :=
    Addition.eq_of_toOption (by decide +kernel)
  have hd' : (Addition.items sampleReordered).run (empty "en") = (.ok (), _) :=
    Addition.eq_of_toOption (by decide +kernel)
  obtain ⟨hsame, -⟩ := order_unseen perm_sampleReordered oneDefault_sampleItems hd
  obtain ⟨-, hconfig⟩ := order_unseen sampleItems.reverse_perm.symm oneDefault_sampleItems hd
  exact ⟨_, _, hd, hd', by decide +kernel, by decide +kernel, hsame _ hd', by decide +kernel,
    hconfig⟩

end Lexicon
end Concord

/-
# A lexicon is rebuilt from the configuration that describes it

What a lexicon holds can be written as a configuration: under the key of each
kind a table with the kind's names as they are stored, and its default token.
Whatever built the lexicon, this configuration makes sense (`Lexicon.Sound.valid_toConfig`),
and each of its tables says what the kind holds (`Lexicon.Sound.holds_configured`).
A kind is determined by the table that it holds (`Kind.Holds.unique`), so the
lexicon of the configuration has the same kinds; and since the owner index tells
no more than the kinds, it has the same loose owners.

The owners of strict names may differ. No view reads them.

Key definitions: `View.configured`, `Lexicon.toConfig`, `View.Alike`.
Key theorems: `Lexicon.Sound.valid_toConfig`, `Lexicon.Sound.holds_configured`,
`Lexicon.Sound.eq_of_ofConfig`, `Lexicon.rebuilt_alike`.
-/
import Concord.Proofs.Lexicon.Configured
import Concord.Proofs.Lexicon.Views

namespace Concord

/-! ### Describing a lexicon -/

namespace View

/-- The token table of a kind: its names as they are stored, and its default token. -/
def configured (v : View) (kind : String) : Table (Option String) :=
  let named := (v.rawTokensOf (some kind)).map fun t => some t.value
  match v.defaultTokenOf? kind with
  | some token => named.insert Name.defaultWord (some token)
  | none => named

/-- Two views give the same answer to every question. -/
structure Alike (v v' : View) : Prop where
  kinds : v.kinds = v'.kinds
  hasKind : ∀ key, v.hasKind key = v'.hasKind key
  defaultTokenOf : ∀ key, v.defaultTokenOf? key = v'.defaultTokenOf? key
  answers : ∀ key, v.AnswersAlike key v' key
  allTokens : v.allTokens = v'.allTokens
  allTrueTokens : v.allTrueTokens = v'.allTrueTokens
  allAliases : v.allAliases = v'.allAliases
  allRawTokens : v.allRawTokens = v'.allRawTokens

end View

namespace Lexicon

/-- The configuration that describes a lexicon: a token table for each kind of both namespaces. -/
def toConfig (d : Lexicon) : Config where
  kinds := .ofList ([Scope.loose, Scope.strict].flatMap fun scope =>
    (d.view scope).kinds.map fun kind => (scope.key kind, .tokens ((d.view scope).configured kind)))

end Lexicon

/-! ### What a table determines -/

namespace Kind

/-- Only one kind holds what a token table says. -/
theorem Holds.unique {k k' : Kind} {table : Table (Option String)} (h : k.Holds table)
    (h' : k'.Holds table) : k = k' := by
  obtain ⟨tokens, aliases, standard⟩ := k
  obtain ⟨tokens', aliases', standard'⟩ := k'
  have htokens : tokens = tokens' := Table.ext_get? fun name => Option.ext fun text =>
    (h.tokens name text).trans (h'.tokens name text).symm
  have haliases : aliases = aliases' := Table.ext_get? fun name => Option.ext fun target =>
    (h.aliases name target).trans (h'.aliases name target).symm
  have hstandard : standard = standard' := Option.ext fun token =>
    (h.standard token).trans (h'.standard token).symm
  rw [htokens, haliases, hstandard]

end Kind

/-- Where the owner index tells no more than the kinds, the kinds determine the namespace. -/
theorem Namespace.Owned.eq_of_kinds {n n' : Namespace} (h : n.Owned) (h' : n'.Owned)
    (hkinds : n'.kinds = n.kinds) : n' = n := by
  have howners : n'.owners = n.owners := Table.ext_get? fun name => Option.ext fun kind => by
    rw [h name kind, h' name kind, hkinds]
  cases n
  cases n'
  congr

/-! ### Names as they are stored -/

namespace Name

theorem stripped_of_isToken {name : String} (h : isToken name = true) : stripped name = name := by
  rw [stripped, unmarked?_of_isToken h]
  rfl

end Name

namespace Kind

variable {k : Kind} {name : String}

theorem Sound.isToken_of_has (h : k.Sound) {t : RawToken} (ht : k.Has name t) :
    Name.isToken name = true :=
  h.named name (hasToken_iff_has.mpr ⟨t, ht⟩)

theorem Sound.isToken_of_contains (h : k.Sound) (hc : k.tokens.contains name = true) :
    Name.isToken name = true :=
  h.named name (hasToken_iff.mpr (.inl hc))

/-- What a name stands for is told by the value that configures it. -/
theorem Sound.ofValue?_value (h : k.Sound) {t : RawToken} (ht : k.Has name t) :
    RawToken.ofValue? (some t.value) = some t := by
  cases t with
  | description text =>
    obtain ⟨hne, hmark⟩ := h.described name text ht
    exact RawToken.ofValue?_eq_description_iff.mpr ⟨rfl, hne, hmark⟩
  | aliasOf target =>
    refine RawToken.ofValue?_eq_aliasOf_iff.mpr ⟨rfl, ?_⟩
    rintro rfl
    have hempty := h.isToken_of_contains (h.targets name "" ht)
    rw [Name.not_isToken_empty] at hempty
    cases hempty

end Kind

namespace Lexicon

variable {d : Lexicon} (h : d.Sound) {scope : Scope} {kind name : String} {k : Kind}

include h

theorem Sound.isKind_of_get? (hk : (d.side scope).kinds.get? kind = some k) :
    Name.isKind kind = true :=
  (h.side scope).named kind k hk

/-- A view covers a kind of its namespace under the kind's bare name. -/
theorem Sound.covers_iff (hk : (d.side scope).kinds.get? kind = some k) {other : String}
    {k' : Kind} : (d.view scope).Covers (some kind) other k' ↔ other = kind ∧ k' = k := by
  have hbare := Name.unmarked?_of_isToken (Name.isToken_of_isKind (h.isKind_of_get? hk))
  have hentry : View.entry? (d.view scope) kind = some (kind, k) := by
    rw [View.entry?_bare _ hbare]
    show ((d.side scope).kinds.get? kind).map _ = _
    rw [hk]
    rfl
  rw [← View.entry?_eq_some_iff, hentry, Option.some.injEq, Prod.mk.injEq, eq_comm, @eq_comm _ k]

theorem Sound.get?_rawTokensOf_iff (hk : (d.side scope).kinds.get? kind = some k) {t : RawToken} :
    ((d.view scope).rawTokensOf (some kind)).get? name = some t ↔ k.Has name t := by
  rw [(View.unites h).rawTokens name t]
  simp only [h.covers_iff hk]
  constructor
  · rintro ⟨_, _, ⟨rfl, rfl⟩, ht⟩
    exact ht
  · exact fun ht => ⟨kind, k, ⟨rfl, rfl⟩, ht⟩

theorem Sound.defaultTokenOf?_eq (hk : (d.side scope).kinds.get? kind = some k) :
    (d.view scope).defaultTokenOf? kind = k.standard := by
  have hentry := View.entry?_eq_some_iff.mpr ((h.covers_iff hk).mpr ⟨rfl, rfl⟩)
  unfold View.defaultTokenOf? View.kind?
  rw [hentry]
  rfl

/-- The table of a kind lists its names with the values that configure them. -/
theorem Sound.get?_configured_iff (hk : (d.side scope).kinds.get? kind = some k)
    (hn : name ≠ Name.defaultWord) {value : Option String} :
    ((d.view scope).configured kind).get? name = some value ↔
      ∃ t, k.Has name t ∧ value = some t.value := by
  have hnamed : ((d.view scope).configured kind).get? name =
      (((d.view scope).rawTokensOf (some kind)).get? name).map fun t => some t.value := by
    rw [← Table.get?_map]
    unfold View.configured
    dsimp only
    cases (d.view scope).defaultTokenOf? kind with
    | none => rfl
    | some token => rw [Table.get?_insert, if_neg hn]
  rw [hnamed, Option.map_eq_some_iff]
  simp only [h.get?_rawTokensOf_iff hk, @eq_comm _ value]

/-- Under the word for the default it lists the default token, if there is one. -/
theorem Sound.get?_configured_default (hk : (d.side scope).kinds.get? kind = some k) :
    ((d.view scope).configured kind).get? Name.defaultWord = k.standard.map some := by
  unfold View.configured
  dsimp only
  rw [h.defaultTokenOf?_eq hk]
  cases k.standard with
  | some token => exact Table.get?_insert_self ..
  | none =>
    rw [Table.get?_map, Option.map_none, Option.map_eq_none_iff,
      Option.eq_none_iff_forall_ne_some]
    intro t ht
    have hname := ((h.side scope).kinds kind k hk).isToken_of_has ((h.get?_rawTokensOf_iff hk).mp ht)
    exact Name.ne_default_of_isToken hname rfl

/-! ### The table of a kind says what the kind holds -/

theorem Sound.get?_configured_plain_iff (hk : (d.side scope).kinds.get? kind = some k)
    {text : String} :
    k.tokens.get? name = some text ↔ name ≠ Name.defaultWord ∧
      ((d.view scope).configured kind).get? name = some (some text) ∧
        ∀ rest, text ≠ Name.marked rest := by
  have hsound := (h.side scope).kinds kind k hk
  constructor
  · intro ht
    have hhas : k.Has name (.description text) := ht
    have hn := Name.ne_default_of_isToken (hsound.isToken_of_has hhas)
    exact ⟨hn, (h.get?_configured_iff hk hn).mpr ⟨_, hhas, rfl⟩, (hsound.described name text ht).2⟩
  · rintro ⟨hn, hc, hmark⟩
    obtain ⟨t, hhas, hvalue⟩ := (h.get?_configured_iff hk hn).mp hc
    cases t with
    | description text' =>
      cases hvalue
      exact hhas
    | aliasOf target => exact absurd (Option.some.inj hvalue) (hmark target)

theorem Sound.get?_configured_marked_iff (hk : (d.side scope).kinds.get? kind = some k)
    {target : String} :
    k.aliases.get? name = some target ↔ name ≠ Name.defaultWord ∧
      ((d.view scope).configured kind).get? name = some (some (Name.marked target)) := by
  have hsound := (h.side scope).kinds kind k hk
  constructor
  · intro ha
    have hhas : k.Has name (.aliasOf target) := ha
    have hn := Name.ne_default_of_isToken (hsound.isToken_of_has hhas)
    exact ⟨hn, (h.get?_configured_iff hk hn).mpr ⟨_, hhas, rfl⟩⟩
  · rintro ⟨hn, hc⟩
    obtain ⟨t, hhas, hvalue⟩ := (h.get?_configured_iff hk hn).mp hc
    cases t with
    | description text =>
      exact absurd (Option.some.inj hvalue).symm ((hsound.described name text hhas).2 target)
    | aliasOf other =>
      rw [Name.marked_injective (Option.some.inj hvalue)]
      exact hhas

theorem Sound.holds_configured (hk : (d.side scope).kinds.get? kind = some k) :
    k.Holds ((d.view scope).configured kind) where
  tokens name text := h.get?_configured_plain_iff hk
  aliases name target := h.get?_configured_marked_iff hk
  standard token := by
    have hsound := (h.side scope).kinds kind k hk
    rw [h.get?_configured_default hk]
    -- the default is a true token, so it is written bare and reaches itself
    have hreaches : ∀ text, k.standard = some text →
        (Reaches ((d.view scope).configured kind) (Name.stripped text) token ↔ text = token) := by
      intro text hs
      have hcontains := hsound.standard text hs
      rw [Name.stripped_of_isToken (hsound.isToken_of_contains hcontains),
        ← trueToken?_eq_some_iff (fun _ _ => h.get?_configured_plain_iff hk)
          fun _ _ => h.get?_configured_marked_iff hk,
        Kind.trueToken?_of_contains hcontains, Option.some.injEq]
    constructor
    · intro hs
      exact ⟨token, by rw [hs]; rfl, (hreaches token hs).mpr rfl⟩
    · rintro ⟨text, htext, hr⟩
      obtain ⟨text', hs, heq⟩ := Option.map_eq_some_iff.mp htext
      cases heq
      rw [hs, (hreaches text hs).mp hr]

/-! ### The configuration makes sense -/

theorem Sound.get?_toConfig_iff {key : String} {entry : Config.Entry} :
    d.toConfig.kinds.get? key = some entry ↔ ∃ scope kind k,
      (d.side scope).kinds.get? kind = some k ∧ key = scope.key kind ∧
        entry = .tokens ((d.view scope).configured kind) := by
  have hmem : ∀ entry, (key, entry) ∈ ([Scope.loose, Scope.strict].flatMap fun scope =>
      (d.view scope).kinds.map fun kind =>
        (scope.key kind, Config.Entry.tokens ((d.view scope).configured kind))) ↔
      ∃ scope kind k, (d.side scope).kinds.get? kind = some k ∧ key = scope.key kind ∧
        entry = .tokens ((d.view scope).configured kind) := by
    intro entry
    have hscope : ∀ scope : Scope, scope ∈ [Scope.loose, Scope.strict] := by
      intro scope
      cases scope <;> decide
    have hkind : ∀ scope kind, kind ∈ (d.view scope).kinds ↔
        ∃ k, (d.side scope).kinds.get? kind = some k :=
      fun scope kind => Table.mem_keys_iff.trans Table.contains_iff
    simp only [List.mem_flatMap, List.mem_map, hscope, true_and, hkind, Prod.mk.injEq]
    constructor
    · rintro ⟨scope, kind, ⟨k, hk⟩, rfl, rfl⟩
      exact ⟨scope, kind, k, hk, rfl, rfl⟩
    · rintro ⟨scope, kind, k, hk, rfl, rfl⟩
      exact ⟨scope, kind, ⟨k, hk⟩, rfl, rfl⟩
  unfold toConfig
  rw [Table.get?_ofList_eq_some_iff, hmem]
  intro entry entry' he he'
  obtain ⟨scope, kind, k, hk, hkey, rfl⟩ := (hmem _).mp he
  obtain ⟨scope', kind', k', hk', hkey', rfl⟩ := (hmem _).mp he'
  have hsplit : Scope.split (scope.key kind) = (scope, kind) :=
    Scope.split_key (h.isKind_of_get? hk)
  rw [← hkey, hkey', Scope.split_key (h.isKind_of_get? hk')] at hsplit
  cases hsplit
  rfl

theorem Sound.get?_toConfig (hk : (d.side scope).kinds.get? kind = some k) :
    d.toConfig.kinds.get? (scope.key kind) = some (.tokens ((d.view scope).configured kind)) :=
  h.get?_toConfig_iff.mpr ⟨scope, kind, k, hk, rfl, rfl⟩

/-- A table of the configuration is that of a kind under its key. -/
theorem Sound.exists_kind_of_toConfig {key : String} {table : Table (Option String)}
    (ht : d.toConfig.kinds.get? key = some (.tokens table)) :
    ∃ scope kind k, (d.side scope).kinds.get? kind = some k ∧ Scope.split key = (scope, kind) ∧
      table = (d.view scope).configured kind := by
  obtain ⟨scope, kind, k, hk, rfl, htable⟩ := h.get?_toConfig_iff.mp ht
  cases htable
  exact ⟨scope, kind, k, hk, Scope.split_key (h.isKind_of_get? hk), rfl⟩

/-- The configuration that describes a lexicon makes sense. -/
theorem Sound.valid_toConfig : d.toConfig.Valid where
  tables key entry he := by
    obtain ⟨scope, kind, k, -, -, rfl⟩ := h.get?_toConfig_iff.mp he
    exact ⟨_, rfl⟩
  keys key hc := by
    obtain ⟨entry, he⟩ := Table.contains_iff.mp hc
    obtain ⟨scope, kind, k, hk, rfl, -⟩ := h.get?_toConfig_iff.mp he
    have hkind := h.isKind_of_get? hk
    rwa [← Scope.split_snd, Scope.split_key hkind]
  names key table name value ht hn hd := by
    obtain ⟨scope, kind, k, hk, -, rfl⟩ := h.exists_kind_of_toConfig ht
    have hsound := (h.side scope).kinds kind k hk
    obtain ⟨t, hhas, rfl⟩ := (h.get?_configured_iff hk hd).mp hn
    exact ⟨hsound.isToken_of_has hhas, ofValue?_isSome_iff.mp ⟨t, hsound.ofValue?_value hhas⟩⟩
  aliases key table name target ht hn hd := by
    obtain ⟨scope, kind, k, hk, -, rfl⟩ := h.exists_kind_of_toConfig ht
    have hsound := (h.side scope).kinds kind k hk
    have hcontains := hsound.targets name target ((h.get?_configured_marked_iff hk).mpr ⟨hd, hn⟩)
    obtain ⟨text, htext⟩ := Table.contains_iff.mp hcontains
    obtain ⟨hne, hget, hmark⟩ := (h.get?_configured_plain_iff hk).mp htext
    exact ⟨hne, some text, hget, fun rest e => hmark rest (Option.some.inj e)⟩
  defaults key table value ht hn := by
    obtain ⟨scope, kind, k, hk, -, rfl⟩ := h.exists_kind_of_toConfig ht
    have hsound := (h.side scope).kinds kind k hk
    rw [h.get?_configured_default hk] at hn
    obtain ⟨token, hs, rfl⟩ := Option.map_eq_some_iff.mp hn
    have hcontains := hsound.standard token hs
    obtain ⟨text, htext⟩ := Table.contains_iff.mp hcontains
    obtain ⟨hne, hget, -⟩ := (h.get?_configured_plain_iff hk).mp htext
    refine ⟨token, rfl, ?_⟩
    rw [Name.stripped_of_isToken (hsound.isToken_of_contains hcontains)]
    exact ⟨hne, Table.contains_iff.mpr ⟨_, hget⟩⟩
  apart key key' table table' name ht ht' hs hs' hd hn hn' := by
    -- a name of two loose kinds would have two owners
    have howner : ∀ {key table}, d.toConfig.kinds.get? key = some (.tokens table) →
        (Scope.split key).1 = .loose → table.contains name = true →
          d.loose.owners.get? name = some (Scope.split key).2 := by
      intro key table ht hs hn
      obtain ⟨scope, kind, k, hk, hsplit, rfl⟩ := h.exists_kind_of_toConfig ht
      rw [hsplit] at hs ⊢
      cases hs
      obtain ⟨value, hn⟩ := Table.contains_iff.mp hn
      obtain ⟨t, hhas, -⟩ := (h.get?_configured_iff hk hd).mp hn
      exact (h.owned name kind).mpr ⟨k, hk, Kind.hasToken_iff_has.mpr ⟨t, hhas⟩⟩
    have hkinds := (howner ht hs hn).symm.trans (howner ht' hs' hn')
    exact Scope.split_injective (Prod.ext (hs.trans hs'.symm) (Option.some.inj hkinds))

/-! ### The lexicon of the configuration -/

/-- The lexicon of the configuration has the same kinds, and the same owners of loose names. -/
theorem Sound.eq_of_ofConfig {locale : String} {d' : Lexicon}
    (hd : ofConfig locale d.toConfig = .ok d') :
    d'.loose = d.loose ∧ d'.strict.kinds = d.strict.kinds := by
  have hrun := (ofConfig_eq_ok_iff.mp hd).2
  have hkinds : ∀ scope, (d'.side scope).kinds = (d.side scope).kinds := by
    intro scope
    refine Table.ext_get? fun kind => ?_
    cases hk : (d.side scope).kinds.get? kind with
    | some k =>
      obtain ⟨k', hk', hholds⟩ := holds_of_ofConfig hd (h.get?_toConfig hk)
      rw [Scope.split_key (h.isKind_of_get? hk)] at hk'
      rw [hk', hholds.unique (h.holds_configured hk)]
    | none =>
      refine Option.eq_none_iff_forall_ne_some.mpr fun k' hk' => ?_
      have hmentions := ((tells_of_run? hrun).kinds scope kind).mp (Table.contains_iff.mpr ⟨k', hk'⟩)
      obtain ⟨key, hkey, hsplit⟩ := (mentions_changesOf_iff h.valid_toConfig).mp hmentions
      obtain ⟨entry, he⟩ := Table.contains_iff.mp hkey
      obtain ⟨scope₀, kind₀, k, hk₀, rfl, -⟩ := h.get?_toConfig_iff.mp he
      rw [Scope.split_key (h.isKind_of_get? hk₀)] at hsplit
      cases hsplit
      rw [hk] at hk₀
      cases hk₀
  have howned' := ((sound_empty locale).run? hrun).owned
  exact ⟨h.owned.eq_of_kinds howned' (hkinds .loose), hkinds .strict⟩

omit h

/-- Views do not read the owners of strict names. -/
theorem alike_of_eq {d' : Lexicon} (hl : d'.loose = d.loose)
    (hs : d'.strict.kinds = d.strict.kinds) (scope : Scope) :
    (d'.view scope).Alike (d.view scope) := by
  have hkinds : ∀ scope, (d'.side scope).kinds = (d.side scope).kinds := by
    intro scope
    cases scope with
    | loose => exact congrArg (·.kinds) hl
    | strict => exact hs
  have hentry : ∀ key, View.entry? (d'.view scope) key = View.entry? (d.view scope) key := by
    intro key
    unfold View.entry?
    dsimp only [Lexicon.view]
    rw [hkinds]
  have hkind : ∀ key, (d'.view scope).kind? key = (d.view scope).kind? key :=
    fun key => congrArg (·.map (·.2)) (hentry key)
  have howner : ∀ name key, (d'.view scope).owner? name key = (d.view scope).owner? name key := by
    intro name key
    cases key with
    | some key => exact congrArg (·.filter (·.2.hasToken name)) (hentry key)
    | none =>
      unfold View.owner?
      dsimp only [Lexicon.view]
      rw [hl]
  have hlisted : ∀ key, (d'.view scope).listed key = (d.view scope).listed key := by
    intro key
    cases key with
    | some key => exact congrArg Option.toList (hkind key)
    | none =>
      unfold View.listed
      dsimp only [Lexicon.view]
      rw [hl]
  have hall : (d'.view scope).allListed = (d.view scope).allListed :=
    congrArg Table.values (hkinds scope)
  constructor
  case kinds => exact congrArg Table.keys (hkinds scope)
  case hasKind => exact fun key => congrArg Option.isSome (hkind key)
  case defaultTokenOf => exact fun key => congrArg (·.bind (·.standard)) (hkind key)
  case answers => exact fun key => View.answersAlike_of_eq (howner · key) (hlisted key)
  case allTokens => exact congrArg View.described hall
  case allTrueTokens => exact congrArg View.trueTokens hall
  case allAliases => exact congrArg View.aliases hall
  case allRawTokens => exact congrArg View.rawTokens hall

/-! ### Main statement -/

/-- **A lexicon is rebuilt from what it holds.** The configuration that describes a lexicon has a
lexicon, with the same locale, the same kinds in both namespaces and the same owners of loose names;
so its views give the same answers. -/
theorem rebuilt_alike {locale : String} (hd : Reachable locale d) :
    ∃ d', ofConfig d.locale d.toConfig = .ok d' ∧ d'.locale = d.locale ∧
      d'.loose.kinds = d.loose.kinds ∧ d'.strict.kinds = d.strict.kinds ∧
      d'.loose.owners = d.loose.owners ∧
      ∀ scope, (d'.view scope).Alike (d.view scope) := by
  have h := hd.sound
  have hok : ∃ d', ofConfig d.locale d.toConfig = .ok d' := ofConfig_isOk_iff.mpr h.valid_toConfig
  obtain ⟨d', hd'⟩ := hok
  obtain ⟨hl, hs⟩ := h.eq_of_ofConfig hd'
  have hlocale : d'.locale = (empty d.locale).locale := locale_run? (ofConfig_eq_ok_iff.mp hd').2
  exact ⟨d', hd', hlocale, congrArg (·.kinds) hl, hs, congrArg (·.owners) hl,
    alike_of_eq hl hs⟩

/-- The sample lexicon has a kind that came of an addition that failed, an alias, and a default that
was given by the alias; all of it is rebuilt. -/
theorem rebuilt_sample :
    Reachable "en" sample ∧
      sample.toConfig.kinds.keys = ["@person", "@tense", "gender", "person"] ∧
      (((sample.view .loose).configured "gender").get? "default") = some (some "m") ∧
      ∃ d', ofConfig "en" sample.toConfig = .ok d' ∧ d'.loose.kinds = sample.loose.kinds ∧
        (d'.view .loose).trueTokenOf? "masculine" none = some "m" := by
  have hd : Reachable "en" sample := (Reachable.config ofConfig_sample).foldl sampleChanges
  obtain ⟨d', hd', -, hl, -, -, halike⟩ := rebuilt_alike hd
  refine ⟨hd, by decide +kernel, by decide +kernel, d', hd', hl, ?_⟩
  rw [((halike .loose).answers none).trueTokenOf]
  decide +kernel

end Lexicon
end Concord

/-
# What the views of a lexicon answer

A view can be asked about a name, or for a listing of names. For a question the
kind that has the name is looked up, without a kind argument through the owner
index; a listing puts the tables of kinds together, and where two of them had a
name the later one would hide the earlier. In a sound lexicon this never
happens, because a kind argument, or its absence, covers kinds that share no
name. So a listing holds for a name what the kind has that owns it, and every
question about the name is answered as the listings answer it.

Key definitions: `View.Covers`, `Kind.standsFor?`, `View.Unites`, `View.Agrees`,
`View.AnswersAlike`, `View.SameAnswers`.
Key theorems: `View.owner?_eq_some_iff`, `View.get?_listing`, `View.agrees`,
`Lexicon.views_agree`.
-/
import Concord.Lexicon.View
import Concord.Proofs.Lexicon.History

namespace Concord

/-! ### Names of a kind -/

namespace Kind

/-- What a name of a kind stands for, if it has the name. -/
def standsFor? (k : Kind) (name : String) : Option RawToken :=
  ((k.tokens.get? name).map .description).or ((k.aliases.get? name).map .aliasOf)

variable {k : Kind} {name : String}

theorem hasToken_of_tokens {text : String} (h : k.tokens.get? name = some text) :
    k.hasToken name = true :=
  hasToken_iff_has.mpr ⟨.description text, h⟩

theorem hasToken_of_aliases {target : String} (h : k.aliases.get? name = some target) :
    k.hasToken name = true :=
  hasToken_iff_has.mpr ⟨.aliasOf target, h⟩

theorem hasToken_of_description? {text : String} (h : k.description? name = some text) :
    k.hasToken name = true := by
  obtain ⟨token, ht, -⟩ := Option.bind_eq_some_iff.mp h
  rw [← exists_trueToken?_iff]
  exact ⟨token, ht⟩

theorem description?_of_contains (h : k.tokens.contains name = true) :
    k.description? name = k.tokens.get? name := by
  rw [description?, trueToken?_of_contains h]
  rfl

theorem Sound.aliases_eq_none (h : k.Sound) (hc : k.tokens.contains name = true) :
    k.aliases.get? name = none := by
  have hd := h.disjoint name hc
  rwa [Table.contains, Option.isSome_eq_false_iff, Option.isNone_iff_eq_none] at hd

theorem Sound.tokens_eq_none (h : k.Sound) {target : String}
    (ha : k.aliases.get? name = some target) : k.tokens.get? name = none := by
  refine Option.eq_none_iff_forall_ne_some.mpr fun text ht => ?_
  rw [h.aliases_eq_none (Table.contains_iff.mpr ⟨text, ht⟩)] at ha
  cases ha

theorem Sound.trueToken?_of_aliases (h : k.Sound) {target : String}
    (ha : k.aliases.get? name = some target) : k.trueToken? name = some target := by
  have hc : k.tokens.contains name = false := by rw [Table.contains, h.tokens_eq_none ha]; rfl
  rw [trueToken?, hc]
  exact ha

theorem hasToken_of_standsFor? {t : RawToken} (h : k.standsFor? name = some t) :
    k.hasToken name = true := by
  rcases Option.or_eq_some_iff.mp h with h | ⟨-, h⟩
  · obtain ⟨text, ht, -⟩ := Option.map_eq_some_iff.mp h
    exact hasToken_of_tokens ht
  · obtain ⟨target, ha, -⟩ := Option.map_eq_some_iff.mp h
    exact hasToken_of_aliases ha

/-- In a sound kind a name stands for one thing. -/
theorem Sound.standsFor?_eq_some_iff (h : k.Sound) {t : RawToken} :
    k.standsFor? name = some t ↔ k.Has name t := by
  unfold standsFor?
  cases ht : k.tokens.get? name with
  | some text =>
    have ha := h.aliases_eq_none (Table.contains_iff.mpr ⟨text, ht⟩)
    cases t <;> simp [Has, ht, ha]
  | none => cases t <;> simp [Has, ht]

/-- Every name of a sound kind has a description. -/
theorem Sound.exists_description (h : k.Sound) (ht : k.hasToken name = true) :
    ∃ text, k.description? name = some text := by
  obtain ⟨token, htoken⟩ := exists_trueToken?_iff.mpr ht
  obtain ⟨text, htext⟩ := Table.contains_iff.mp (h.contains_of_trueToken? htoken)
  exact ⟨text, Option.bind_eq_some_iff.mpr ⟨token, htoken, htext⟩⟩

/-! ### What a kind lists -/

theorem mem_names_iff : name ∈ k.names ↔ k.hasToken name = true := by
  rw [names, List.mem_mergeSort, List.mem_append, Table.mem_keys_iff, Table.mem_keys_iff,
    hasToken_iff]

theorem mem_described_iff {text : String} :
    (name, text) ∈ (k.names.filterMap fun name => (k.description? name).map (name, ·)) ↔
      k.description? name = some text := by
  rw [List.mem_filterMap]
  constructor
  · rintro ⟨other, -, h⟩
    obtain ⟨text', h, e⟩ := Option.map_eq_some_iff.mp h
    cases e
    exact h
  · intro h
    exact ⟨name, mem_names_iff.mpr (hasToken_of_description? h), by rw [h]; rfl⟩

theorem Sound.mem_rawTokens_iff (h : k.Sound) {t : RawToken} :
    (name, t) ∈ k.rawTokens ↔ k.standsFor? name = some t := by
  rw [h.standsFor?_eq_some_iff, rawTokens, List.mem_append, List.mem_map, List.mem_map]
  cases t with
  | description text =>
    simp only [Has, ← Table.mem_entries_iff]
    simp
  | aliasOf target =>
    simp only [Has, ← Table.mem_entries_iff]
    simp

end Kind

namespace View

/-! ### Kinds that are meant -/

/-- The kinds that a kind argument means, with their bare names. -/
inductive Covers (v : View) : Option String → String → Kind → Prop where
  /-- Written with `@` it means a strict kind, in any view. -/
  | marked {kind : String} {k : Kind} :
      v.lexicon.strict.kinds.get? kind = some k → Covers v (some (Name.marked kind)) kind k
  /-- Written without, a kind of the namespace that the view reads. -/
  | bare {kind : String} {k : Kind} :
      Name.unmarked? kind = none → (v.lexicon.side v.scope).kinds.get? kind = some k →
      Covers v (some kind) kind k
  /-- Left out in the loose view it means every loose kind, in the strict view none. -/
  | every {kind : String} {k : Kind} :
      v.scope = .loose → v.lexicon.loose.kinds.get? kind = some k → Covers v none kind k

/-- A listing for a kind argument is the disjoint union of the kinds that are meant. -/
structure Unites (v : View) (key : Option String) : Prop where
  disjoint : ∀ name kind kind' k k', v.Covers key kind k → k.hasToken name = true →
    v.Covers key kind' k' → k'.hasToken name = true → kind = kind' ∧ k = k'
  tokens : ∀ name text, (v.tokensOf key).get? name = some text ↔
    ∃ kind k, v.Covers key kind k ∧ k.description? name = some text
  trueTokens : ∀ name text, (v.trueTokensOf key).get? name = some text ↔
    ∃ kind k, v.Covers key kind k ∧ k.tokens.get? name = some text
  aliases : ∀ name target, (v.aliasesOf key).get? name = some target ↔
    ∃ kind k, v.Covers key kind k ∧ k.aliases.get? name = some target
  rawTokens : ∀ name t, (v.rawTokensOf key).get? name = some t ↔
    ∃ kind k, v.Covers key kind k ∧ k.Has name t

/-- Questions about a name are answered as the listings for the kind argument answer them. -/
structure Agrees (v : View) (key : Option String) (name : String) : Prop where
  tokens : v.hasToken name key = (v.tokensOf key).contains name
  rawTokens : v.hasToken name key = (v.rawTokensOf key).contains name
  trueTokens : v.hasTrueToken name key = (v.trueTokensOf key).contains name
  aliases : v.hasAlias name key = (v.aliasesOf key).contains name
  /-- A name is a true token or an alias, and it is not both. -/
  either : v.hasToken name key = (v.hasTrueToken name key || v.hasAlias name key)
  notBoth : (v.hasTrueToken name key && v.hasAlias name key) = false
  description : v.descriptionOf? name key = (v.tokensOf key).get? name
  reaches : (v.trueTokenOf? name key).isSome = v.hasToken name key
  /-- A true token stands for itself, with its description. -/
  ofTrueToken : ∀ text, (v.trueTokensOf key).get? name = some text →
    v.trueTokenOf? name key = some name ∧ v.descriptionOf? name key = some text ∧
      (v.rawTokensOf key).get? name = some (.description text)
  /-- An alias stands for a true token of its kind, whose description it has. -/
  ofAlias : ∀ target, (v.aliasesOf key).get? name = some target →
    v.trueTokenOf? name key = some target ∧
      (v.rawTokensOf key).get? name = some (.aliasOf target) ∧
      v.hasTrueToken target key = true ∧ v.kindOf? target key = v.kindOf? name key ∧
      ∃ text, v.descriptionOf? target key = some text ∧ v.descriptionOf? name key = some text
  /-- The kind of a name is the one that is meant and has it. -/
  kind : ∀ kind, v.kindOf? name key = some kind ↔ ∃ k, v.Covers key kind k ∧ k.hasToken name = true

/-- Two views give the same answers about two kinds. -/
structure SameAnswers (v : View) (key : String) (v' : View) (key' : String) : Prop where
  hasKind : v.hasKind key = v'.hasKind key'
  defaultTokenOf : v.defaultTokenOf? key = v'.defaultTokenOf? key'
  hasToken : ∀ name, v.hasToken name (some key) = v'.hasToken name (some key')
  hasTrueToken : ∀ name, v.hasTrueToken name (some key) = v'.hasTrueToken name (some key')
  hasAlias : ∀ name, v.hasAlias name (some key) = v'.hasAlias name (some key')
  kindOf : ∀ name, v.kindOf? name (some key) = v'.kindOf? name (some key')
  trueTokenOf : ∀ name, v.trueTokenOf? name (some key) = v'.trueTokenOf? name (some key')
  descriptionOf : ∀ name, v.descriptionOf? name (some key) = v'.descriptionOf? name (some key')
  tokensOf : v.tokensOf (some key) = v'.tokensOf (some key')
  trueTokensOf : v.trueTokensOf (some key) = v'.trueTokensOf (some key')
  aliasesOf : v.aliasesOf (some key) = v'.aliasesOf (some key')
  rawTokensOf : v.rawTokensOf (some key) = v'.rawTokensOf (some key')

/-- Two views give the same answers to what may be asked about a key each, or about none. -/
structure AnswersAlike (v : View) (key : Option String) (v' : View) (key' : Option String) : Prop where
  hasToken : ∀ name, v.hasToken name key = v'.hasToken name key'
  hasTrueToken : ∀ name, v.hasTrueToken name key = v'.hasTrueToken name key'
  hasAlias : ∀ name, v.hasAlias name key = v'.hasAlias name key'
  kindOf : ∀ name, v.kindOf? name key = v'.kindOf? name key'
  trueTokenOf : ∀ name, v.trueTokenOf? name key = v'.trueTokenOf? name key'
  descriptionOf : ∀ name, v.descriptionOf? name key = v'.descriptionOf? name key'
  tokensOf : v.tokensOf key = v'.tokensOf key'
  trueTokensOf : v.trueTokensOf key = v'.trueTokensOf key'
  aliasesOf : v.aliasesOf key = v'.aliasesOf key'
  rawTokensOf : v.rawTokensOf key = v'.rawTokensOf key'

theorem entry?_marked (v : View) (kind : String) :
    v.entry? (Name.marked kind) = (v.lexicon.strict.kinds.get? kind).map (kind, ·) := by
  unfold entry?
  rw [Scope.split_marked]
  rfl

theorem entry?_bare (v : View) {kind : String} (hb : Name.unmarked? kind = none) :
    v.entry? kind = ((v.lexicon.side v.scope).kinds.get? kind).map (kind, ·) := by
  unfold entry? Scope.split
  rw [hb]

/-- The kind of a key is the one that it means. -/
theorem entry?_eq_some_iff {v : View} {key kind : String} {k : Kind} :
    v.entry? key = some (kind, k) ↔ v.Covers (some key) kind k := by
  constructor
  · intro h
    cases hu : Name.unmarked? key with
    | some name =>
      rw [Name.unmarked?_eq_some_iff] at hu
      rw [hu, entry?_marked] at h
      obtain ⟨k', hk, e⟩ := Option.map_eq_some_iff.mp h
      cases e
      rw [hu]
      exact .marked hk
    | none =>
      rw [entry?_bare v hu] at h
      obtain ⟨k', hk, e⟩ := Option.map_eq_some_iff.mp h
      cases e
      exact .bare hu hk
  · intro h
    cases h with
    | marked hk => rw [entry?_marked, hk]; rfl
    | bare hb hk => rw [entry?_bare v hb, hk]; rfl

/-- Without a kind argument the strict view means no kind. -/
theorem not_covers_strict {d : Lexicon} {kind : String} {k : Kind} :
    ¬(d.view .strict).Covers none kind k := by
  intro hc
  cases hc with
  | every hs _ => cases hs

/-- A listing covers the kinds that are meant. -/
theorem mem_listed_iff {v : View} {key : Option String} {k : Kind} :
    k ∈ v.listed key ↔ ∃ kind, v.Covers key kind k := by
  cases key with
  | some key =>
    have hkind : k ∈ v.listed (some key) ↔ v.kind? key = some k := Option.mem_toList
    rw [hkind, kind?, Option.map_eq_some_iff]
    constructor
    · rintro ⟨⟨kind, k'⟩, he, rfl⟩
      exact ⟨kind, entry?_eq_some_iff.mp he⟩
    · rintro ⟨kind, hc⟩
      exact ⟨(kind, k), entry?_eq_some_iff.mpr hc, rfl⟩
  | none =>
    obtain ⟨d, scope⟩ := v
    cases scope with
    | loose =>
      have hvalue : k ∈ (⟨d, .loose⟩ : View).listed none ↔ ∃ e ∈ d.loose.kinds.entries, e.2 = k :=
        List.mem_map
      rw [hvalue]
      constructor
      · rintro ⟨⟨kind, k'⟩, he, rfl⟩
        exact ⟨kind, .every rfl (Table.mem_entries_iff.mp he)⟩
      · rintro ⟨kind, hc⟩
        cases hc with
        | every _ hk => exact ⟨(kind, k), Table.mem_entries_iff.mpr hk, rfl⟩
    | strict =>
      refine iff_of_false List.not_mem_nil ?_
      rintro ⟨kind, hc⟩
      exact not_covers_strict hc

section

variable {d : Lexicon} (h : d.Sound) {scope : Scope} {key : Option String} {name : String}

include h

/-- The kinds that are meant are sound. -/
theorem Covers.sound {kind : String} {k : Kind} (hc : (d.view scope).Covers key kind k) :
    k.Sound := by
  cases hc with
  | marked hk => exact (h.side .strict).kinds _ _ hk
  | bare _ hk => exact (h.side scope).kinds _ _ hk
  | every _ hk => exact (h.side .loose).kinds _ _ hk

/-- The owner of a name is the kind that is meant and has the name. -/
theorem owner?_eq_some_iff {kind : String} {k : Kind} :
    (d.view scope).owner? name key = some (kind, k) ↔
      (d.view scope).Covers key kind k ∧ k.hasToken name = true := by
  cases key with
  | some key =>
    show Option.filter _ (View.entry? (d.view scope) key) = _ ↔ _
    rw [Option.filter_eq_some_iff, entry?_eq_some_iff]
  | none =>
    cases scope with
    | loose =>
      show ((d.loose.owners.get? name).bind fun other =>
        (d.loose.kinds.get? other).map fun k => (other, k)) = _ ↔ _
      rw [Option.bind_eq_some_iff]
      constructor
      · rintro ⟨other, ho, he⟩
        obtain ⟨k', hk, e⟩ := Option.map_eq_some_iff.mp he
        cases e
        obtain ⟨k', hk', ht⟩ := (h.owned name kind).mp ho
        rw [hk] at hk'
        cases hk'
        exact ⟨.every rfl hk, ht⟩
      · rintro ⟨hc, ht⟩
        cases hc with
        | every _ hk =>
          have hk : d.loose.kinds.get? kind = some k := hk
          exact ⟨kind, (h.owned name kind).mpr ⟨k, hk, ht⟩, by rw [hk]; rfl⟩
    | strict =>
      exact iff_of_false (fun e => (nomatch e)) fun hc => not_covers_strict hc.1

/-- A view has a token if a kind that is meant has it. -/
theorem hasToken_iff :
    (d.view scope).hasToken name key = true ↔
      ∃ kind k, (d.view scope).Covers key kind k ∧ k.hasToken name = true := by
  simp only [hasToken, Option.isSome_iff_exists, Prod.exists, owner?_eq_some_iff h]

/-- No two kinds that are meant share a name. -/
theorem covers_unique {kind kind' : String} {k k' : Kind}
    (hc : (d.view scope).Covers key kind k) (ht : k.hasToken name = true)
    (hc' : (d.view scope).Covers key kind' k') (ht' : k'.hasToken name = true) :
    kind = kind' ∧ k = k' := by
  have ho := (owner?_eq_some_iff h).mpr ⟨hc, ht⟩
  have ho' := (owner?_eq_some_iff h).mpr ⟨hc', ht'⟩
  rw [ho] at ho'
  exact Prod.mk.inj (Option.some.inj ho')

/-! ### Listings -/

/-- What is found for a name by its owner is what is found for it in the kinds that are meant. -/
theorem owner?_bind_eq_some_iff {α : Type} {g : Kind → String → Option α}
    (hg : ∀ k x, g k name = some x → k.hasToken name = true) {x : α} :
    (((d.view scope).owner? name key).bind fun e => g e.2 name) = some x ↔
      ∃ kind k, (d.view scope).Covers key kind k ∧ g k name = some x := by
  rw [Option.bind_eq_some_iff]
  constructor
  · rintro ⟨⟨kind, k⟩, ho, hx⟩
    exact ⟨kind, k, ((owner?_eq_some_iff h).mp ho).1, hx⟩
  · rintro ⟨kind, k, hc, hx⟩
    exact ⟨(kind, k), (owner?_eq_some_iff h).mpr ⟨hc, hg k x hx⟩, hx⟩

/-- **Nothing is hidden in a listing.** If each kind lists what it has for its names, the listing of
all kinds that are meant gives for a name what its owner has. -/
theorem get?_listing {α : Type} {f : Kind → List (String × α)} {g : Kind → String → Option α}
    (hf : ∀ k : Kind, k.Sound → ∀ name x, (name, x) ∈ f k ↔ g k name = some x)
    (hg : ∀ k name x, g k name = some x → k.hasToken name = true) :
    (Table.ofList (((d.view scope).listed key).flatMap f)).get? name =
      ((d.view scope).owner? name key).bind fun e => g e.2 name := by
  have hmem : ∀ x, (name, x) ∈ ((d.view scope).listed key).flatMap f ↔
      (((d.view scope).owner? name key).bind fun e => g e.2 name) = some x := by
    intro x
    rw [List.mem_flatMap, owner?_bind_eq_some_iff h fun k x => hg k name x]
    constructor
    · rintro ⟨k, hk, hx⟩
      obtain ⟨kind, hc⟩ := mem_listed_iff.mp hk
      exact ⟨kind, k, hc, (hf k (hc.sound h) name x).mp hx⟩
    · rintro ⟨kind, k, hc, hx⟩
      exact ⟨k, mem_listed_iff.mpr ⟨kind, hc⟩, (hf k (hc.sound h) name x).mpr hx⟩
  refine Option.ext fun x => ?_
  rw [← hmem, Table.get?_ofList_eq_some_iff]
  intro x y hx hy
  rw [hmem] at hx hy
  exact Option.some.inj (hx.symm.trans hy)

theorem get?_tokensOf :
    ((d.view scope).tokensOf key).get? name = (d.view scope).descriptionOf? name key :=
  get?_listing h (fun _ _ _ _ => Kind.mem_described_iff) fun _ _ _ => Kind.hasToken_of_description?

theorem get?_trueTokensOf : ((d.view scope).trueTokensOf key).get? name =
    ((d.view scope).owner? name key).bind fun e => e.2.tokens.get? name :=
  get?_listing h (fun _ _ _ _ => Table.mem_entries_iff) fun _ _ _ => Kind.hasToken_of_tokens

theorem get?_aliasesOf : ((d.view scope).aliasesOf key).get? name =
    ((d.view scope).owner? name key).bind fun e => e.2.aliases.get? name :=
  get?_listing h (fun _ _ _ _ => Table.mem_entries_iff) fun _ _ _ => Kind.hasToken_of_aliases

theorem get?_rawTokensOf : ((d.view scope).rawTokensOf key).get? name =
    ((d.view scope).owner? name key).bind fun e => e.2.standsFor? name :=
  get?_listing h (fun _ hk _ _ => hk.mem_rawTokens_iff) fun _ _ _ => Kind.hasToken_of_standsFor?

theorem unites : (d.view scope).Unites key where
  disjoint name kind kind' k k' hc ht hc' ht' := covers_unique h hc ht hc' ht'
  tokens name text := by
    rw [get?_tokensOf h]
    exact owner?_bind_eq_some_iff h fun _ _ => Kind.hasToken_of_description?
  trueTokens name text := by
    rw [get?_trueTokensOf h]
    exact owner?_bind_eq_some_iff h fun _ _ => Kind.hasToken_of_tokens
  aliases name target := by
    rw [get?_aliasesOf h]
    exact owner?_bind_eq_some_iff h fun _ _ => Kind.hasToken_of_aliases
  rawTokens name t := by
    rw [get?_rawTokensOf h, owner?_bind_eq_some_iff h fun _ _ => Kind.hasToken_of_standsFor?]
    refine exists_congr fun kind => exists_congr fun k => and_congr_right fun hc => ?_
    exact (hc.sound h).standsFor?_eq_some_iff

/-! ### Questions and listings -/

/-- What an alias says, in the view. -/
theorem ofAlias {target : String} (ha : ((d.view scope).aliasesOf key).get? name = some target) :
    (d.view scope).trueTokenOf? name key = some target ∧
      ((d.view scope).rawTokensOf key).get? name = some (.aliasOf target) ∧
      (d.view scope).hasTrueToken target key = true ∧
      (d.view scope).kindOf? target key = (d.view scope).kindOf? name key ∧
      ∃ text, (d.view scope).descriptionOf? target key = some text ∧
        (d.view scope).descriptionOf? name key = some text := by
  rw [get?_aliasesOf h] at ha
  obtain ⟨⟨kind, k⟩, ho, ha⟩ := Option.bind_eq_some_iff.mp ha
  have hc := ((owner?_eq_some_iff h).mp ho).1
  have hk := hc.sound h
  have htarget := hk.targets name target ha
  obtain ⟨text, ht⟩ := Table.contains_iff.mp htarget
  -- the target belongs to the kind of the alias, so both have one owner
  have hot : (d.view scope).owner? target key = some (kind, k) :=
    (owner?_eq_some_iff h).mpr ⟨hc, Kind.hasToken_of_tokens ht⟩
  have htrue := hk.trueToken?_of_aliases ha
  rw [get?_rawTokensOf h]
  unfold trueTokenOf? hasTrueToken kindOf? descriptionOf?
  rw [ho, hot]
  refine ⟨htrue, hk.standsFor?_eq_some_iff.mpr ha, htarget, rfl, text, ?_, ?_⟩
  · exact (Kind.description?_of_contains htarget).trans ht
  · show (k.trueToken? name).bind k.tokens.get? = some text
    rw [htrue]
    exact ht

/-- What a true token says, in the view. -/
theorem ofTrueToken {text : String}
    (ht : ((d.view scope).trueTokensOf key).get? name = some text) :
    (d.view scope).trueTokenOf? name key = some name ∧
      (d.view scope).descriptionOf? name key = some text ∧
      ((d.view scope).rawTokensOf key).get? name = some (.description text) := by
  rw [get?_trueTokensOf h] at ht
  obtain ⟨⟨kind, k⟩, ho, ht⟩ := Option.bind_eq_some_iff.mp ht
  have hk := ((owner?_eq_some_iff h).mp ho).1.sound h
  have hcontains := Table.contains_iff.mpr ⟨text, ht⟩
  rw [get?_rawTokensOf h]
  unfold trueTokenOf? descriptionOf?
  rw [ho]
  exact ⟨Kind.trueToken?_of_contains hcontains,
    (Kind.description?_of_contains hcontains).trans ht, hk.standsFor?_eq_some_iff.mpr ht⟩

theorem agrees : (d.view scope).Agrees key name where
  tokens := by
    rw [Table.contains, get?_tokensOf h]
    unfold hasToken descriptionOf?
    cases ho : (d.view scope).owner? name key with
    | none => rfl
    | some e =>
      obtain ⟨hc, ht⟩ := (owner?_eq_some_iff h).mp ho
      obtain ⟨text, htext⟩ := (hc.sound h).exists_description ht
      simp [htext]
  rawTokens := by
    rw [Table.contains, get?_rawTokensOf h]
    unfold hasToken
    cases ho : (d.view scope).owner? name key with
    | none => rfl
    | some e =>
      obtain ⟨hc, ht⟩ := (owner?_eq_some_iff h).mp ho
      obtain ⟨t, hstands⟩ := Kind.hasToken_iff_has.mp ht
      simp [(hc.sound h).standsFor?_eq_some_iff.mpr hstands]
  trueTokens := by
    rw [Table.contains, get?_trueTokensOf h]
    unfold hasTrueToken
    cases (d.view scope).owner? name key <;> rfl
  aliases := by
    rw [Table.contains, get?_aliasesOf h]
    unfold hasAlias
    cases (d.view scope).owner? name key <;> rfl
  either := by
    unfold hasToken hasTrueToken hasAlias
    cases ho : (d.view scope).owner? name key with
    | none => rfl
    | some e => exact ((owner?_eq_some_iff h).mp ho).2.symm
  notBoth := by
    unfold hasTrueToken hasAlias
    cases ho : (d.view scope).owner? name key with
    | none => rfl
    | some e =>
      have hk := ((owner?_eq_some_iff h).mp ho).1.sound h
      cases ht : e.2.tokens.contains name with
      | false => simp [ht]
      | true => simp [hk.disjoint name ht]
  description := (get?_tokensOf h).symm
  reaches := by
    unfold trueTokenOf? hasToken
    cases ho : (d.view scope).owner? name key with
    | none => rfl
    | some e =>
      have ht := ((owner?_eq_some_iff h).mp ho).2
      exact (e.2.isSome_trueToken? name).trans ht
  ofTrueToken _ := ofTrueToken h
  ofAlias _ := ofAlias h
  kind kind := by
    unfold kindOf?
    rw [Option.map_eq_some_iff]
    constructor
    · rintro ⟨⟨kind, k⟩, ho, rfl⟩
      exact ⟨k, (owner?_eq_some_iff h).mp ho⟩
    · rintro ⟨k, hk⟩
      exact ⟨(kind, k), (owner?_eq_some_iff h).mpr hk, rfl⟩

end

section

variable {v v' : View} {key key' : Option String}

/-- Views in which one owner and one listing are found under two keys, or under none, give the same
answers under them. -/
theorem answersAlike_of_eq (howner : ∀ name, v.owner? name key = v'.owner? name key')
    (hlisted : v.listed key = v'.listed key') : v.AnswersAlike key v' key' := by
  constructor
  case hasToken => exact fun name => congrArg Option.isSome (howner name)
  case hasTrueToken =>
    intro name
    rw [hasTrueToken, howner]
    rfl
  case hasAlias =>
    intro name
    rw [hasAlias, howner]
    rfl
  case kindOf => exact fun name => congrArg (·.map (·.1)) (howner name)
  case trueTokenOf => exact fun name => congrArg (·.bind (·.2.trueToken? name)) (howner name)
  case descriptionOf => exact fun name => congrArg (·.bind (·.2.description? name)) (howner name)
  case tokensOf => exact congrArg described hlisted
  case trueTokensOf => exact congrArg View.trueTokens hlisted
  case aliasesOf => exact congrArg View.aliases hlisted
  case rawTokensOf => exact congrArg View.rawTokens hlisted

end

/-- Views that find one entry under two keys give the same answers about it. -/
theorem sameAnswers_of_eq {v v' : View} {key key' : String} (h : v.entry? key = v'.entry? key') :
    v.SameAnswers key v' key' := by
  have howner : ∀ name, v.owner? name (some key) = v'.owner? name (some key') :=
    fun name => congrArg (·.filter (·.2.hasToken name)) h
  have hkind : v.kind? key = v'.kind? key' := congrArg (·.map (·.2)) h
  have hlisted : v.listed (some key) = v'.listed (some key') := congrArg Option.toList hkind
  have halike := answersAlike_of_eq howner hlisted
  exact ⟨congrArg Option.isSome hkind, congrArg (·.bind (·.standard)) hkind, halike.hasToken,
    halike.hasTrueToken, halike.hasAlias, halike.kindOf, halike.trueTokenOf, halike.descriptionOf,
    halike.tokensOf, halike.trueTokensOf, halike.aliasesOf, halike.rawTokensOf⟩

end View

/-! ### Main statement -/

/-- **Questions and listings agree.** In both views of a lexicon, and for every kind argument or none,
a listing is the disjoint union of the kinds that are meant, and every question about a name is
answered as the listings answer it. Without a kind argument the listings of the loose view are those
of the whole namespace, and those of the strict view are empty. What the loose view says of a kind
written with `@` is what the strict view says of the bare kind. -/
theorem Lexicon.views_agree {locale : String} {d : Lexicon} (hd : Reachable locale d) :
    (∀ scope key, (d.view scope).Unites key ∧ ∀ name, (d.view scope).Agrees key name) ∧
    ((d.view .loose).tokensOf none = (d.view .loose).allTokens ∧
      (d.view .loose).trueTokensOf none = (d.view .loose).allTrueTokens ∧
      (d.view .loose).aliasesOf none = (d.view .loose).allAliases ∧
      (d.view .loose).rawTokensOf none = (d.view .loose).allRawTokens) ∧
    ((d.view .strict).tokensOf none = ∅ ∧ (d.view .strict).trueTokensOf none = ∅ ∧
      (d.view .strict).aliasesOf none = ∅ ∧ (d.view .strict).rawTokensOf none = ∅) ∧
    ∀ kind, Name.unmarked? kind = none →
      (d.view .loose).SameAnswers (Name.marked kind) (d.view .strict) kind := by
  refine ⟨fun scope key => ⟨View.unites hd.sound, fun name => View.agrees hd.sound⟩,
    ⟨rfl, rfl, rfl, rfl⟩, ⟨rfl, rfl, rfl, rfl⟩, fun kind hb => View.sameAnswers_of_eq ?_⟩
  rw [View.entry?_marked, View.entry?_bare _ hb]
  rfl

/-- In the sample lexicon a loose and a strict kind share a token; an alias is found through its
owner, and the strict kind through its marked name. -/
theorem Lexicon.views_sample :
    Reachable "en" sample ∧
      (sample.view .loose).trueTokenOf? "masculine" none = some "m" ∧
      ((sample.view .loose).tokensOf none).get? "masculine" = some "male" ∧
      ((sample.view .loose).tokensOf (some "@person")).get? "m" = some "me" ∧
      (sample.view .loose).tokensOf (some "@person") =
        (sample.view .strict).tokensOf (some "person") := by
  have h : Reachable "en" sample := (Reachable.config ofConfig_sample).foldl sampleChanges
  obtain ⟨hviews, -, -, hsame⟩ := views_agree h
  have halias : ((sample.view .loose).aliasesOf none).get? "masculine" = some "m" := by
    decide +kernel
  have hmale : (sample.view .loose).descriptionOf? "masculine" none = some "male" := by
    decide +kernel
  have hme : (sample.view .loose).descriptionOf? "m" (some "@person") = some "me" := by
    decide +kernel
  refine ⟨h, (((hviews .loose none).2 "masculine").ofAlias "m" halias).1, ?_, ?_,
    (hsame "person" (by decide)).tokensOf⟩
  · rw [← ((hviews .loose none).2 "masculine").description, hmale]
  · rw [← ((hviews .loose (some "@person")).2 "m").description, hme]

end Concord

/-
# What a registry holds after a history

A registry is told to install a lexicon for a locale, or to remove the one that
is there. Of a locale it holds what was installed last, if nothing removed it
after that; other locales do not matter, nor does a rebuild that fails. So its
lists of locales can be told from the history too: each has the locales whose
lexicon passes its test, in order and each of them once.

The two questions whether a locale is supported do not fit together. For the
general one a locale must have a name; the strict one asks for strict kinds only,
and a lexicon may be installed under the empty name.

Key definitions: `Registry.Operation`, `Registry.run`, `Registry.LastInstalled`,
`Registry.Gone`, `Registry.Lists`, `Registry.Listed`.
Key theorems: `Registry.lexicon?_after_of_spares`, `Registry.lexicon?_run_eq_some_iff`,
`Registry.lexicon?_run_eq_none_iff`, `Registry.listed`, `Registry.run_kept`,
`Registry.support_kept`.
-/
import Mathlib.Data.List.Induction
import Concord.Proofs.Catalog.Failing
import Concord.Proofs.Lexicon.Views

namespace Concord
namespace Registry

/-! ### Operations -/

/-- What a registry is told to do. -/
inductive Operation where
  /-- Install a lexicon without kinds for a locale. -/
  | addEmpty (locale : String)
  /-- Install a lexicon for its own locale. -/
  | add (d : Lexicon)
  /-- Remove the lexicon of a locale. -/
  | delete (locale : String)
  /-- Install the lexicon that a configuration describes, or remove that of the locale. -/
  | rebuild (locale : String) (config : Config)

/-- The registry after an operation. A rebuild that fails leaves it as it was. -/
def after (r : Registry) : Operation → Registry
  | .addEmpty locale => r.addEmpty locale
  | .add d => r.add d
  | .delete locale => r.delete locale
  | .rebuild locale config =>
    match r.rebuild locale config with
    | .ok result => result.1
    | .error _ => r

/-- The registry after a list of operations, from the empty one. -/
def run (ops : List Operation) : Registry := ops.foldl after .empty

namespace Operation

/-- The locale that an operation is about. -/
def locale : Operation → String
  | .addEmpty locale | .delete locale | .rebuild locale _ => locale
  | .add d => d.locale

/-- An operation installs a lexicon for a locale. -/
inductive Installs : Operation → String → Lexicon → Prop where
  | addEmpty (locale : String) : Installs (.addEmpty locale) locale (.empty locale)
  | add (d : Lexicon) : Installs (.add d) d.locale d
  | rebuild {locale : String} {config : Config} {d : Lexicon} :
      config.isEmpty = false → Lexicon.ofConfig locale config = .ok d →
      Installs (.rebuild locale config) locale d

/-- An operation removes the lexicon of a locale. -/
inductive Removes : Operation → String → Prop where
  | delete (locale : String) : Removes (.delete locale) locale
  | rebuild {locale : String} {config : Config} :
      config.isEmpty = true → Removes (.rebuild locale config) locale

/-- An operation neither installs a lexicon for a locale nor removes the one of the locale. -/
def Spares (op : Operation) (locale : String) : Prop :=
  (∀ d, ¬op.Installs locale d) ∧ ¬op.Removes locale

end Operation

variable {r : Registry} {ops : List Operation} {op : Operation} {locale : String} {d d' : Lexicon}

/-- The lexicon is the last one that was installed for the locale, and has not been removed since. -/
def LastInstalled (ops : List Operation) (locale : String) (d : Lexicon) : Prop :=
  ∃ before op later, ops = before ++ op :: later ∧ op.Installs locale d ∧
    ∀ op' ∈ later, op'.Spares locale

/-- Whatever was installed for the locale has been removed since. -/
def Gone (ops : List Operation) (locale : String) : Prop :=
  ∀ before op later d, ops = before ++ op :: later → op.Installs locale d →
    ∃ op' ∈ later, op'.Removes locale

/-! ### One operation -/

theorem run_concat (ops : List Operation) (op : Operation) : run (ops ++ [op]) = (run ops).after op := by
  simp [run]

theorem Operation.Installs.locale_eq (h : op.Installs locale d) :
    op.locale = locale ∧ d.locale = locale := by
  cases h with
  | addEmpty => exact ⟨rfl, rfl⟩
  | add => exact ⟨rfl, rfl⟩
  | rebuild _ hd => exact ⟨rfl, (Lexicon.Reachable.config hd).locale_eq⟩

theorem Operation.Removes.locale_eq (h : op.Removes locale) : op.locale = locale := by
  cases h <;> rfl

theorem Operation.Installs.unique (h : op.Installs locale d) (h' : op.Installs locale d') : d = d' := by
  cases h with
  | addEmpty =>
    cases h'
    rfl
  | add =>
    cases h'
    rfl
  | rebuild _ hd =>
    cases h' with
    | rebuild _ hd' => exact Except.ok.inj (hd.symm.trans hd')

/-- No operation both installs a lexicon for a locale and removes the one of the locale. -/
theorem Operation.Installs.not_removes (h : op.Installs locale d) : ¬op.Removes locale := by
  intro hr
  cases h with
  | addEmpty => cases hr
  | add => cases hr
  | rebuild hne _ =>
    cases hr with
    | rebuild he =>
      rw [hne] at he
      cases he

theorem Operation.spares_of_ne (h : locale ≠ op.locale) : op.Spares locale :=
  ⟨fun _ hi => h hi.locale_eq.1.symm, fun hr => h hr.locale_eq.symm⟩

theorem lexicon?_add (r : Registry) (d : Lexicon) (locale : String) :
    (r.add d).lexicon? locale = if locale = d.locale then some d else r.lexicon? locale :=
  Table.get?_insert ..

theorem lexicon?_delete (r : Registry) (other locale : String) :
    (r.delete other).lexicon? locale = if locale = other then none else r.lexicon? locale :=
  Table.get?_erase ..

/-- What a rebuild does: it removes, it installs, or it fails and does nothing. -/
theorem after_rebuild (r : Registry) (locale : String) (config : Config) :
    r.after (.rebuild locale config) =
      if config.isEmpty then r.delete locale
      else match Lexicon.ofConfig locale config with
        | .ok d => r.add d
        | .error _ => r := by
  show (match r.rebuild locale config with | .ok result => result.1 | .error _ => r) = _
  unfold Registry.rebuild
  by_cases he : config.isEmpty = true
  · rw [if_pos he, if_pos he]
  · rw [if_neg he, if_neg he]
    cases Lexicon.ofConfig locale config <;> rfl

/-- What an operation installs is there. -/
theorem lexicon?_after_of_installs (h : op.Installs locale d) :
    (r.after op).lexicon? locale = some d := by
  have hadd : (r.add d).lexicon? locale = some d := by
    rw [lexicon?_add, if_pos h.locale_eq.2.symm]
  cases h with
  | addEmpty => exact hadd
  | add => exact hadd
  | rebuild hne hd =>
    rw [after_rebuild, hne, hd]
    exact hadd

/-- What an operation removes is not there. -/
theorem lexicon?_after_of_removes (h : op.Removes locale) : (r.after op).lexicon? locale = none := by
  have hdelete : (r.delete locale).lexicon? locale = none := by
    rw [lexicon?_delete, if_pos rfl]
  cases h with
  | delete => exact hdelete
  | rebuild he =>
    rw [after_rebuild, he]
    exact hdelete

/-- What an operation spares stays. -/
theorem lexicon?_after_of_spares (h : op.Spares locale) :
    (r.after op).lexicon? locale = r.lexicon? locale := by
  obtain ⟨hinstalls, hremoves⟩ := h
  have hadd : ∀ {d : Lexicon}, locale ≠ d.locale → (r.add d).lexicon? locale = r.lexicon? locale :=
    fun hne => (lexicon?_add ..).trans (if_neg hne)
  have hdelete : ∀ {other}, locale ≠ other → (r.delete other).lexicon? locale = r.lexicon? locale :=
    fun hne => (lexicon?_delete ..).trans (if_neg hne)
  cases op with
  | addEmpty other =>
    refine hadd fun heq => hinstalls (.empty locale) ?_
    have hother : locale = other := heq
    exact hother ▸ .addEmpty locale
  | add d => exact hadd fun heq => hinstalls d (heq ▸ .add d)
  | delete other => exact hdelete fun heq => hremoves (heq ▸ .delete locale)
  | rebuild other config =>
    rw [after_rebuild]
    cases he : config.isEmpty with
    | true => exact hdelete fun heq => hremoves (heq ▸ .rebuild he)
    | false =>
      cases hd : Lexicon.ofConfig other config with
      | error e => rfl
      | ok d =>
        refine hadd fun heq => hinstalls d ?_
        obtain rfl : locale = other := heq.trans (Lexicon.Reachable.config hd).locale_eq
        exact .rebuild he hd

/-- An operation installs a lexicon for a locale, or removes the one of the locale, or spares it. -/
theorem Operation.cases_at (op : Operation) (locale : String) :
    (∃ d, op.Installs locale d) ∨ op.Removes locale ∨ op.Spares locale := by
  by_cases hinstalls : ∃ d, op.Installs locale d
  · exact .inl hinstalls
  · by_cases hremoves : op.Removes locale
    · exact .inr (.inl hremoves)
    · exact .inr (.inr ⟨not_exists.mp hinstalls, hremoves⟩)

/-- In place, a rebuild leaves the same registry behind, and if it fails it has written nothing. -/
theorem run_rebuild (s : Session) (locale : String) (config : Config) :
    ((Update.rebuild locale config).run s).2.registry = s.registry.after (.rebuild locale config) ∧
      ∀ e, ((Update.rebuild locale config).run s).1 = .error e →
        ((Update.rebuild locale config).run s).2 = s := by
  have hacts := Update.actsAs_rebuild locale config
  refine ⟨?_, fun e he => hacts.unwritten he⟩
  rw [hacts s]
  simp only [after]
  cases s.registry.rebuild locale config <;> rfl

/-! ### Histories -/

theorem lastInstalled_concat_iff :
    LastInstalled (ops ++ [op]) locale d ↔
      op.Installs locale d ∨ (LastInstalled ops locale d ∧ op.Spares locale) := by
  simp only [LastInstalled, eq_append_cons_concat_iff]
  constructor
  · rintro ⟨before, op', later, ⟨rfl, rfl, rfl⟩ | ⟨rest, rfl, rfl⟩, hinstalls, hspares⟩
    · exact .inl hinstalls
    · obtain ⟨hrest, hop⟩ := List.forall_mem_append.mp hspares
      exact .inr ⟨⟨before, op', rest, rfl, hinstalls, hrest⟩, hop op List.mem_cons_self⟩
  · rintro (hinstalls | ⟨⟨before, op', later, rfl, hinstalls, hspares⟩, hop⟩)
    · exact ⟨ops, op, [], .inl ⟨rfl, rfl, rfl⟩, hinstalls, fun _ h => absurd h List.not_mem_nil⟩
    · refine ⟨before, op', later ++ [op], .inr ⟨later, rfl, rfl⟩, hinstalls, ?_⟩
      exact List.forall_mem_append.mpr ⟨hspares, List.forall_mem_singleton.mpr hop⟩

theorem gone_concat_iff :
    Gone (ops ++ [op]) locale ↔
      op.Removes locale ∨ (Gone ops locale ∧ ∀ d, ¬op.Installs locale d) := by
  simp only [Gone, eq_append_cons_concat_iff]
  constructor
  · intro h
    by_cases hremoves : op.Removes locale
    · exact .inl hremoves
    · refine .inr ⟨fun before op' later d heq hinstalls => ?_, fun d hinstalls => ?_⟩
      · obtain ⟨o, ho, hr⟩ := h before op' (later ++ [op]) d (.inr ⟨later, rfl, heq⟩) hinstalls
        rcases List.mem_append.mp ho with ho | ho
        · exact ⟨o, ho, hr⟩
        · exact absurd (List.mem_singleton.mp ho ▸ hr) hremoves
      · obtain ⟨o, ho, -⟩ := h ops op [] d (.inl ⟨rfl, rfl, rfl⟩) hinstalls
        exact absurd ho List.not_mem_nil
  · rintro h before op' later d (⟨rfl, rfl, rfl⟩ | ⟨rest, rfl, rfl⟩) hinstalls
    · rcases h with hremoves | ⟨-, hnone⟩
      · exact absurd hremoves hinstalls.not_removes
      · exact absurd hinstalls (hnone d)
    · rcases h with hremoves | ⟨hgone, -⟩
      · exact ⟨op, by simp, hremoves⟩
      · obtain ⟨o, ho, hr⟩ := hgone before op' rest d rfl hinstalls
        exact ⟨o, List.mem_append_left _ ho, hr⟩

/-- A locale has the lexicon that was installed for it last. -/
theorem lexicon?_run_eq_some_iff (ops : List Operation) :
    (run ops).lexicon? locale = some d ↔ LastInstalled ops locale d := by
  induction ops using List.reverseRecOn with
  | nil =>
    refine iff_of_false (fun h => nomatch h) ?_
    rintro ⟨before, op, later, heq, -⟩
    simp at heq
  | append_singleton ops op ih =>
    rw [run_concat, lastInstalled_concat_iff, ← ih]
    rcases op.cases_at locale with ⟨d', hinstalls⟩ | hremoves | hspares
    · have hnot : ¬op.Spares locale := fun hspares => hspares.1 d' hinstalls
      rw [lexicon?_after_of_installs hinstalls, Option.some_inj]
      simp only [hnot, and_false, or_false]
      exact ⟨fun heq => heq ▸ hinstalls, hinstalls.unique⟩
    · have hnot : ¬op.Spares locale := fun hspares => hspares.2 hremoves
      have hnone : ¬op.Installs locale d := fun hinstalls => hinstalls.not_removes hremoves
      rw [lexicon?_after_of_removes hremoves]
      simp [hnot, hnone]
    · rw [lexicon?_after_of_spares hspares]
      simp [hspares, hspares.1 d]

/-- A locale has no lexicon if all that was installed for it has been removed. -/
theorem lexicon?_run_eq_none_iff (ops : List Operation) :
    (run ops).lexicon? locale = none ↔ Gone ops locale := by
  induction ops using List.reverseRecOn with
  | nil =>
    refine iff_of_true rfl fun before op later d heq => ?_
    simp at heq
  | append_singleton ops op ih =>
    rw [run_concat, gone_concat_iff, ← ih]
    rcases op.cases_at locale with ⟨d', hinstalls⟩ | hremoves | hspares
    · have hsome : ¬∀ d, ¬op.Installs locale d := fun hnone => hnone d' hinstalls
      rw [lexicon?_after_of_installs hinstalls]
      simp [hsome, hinstalls.not_removes]
    · simp [lexicon?_after_of_removes hremoves, hremoves]
    · simp [lexicon?_after_of_spares hspares, hspares.1, hspares.2]

/-! ### Lists of locales -/

/-- A list has the locales that pass a test, in order and each of them once. -/
def Lists (locales : List String) (p : String → Prop) : Prop :=
  locales.Pairwise (· < ·) ∧ ∀ locale, locale ∈ locales ↔ p locale

/-- The lexicon of a locale has a kind of a namespace. -/
def HasKind (r : Registry) (locale : String) (scope : Scope) (kind : String) : Prop :=
  ∃ d, r.lexicon? locale = some d ∧ (d.side scope).kinds.contains kind = true

/-- What a registry lists. -/
structure Listed (r : Registry) : Prop where
  all : Lists (r.inflectedLocales none) fun locale => ∃ d, r.lexicon? locale = some d
  bare : ∀ kind, Name.unmarked? kind = none →
    Lists (r.inflectedLocales (some kind)) fun locale => r.HasKind locale .loose kind
  marked : ∀ kind,
    Lists (r.inflectedLocales (some (Name.marked kind))) fun locale => r.HasKind locale .strict kind
  strict : Lists (r.strictInflectedLocales none) fun locale => ∃ kind, r.HasKind locale .strict kind
  strictKind : ∀ kind, Name.unmarked? kind = none →
    r.strictInflectedLocales (some kind) = r.inflectedLocales (some (Name.marked kind))

theorem lists_localesWhere (r : Registry) (p : Lexicon → Bool) :
    Lists (r.localesWhere p) fun locale => ∃ d, r.lexicon? locale = some d ∧ p d = true := by
  refine ⟨Table.keys_ordered _, fun locale => ?_⟩
  rw [localesWhere, Table.keys, List.mem_map]
  constructor
  · rintro ⟨⟨key, d⟩, hmem, rfl⟩
    obtain ⟨hentry, hp⟩ := List.mem_filter.mp hmem
    exact ⟨d, Table.mem_entries_iff.mp hentry, hp⟩
  · rintro ⟨d, hd, hp⟩
    exact ⟨(locale, d), List.mem_filter.mpr ⟨Table.mem_entries_iff.mpr hd, hp⟩, rfl⟩

theorem hasKind_marked (v : View) (kind : String) :
    v.hasKind (Name.marked kind) = v.lexicon.strict.kinds.contains kind := by
  rw [View.hasKind, View.kind?, View.entry?_marked]
  cases h : v.lexicon.strict.kinds.get? kind <;> simp [Table.contains, h]

theorem hasKind_bare (v : View) {kind : String} (hb : Name.unmarked? kind = none) :
    v.hasKind kind = (v.lexicon.side v.scope).kinds.contains kind := by
  rw [View.hasKind, View.kind?, View.entry?_bare v hb]
  cases h : (v.lexicon.side v.scope).kinds.get? kind <;> simp [Table.contains, h]

theorem not_isEmpty_kinds_iff (v : View) :
    (!v.kinds.isEmpty) = true ↔ ∃ kind, (v.lexicon.side v.scope).kinds.contains kind = true := by
  rw [Bool.not_eq_true', List.isEmpty_eq_false_iff_exists_mem]
  exact exists_congr fun kind => Table.mem_keys_iff

theorem listed (r : Registry) : Listed r where
  all := by
    have h := r.lists_localesWhere fun _ => true
    simp only [and_true] at h
    exact h
  bare kind hb := by
    have h := r.lists_localesWhere fun d => (d.view .loose).hasKind kind
    refine ⟨h.1, fun locale => (h.2 locale).trans ?_⟩
    simp only [hasKind_bare _ hb]
    rfl
  marked kind := by
    have h := r.lists_localesWhere fun d => (d.view .loose).hasKind (Name.marked kind)
    refine ⟨h.1, fun locale => (h.2 locale).trans ?_⟩
    simp only [hasKind_marked]
    rfl
  strict := by
    have h := r.lists_localesWhere fun d => !(d.view .strict).kinds.isEmpty
    refine ⟨h.1, fun locale => (h.2 locale).trans ?_⟩
    simp only [not_isEmpty_kinds_iff, HasKind, ← exists_and_left]
    exact exists_comm
  strictKind kind hb := by
    refine congrArg r.localesWhere (funext fun d => ?_)
    show (d.view .strict).hasKind kind = (d.view .loose).hasKind (Name.marked kind)
    rw [hasKind_bare _ hb, hasKind_marked]
    rfl

/-! ### Support -/

theorem supports_iff : r.supports locale = true ↔ locale ≠ "" ∧ ∃ d, r.lexicon? locale = some d := by
  rw [supports, Bool.and_eq_true, bne_iff_ne, has, Table.contains_iff]
  rfl

theorem supportsStrict_iff :
    r.supportsStrict locale = true ↔ ∃ kind, r.HasKind locale .strict kind := by
  unfold supportsStrict HasKind
  cases h : r.lexicon? locale with
  | none => simp
  | some d =>
    rw [Option.map_some, Option.getD_some, not_isEmpty_kinds_iff]
    simp [Lexicon.view]

/-! ### Main statements -/

/-- **What a registry holds.** After any operations a locale has the lexicon that was installed for it
last, whose locale it is, and none if all that was installed for it has been removed. An operation
leaves the lexicons of other locales as they were; a rebuild that fails leaves all as it was, also
when it writes in place; and a rebuild without kinds removes. The lists of locales are in order and
have each locale whose lexicon has the kind that is asked for, or has strict kinds, or is there. -/
theorem run_kept (ops : List Operation) :
    (∀ locale,
      (∀ d, (run ops).lexicon? locale = some d ↔ LastInstalled ops locale d) ∧
      ((run ops).lexicon? locale = none ↔ Gone ops locale) ∧
      ∀ d, (run ops).lexicon? locale = some d → d.locale = locale) ∧
    (∀ op : Operation, ∀ locale ≠ op.locale,
      (run (ops ++ [op])).lexicon? locale = (run ops).lexicon? locale) ∧
    (∀ locale config,
      (∀ e, (run ops).rebuild locale config = .error e →
        run (ops ++ [.rebuild locale config]) = run ops) ∧
      (config.isEmpty = true → (run (ops ++ [.rebuild locale config])).lexicon? locale = none) ∧
      ∀ s : Session, s.registry = run ops →
        ((Update.rebuild locale config).run s).2.registry = run (ops ++ [.rebuild locale config]) ∧
        ∀ e, ((Update.rebuild locale config).run s).1 = .error e →
          ((Update.rebuild locale config).run s).2 = s) ∧
    Listed (run ops) := by
  refine ⟨fun locale => ⟨fun d => lexicon?_run_eq_some_iff ops, lexicon?_run_eq_none_iff ops, ?_⟩,
    fun op locale hne => ?_, fun locale config => ⟨fun e he => ?_, fun he => ?_, fun s hs => ?_⟩,
    listed (run ops)⟩
  · intro d hd
    obtain ⟨_, op, _, _, hinstalls, _⟩ := (lexicon?_run_eq_some_iff ops).mp hd
    exact hinstalls.locale_eq.2
  · rw [run_concat]
    exact lexicon?_after_of_spares (Operation.spares_of_ne hne)
  · rw [run_concat, after, he]
  · rw [run_concat]
    exact lexicon?_after_of_removes (.rebuild he)
  · rw [run_concat, ← hs]
    exact run_rebuild s locale config

/-- A lexicon is built, another one is installed, and a rebuild of the first one fails. -/
def sampleOps : List Operation :=
  [.rebuild "en" Lexicon.sampleConfig, .addEmpty "de", .rebuild "en" Inflector.sampleBroken]

theorem run_sample :
    LastInstalled sampleOps "en" Lexicon.sampleStart ∧ Lexicon.sampleStart.locale = "en" ∧
      ("en" ≠ (Operation.delete "de").locale ∧
        (run (sampleOps ++ [.delete "de"])).lexicon? "en" = (run sampleOps).lexicon? "en") ∧
      (∃ e, (run sampleOps).rebuild "en" Inflector.sampleBroken = .error e ∧
        run (sampleOps ++ [.rebuild "en" Inflector.sampleBroken]) = run sampleOps ∧
        ((Update.rebuild "en" Inflector.sampleBroken).run ⟨.empty {}, run sampleOps⟩).2 =
          ⟨.empty {}, run sampleOps⟩) ∧
      (Config.empty.isEmpty = true ∧
        (run (sampleOps ++ [.rebuild "en" .empty])).lexicon? "en" = none) ∧
      (run sampleOps).strictInflectedLocales (some "tense") =
        (run sampleOps).inflectedLocales (some "@tense") ∧
      (run sampleOps).inflectedLocales none = ["de", "en"] := by
  obtain ⟨hholds, hothers, hrebuild, hlisted⟩ := run_kept sampleOps
  have hd : (run sampleOps).lexicon? "en" = some Lexicon.sampleStart := by decide +kernel
  obtain ⟨hlast, -, hlocale⟩ := hholds "en"
  obtain ⟨hfailed, -, hplace⟩ := hrebuild "en" Inflector.sampleBroken
  obtain ⟨e, he⟩ : ∃ e, (run sampleOps).rebuild "en" Inflector.sampleBroken = .error e := by
    have hfails : ((run sampleOps).rebuild "en" Inflector.sampleBroken).toOption.isNone = true := by
      decide +kernel
    cases h : (run sampleOps).rebuild "en" Inflector.sampleBroken with
    | error e => exact ⟨e, rfl⟩
    | ok result =>
      rw [h] at hfails
      cases hfails
  have hstays := (hplace ⟨.empty {}, run sampleOps⟩ rfl).2 e
  have herror : ((Update.rebuild "en" Inflector.sampleBroken).run ⟨.empty {}, run sampleOps⟩).1 =
      .error e := by
    rw [(Update.actsAs_rebuild "en" Inflector.sampleBroken).fst_eq_error_iff]
    dsimp only
    rw [he]
    rfl
  exact ⟨(hlast _).mp hd, hlocale _ hd, ⟨by decide, hothers (.delete "de") "en" (by decide)⟩,
    ⟨e, he, hfailed e he, hstays herror⟩, ⟨rfl, (hrebuild "en" .empty).2.1 rfl⟩,
    hlisted.strictKind "tense" (by decide), by decide +kernel⟩

/-- **Support.** After any operations a locale with a name is supported if it has strict kinds, and
the empty name is not supported. The strict question does not ask for a name: it is answered with
yes where the general one is answered with no just when a lexicon with strict kinds is the last one
installed under the empty name. -/
theorem support_kept (ops : List Operation) :
    (∀ locale ≠ "", (run ops).supportsStrict locale = true → (run ops).supports locale = true) ∧
    (run ops).supports "" = false ∧
    ∀ locale, (run ops).supportsStrict locale = true ∧ (run ops).supports locale = false ↔
      locale = "" ∧ ∃ d, LastInstalled ops "" d ∧ ∃ kind, d.strict.kinds.contains kind = true := by
  have hnamed : ∀ locale ≠ "", (run ops).supportsStrict locale = true →
      (run ops).supports locale = true := by
    intro locale hne hstrict
    obtain ⟨kind, d, hd, -⟩ := supportsStrict_iff.mp hstrict
    exact supports_iff.mpr ⟨hne, d, hd⟩
  refine ⟨hnamed, rfl, fun locale => ?_⟩
  simp only [← lexicon?_run_eq_some_iff]
  constructor
  · rintro ⟨hstrict, hnot⟩
    have hempty : locale = "" := by
      by_contra hne
      rw [hnamed locale hne hstrict] at hnot
      cases hnot
    obtain ⟨kind, d, hd, hkind⟩ := supportsStrict_iff.mp hstrict
    exact ⟨hempty, d, hempty ▸ hd, kind, hkind⟩
  · rintro ⟨rfl, d, hd, kind, hkind⟩
    exact ⟨supportsStrict_iff.mpr ⟨kind, d, hd, hkind⟩, rfl⟩

theorem support_sample :
    ("en" ≠ "" ∧ (run sampleOps).supportsStrict "en" = true ∧ (run sampleOps).supports "en" = true) ∧
      (run sampleOps).supports "" = false := by
  obtain ⟨hnamed, hnameless, -⟩ := support_kept sampleOps
  have hstrict : (run sampleOps).supportsStrict "en" = true := by decide +kernel
  exact ⟨⟨by decide, hstrict, hnamed "en" (by decide) hstrict⟩, hnameless⟩

/-- A lexicon with a strict kind under the empty name. -/
def sampleNameless : List Operation :=
  [.rebuild "" ⟨.ofList [("@person", .tokens (.ofList [("s", some "sir")]))]⟩]

/-- The empty name has strict support, but no support. -/
theorem strict_support_without_name :
    (run sampleNameless).supportsStrict "" = true ∧ (run sampleNameless).supports "" = false ∧
      ¬∀ locale, (run sampleNameless).supportsStrict locale = true →
        (run sampleNameless).supports locale = true := by
  have hstrict : (run sampleNameless).supportsStrict "" = true := by decide +kernel
  have hnot : (run sampleNameless).supports "" = false := rfl
  refine ⟨hstrict, hnot, fun h => ?_⟩
  rw [h "" hstrict] at hnot
  cases hnot

end Registry
end Concord

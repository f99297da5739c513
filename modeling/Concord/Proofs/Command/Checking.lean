/-
# What checking files tells

Checking reports about each file by itself, and a report has an error just when the
file could not be loaded, whatever the locale. The two go different ways: a check
builds the lexicon and looks at it; a load replaces a configuration, and does not
build anything if there are no kinds. Both succeed for the files whose configuration
makes sense. Then the report sums up what the file says: its kinds, the loose ones
before the strict ones, in the order of their names, each with the numbers of its
plain and of its `@` entries and the token that its default reaches.

What is written is a text in JSON and a line feed. The text spells one value, an
array of objects that show the reports.

Key definitions: `Command.KindSummary.SumsUp`, `Command.Report.Describes`,
`Command.Report.Accounts`, `Command.Report.Shown`.
Key theorems: `Lexicon.ofFile_isOk_iff`, `Session.load_eq_error_iff`,
`Command.sumsUp_of_holds`, `Command.describes_of_ofConfig`, `Command.Report.shown_toJson`,
`Command.check_reports`.
-/
import Mathlib.Data.List.Forall2
import Concord.Command
import Concord.Proofs.Json.Spelling
import Concord.Proofs.Lexicon.Configured

namespace Concord

/-! ### Files that can be loaded -/

namespace Lexicon

/-- Without kinds there is nothing that makes no sense. -/
theorem exists_ofConfig_of_isEmpty (locale : String) {config : Config} (h : config.isEmpty = true) :
    ∃ d, ofConfig locale config = .ok d := by
  have hentries : config.kinds.entries = [] := List.isEmpty_iff.mp h
  refine ⟨.empty locale, ?_⟩
  unfold ofConfig
  rw [hentries]
  rfl

theorem ofFile_eq_ok_iff {files : Files} {path locale : String} {d : Lexicon} :
    ofFile files path locale = .ok d ↔
      ∃ config, Config.ofFile files path = .ok config ∧ ofConfig locale config = .ok d := by
  unfold ofFile
  cases Config.ofFile files path with
  | error e => simp
  | ok config => cases hd : ofConfig locale config <;> simp [Except.mapError, hd]

/-- A file has a lexicon if its configuration makes sense, in whatever locale. -/
theorem ofFile_isOk_iff {files : Files} {path locale : String} :
    (∃ d, ofFile files path locale = .ok d) ↔
      ∃ config, Config.ofFile files path = .ok config ∧ config.Valid := by
  have hvalid : ∀ config : Config, config.Valid ↔ ∃ d, ofConfig locale config = .ok d :=
    fun _ => ofConfig_isOk_iff.symm
  simp only [ofFile_eq_ok_iff, hvalid]
  exact ⟨fun ⟨d, config, hc, hd⟩ => ⟨config, hc, d, hd⟩,
    fun ⟨config, hc, d, hd⟩ => ⟨d, config, hc, hd⟩⟩

/-- The kinds of the lexicon are those of the configuration's keys. -/
theorem contains_kinds_iff {locale : String} {config : Config} {d : Lexicon}
    (hd : ofConfig locale config = .ok d) {scope : Scope} {name : String} :
    (d.side scope).kinds.contains name = true ↔
      ∃ key, config.kinds.contains key = true ∧ Scope.split key = (scope, name) := by
  rw [(tells_of_run? (ofConfig_eq_ok_iff.mp hd).2).kinds,
    mentions_changesOf_iff (ofConfig_isOk_iff.mp ⟨d, hd⟩)]

end Lexicon

namespace Session

variable {s : Session} {locale : String}

/-- A configuration without kinds is not built, but it could be. -/
theorem replace_eq_error_iff {config : Config} {e : ConfigError} :
    s.replace locale config = .error e ↔ Lexicon.ofConfig locale config = .error e := by
  unfold replace Registry.rebuild
  cases hempty : config.isEmpty with
  | true =>
    obtain ⟨d, hd⟩ := Lexicon.exists_ofConfig_of_isEmpty locale hempty
    rw [hd]
    exact iff_of_false nofun nofun
  | false => cases Lexicon.ofConfig locale config <;> simp [Except.map]

/-- A file that cannot be loaded has no lexicon, for the same reason. -/
theorem load_eq_error_iff {contents : Files} {path : String} {e : LoadError} :
    s.load contents locale path = .error e ↔
      Lexicon.ofFile contents path locale = .error e := by
  unfold load Lexicon.ofFile
  cases Config.ofFile contents path with
  | error e => simp
  | ok config =>
    dsimp only
    cases hr : s.replace locale config with
    | error e' =>
      rw [replace_eq_error_iff.mp hr]
      simp [Except.mapError]
    | ok r =>
      cases hd : Lexicon.ofConfig locale config with
      | error e' =>
        rw [replace_eq_error_iff.mpr hd] at hr
        cases hr
      | ok d => exact iff_of_false nofun nofun

end Session

/-! ### Summaries -/

/-- A table that holds, under the same keys, what some of the entries of another one say has as many
entries as these. -/
theorem Table.size_eq_length_filter {α β : Type} {t : Table α} {u : Table β} {f : α → β}
    {p : String × β → Bool}
    (h : ∀ name value, (∃ a, t.get? name = some a ∧ f a = value) ↔
      u.get? name = some value ∧ p (name, value) = true) :
    t.size = (u.entries.filter p).length := by
  have hentries : (t.entries.map fun e => (e.1, f e.2)) = u.entries.filter p := by
    refine entries_eq_of_mem (t.ordered.map _ fun _ _ hlt => hlt) (u.ordered.filter _) fun e => ?_
    obtain ⟨name, value⟩ := e
    rw [List.mem_filter, mem_entries_iff, ← h, List.mem_map]
    constructor
    · rintro ⟨⟨name', a⟩, ha, e⟩
      cases e
      exact ⟨a, mem_entries_iff.mp ha, rfl⟩
    · rintro ⟨a, ha, rfl⟩
      exact ⟨(name, a), mem_entries_iff.mpr ha, rfl⟩
  rw [← hentries, List.length_map]
  rfl

namespace Command

/-- How many names of a token table, but for the default, have a value that is, or is not, that of
an alias: one that starts with `@`. -/
def countNames (table : Table (Option String)) (aliases : Bool) : Nat :=
  (table.entries.filter fun e =>
    e.1 != Name.defaultWord && Lexicon.isAliasValue e.2 == aliases).length

/-- A summary says of a token table how many plain and how many `@` entries it has, and which true
token its default reaches, if any. -/
structure KindSummary.SumsUp (s : KindSummary) (table : Table (Option String)) : Prop where
  tokens : s.tokens = countNames table false
  aliases : s.aliases = countNames table true
  standard : ∀ token, s.standard = some token ↔ ∃ text,
    table.get? Name.defaultWord = some (some text) ∧ Reaches table (Name.stripped text) token

/-- The summary of a kind. -/
def summaryOf (scope : Scope) (name : String) (k : Kind) : KindSummary :=
  ⟨scope, name, k.tokens.size, k.aliases.size, k.standard⟩

/-- A kind that holds what a table says is summed up as the table. -/
theorem sumsUp_of_holds {k : Kind} {table : Table (Option String)} (h : k.Holds table)
    (hvalues : ∀ name value, table.get? name = some value → name ≠ Name.defaultWord →
      ∃ text, value = some text) (scope : Scope) (name : String) :
    (summaryOf scope name k).SumsUp table where
  tokens := by
    refine Table.size_eq_length_filter (f := some) fun name value => ?_
    rw [Bool.and_eq_true, bne_iff_ne, beq_iff_eq, ← Bool.not_eq_true, Lexicon.isAliasValue_iff]
    constructor
    · rintro ⟨text, ht, rfl⟩
      obtain ⟨hne, hvalue, hmark⟩ := (h.tokens name text).mp ht
      exact ⟨hvalue, hne, fun ⟨rest, e⟩ => hmark rest (Option.some.inj e)⟩
    · rintro ⟨hvalue, hne, hmark⟩
      obtain ⟨text, rfl⟩ := hvalues name value hvalue hne
      have hplain : ∀ rest, text ≠ Name.marked rest := fun rest e => hmark ⟨rest, congrArg _ e⟩
      exact ⟨text, (h.tokens name text).mpr ⟨hne, hvalue, hplain⟩, rfl⟩
  aliases := by
    refine Table.size_eq_length_filter (f := some ∘ Name.marked) fun name value => ?_
    rw [Bool.and_eq_true, bne_iff_ne, beq_iff_eq, Lexicon.isAliasValue_iff]
    constructor
    · rintro ⟨target, ht, rfl⟩
      obtain ⟨hne, hvalue⟩ := (h.aliases name target).mp ht
      exact ⟨hvalue, hne, target, rfl⟩
    · rintro ⟨hvalue, hne, target, rfl⟩
      exact ⟨target, (h.aliases name target).mpr ⟨hne, hvalue⟩, rfl⟩
  standard := h.standard

theorem mem_summarize_iff {d : Lexicon} {s : KindSummary} :
    s ∈ summarize d ↔ ∃ k, (d.side s.scope).kinds.get? s.kind = some k ∧
      s = summaryOf s.scope s.kind k := by
  have hscope : ∀ scope, s ∈ summarizeScope d scope ↔ s.scope = scope ∧
      ∃ k, (d.side scope).kinds.get? s.kind = some k ∧ s = summaryOf scope s.kind k := by
    intro scope
    unfold summarizeScope
    rw [List.mem_map]
    constructor
    · rintro ⟨⟨name, k⟩, hmem, rfl⟩
      exact ⟨rfl, k, Table.mem_entries_iff.mp hmem, rfl⟩
    · rintro ⟨-, k, hk, he⟩
      exact ⟨(s.kind, k), Table.mem_entries_iff.mpr hk, he.symm⟩
  unfold summarize
  rw [List.mem_append, hscope, hscope]
  cases hs : s.scope <;> simp

/-- One summary stands before another: loose kinds before strict ones, and in the order of names. -/
def KindSummary.Before (s s' : KindSummary) : Prop :=
  s.scope = .loose ∧ s'.scope = .strict ∨ s.scope = s'.scope ∧ s.kind < s'.kind

theorem summarize_ordered (d : Lexicon) : (summarize d).Pairwise KindSummary.Before := by
  have hscope : ∀ scope, (summarizeScope d scope).Pairwise KindSummary.Before := fun scope =>
    (d.side scope).kinds.ordered.map _ fun _ _ hlt => .inr ⟨rfl, hlt⟩
  have hmem : ∀ {scope s}, s ∈ summarizeScope d scope → s.scope = scope := by
    intro scope s hs
    obtain ⟨e, -, rfl⟩ := List.mem_map.mp hs
    rfl
  exact List.pairwise_append.mpr ⟨hscope .loose, hscope .strict,
    fun s hs s' hs' => .inl ⟨hmem hs, hmem hs'⟩⟩

/-! ### Reports -/

/-- A report says what a configuration holds: it lists each kind once, in order, and sums up its
table. -/
structure Report.Describes (r : Report) (config : Config) : Prop where
  ordered : r.kinds.Pairwise KindSummary.Before
  listed : ∀ key, config.kinds.contains key = true →
    ∃ s ∈ r.kinds, Scope.split key = (s.scope, s.kind)
  summed : ∀ s ∈ r.kinds, ∃ key table, Scope.split key = (s.scope, s.kind) ∧
    config.kinds.get? key = some (.tokens table) ∧ s.SumsUp table

/-- The lexicon of a configuration is summed up as the configuration. -/
theorem describes_of_ofConfig {locale : String} {config : Config} {d : Lexicon}
    (hd : Lexicon.ofConfig locale config = .ok d) (file : String) :
    Report.Describes ⟨file, locale, none, summarize d⟩ config := by
  have hv : config.Valid := Lexicon.ofConfig_isOk_iff.mp ⟨d, hd⟩
  refine ⟨summarize_ordered d, fun key hkey => ?_, fun s hs => ?_⟩
  · obtain ⟨entry, hentry⟩ := Table.contains_iff.mp hkey
    obtain ⟨table, rfl⟩ := hv.tables key entry hentry
    obtain ⟨k, hk, -⟩ := Lexicon.holds_of_ofConfig hd hentry
    exact ⟨summaryOf _ _ k, mem_summarize_iff.mpr ⟨k, hk, rfl⟩, rfl⟩
  · obtain ⟨k, hk, hsummary⟩ := mem_summarize_iff.mp hs
    obtain ⟨key, hkey, hsplit⟩ :=
      (Lexicon.contains_kinds_iff hd).mp (Table.contains_iff.mpr ⟨k, hk⟩)
    obtain ⟨entry, hentry⟩ := Table.contains_iff.mp hkey
    obtain ⟨table, rfl⟩ := hv.tables key entry hentry
    obtain ⟨k', hk', hholds⟩ := Lexicon.holds_of_ofConfig hd hentry
    rw [hsplit, hk] at hk'
    cases hk'
    refine ⟨key, table, hsplit, hentry, ?_⟩
    rw [hsummary]
    refine sumsUp_of_holds hholds (fun name value hvalue hne => ?_) _ _
    obtain ⟨-, text, htext, -⟩ := hv.names key table name value hentry hvalue hne
    exact ⟨text, htext⟩

/-- Files that are the same at a path, and read by the same readers. -/
structure SameAt (path : String) (contents others : Files) : Prop where
  content : others.content path = contents.content path
  toml : others.toml = contents.toml
  json : others.json = contents.json

/-- What a report is to say about a file. It depends on no other file. It has an error just when
loading the file into a new session fails, in the report's locale the same error, in any other locale
some error; and without an error it says what the file's configuration holds. -/
structure Report.Accounts (r : Report) (contents : Files) (file : String) : Prop where
  named : r.file = file
  located : r.locale = (Path.stem? file).getD ""
  alone : ∀ others, SameAt file contents others → report others file = r
  error : ∀ defaults e, r.error = some e ↔
    (Inflector.fresh defaults).session.load contents r.locale file = .error e
  locales : ∀ defaults locale, r.error ≠ none ↔
    ∃ e, (Inflector.fresh defaults).session.load contents locale file = .error e
  kinds : r.error = none →
    ∃ config, Config.ofFile contents file = .ok config ∧ r.Describes config
  noKinds : r.error ≠ none → r.kinds = []

/-- A report has the error of the lexicon in its locale. -/
theorem report_error_eq_some_iff {contents : Files} {file : String} {e : LoadError} :
    (report contents file).error = some e ↔
      Lexicon.ofFile contents file (report contents file).locale = .error e := by
  unfold report
  dsimp only
  cases hd : Lexicon.ofFile contents file (localeOf file) with
  | ok d => simp [hd]
  | error e' => simp [hd]

theorem report_congr {contents others : Files} {file : String} (h : SameAt file contents others) :
    report others file = report contents file := by
  obtain ⟨hcontent, htoml, hjson⟩ := h
  unfold report Lexicon.ofFile Config.ofFile Config.ofText Files.text
  rw [hcontent, htoml, hjson]

theorem accounts_report (contents : Files) (file : String) :
    (report contents file).Accounts contents file where
  named := by
    unfold report
    dsimp only
    split <;> rfl
  located := by
    unfold report
    dsimp only
    split <;> rfl
  alone _ h := report_congr h
  error defaults e := by rw [report_error_eq_some_iff, Session.load_eq_error_iff]
  locales defaults locale := by
    have hfails : ∀ {x : Except LoadError Lexicon}, (∃ e, x = .error e) ↔ ¬∃ d, x = .ok d := by
      intro x
      cases x <;> simp
    simp only [ne_eq, Option.eq_none_iff_forall_ne_some, not_forall, not_not,
      report_error_eq_some_iff, Session.load_eq_error_iff, hfails, Lexicon.ofFile_isOk_iff]
  kinds := by
    unfold report
    dsimp only
    cases hd : Lexicon.ofFile contents file (localeOf file) with
    | error e => exact fun h => nomatch h
    | ok d =>
      obtain ⟨config, hc, hbuilt⟩ := Lexicon.ofFile_eq_ok_iff.mp hd
      exact fun _ => ⟨config, hc, describes_of_ofConfig hbuilt file⟩
  noKinds := by
    unfold report
    dsimp only
    split
    · exact fun h => absurd rfl h
    · exact fun _ => rfl

/-! ### What is shown -/

/-- A value shows a summary: an object with the namespace, the kind, the two numbers, and the default
token, or null if there is none. -/
inductive KindSummary.Shown (s : KindSummary) : Json → Prop where
  | shown {scope : String} {standard : Json} :
      (s.scope = .loose ∧ scope = "loose" ∨ s.scope = .strict ∧ scope = "strict") →
      (s.standard = none ∧ standard = .null ∨
        ∃ token, s.standard = some token ∧ standard = .string token) →
      Shown s (.object [("scope", .string scope), ("kind", .string s.kind),
        ("tokens", .number (.integer s.tokens)), ("aliases", .number (.integer s.aliases)),
        ("default", standard)])

/-- A value shows a report: an object with the file, the locale, the text of the error, or null if
there is none, and the summaries of the kinds. -/
inductive Report.Shown (r : Report) : Json → Prop where
  | shown {error : Json} {kinds : List Json} :
      (r.error = none ∧ error = .null ∨ ∃ e, r.error = some e ∧ error = .string e.message) →
      List.Forall₂ KindSummary.Shown r.kinds kinds →
      Shown r (.object [("file", .string r.file), ("locale", .string r.locale), ("error", error),
        ("kinds", .array kinds)])

theorem KindSummary.shown_toJson (s : KindSummary) : s.Shown s.toJson := by
  refine .shown ?_ ?_
  · cases s.scope with
    | loose => exact .inl ⟨rfl, rfl⟩
    | strict => exact .inr ⟨rfl, rfl⟩
  · cases s.standard with
    | none => exact .inl ⟨rfl, rfl⟩
    | some token => exact .inr ⟨token, rfl, rfl⟩

theorem Report.shown_toJson (r : Report) : r.Shown r.toJson := by
  refine .shown ?_ ?_
  · cases r.error with
    | none => exact .inl ⟨rfl, rfl⟩
    | some e => exact .inr ⟨e, rfl, rfl⟩
  · rw [List.forall₂_map_right_iff, List.forall₂_same]
    exact fun s _ => s.shown_toJson

theorem isIntegral_ofOption (text : Option String) : (Json.ofOption text).IsIntegral := by
  cases text with
  | none => exact .null
  | some text => exact .string text

theorem KindSummary.isIntegral_toJson (s : KindSummary) : s.toJson.IsIntegral := by
  refine .object ?_
  simp only [List.forall_mem_cons, List.not_mem_nil, false_implies, implies_true, and_true]
  exact ⟨.string _, .string _, .integer _, .integer _, isIntegral_ofOption _⟩

theorem Report.isIntegral_toJson (r : Report) : r.toJson.IsIntegral := by
  refine .object ?_
  simp only [List.forall_mem_cons, List.not_mem_nil, false_implies, implies_true, and_true]
  exact ⟨.string _, .string _, isIntegral_ofOption _,
    .array (List.forall_mem_map.mpr fun s _ => s.isIntegral_toJson)⟩

/-! ### Main statement -/

/-- A line as text. -/
theorem unlines_singleton (line : String) : unlines [line] = String.ofList (line.toList ++ ['\n']) := by
  simp [unlines, String.join_cons]

/-- The code tells whether a report has an error. -/
theorem exit_eq (contents : Files) (files : List String) (json : Bool) :
    (run contents (.check files json)).exit =
      if ∀ r ∈ files.map (report contents), r.error = none then 0 else 65 := by
  have hexit : (run contents (.check files json)).exit =
      if ((files.map (report contents)).filterMap fun r =>
        r.error.map (diagnose contents r.file)).isEmpty then 0 else 65 := by
    cases json <;> rfl
  have hempty : ((files.map (report contents)).filterMap fun r =>
        r.error.map (diagnose contents r.file)).isEmpty = true ↔
      ∀ r ∈ files.map (report contents), r.error = none := by
    rw [List.isEmpty_iff, List.filterMap_eq_nil_iff]
    simp only [Option.map_eq_none_iff]
  rw [hexit]
  simp only [hempty]

/-- **A check reports what loading would do.** For any files with any contents, a check writes one
value as JSON and a line feed. The value is an array that shows one report for each file, in the order
of the files. Each report is made from its own file alone, has an error just when the file could not be
loaded into a new session, and otherwise sums up what the file says. The check ends with 65 if a report
has an error, else with 0. -/
theorem check_reports (contents : Files) (files : List String) :
    ∃ (text : List Char) (rs : List Report) (values : List Json),
      (run contents (.check files true)).output = String.ofList (text ++ ['\n']) ∧
      (∀ value, Json.Spells text value ↔ value = .array values) ∧
      List.Forall₂ Report.Shown rs values ∧
      List.Forall₂ (fun file r => r = report contents file ∧ r.Accounts contents file) files rs ∧
      ((run contents (.check files true)).exit = 65 ↔ ∃ r ∈ rs, r.error ≠ none) ∧
      ((run contents (.check files true)).exit = 0 ↔ ∀ r ∈ rs, r.error = none) := by
  let rs := files.map (report contents)
  let value := Json.array (rs.map (·.toJson))
  have hspells : Json.Spells value.pretty.toList value :=
    Json.spells_pretty (.array (List.forall_mem_map.mpr fun r _ => r.isIntegral_toJson))
  refine ⟨value.pretty.toList, rs, rs.map (·.toJson), unlines_singleton _,
    fun other => ⟨fun h => h.unique hspells, fun h => h ▸ hspells⟩, ?_, ?_, ?_⟩
  · rw [List.forall₂_map_right_iff, List.forall₂_same]
    exact fun r _ => r.shown_toJson
  · rw [List.forall₂_map_right_iff, List.forall₂_same]
    exact fun file _ => ⟨rfl, accounts_report contents file⟩
  · have hfailed : (∃ r ∈ rs, r.error ≠ none) ↔ ¬∀ r ∈ rs, r.error = none := by simp
    rw [hfailed, exit_eq]
    split
    · next h => exact ⟨iff_of_false (by decide) (not_not.mpr h), iff_of_true rfl h⟩
    · next h => exact ⟨iff_of_true rfl h, iff_of_false (by decide) h⟩

end Command
end Concord

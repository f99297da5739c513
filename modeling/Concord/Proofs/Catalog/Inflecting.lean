/-
# What an inflector answers depends on configurations and defaults only

Whatever templates an inflector keeps, each is the template of its text, so that
it answers as its session does. With what a history leaves behind in a session
this gives the main statement: the parts of an inflector that started empty
belong together after every history, and two histories that end with the same
configuration of a locale and the same defaults are answered alike.

Key definitions: `Scans.Sound`, `Inflector.Follows`, `Inflector.ofHistory`.
Key theorems: `Inflector.follows_resolve`, `Inflector.sound_run`, `Inflector.history_kept`.
-/
import Concord.Inflector
import Concord.Proofs.Catalog.History
import Concord.Proofs.Resolution.Course

namespace Concord

namespace Scans

/-- Every template that is kept is that of its text, and there are no more than may be. -/
structure Sound (s : Scans) : Prop where
  scanned : ∀ text t, s.templates.get? text = some t → t = Template.scan text
  bounded : s.templates.size ≤ limit

theorem sound_empty : empty.Sound where
  scanned _ _ h := nomatch h
  bounded := Nat.zero_le limit

/-- The template of a text joins sound templates if there is room for it. -/
theorem Sound.insert {s : Scans} (h : s.Sound) (hroom : s.templates.size < limit) (text : String) :
    Sound ⟨s.templates.insert text (Template.scan text)⟩ where
  scanned other t ht := by
    rw [Table.get?_insert] at ht
    split at ht
    · next e =>
      cases ht
      rw [e]
    · exact h.scanned other t ht
  bounded := Nat.le_trans (Table.size_insert_le ..) hroom

/-- From sound templates a text gets its own, and they stay sound. -/
theorem Sound.template {s : Scans} (h : s.Sound) (text : String) :
    (s.template text).1 = Template.scan text ∧ (s.template text).2.Sound := by
  unfold Scans.template
  cases ht : s.templates.get? text with
  | some t => exact ⟨h.scanned text t ht, h⟩
  | none =>
    refine ⟨rfl, ?_⟩
    dsimp only
    split
    · next hroom => exact h.insert hroom text
    · exact sound_empty.insert (Nat.succ_pos 1023) text

end Scans

namespace Inflector

/-! ### Entries -/

variable {α β : Type}

/-- A computation that keeps templates follows one that does not: from sound templates it has the
same result, asks the same callables, and leaves sound templates behind. -/
def Follows (x : ScanningCalls α) (y : Calls α) : Prop :=
  ∀ scans : Scans, scans.Sound → ∀ asked, ∃ scans', scans'.Sound ∧
    x.run (scans, asked) = ((y.run asked).1, scans', (y.run asked).2)

theorem Follows.pure (a : α) : Follows (Pure.pure a) (Pure.pure a) :=
  fun scans h _ => ⟨scans, h, rfl⟩

theorem Follows.bind {x : ScanningCalls α} {y : Calls α} {f : α → ScanningCalls β}
    {g : α → Calls β} (hx : Follows x y) (hf : ∀ a, Follows (f a) (g a)) :
    Follows (x >>= f) (y >>= g) := by
  intro scans hs asked
  obtain ⟨scans', hs', e⟩ := hx scans hs asked
  rw [run_bind, run_bind, e]
  rcases y.run asked with ⟨e | a, asked'⟩
  · exact ⟨scans', hs', rfl⟩
  · exact hf a scans' hs' asked'

theorem follows_keptString (call : Call) (text : String) :
    Follows (call.keptString text) (call.string text) := by
  intro scans hs asked
  obtain ⟨ht, hs'⟩ := hs.template text
  refine ⟨_, hs', ?_⟩
  show (_, _, _) = _
  rw [ht]
  rfl

variable {options : Options} {string : String → ScanningCalls String}
  {string' : String → Calls String}

mutual

/-- Entries are resolved as without templates that are kept. -/
theorem follows_resolve (h : ∀ text, Follows (string text) (string' text)) :
    ∀ entry : Entry, Follows (entry.resolve options string) (entry.resolve options string')
  | .text content => (h content).bind fun _ => .pure _
  | .symbol name => by
    unfold Entry.resolve
    split
    · exact (h name).bind fun _ => .pure _
    · exact .pure _
  | .list items => by
    unfold Entry.resolve
    split
    · exact (follows_resolveItems h items).bind fun _ => .pure _
    · exact .pure _
  | .map fields => by
    unfold Entry.resolve
    split
    · exact (follows_resolveFields h fields).bind fun _ => .pure _
    · exact .pure _
  | .other data => .pure _

theorem follows_resolveItems (h : ∀ text, Follows (string text) (string' text)) :
    ∀ items : List Entry,
      Follows (Entry.resolveItems options string items) (Entry.resolveItems options string' items)
  | [] => .pure _
  | item :: rest =>
    (follows_resolve h item).bind fun _ => (follows_resolveItems h rest).bind fun _ => .pure _

theorem follows_resolveFields (h : ∀ text, Follows (string text) (string' text)) :
    ∀ fields : List (String × Entry),
      Follows (Entry.resolveFields options string fields)
        (Entry.resolveFields options string' fields)
  | [] => .pure _
  | (_, value) :: rest =>
    (follows_resolve h value).bind fun _ => (follows_resolveFields h rest).bind fun _ => .pure _

end

theorem follows_entry (call : Call) (entry : Entry) :
    Follows (entry.resolve call.options call.keptString) (call.entry entry) :=
  follows_resolve (follows_keptString call) entry

/-! ### Requests -/

/-- The inflector after a request. -/
def after (i : Inflector) : Session.Request → Inflector
  | .interpolate text locale args overrides => (i.interpolate text locale args overrides).2
  | .interpolateEntry entry locale args overrides =>
    (i.interpolateEntry entry locale args overrides).2
  | r => { i with session := i.session.after r }

/-- The inflector after a list of requests. -/
def run (i : Inflector) (rs : List Session.Request) : Inflector := rs.foldl after i

/-- The inflector that started without configurations, after a list of requests. -/
def ofHistory (defaults : Options) (rs : List Session.Request) : Inflector :=
  (fresh defaults).run rs

theorem interpolate_spec {i : Inflector} (h : i.scans.Sound) (text locale : String) (args : Args)
    (overrides : Overrides) :
    (i.interpolate text locale args overrides).1 =
        i.session.interpolate text locale args overrides ∧
      (i.interpolate text locale args overrides).2.scans.Sound := by
  obtain ⟨ht, hs⟩ := h.template text
  refine ⟨?_, hs⟩
  show Call.run ((i.session.call locale args overrides).template (i.scans.template text).1) = _
  rw [ht]
  rfl

theorem interpolateEntry_spec {i : Inflector} (h : i.scans.Sound) (entry : Entry) (locale : String)
    (args : Args) (overrides : Overrides) :
    (i.interpolateEntry entry locale args overrides).1 =
        i.session.interpolateEntry entry locale args overrides ∧
      (i.interpolateEntry entry locale args overrides).2.scans.Sound := by
  obtain ⟨scans, hs, e⟩ := follows_entry (i.session.call locale args overrides) entry i.scans h []
  unfold interpolateEntry
  dsimp only
  rw [e]
  exact ⟨rfl, hs⟩

/-- The templates that are kept do not show in what a request does to the session. -/
theorem session_after (i : Inflector) (r : Session.Request) :
    (i.after r).session = i.session.after r := by
  cases r <;> rfl

theorem sound_after {i : Inflector} (h : i.scans.Sound) (r : Session.Request) :
    (i.after r).scans.Sound := by
  cases r with
  | interpolate text locale args overrides => exact (interpolate_spec h ..).2
  | interpolateEntry entry locale args overrides => exact (interpolateEntry_spec h ..).2
  | store | replace | load | reload | remove | setDefaults | interpolateKeyed => exact h

theorem session_run (i : Inflector) (rs : List Session.Request) :
    (i.run rs).session = i.session.run rs := by
  induction rs generalizing i with
  | nil => rfl
  | cons r rest ih =>
    have hrest : (i.run (r :: rest)).session = (i.after r).session.run rest := ih (i.after r)
    rw [hrest, session_after]
    rfl

theorem sound_run {i : Inflector} (h : i.scans.Sound) (rs : List Session.Request) :
    (i.run rs).scans.Sound := by
  induction rs generalizing i with
  | nil => exact h
  | cons r rest ih => exact ih (sound_after h r)

/-! ### Main statement -/

section

variable (defaults : Options) (rs : List Session.Request)

theorem sound_ofHistory : (ofHistory defaults rs).scans.Sound := sound_run Scans.sound_empty rs

theorem matched_ofHistory (locale : String) :
    Session.Matched locale ((ofHistory defaults rs).config? locale)
      ((ofHistory defaults rs).lexicon? locale) := by
  unfold config? lexicon? ofHistory
  rw [session_run]
  exact (Session.coherent_fresh defaults).run rs locale

theorem path?_ofHistory_iff {locale path : String} :
    (ofHistory defaults rs).session.path? locale = some path ↔
      (Session.fresh defaults).LoadedFrom locale path rs := by
  unfold ofHistory
  rw [session_run]
  exact Session.path?_run_iff rfl rs

/-- A locale is loaded once more from the file that the history tells, if there is one. -/
theorem reload_ofHistory (files : Files) (locale : String) :
    (∀ path, (Session.fresh defaults).LoadedFrom locale path rs →
      (ofHistory defaults rs).session.reload files locale =
        (ofHistory defaults rs).session.load files locale path) ∧
    ((∀ path, ¬(Session.fresh defaults).LoadedFrom locale path rs) →
      (ofHistory defaults rs).session.reload files locale = .error (.noPath locale)) := by
  constructor
  · intro path h
    have hp : (ofHistory defaults rs).session.catalog.paths.get? locale = some path :=
      (path?_ofHistory_iff defaults rs).mpr h
    rw [Session.reload, hp]
  · intro h
    have hp : (ofHistory defaults rs).session.catalog.paths.get? locale = none :=
      Option.eq_none_iff_forall_ne_some.mpr fun path e =>
        h path ((path?_ofHistory_iff defaults rs).mp e)
    rw [Session.reload, hp]

/-- **A history shows only in the configurations and the defaults at its end.** A locale has a
lexicon if and only if it has a configuration, which has kinds and describes the lexicon. It is
loaded once more from the file of its last load that succeeded, if it was not removed since. After
two histories that end with the same configuration of a locale and the same defaults, everything
in the locale is resolved alike. -/
theorem history_kept :
    (∀ locale, (ofHistory defaults rs).lexicon? locale = none ↔
      (ofHistory defaults rs).config? locale = none) ∧
    (∀ locale config, (ofHistory defaults rs).config? locale = some config →
      config.isEmpty = false ∧ ∃ d, Lexicon.ofConfig locale config = .ok d ∧
        (ofHistory defaults rs).lexicon? locale = some d) ∧
    (∀ locale files,
      (∀ path, (Session.fresh defaults).LoadedFrom locale path rs →
        (ofHistory defaults rs).session.reload files locale =
          (ofHistory defaults rs).session.load files locale path) ∧
      ((∀ path, ¬(Session.fresh defaults).LoadedFrom locale path rs) →
        (ofHistory defaults rs).session.reload files locale = .error (.noPath locale))) ∧
    ∀ defaults' rs' locale,
      (ofHistory defaults rs).config? locale = (ofHistory defaults' rs').config? locale →
      (ofHistory defaults rs).defaults = (ofHistory defaults' rs').defaults →
      ∀ args overrides,
        (∀ text, ((ofHistory defaults rs).interpolate text locale args overrides).1 =
          ((ofHistory defaults' rs').interpolate text locale args overrides).1) ∧
        (∀ keyed, (ofHistory defaults rs).interpolateKeyed keyed locale args overrides =
          (ofHistory defaults' rs').interpolateKeyed keyed locale args overrides) ∧
        ∀ entry, ((ofHistory defaults rs).interpolateEntry entry locale args overrides).1 =
          ((ofHistory defaults' rs').interpolateEntry entry locale args overrides).1 := by
  refine ⟨fun locale => ?_, fun locale config hc => ?_, fun locale files => ?_, ?_⟩
  · exact (matched_ofHistory defaults rs locale).eq_none_iff
  · have h := matched_ofHistory defaults rs locale
    rw [hc] at h
    exact h.of_some
  · exact reload_ofHistory defaults rs files locale
  · intro defaults' rs' locale hc ho args overrides
    -- Only one lexicon goes with a configuration, so the calls after both histories are the same.
    have h := matched_ofHistory defaults rs locale
    rw [hc] at h
    have hd := h.unique (matched_ofHistory defaults' rs' locale)
    refine ⟨fun text => ?_, fun keyed => ?_, fun entry => ?_⟩
    · rw [(interpolate_spec (sound_ofHistory defaults rs) ..).1,
        (interpolate_spec (sound_ofHistory defaults' rs') ..).1]
      exact Session.interpolate_congr hd ho args overrides text
    · exact Session.interpolateKeyed_congr hd ho args overrides keyed
    · rw [(interpolateEntry_spec (sound_ofHistory defaults rs) ..).1,
        (interpolateEntry_spec (sound_ofHistory defaults' rs') ..).1]
      exact Session.interpolateEntry_congr hd ho args overrides entry

end

/-- A configuration of some tokens and two that are always there. -/
def sampleConfig (tokens : List (String × Option String)) : Config :=
  ⟨.ofList [("gender", .tokens (.ofList (tokens ++ [("f", some "female"), ("n", some "neuter"),
    ("default", some "n")])))]⟩

/-- A text that names a token which the smaller configuration lacks. -/
def sampleText : String := "Dear @\x7bf:Lady|o:Others|n:You|All\x7d!"

/-- The token that it names. -/
def sampleArgs : Args := .ofList [("gender", .token "o")]

/-- No file can be read. -/
def sampleFiles : Files := ⟨fun _ => .error "no such file", fun _ => ⟨"", "", none⟩, fun _ => ""⟩

/-- The token is stored and met; then a load fails, and the token is taken away. -/
def sampleHistory : List Session.Request :=
  [.store "en" (sampleConfig [("o", some "other")]), .interpolate sampleText "en" sampleArgs {},
    .load sampleFiles "en" "en.toml", .replace "en" (sampleConfig [])]

/-- What was known before does not show: the token is unknown, as if it had never been stored. -/
theorem history_sample :
    ((ofHistory {} sampleHistory).interpolate sampleText "en" sampleArgs {}).1 =
        ((ofHistory {} [.replace "en" (sampleConfig [])]).interpolate
          sampleText "en" sampleArgs {}).1 ∧
      ((ofHistory {} [.replace "en" (sampleConfig [])]).interpolate
        sampleText "en" sampleArgs {}).1.1.toOption = some "Dear You!" := by
  have hc : (ofHistory {} sampleHistory).config? "en" =
      (ofHistory {} [.replace "en" (sampleConfig [])]).config? "en" := rfl
  obtain ⟨-, -, -, h⟩ := history_kept {} sampleHistory
  exact ⟨(h {} _ "en" hc rfl sampleArgs {}).1 sampleText, by decide +kernel⟩

end Inflector
end Concord

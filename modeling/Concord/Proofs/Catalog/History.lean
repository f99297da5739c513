/-
# What a history leaves behind

A session that starts empty keeps its parts together, whatever it is asked for
and whether it succeeds: the lexicon of a locale is the one that the locale's
configuration describes, and without a configuration there is none. The file
that a locale is loaded from once more is that of its last load that succeeded,
unless the locale was removed after it. So what a session answers depends on its
history only through the configurations and the defaults at the end.

Key definitions: `Session.Request`, `Session.run`, `Session.Coherent`, `Session.LoadedFrom`.
Key theorems: `Session.turns_after`, `Session.Coherent.run`, `Session.path?_run_iff`.
-/
import Mathlib.Data.List.Induction
import Concord.Catalog
import Concord.Proofs.Lexicon.History

namespace Concord
namespace Session

/-! ### Histories -/

/-- What a session is asked for. A request that reads a file comes with the files as they are
then. -/
inductive Request where
  | store (locale : String) (config : Config)
  | replace (locale : String) (config : Config)
  | load (files : Files) (locale path : String)
  | reload (files : Files) (locale : String)
  | remove (locale : String)
  | setDefaults (defaults : Options)
  | interpolate (text locale : String) (args : Args) (overrides : Overrides)
  | interpolateKeyed (keyed : Keyed) (locale : String) (args : Args) (overrides : Overrides)
  | interpolateEntry (entry : Entry) (locale : String) (args : Args) (overrides : Overrides)

/-- The session that a result leaves behind: the one in the result, or the old one on an error. -/
def resume {ε α : Type} (s : Session) : Except ε (Session × α) → Session
  | .ok r => r.1
  | .error _ => s

/-- The session after a request. Resolving changes nothing. -/
def after (s : Session) : Request → Session
  | .store locale config => s.resume (s.store locale config)
  | .replace locale config => s.resume (s.replace locale config)
  | .load files locale path => s.resume (s.load files locale path)
  | .reload files locale => s.resume (s.reload files locale)
  | .remove locale => s.remove locale
  | .setDefaults defaults => s.setDefaults defaults
  | .interpolate .. | .interpolateKeyed .. | .interpolateEntry .. => s

/-- The session after a list of requests. -/
def run (s : Session) (rs : List Request) : Session := rs.foldl after s

@[simp] theorem run_nil (s : Session) : s.run [] = s := rfl

@[simp] theorem run_concat (s : Session) (rs : List Request) (r : Request) :
    s.run (rs ++ [r]) = (s.run rs).after r := by
  simp [run]

/-! ### Configurations and lexicons -/

/-- The lexicon that goes with a configuration: the one it describes, if there is one. What is kept
has kinds. -/
inductive Matched (locale : String) : Option Config → Option Lexicon → Prop where
  | absent : Matched locale none none
  | built {config : Config} {d : Lexicon} :
      config.isEmpty = false → Lexicon.ofConfig locale config = .ok d →
        Matched locale (some config) (some d)

theorem Matched.unique {locale : String} {c : Option Config} {d d' : Option Lexicon}
    (h : Matched locale c d) (h' : Matched locale c d') : d = d' := by
  cases h with
  | absent =>
    cases h'
    rfl
  | built hne hd =>
    obtain _ | ⟨-, hd'⟩ := h'
    exact congrArg some (Except.ok.inj (hd.symm.trans hd'))

theorem Matched.eq_none_iff {locale : String} {c : Option Config} {d : Option Lexicon}
    (h : Matched locale c d) : d = none ↔ c = none := by
  cases h with
  | absent => exact iff_of_true rfl rfl
  | built hne hd => exact iff_of_false (fun e => (nomatch e)) fun e => (nomatch e)

/-- A lexicon goes with a configuration if it is the one that the configuration describes. -/
theorem Matched.eq_some_iff {locale : String} {c : Option Config} {d : Option Lexicon}
    (h : Matched locale c d) {d' : Lexicon} :
    d = some d' ↔ ∃ config, c = some config ∧ config.isEmpty = false ∧
      Lexicon.ofConfig locale config = .ok d' := by
  constructor
  · rintro rfl
    cases h with
    | built hne hd => exact ⟨_, rfl, hne, hd⟩
  · rintro ⟨config, rfl, hne, hd⟩
    exact h.unique (.built hne hd)

theorem Matched.of_some {locale : String} {config : Config} {d : Option Lexicon}
    (h : Matched locale (some config) d) :
    config.isEmpty = false ∧ ∃ d', Lexicon.ofConfig locale config = .ok d' ∧ d = some d' := by
  obtain _ | ⟨hne, hd⟩ := h
  exact ⟨hne, _, hd, rfl⟩

/-- Every locale has the lexicon that goes with its configuration. -/
def Coherent (s : Session) : Prop :=
  ∀ locale, Matched locale (s.catalog.config? locale) (s.lexicon? locale)

/-- The session with a configuration and a lexicon for a locale, and all else of both as it was. -/
structure Sets (s : Session) (locale : String) (c : Option Config) (d : Option Lexicon)
    (s' : Session) : Prop where
  config : ∀ l, s'.catalog.config? l = if l = locale then c else s.catalog.config? l
  lexicon : ∀ l, s'.lexicon? l = if l = locale then d else s.lexicon? l

/-- What a request does to configurations and lexicons: it leaves all as they are, or it sets those
of one locale to what goes together. -/
inductive Turns (s s' : Session) : Prop where
  | stays : s'.catalog.configs = s.catalog.configs → s'.registry = s.registry → Turns s s'
  | sets {locale : String} {c : Option Config} {d : Option Lexicon} :
      Matched locale c d → Sets s locale c d s' → Turns s s'

/-- Replacing a configuration sets it and its lexicon; one without kinds takes both away. -/
theorem sets_replace {s s' : Session} {locale : String} {config : Config} {d : Option Lexicon}
    (h : s.replace locale config = .ok (s', d)) :
    Matched locale (if config.isEmpty then none else some config) d ∧
      Sets s locale (if config.isEmpty then none else some config) d s' ∧
      s'.catalog.paths = s.catalog.paths := by
  unfold replace Registry.rebuild Catalog.keep at h
  cases hc : config.isEmpty with
  | true =>
    rw [hc] at h
    cases h
    exact ⟨.absent, ⟨fun l => Table.get?_erase .., fun l => Table.get?_erase ..⟩, rfl⟩
  | false =>
    rw [hc] at h
    cases hd : Lexicon.ofConfig locale config with
    | error e =>
      rw [hd] at h
      cases h
    | ok d =>
      rw [hd] at h
      cases h
      -- The registry files the lexicon under its own locale, which is the one it was built for.
      have hlocale : d.locale = locale := (Lexicon.Reachable.config hd).locale_eq
      refine ⟨.built hc hd, ⟨fun l => Table.get?_insert .., fun l => ?_⟩, rfl⟩
      refine (Table.get?_insert _ d.locale l d).trans ?_
      rw [hlocale]
      rfl

theorem load_eq_ok_iff {files : Files} {s : Session} {locale path : String}
    {r : Session × Option Lexicon} :
    s.load files locale path = .ok r ↔
      ∃ config s' d, Config.ofFile files path = .ok config ∧
        s.replace locale config = .ok (s', d) ∧ r = (s'.record locale path, d) := by
  unfold load
  cases Config.ofFile files path with
  | error e => simp
  | ok config =>
    cases hr : s.replace locale config with
    | error e => simp [hr]
    | ok r' =>
      obtain ⟨s', d⟩ := r'
      simp [hr, eq_comm]

theorem turns_replace {s s' : Session} {locale : String} {config : Config} {d : Option Lexicon}
    (h : s.replace locale config = .ok (s', d)) : Turns s s' :=
  .sets (sets_replace h).1 (sets_replace h).2.1

theorem turns_load {files : Files} {s s' : Session} {locale path : String} {d : Option Lexicon}
    (h : s.load files locale path = .ok (s', d)) : Turns s s' := by
  obtain ⟨config, s₁, d₁, -, hr, e⟩ := load_eq_ok_iff.mp h
  cases e
  obtain ⟨hm, hs, -⟩ := sets_replace hr
  exact .sets hm ⟨hs.config, hs.lexicon⟩

/-- A result leaves the session as it was, or turns it as its success does. -/
theorem turns_resume {ε : Type} {s : Session} {x : Except ε (Session × Option Lexicon)}
    (h : ∀ s' d, x = .ok (s', d) → Turns s s') : Turns s (s.resume x) := by
  cases x with
  | error e => exact .stays rfl rfl
  | ok r => exact h r.1 r.2 rfl

/-- What a request does to configurations and lexicons, whether it succeeds or not. -/
theorem turns_after (s : Session) (r : Request) : Turns s (s.after r) := by
  cases r with
  | store locale config => exact turns_resume fun _ _ h => turns_replace h
  | replace locale config => exact turns_resume fun _ _ h => turns_replace h
  | load files locale path => exact turns_resume fun _ _ h => turns_load h
  | reload files locale =>
    refine turns_resume fun _ _ h => ?_
    unfold reload at h
    cases hp : s.catalog.paths.get? locale with
    | none =>
      rw [hp] at h
      cases h
    | some path =>
      rw [hp] at h
      exact turns_load h
  | remove locale =>
    exact .sets .absent ⟨fun l => Table.get?_erase .., fun l => Table.get?_erase ..⟩
  | setDefaults defaults => exact .stays rfl rfl
  | interpolate | interpolateKeyed | interpolateEntry => exact .stays rfl rfl

theorem Coherent.turns {s s' : Session} (h : s.Coherent) (ht : Turns s s') : s'.Coherent := by
  intro l
  cases ht with
  | stays hc hr =>
    rw [Catalog.config?, lexicon?, hc, hr]
    exact h l
  | @sets locale c d hm hs =>
    rw [hs.config, hs.lexicon]
    by_cases e : l = locale
    · rw [if_pos e, if_pos e, e]
      exact hm
    · rw [if_neg e, if_neg e]
      exact h l

theorem Coherent.run {s : Session} (h : s.Coherent) (rs : List Request) : (s.run rs).Coherent := by
  induction rs generalizing s with
  | nil => exact h
  | cons r rest ih => exact ih (h.turns (turns_after s r))

theorem coherent_fresh (defaults : Options) : (fresh defaults).Coherent := fun _ => .absent

/-! ### The file of a locale -/

/-- The file that is recorded for a locale. -/
def path? (s : Session) (locale : String) : Option String := s.catalog.paths.get? locale

/-- A load that succeeds. -/
def Loads (s : Session) (files : Files) (locale path : String) : Prop :=
  ∃ r, s.load files locale path = .ok r

/-- A request makes an earlier load of a locale no longer the last one: it removes the locale, or
it is a load of the locale that succeeds. -/
def Supersedes (s : Session) (locale : String) : Request → Prop
  | .remove other => other = locale
  | .load files other path => other = locale ∧ s.Loads files other path
  | _ => False

/-- None of the requests makes an earlier load of a locale no longer the last one. -/
def Keeps (s : Session) (locale : String) : List Request → Prop
  | [] => True
  | r :: rest => ¬s.Supersedes locale r ∧ (s.after r).Keeps locale rest

/-- The last load of a locale that succeeded in a history, with no removal of the locale after it,
was from this file. -/
def LoadedFrom (s : Session) (locale path : String) (rs : List Request) : Prop :=
  ∃ before files later, rs = before ++ .load files locale path :: later ∧
    (s.run before).Loads files locale path ∧
    ((s.run before).after (.load files locale path)).Keeps locale later

theorem keeps_concat_iff {s : Session} {locale : String} {rs : List Request} {r : Request} :
    s.Keeps locale (rs ++ [r]) ↔ s.Keeps locale rs ∧ ¬(s.run rs).Supersedes locale r := by
  induction rs generalizing s with
  | nil => simp [Keeps]
  | cons r' rest ih =>
    simp only [List.cons_append, Keeps, ih, and_assoc]
    rfl

theorem not_loadedFrom_nil {s : Session} {locale path : String} : ¬s.LoadedFrom locale path [] := by
  rintro ⟨before, files, later, e, -⟩
  simp at e

theorem loadedFrom_concat_iff {s : Session} {locale path : String} {rs : List Request}
    {r : Request} :
    s.LoadedFrom locale path (rs ++ [r]) ↔
      (∃ files, r = .load files locale path ∧ (s.run rs).Loads files locale path) ∨
        (s.LoadedFrom locale path rs ∧ ¬(s.run rs).Supersedes locale r) := by
  constructor
  · rintro ⟨before, files, later, e, hl, hk⟩
    -- The load is the last request, or there is one behind it.
    rcases eq_append_cons_concat_iff.mp e with ⟨rfl, rfl, rfl⟩ | ⟨later, rfl, rfl⟩
    · exact .inl ⟨files, rfl, hl⟩
    · obtain ⟨hlater, hs⟩ := keeps_concat_iff.mp hk
      refine .inr ⟨⟨before, files, later, rfl, hl, hlater⟩, ?_⟩
      rwa [run, List.foldl_append]
  · rintro (⟨files, rfl, hl⟩ | ⟨⟨before, files, later, rfl, hl, hk⟩, hs⟩)
    · exact ⟨rs, files, [], rfl, hl, trivial⟩
    · refine ⟨before, files, later ++ [r], by simp, hl, keeps_concat_iff.mpr ⟨hk, ?_⟩⟩
      rwa [run, List.foldl_append] at hs

/-- A load that succeeds records its file for its locale; other files stay as they are. -/
theorem path?_load {files : Files} {s : Session} {locale path l : String}
    {r : Session × Option Lexicon} (h : s.load files locale path = .ok r) :
    r.1.path? l = if l = locale then some path else s.path? l := by
  obtain ⟨config, s₁, d, -, hr, rfl⟩ := load_eq_ok_iff.mp h
  obtain ⟨-, -, hp⟩ := sets_replace hr
  refine (Table.get?_insert ..).trans ?_
  rw [hp]
  rfl

theorem path?_resume_replace {s : Session} {locale l : String} {config : Config} :
    (s.resume (s.replace locale config)).path? l = s.path? l := by
  cases h : s.replace locale config with
  | error e => rfl
  | ok r => exact congrArg (Table.get? · l) (sets_replace (d := r.2) h).2.2

/-- Only a removal of a locale and a load of it that succeeds change the file recorded for it. -/
theorem path?_after_of_not_supersedes {s : Session} {l : String} {r : Request}
    (h : ¬s.Supersedes l r) : (s.after r).path? l = s.path? l := by
  cases r with
  | store locale config => exact path?_resume_replace
  | replace locale config => exact path?_resume_replace
  | load files locale path =>
    show (s.resume (s.load files locale path)).path? l = _
    cases hl : s.load files locale path with
    | error e => rfl
    | ok r =>
      have hne : ¬l = locale := fun e => h ⟨e.symm, r, hl⟩
      exact (path?_load hl).trans (if_neg hne)
  | reload files locale =>
    show (s.resume (s.reload files locale)).path? l = _
    unfold reload
    cases hp : s.catalog.paths.get? locale with
    | none => rfl
    | some path =>
      dsimp only
      cases hl : s.load files locale path with
      | error e => rfl
      | ok r =>
        -- The file is the one that was recorded before.
        refine (path?_load hl).trans ?_
        by_cases e : l = locale
        · rw [if_pos e, e]
          exact hp.symm
        · exact if_neg e
  | remove locale =>
    have hne : ¬l = locale := fun e => h e.symm
    exact (Table.get?_erase ..).trans (if_neg hne)
  | setDefaults defaults => rfl
  | interpolate | interpolateKeyed | interpolateEntry => rfl

/-- After a request that supersedes earlier loads, the file recorded for the locale is that of the
request, if it is a load. -/
theorem path?_after_of_supersedes {s : Session} {l path : String} {r : Request}
    (h : s.Supersedes l r) :
    (s.after r).path? l = some path ↔ ∃ files, r = .load files l path ∧ s.Loads files l path := by
  cases r with
  | load files locale path' =>
    obtain ⟨rfl, r, hl⟩ := h
    have hp : (s.after (.load files locale path')).path? locale = some path' := by
      show (s.resume (s.load files locale path')).path? locale = _
      rw [hl]
      exact (path?_load hl).trans (if_pos rfl)
    rw [hp]
    constructor
    · intro e
      cases e
      exact ⟨files, rfl, r, hl⟩
    · rintro ⟨files', e, -⟩
      cases e
      rfl
  | remove locale =>
    have hp : (s.after (.remove locale)).path? l = none :=
      (Table.get?_erase ..).trans (if_pos h.symm)
    rw [hp]
    exact iff_of_false (fun e => (nomatch e)) fun ⟨_, e, _⟩ => (nomatch e)
  | store | replace | reload | setDefaults | interpolate | interpolateKeyed | interpolateEntry =>
    exact h.elim

/-- The file recorded for a locale is that of its last load, as the history tells it. -/
theorem path?_run_iff {s : Session} {locale path : String} (h : s.path? locale = none)
    (rs : List Request) :
    (s.run rs).path? locale = some path ↔ s.LoadedFrom locale path rs := by
  induction rs using List.reverseRecOn with
  | nil => exact iff_of_false (by simp [h]) not_loadedFrom_nil
  | append_singleton rs r ih =>
    rw [run_concat, loadedFrom_concat_iff, ← ih]
    by_cases hs : (s.run rs).Supersedes locale r
    · rw [path?_after_of_supersedes hs, or_iff_left fun h => h.2 hs]
    · rw [path?_after_of_not_supersedes hs, and_iff_left hs, or_iff_right]
      rintro ⟨files, rfl, hl⟩
      exact hs ⟨rfl, hl⟩

/-! ### Answers -/

section

variable {s s' : Session} {locale : String} (hd : s.lexicon? locale = s'.lexicon? locale)
  (ho : s.catalog.defaults = s'.catalog.defaults) (args : Args) (overrides : Overrides)

include hd ho

/-- Sessions with the same lexicon of a locale and the same defaults make the same calls there. -/
theorem call_congr : s.call locale args overrides = s'.call locale args overrides := by
  unfold call
  rw [hd, ho]

theorem interpolate_congr (text : String) :
    s.interpolate text locale args overrides = s'.interpolate text locale args overrides := by
  unfold interpolate
  rw [call_congr hd ho]

theorem interpolateKeyed_congr (keyed : Keyed) :
    s.interpolateKeyed keyed locale args overrides =
      s'.interpolateKeyed keyed locale args overrides := by
  unfold interpolateKeyed
  rw [call_congr hd ho]

theorem interpolateEntry_congr (entry : Entry) :
    s.interpolateEntry entry locale args overrides =
      s'.interpolateEntry entry locale args overrides := by
  unfold interpolateEntry
  rw [call_congr hd ho]

end

end Session
end Concord

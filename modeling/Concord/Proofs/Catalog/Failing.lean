/-
# What fails leaves no trace

An update works in place, and nothing takes back what it has written. Still it acts
as an operation that has a new session for its result, or an error and none: its
steps come in such an order that nothing can fail once something has been written.
So a request that fails leaves everything as it was, and every later request is
answered, and does, what it would have without it. From a whole history all that
fails may be left out.

Key definitions: `Update.ActsAs`, `Session.Fails`, `Inflector.serve`,
`Inflector.serveAll`, `Inflector.succeeding`.
Key theorems: `Update.ActsAs.writing`, `Update.actsAs_load`, `Inflector.fails_iff`,
`Inflector.serve_of_failed`, `Inflector.serveAll_succeeding`,
`Inflector.failed_unseen`.
-/
import Concord.Catalog.Update
import Concord.Proofs.Catalog.Inflecting
import Concord.Proofs.Command.Checking

namespace Concord

/-! ### Updates -/

namespace Update

variable {ε ε' α β : Type}

/-- An update in place acts as an operation that has a new session in its result: it comes to the
same, and leaves the new session behind or, if it fails, the one that it started from. -/
def ActsAs (u : Update ε α) (f : Session → Except ε (Session × α)) : Prop :=
  ∀ s, u.run s = ((f s).map (·.2), s.resume (f s))

namespace ActsAs

variable {u : Update ε α} {f : Session → Except ε (Session × α)}

/-- What fails has written nothing. -/
theorem unwritten (h : u.ActsAs f) {s : Session} {e : ε} (he : (u.run s).1 = .error e) :
    (u.run s).2 = s := by
  rw [h s] at he ⊢
  cases hf : f s with
  | error e' => rfl
  | ok r =>
    rw [hf] at he
    cases he

theorem fst_eq_error_iff (h : u.ActsAs f) {s : Session} {e : ε} :
    (u.run s).1 = .error e ↔ f s = .error e := by
  rw [h s]
  cases f s <;> simp [Except.map]

theorem congr {g : Session → Except ε (Session × α)} (h : u.ActsAs f) (hfg : ∀ s, f s = g s) :
    u.ActsAs g := fun s => hfg s ▸ h s

/-- After all that can fail, something may be written. -/
theorem writing (h : u.ActsAs f) (w : Session → Session) :
    ActsAs (do let a ← u; modify w; return a : Update ε α) fun s =>
      (f s).map fun r => (w r.1, r.2) := by
  intro s
  rw [run_bind, h s]
  dsimp only
  cases f s <;> rfl

/-- Before anything is written, something may fail. -/
theorem reading (x : Except ε β) {v : β → Update ε α} {g : β → Session → Except ε (Session × α)}
    (h : ∀ b, (v b).ActsAs (g b)) :
    ActsAs (do let b ← x; v b : Update ε α) fun s => x.bind fun b => g b s := by
  intro s
  rw [run_bind]
  cases x with
  | error e => rfl
  | ok b => exact h b s

/-- An error may be given another name. -/
theorem adapt (h : u.ActsAs f) (name : ε → ε') :
    ActsAs (ExceptT.adapt name u) fun s => (f s).mapError name := by
  intro s
  have hrun : (ExceptT.adapt name u).run s = ((u.run s).1.mapError name, (u.run s).2) := rfl
  rw [hrun, h s]
  dsimp only
  cases f s <;> rfl

end ActsAs

theorem actsAs_rebuild (locale : String) (config : Config) :
    ActsAs (rebuild locale config) fun s =>
      (s.registry.rebuild locale config).map fun r => ({ s with registry := r.1 }, r.2) := by
  unfold rebuild Registry.rebuild
  split
  · exact fun _ => rfl
  · have hbuilt : ∀ d, ActsAs (do writeRegistry (·.add d); return some d : Update ConfigError _)
        fun s => .ok ({ s with registry := s.registry.add d }, some d) := fun _ _ => rfl
    refine (ActsAs.reading _ hbuilt).congr fun s => ?_
    cases Lexicon.ofConfig locale config <;> rfl

theorem actsAs_replace (locale : String) (config : Config) :
    ActsAs (replace locale config) (·.replace locale config) := by
  refine ((actsAs_rebuild locale config).writing _).congr fun s => ?_
  unfold Session.replace
  cases s.registry.rebuild locale config <;> rfl

theorem actsAs_store (locale : String) (config : Config) :
    ActsAs (store locale config) (·.store locale config) := by
  intro s
  unfold store Session.store
  rw [run_bind, run_get]
  exact actsAs_replace locale _ s

theorem actsAs_load (files : Files) (locale path : String) :
    ActsAs (load files locale path) (·.load files locale path) := by
  refine (ActsAs.reading (Config.ofFile files path) fun config =>
    ((actsAs_replace locale config).adapt LoadError.config).writing _).congr fun s => ?_
  unfold Session.load
  cases Config.ofFile files path with
  | error e => rfl
  | ok config =>
    dsimp only [Except.bind]
    cases s.replace locale config <;> rfl

theorem actsAs_reload (files : Files) (locale : String) :
    ActsAs (reload files locale) (·.reload files locale) := by
  intro s
  unfold reload Session.reload
  rw [run_bind, run_get]
  dsimp only
  cases s.catalog.paths.get? locale with
  | none => rfl
  | some path => exact actsAs_load files locale path s

end Update

/-! ### Failures -/

theorem mapError_eq_error_iff {ε ε' α : Type} {x : Except ε α} {name : ε → ε'} {e : ε'} :
    x.mapError name = .error e ↔ ∃ e', x = .error e' ∧ name e' = e := by
  cases x <;> simp [Except.mapError]

namespace Session

/-- What keeps a request from building the lexicon of a locale. -/
inductive Fails (s : Session) : Request → LoadError → Prop where
  /-- The configuration, merged into the one that is kept, makes no sense. -/
  | store {locale : String} {config : Config} {e : ConfigError} :
      Lexicon.ofConfig locale (((s.catalog.config? locale).getD .empty).merge config) = .error e →
      Fails s (.store locale config) (.config e)
  | replace {locale : String} {config : Config} {e : ConfigError} :
      Lexicon.ofConfig locale config = .error e → Fails s (.replace locale config) (.config e)
  /-- The file cannot be read, its text cannot be decoded, or its configuration makes no sense. -/
  | load {files : Files} {locale path : String} {e : LoadError} :
      Lexicon.ofFile files path locale = .error e → Fails s (.load files locale path) e
  | noPath {files : Files} {locale : String} :
      s.path? locale = none → Fails s (.reload files locale) (.noPath locale)
  | reload {files : Files} {locale path : String} {e : LoadError} :
      s.path? locale = some path → Lexicon.ofFile files path locale = .error e →
      Fails s (.reload files locale) e

variable {s : Session} {locale : String} {e : LoadError}

theorem fails_store_iff {config : Config} :
    (s.store locale config).mapError .config = .error e ↔ s.Fails (.store locale config) e := by
  rw [mapError_eq_error_iff]
  constructor
  · rintro ⟨e', hc, rfl⟩
    exact .store (replace_eq_error_iff.mp hc)
  · intro h
    cases h with
    | store hc => exact ⟨_, replace_eq_error_iff.mpr hc, rfl⟩

theorem fails_replace_iff {config : Config} :
    (s.replace locale config).mapError .config = .error e ↔
      s.Fails (.replace locale config) e := by
  rw [mapError_eq_error_iff]
  constructor
  · rintro ⟨e', hc, rfl⟩
    exact .replace (replace_eq_error_iff.mp hc)
  · intro h
    cases h with
    | replace hc => exact ⟨_, replace_eq_error_iff.mpr hc, rfl⟩

theorem fails_load_iff {files : Files} {path : String} :
    s.load files locale path = .error e ↔ s.Fails (.load files locale path) e := by
  refine load_eq_error_iff.trans ⟨.load, fun h => ?_⟩
  cases h with
  | load h => exact h

theorem fails_reload_iff {files : Files} :
    s.reload files locale = .error e ↔ s.Fails (.reload files locale) e := by
  unfold reload
  constructor
  · intro h
    cases hp : s.catalog.paths.get? locale with
    | none =>
      rw [hp] at h
      cases h
      exact .noPath hp
    | some path =>
      rw [hp] at h
      exact .reload hp (load_eq_error_iff.mp h)
  · intro h
    cases h with
    | noPath hp =>
      rw [path?] at hp
      rw [hp]
    | reload hp h =>
      rw [path?] at hp
      rw [hp]
      exact load_eq_error_iff.mpr h

end Session

/-! ### Requests -/

/-- What a request is answered. -/
inductive Answer where
  /-- The lexicon that a locale has from then on, or why there can be none. -/
  | built (result : Except LoadError (Option Lexicon))
  /-- Whether there was a lexicon to take away. -/
  | removed (had : Bool)
  | done
  /-- What a string comes to, and the keys whose callables it asks. -/
  | string (result : Except ResolutionError String) (asked : List Invocation)
  | entry (result : Except ResolutionError Entry) (asked : List Invocation)

/-- Whether a lexicon was to be built, and was not. -/
def Answer.failed : Answer → Bool
  | .built (.error _) => true
  | _ => false

namespace Inflector

open Session (Request)

/-- Update a session in place, and answer with what that comes to. -/
def build (i : Inflector) (u : Update LoadError (Option Lexicon)) : Answer × Inflector :=
  let r := u.run i.session
  (.built r.1, { i with session := r.2 })

/-- Answer a request, in place. -/
def serve (i : Inflector) : Request → Answer × Inflector
  | .store locale config => i.build ((Update.store locale config).adapt .config)
  | .replace locale config => i.build ((Update.replace locale config).adapt .config)
  | .load files locale path => i.build (Update.load files locale path)
  | .reload files locale => i.build (Update.reload files locale)
  | .remove locale =>
    (.removed (i.session.registry.has locale), { i with session := i.session.remove locale })
  | .setDefaults defaults => (.done, { i with session := i.session.setDefaults defaults })
  | .interpolate text locale args overrides =>
    let r := i.interpolate text locale args overrides
    (.string r.1.1 r.1.2, r.2)
  | .interpolateKeyed keyed locale args overrides =>
    let r := i.interpolateKeyed keyed locale args overrides
    (.string r.1 r.2, i)
  | .interpolateEntry entry locale args overrides =>
    let r := i.interpolateEntry entry locale args overrides
    (.entry r.1.1 r.1.2, r.2)

/-- Answer a list of requests, one after the other. -/
def serveAll (i : Inflector) : List Request → List Answer × Inflector
  | [] => ([], i)
  | r :: rest =>
    let (answer, i) := i.serve r
    let (answers, i) := i.serveAll rest
    (answer :: answers, i)

/-- The requests of a list that do not fail. -/
def succeeding (i : Inflector) : List Request → List Request
  | [] => []
  | r :: rest =>
    let (answer, i) := i.serve r
    if answer.failed then i.succeeding rest else r :: i.succeeding rest

/-- What a request does: it builds, by an update that acts as an operation which fails just when the
request does; or it neither builds nor fails. -/
theorem serve_cases (i : Inflector) (r : Request) :
    (∃ u f, i.serve r = i.build u ∧ u.ActsAs f ∧
      i.after r = { i with session := i.session.resume (f i.session) } ∧
      ∀ e, f i.session = .error e ↔ i.session.Fails r e) ∨
    ((∀ result, (i.serve r).1 ≠ .built result) ∧ (i.serve r).2 = i.after r ∧
      ∀ e, ¬i.session.Fails r e) := by
  have hrenamed : ∀ x : Except ConfigError (Session × Option Lexicon),
      i.session.resume (x.mapError LoadError.config) = i.session.resume x := by
    intro x
    cases x <;> rfl
  cases r with
  | store locale config =>
    refine .inl ⟨_, _, rfl, (Update.actsAs_store locale config).adapt LoadError.config, ?_,
      fun e => Session.fails_store_iff⟩
    rw [hrenamed]
    rfl
  | replace locale config =>
    refine .inl ⟨_, _, rfl, (Update.actsAs_replace locale config).adapt LoadError.config, ?_,
      fun e => Session.fails_replace_iff⟩
    rw [hrenamed]
    rfl
  | load files locale path =>
    exact .inl ⟨_, _, rfl, Update.actsAs_load files locale path, rfl,
      fun e => Session.fails_load_iff⟩
  | reload files locale =>
    exact .inl ⟨_, _, rfl, Update.actsAs_reload files locale, rfl,
      fun e => Session.fails_reload_iff⟩
  | remove | setDefaults | interpolate | interpolateKeyed | interpolateEntry =>
    exact .inr ⟨fun _ => nofun, rfl, fun _ => nofun⟩

/-- A request is answered with an error just when it fails. -/
theorem fails_iff {i : Inflector} {r : Request} {e : LoadError} :
    (i.serve r).1 = .built (.error e) ↔ i.session.Fails r e := by
  rcases i.serve_cases r with ⟨u, f, hserve, hacts, -, hfails⟩ | ⟨hbuilt, -, hfails⟩
  · rw [hserve, ← hfails e, ← hacts.fst_eq_error_iff]
    exact ⟨fun h => Answer.built.inj h, fun h => congrArg Answer.built h⟩
  · exact iff_of_false (hbuilt _) (hfails e)

/-- A request that fails leaves everything as it was. -/
theorem serve_of_failed {i : Inflector} {r : Request} (h : (i.serve r).1.failed = true) :
    (i.serve r).2 = i := by
  rcases i.serve_cases r with ⟨u, f, hserve, hacts, -, -⟩ | ⟨hbuilt, -, -⟩
  · rw [hserve] at h ⊢
    have hsession : (u.run i.session).2 = i.session := by
      cases hresult : (u.run i.session).1 with
      | error e => exact hacts.unwritten hresult
      | ok d =>
        rw [build, hresult] at h
        cases h
    rw [build, hsession]
  · cases hanswer : (i.serve r).1 with
    | built result => exact absurd hanswer (hbuilt result)
    | removed | done | string | entry =>
      rw [hanswer] at h
      cases h

/-- Requests that are answered in place do what the histories of sessions tell of them. -/
theorem snd_serve (i : Inflector) (r : Request) : (i.serve r).2 = i.after r := by
  rcases i.serve_cases r with ⟨u, f, hserve, hacts, hafter, -⟩ | ⟨-, hafter, -⟩
  · rw [hserve, hafter, build, hacts i.session]
  · exact hafter

theorem snd_serveAll (i : Inflector) (rs : List Request) : (i.serveAll rs).2 = i.run rs := by
  induction rs generalizing i with
  | nil => rfl
  | cons r rest ih =>
    show ((i.serve r).2.serveAll rest).2 = (i.after r).run rest
    rw [ih, snd_serve]

/-- Without the requests that fail all others are answered alike, and do the same. -/
theorem serveAll_succeeding (i : Inflector) (rs : List Request) :
    i.serveAll (i.succeeding rs) =
      ((i.serveAll rs).1.filter fun answer => !answer.failed, (i.serveAll rs).2) := by
  induction rs generalizing i with
  | nil => rfl
  | cons r rest ih =>
    have hall : i.serveAll (r :: rest) =
        ((i.serve r).1 :: ((i.serve r).2.serveAll rest).1, ((i.serve r).2.serveAll rest).2) := rfl
    rw [hall, succeeding]
    dsimp only
    cases hf : (i.serve r).1.failed with
    | true =>
      -- the request has left the inflector as it was
      rw [if_pos rfl, serve_of_failed hf, ih, List.filter_cons_of_neg (by simp [hf])]
    | false =>
      rw [if_neg Bool.false_ne_true, List.filter_cons_of_pos (by simp [hf])]
      show ((i.serve r).1 :: ((i.serve r).2.serveAll _).1, ((i.serve r).2.serveAll _).2) = _
      rw [ih]

/-! ### Main statement -/

/-- **What fails leaves no trace.** Whatever an inflector has been asked before, a request to store,
replace, load or reload is answered with an error just when it fails: the configuration makes no
sense, the file cannot be read or decoded, or none is recorded. Then the configurations, files and
lexicons of all locales and the defaults are as they were, and all later requests are answered, and
do, what they would have without it. All requests that fail may be left out of any list: the others
are answered alike, and leave the same inflector behind. -/
theorem failed_unseen (i : Inflector) (r : Request) :
    (∀ e, (i.serve r).1 = .built (.error e) ↔ i.session.Fails r e) ∧
    ((i.serve r).1.failed = true →
      (∀ locale, (i.serve r).2.config? locale = i.config? locale) ∧
      (∀ locale, (i.serve r).2.session.path? locale = i.session.path? locale) ∧
      (i.serve r).2.defaults = i.defaults ∧
      (∀ locale, (i.serve r).2.lexicon? locale = i.lexicon? locale) ∧
      ∀ later, (i.serve r).2.serveAll later = i.serveAll later) ∧
    ∀ rs, i.serveAll (i.succeeding rs) =
      ((i.serveAll rs).1.filter fun answer => !answer.failed, (i.serveAll rs).2) := by
  refine ⟨fun e => fails_iff, fun hfailed => ?_, serveAll_succeeding i⟩
  rw [serve_of_failed hfailed]
  exact ⟨fun _ => rfl, fun _ => rfl, rfl, fun _ => rfl, fun _ => rfl⟩

/-- A configuration whose second kind has an alias of no token. -/
def sampleBroken : Config :=
  ⟨.ofList [("gender", .tokens (.ofList [("o", some "other")])),
    ("number", .tokens (.ofList [("many", some "@several")]))]⟩

/-- The tokens of the first kind, which makes sense, are not known after the second one has failed. -/
theorem failed_sample :
    ((ofHistory {} sampleHistory).serve (.store "en" sampleBroken)).1.failed = true ∧
      ((ofHistory {} sampleHistory).serve (.store "en" sampleBroken)).2.lexicon? "en" =
        (ofHistory {} sampleHistory).lexicon? "en" ∧
      ((ofHistory {} sampleHistory).serve (.store "en" sampleBroken)).2.serveAll
          [.interpolate sampleText "en" sampleArgs {}] =
        (ofHistory {} sampleHistory).serveAll [.interpolate sampleText "en" sampleArgs {}] ∧
      ((((ofHistory {} sampleHistory).serve (.store "en" sampleBroken)).2.interpolate
        sampleText "en" sampleArgs {}).1.1.toOption = some "Dear You!") := by
  have hfailed : ((ofHistory {} sampleHistory).serve (.store "en" sampleBroken)).1.failed = true := by
    decide +kernel
  obtain ⟨-, h, -⟩ := failed_unseen (ofHistory {} sampleHistory) (.store "en" sampleBroken)
  obtain ⟨-, -, -, hlexicon, hlater⟩ := h hfailed
  exact ⟨hfailed, hlexicon "en", hlater _, by decide +kernel⟩

end Inflector
end Concord

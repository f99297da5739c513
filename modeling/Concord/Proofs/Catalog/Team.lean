/-
# Inflectors that share a registry

Several inflectors may work on one registry. Each has a catalog of its own, and
what a request does to it and answers depends on that catalog alone; so each
keeps the catalog, and gets the answers, that it would on its own. The lexicons
are shared: what all of them see of a locale is what the last request that wrote
the locale left there, whichever inflector made it.

Key definitions: `Session.answer?`, `Session.Writes`, `Team`, `Team.run`,
`Team.LastWritten`.
Key theorems: `Session.catalog_after_congr`, `Session.writes_or_spares`,
`Team.own_run`, `Team.lexicon?_run`, `Team.registry_shared`.
-/
import Mathlib.Logic.Function.Basic
import Concord.Proofs.Catalog.Inflecting

namespace Concord

namespace Session

/-! ### What does not depend on the registry -/

/-- What a request that builds a lexicon answers: the lexicon that the locale has from then on, or an
error. Other requests do not answer in this way. -/
def answer? (s : Session) : Request → Option (Except LoadError (Option Lexicon))
  | .store locale config => some (((s.store locale config).map (·.2)).mapError .config)
  | .replace locale config => some (((s.replace locale config).map (·.2)).mapError .config)
  | .load files locale path => some ((s.load files locale path).map (·.2))
  | .reload files locale => some ((s.reload files locale).map (·.2))
  | _ => none

/-- A result without the registry that is in it. -/
def unshared (r : Session × Option Lexicon) : Catalog × Option Lexicon := (r.1.catalog, r.2)

theorem replace_unshared (s : Session) (locale : String) (config : Config) :
    (s.replace locale config).map unshared =
      if config.isEmpty then .ok (s.catalog.keep locale config, none)
      else (Lexicon.ofConfig locale config).map fun d => (s.catalog.keep locale config, some d) := by
  unfold replace Registry.rebuild
  split
  · rfl
  · cases Lexicon.ofConfig locale config <;> rfl

theorem load_unshared (files : Files) (s : Session) (locale path : String) :
    (s.load files locale path).map unshared = match Config.ofFile files path with
      | .error e => .error e
      | .ok config => (((s.replace locale config).map unshared).mapError .config).map fun p =>
          ({ p.1 with paths := p.1.paths.insert locale path }, p.2) := by
  unfold load
  cases Config.ofFile files path with
  | error e => rfl
  | ok config => cases hr : s.replace locale config <;> simp only [hr] <;> rfl

section

variable {s s' : Session} (h : s.catalog = s'.catalog)

include h

theorem replace_congr (locale : String) (config : Config) :
    (s.replace locale config).map unshared = (s'.replace locale config).map unshared := by
  rw [replace_unshared, replace_unshared, h]

theorem store_congr (locale : String) (config : Config) :
    (s.store locale config).map unshared = (s'.store locale config).map unshared := by
  unfold store
  rw [h]
  exact replace_congr h locale _

theorem load_congr (files : Files) (locale path : String) :
    (s.load files locale path).map unshared = (s'.load files locale path).map unshared := by
  rw [load_unshared, load_unshared]
  cases Config.ofFile files path with
  | error e => rfl
  | ok config =>
    dsimp only
    rw [replace_congr h]

theorem reload_congr (files : Files) (locale : String) :
    (s.reload files locale).map unshared = (s'.reload files locale).map unshared := by
  unfold reload
  rw [h]
  cases s'.catalog.paths.get? locale with
  | none => rfl
  | some path => exact load_congr h files locale path

/-- Results that are alike but for the registry leave the same catalog behind. -/
theorem catalog_resume_congr {ε : Type} {x y : Except ε (Session × Option Lexicon)}
    (hxy : x.map unshared = y.map unshared) : (s.resume x).catalog = (s'.resume y).catalog := by
  cases x with
  | error e =>
    cases y with
    | error e' => exact h
    | ok r' => cases hxy
  | ok r =>
    cases y with
    | error e' => cases hxy
    | ok r' => exact congrArg Prod.fst (Except.ok.inj hxy)

/-- What a request does to a catalog is told by the catalog. -/
theorem catalog_after_congr (r : Request) : (s.after r).catalog = (s'.after r).catalog := by
  cases r with
  | store locale config => exact catalog_resume_congr h (store_congr h locale config)
  | replace locale config => exact catalog_resume_congr h (replace_congr h locale config)
  | load files locale path => exact catalog_resume_congr h (load_congr h files locale path)
  | reload files locale => exact catalog_resume_congr h (reload_congr h files locale)
  | remove locale => simp only [after, remove, h]
  | setDefaults defaults => simp only [after, setDefaults, h]
  | interpolate | interpolateKeyed | interpolateEntry => exact h

/-- What a request answers is told by the catalog. -/
theorem answer?_congr (r : Request) : s.answer? r = s'.answer? r := by
  have hsnd : ∀ {ε : Type} {x y : Except ε (Session × Option Lexicon)},
      x.map unshared = y.map unshared → x.map (·.2) = y.map (·.2) := by
    intro ε x y hxy
    have hmap : ∀ z : Except ε (Session × Option Lexicon),
        z.map (·.2) = (z.map unshared).map (·.2) := by
      intro z
      cases z <;> rfl
    rw [hmap x, hmap y, hxy]
  cases r with
  | store locale config => rw [answer?, answer?, hsnd (store_congr h locale config)]
  | replace locale config => rw [answer?, answer?, hsnd (replace_congr h locale config)]
  | load files locale path => rw [answer?, answer?, hsnd (load_congr h files locale path)]
  | reload files locale => rw [answer?, answer?, hsnd (reload_congr h files locale)]
  | remove | setDefaults | interpolate | interpolateKeyed | interpolateEntry => rfl

end

/-! ### What is written for a locale -/

/-- A request that succeeds writes a locale: it leaves a configuration for it, or none. -/
inductive Writes (s : Session) (locale : String) : Request → Option Config → Prop where
  /-- The configuration is merged into what the catalog has for the locale. -/
  | store {config : Config} {r : Session × Option Lexicon} :
      s.store locale config = .ok r →
      Writes s locale (.store locale config)
        (some (((s.catalog.config? locale).getD .empty).merge config))
  | replace {config : Config} {r : Session × Option Lexicon} :
      s.replace locale config = .ok r → Writes s locale (.replace locale config) (some config)
  /-- The configuration is that of the file, as it is at the time. -/
  | load {files : Files} {path : String} {config : Config} {r : Session × Option Lexicon} :
      Config.ofFile files path = .ok config → s.load files locale path = .ok r →
      Writes s locale (.load files locale path) (some config)
  /-- The file is the one that the catalog has recorded. -/
  | reload {files : Files} {path : String} {config : Config} {r : Session × Option Lexicon} :
      s.path? locale = some path → Config.ofFile files path = .ok config →
      s.reload files locale = .ok r → Writes s locale (.reload files locale) (some config)
  | remove : Writes s locale (.remove locale) none

/-- The configuration that is kept of what is written: one that has kinds. -/
def withKinds (w : Option Config) : Option Config := w.filter fun config => !config.isEmpty

theorem withKinds_eq_some_iff {w : Option Config} {config : Config} :
    withKinds w = some config ↔ w = some config ∧ config.isEmpty = false := by
  rw [withKinds, Option.filter_eq_some_iff, Bool.not_eq_true']

theorem withKinds_eq_none_iff {w : Option Config} :
    withKinds w = none ↔ w = none ∨ ∃ config, config.isEmpty = true ∧ w = some config := by
  cases w with
  | none => simp [withKinds]
  | some config => simp [withKinds]

variable {s : Session} {locale : String}

theorem Writes.unique {r : Request} {w w' : Option Config} (h : s.Writes locale r w)
    (h' : s.Writes locale r w') : w = w' := by
  cases h with
  | store _ =>
    cases h'
    rfl
  | replace _ =>
    cases h'
    rfl
  | load hf _ =>
    cases h' with
    | load hf' _ =>
      rw [hf] at hf'
      exact congrArg some (Except.ok.inj hf')
  | reload hp hf _ =>
    cases h' with
    | reload hp' hf' _ =>
      rw [hp] at hp'
      cases hp'
      rw [hf] at hf'
      exact congrArg some (Except.ok.inj hf')
  | remove =>
    cases h'
    rfl

theorem sets_withKinds {config : Config} {r : Session × Option Lexicon}
    (h : s.replace locale config = .ok r) :
    Matched locale (withKinds (some config)) r.2 ∧
      Sets s locale (withKinds (some config)) r.2 r.1 := by
  have hkinds : withKinds (some config) = if config.isEmpty then none else some config := by
    unfold withKinds
    cases hc : config.isEmpty <;> simp [hc]
  obtain ⟨s', d⟩ := r
  obtain ⟨hm, hs, -⟩ := sets_replace h
  rw [hkinds]
  exact ⟨hm, hs⟩

/-- A load that succeeds writes its locale. -/
theorem writes_load {files : Files} {path : String} {res : Session × Option Lexicon}
    (h : s.load files locale path = .ok res) :
    ∃ config, Config.ofFile files path = .ok config ∧
      Matched locale (withKinds (some config)) res.2 ∧
      Sets s locale (withKinds (some config)) res.2 res.1 := by
  obtain ⟨config, s', d, hf, hr, rfl⟩ := load_eq_ok_iff.mp h
  obtain ⟨hm, hs⟩ := sets_withKinds hr
  exact ⟨config, hf, hm, hs.config, hs.lexicon⟩

/-- If the success of a request writes a locale, and nothing else does, then the lexicons change
only there, and only on success. -/
theorem writes_or_spares_of_resume {ε : Type} {x : Except ε (Session × Option Lexicon)}
    {r : Request} (other : String) (hafter : s.after r = s.resume x)
    (hok : ∀ res, x = .ok res → ∃ w, s.Writes other r w ∧ Matched other (withKinds w) res.2 ∧
      Sets s other (withKinds w) res.2 res.1)
    (hwrites : ∀ l w, s.Writes l r w → l = other ∧ ∃ res, x = .ok res) (locale : String) :
    (∃ w, s.Writes locale r w ∧ Matched locale (withKinds w) ((s.after r).lexicon? locale)) ∨
      ((∀ w, ¬s.Writes locale r w) ∧ (s.after r).lexicon? locale = s.lexicon? locale) := by
  rw [hafter]
  cases x with
  | error e =>
    refine .inr ⟨fun w hw => ?_, rfl⟩
    obtain ⟨-, res, hres⟩ := hwrites _ _ hw
    cases hres
  | ok res =>
    obtain ⟨w, hw, hm, hs⟩ := hok res rfl
    by_cases hl : locale = other
    · have hlexicon : (s.resume (.ok res : Except ε _)).lexicon? locale = res.2 :=
        (hs.lexicon locale).trans (if_pos hl)
      rw [hlexicon, hl]
      exact .inl ⟨w, hw, hm⟩
    · exact .inr ⟨fun w hw => hl (hwrites _ _ hw).1, (hs.lexicon locale).trans (if_neg hl)⟩

/-- A request writes a locale, which then has the lexicon that goes with what is written; or it does
not write it, and the locale keeps its lexicon. -/
theorem writes_or_spares (s : Session) (locale : String) (r : Request) :
    (∃ w, s.Writes locale r w ∧ Matched locale (withKinds w) ((s.after r).lexicon? locale)) ∨
      ((∀ w, ¬s.Writes locale r w) ∧ (s.after r).lexicon? locale = s.lexicon? locale) := by
  cases r with
  | store other config =>
    refine writes_or_spares_of_resume other rfl (fun res h => ⟨_, .store h, sets_withKinds h⟩) ?_ locale
    intro l w hw
    cases hw with
    | store h => exact ⟨rfl, _, h⟩
  | replace other config =>
    refine writes_or_spares_of_resume other rfl (fun res h => ⟨_, .replace h, sets_withKinds h⟩) ?_ locale
    intro l w hw
    cases hw with
    | replace h => exact ⟨rfl, _, h⟩
  | load files other path =>
    refine writes_or_spares_of_resume other rfl (fun res h => ?_) ?_ locale
    · obtain ⟨config, hf, hsets⟩ := writes_load h
      exact ⟨some config, .load hf h, hsets⟩
    · intro l w hw
      cases hw with
      | load _ h => exact ⟨rfl, _, h⟩
  | reload files other =>
    refine writes_or_spares_of_resume other rfl (fun res h => ?_) ?_ locale
    · cases hp : s.path? other with
      | none =>
        rw [reload, show s.catalog.paths.get? other = none from hp] at h
        cases h
      | some path =>
        have hload := h
        rw [reload, show s.catalog.paths.get? other = some path from hp] at hload
        obtain ⟨config, hf, hsets⟩ := writes_load hload
        exact ⟨some config, .reload hp hf h, hsets⟩
    · intro l w hw
      cases hw with
      | reload _ _ h => exact ⟨rfl, _, h⟩
  | remove other =>
    have hremove : s.after (.remove other) =
        s.resume (.ok (s.remove other, none) : Except LoadError (Session × Option Lexicon)) := rfl
    refine writes_or_spares_of_resume other hremove (fun res h => ?_) ?_ locale
    · cases h
      exact ⟨none, .remove, .absent, fun l => Table.get?_erase .., fun l => Table.get?_erase ..⟩
    · intro l w hw
      cases hw with
      | remove => exact ⟨rfl, _, rfl⟩
  | setDefaults | interpolate | interpolateKeyed | interpolateEntry =>
    refine .inr ⟨fun w hw => ?_, rfl⟩
    cases hw

end Session

/-- What an inflector answers to a list of requests, one after the other. -/
def Inflector.answers (i : Inflector) :
    List Session.Request → List (Option (Except LoadError (Option Lexicon)))
  | [] => []
  | r :: rest => i.session.answer? r :: (i.after r).answers rest

/-- Inflectors that share a registry: what each has of its own, and the registry. -/
structure Team (ι : Type) where
  catalogs : ι → Catalog
  scans : ι → Scans
  registry : Registry

namespace Team

open Session (Request)

variable {ι : Type}

/-- One of the inflectors, at work on the shared registry. -/
def inflector (t : Team ι) (i : ι) : Inflector := ⟨⟨t.catalogs i, t.registry⟩, t.scans i⟩

/-- What belongs to one of the inflectors in a list. -/
def own [DecidableEq ι] {α : Type} (i : ι) (l : List (ι × α)) : List α :=
  l.filterMap fun p => if p.1 = i then some p.2 else none

section

variable [DecidableEq ι]

/-- Inflectors without configurations, on an empty registry. -/
def fresh (defaults : ι → Options) : Team ι := ⟨fun i => .empty (defaults i), fun _ => .empty, .empty⟩

/-- The team after a request to one of its inflectors. -/
def after (t : Team ι) (step : ι × Request) : Team ι where
  catalogs := Function.update t.catalogs step.1
    ((t.inflector step.1).after step.2).session.catalog
  scans := Function.update t.scans step.1 ((t.inflector step.1).after step.2).scans
  registry := ((t.inflector step.1).after step.2).session.registry

/-- The team after requests to its inflectors, in the order in which they come. -/
def run (t : Team ι) (steps : List (ι × Request)) : Team ι := steps.foldl after t

/-- What the inflectors answer to requests. -/
def answers (t : Team ι) :
    List (ι × Request) → List (ι × Option (Except LoadError (Option Lexicon)))
  | [] => []
  | step :: rest => (step.1, (t.inflector step.1).session.answer? step.2) :: (t.after step).answers rest

/-! ### Each on its own -/

theorem own_cons_self {α : Type} (i : ι) (a : α) (l : List (ι × α)) :
    own i ((i, a) :: l) = a :: own i l := by
  simp [own]

theorem own_cons_of_ne {α : Type} {i j : ι} (h : j ≠ i) (a : α) (l : List (ι × α)) :
    own i ((j, a) :: l) = own i l := by
  simp [own, h]

theorem catalogs_after_self (t : Team ι) (i : ι) (r : Request) :
    (t.after (i, r)).catalogs i = ((t.inflector i).after r).session.catalog :=
  Function.update_self ..

theorem catalogs_after_of_ne (t : Team ι) {i j : ι} (h : j ≠ i) (r : Request) :
    (t.after (j, r)).catalogs i = t.catalogs i :=
  Function.update_of_ne h.symm ..

/-- An inflector with the same catalog, whatever its registry, gets the same answers to its requests,
and has the same catalog after them. -/
theorem own_run {t : Team ι} {i : ι} {n : Inflector} (h : t.catalogs i = n.session.catalog)
    (steps : List (ι × Request)) :
    own i (t.answers steps) = n.answers (own i steps) ∧
      (t.run steps).catalogs i = (n.run (own i steps)).session.catalog := by
  induction steps generalizing t n with
  | nil => exact ⟨rfl, h⟩
  | cons step rest ih =>
    obtain ⟨j, r⟩ := step
    -- a request to another inflector may change the registry, but not this catalog
    by_cases hj : j = i
    · subst hj
      have hafter : (t.after (j, r)).catalogs j = (n.after r).session.catalog := by
        rw [catalogs_after_self, Inflector.session_after, Inflector.session_after]
        exact Session.catalog_after_congr h r
      have hanswer : (t.inflector j).session.answer? r = n.session.answer? r :=
        Session.answer?_congr h r
      obtain ⟨hrest, hcatalog⟩ := ih hafter
      rw [answers, own_cons_self, own_cons_self, Inflector.answers, hrest, hanswer]
      exact ⟨rfl, hcatalog⟩
    · rw [answers, own_cons_of_ne hj, own_cons_of_ne hj]
      exact ih ((catalogs_after_of_ne t hj r).trans h)

/-! ### The last request that writes a locale -/

/-- The request at a place in a list writes a locale. -/
def WritesAt (t : Team ι) (steps : List (ι × Request)) (locale : String) (n : Nat)
    (w : Option Config) : Prop :=
  ∃ step, steps[n]? = some step ∧
    ((t.run (steps.take n)).inflector step.1).session.Writes locale step.2 w

/-- The last request that writes a locale, whoever makes it, leaves this for it. -/
def LastWritten (t : Team ι) (steps : List (ι × Request)) (locale : String) (w : Option Config) :
    Prop :=
  ∃ n, t.WritesAt steps locale n w ∧ ∀ m > n, ∀ w', ¬t.WritesAt steps locale m w'

variable {t : Team ι} {steps : List (ι × Request)} {locale : String} {n : Nat} {w : Option Config}

theorem run_concat (t : Team ι) (steps : List (ι × Request)) (step : ι × Request) :
    t.run (steps ++ [step]) = (t.run steps).after step := by
  simp [run]

theorem WritesAt.lt_length (h : t.WritesAt steps locale n w) : n < steps.length := by
  obtain ⟨step, hstep, -⟩ := h
  exact (List.getElem?_eq_some_iff.mp hstep).1

theorem WritesAt.unique {w' : Option Config} (h : t.WritesAt steps locale n w)
    (h' : t.WritesAt steps locale n w') : w = w' := by
  obtain ⟨step, hstep, hw⟩ := h
  obtain ⟨step', hstep', hw'⟩ := h'
  rw [hstep] at hstep'
  cases hstep'
  exact hw.unique hw'

theorem LastWritten.unique {w' : Option Config} (h : t.LastWritten steps locale w)
    (h' : t.LastWritten steps locale w') : w = w' := by
  obtain ⟨n, hn, hlast⟩ := h
  obtain ⟨n', hn', hlast'⟩ := h'
  have heq : n = n' := by
    refine Nat.le_antisymm ?_ ?_
    · exact Nat.le_of_not_lt fun hlt => hlast' n hlt w hn
    · exact Nat.le_of_not_lt fun hlt => hlast n' hlt w' hn'
  subst heq
  exact hn.unique hn'

theorem writesAt_concat_iff {step : ι × Request} :
    t.WritesAt (steps ++ [step]) locale n w ↔
      t.WritesAt steps locale n w ∨
        (n = steps.length ∧ ((t.run steps).inflector step.1).session.Writes locale step.2 w) := by
  unfold WritesAt
  by_cases hlt : n < steps.length
  · have hne : n ≠ steps.length := Nat.ne_of_lt hlt
    rw [List.getElem?_append_left hlt, List.take_append_of_le_length (Nat.le_of_lt hlt)]
    simp [hne]
  · by_cases heq : n = steps.length
    · simp [heq]
    · have hgt : (steps ++ [step]).length ≤ n := by
        rw [List.length_append, List.length_singleton]
        omega
      rw [List.getElem?_eq_none hgt, List.getElem?_eq_none (by omega)]
      simp [heq]

/-- Every locale has the lexicon that goes with what was written for it last. -/
theorem lexicon?_run (defaults : ι → Options) (steps : List (ι × Request)) (locale : String) :
    ((∀ n w, ¬(fresh defaults).WritesAt steps locale n w) ∧
        ((fresh defaults).run steps).registry.lexicon? locale = none) ∨
      ∃ w, (fresh defaults).LastWritten steps locale w ∧
        Session.Matched locale (Session.withKinds w)
          (((fresh defaults).run steps).registry.lexicon? locale) := by
  -- from the end: the last request writes the locale, or what was written before it still counts
  induction steps using List.reverseRecOn with
  | nil => exact .inl ⟨fun n w h => absurd h.lt_length (Nat.not_lt_zero n), rfl⟩
  | append_singleton steps step ih =>
    have hregistry : ((fresh defaults).run (steps ++ [step])).registry.lexicon? locale =
        ((((fresh defaults).run steps).inflector step.1).session.after step.2).lexicon? locale := by
      rw [run_concat, ← Inflector.session_after]
      rfl
    rw [hregistry]
    rcases Session.writes_or_spares (((fresh defaults).run steps).inflector step.1).session locale
      step.2 with ⟨w, hw, hm⟩ | ⟨hspares, hsame⟩
    · refine .inr ⟨w, ⟨steps.length, writesAt_concat_iff.mpr (.inr ⟨rfl, hw⟩), fun m hm w' h => ?_⟩, hm⟩
      rcases writesAt_concat_iff.mp h with h | ⟨heq, -⟩
      · exact absurd h.lt_length (Nat.lt_asymm hm)
      · exact absurd heq (Nat.ne_of_gt hm)
    · have hwritesAt : ∀ n w, (fresh defaults).WritesAt (steps ++ [step]) locale n w ↔
          (fresh defaults).WritesAt steps locale n w := fun n w =>
        writesAt_concat_iff.trans (or_iff_left fun h => hspares w h.2)
      have hlast : ∀ w, (fresh defaults).LastWritten (steps ++ [step]) locale w ↔
          (fresh defaults).LastWritten steps locale w := by
        intro w
        simp only [LastWritten, hwritesAt]
      simp only [hwritesAt, hlast, hsame]
      exact ih

/-! ### Main statement -/

/-- **Inflectors that share a registry.** Whatever requests come to them, and in whatever order they
do, each inflector gets the answers to its requests, and ends with the catalog, that it would on its
own. What it sees of a locale is shared: the lexicon of the configuration that the last request that
wrote the locale left there, whichever inflector made it, and none if that request removed the
locale or left no kinds, or if there was no such request. -/
theorem registry_shared (defaults : ι → Options) (steps : List (ι × Request)) (i : ι) :
    own i ((fresh defaults).answers steps) =
        (Inflector.fresh (defaults i)).answers (own i steps) ∧
      (((fresh defaults).run steps).inflector i).session.catalog =
        (Inflector.ofHistory (defaults i) (own i steps)).session.catalog ∧
      ∀ locale,
        (∀ d, (((fresh defaults).run steps).inflector i).lexicon? locale = some d ↔
          ∃ config, (fresh defaults).LastWritten steps locale (some config) ∧
            config.isEmpty = false ∧ Lexicon.ofConfig locale config = .ok d) ∧
        ((((fresh defaults).run steps).inflector i).lexicon? locale = none ↔
          (∀ n w, ¬(fresh defaults).WritesAt steps locale n w) ∨
            (fresh defaults).LastWritten steps locale none ∨
            ∃ config, config.isEmpty = true ∧
              (fresh defaults).LastWritten steps locale (some config)) := by
  have hstart : (fresh defaults).catalogs i = (Inflector.fresh (defaults i)).session.catalog := rfl
  obtain ⟨hanswers, hcatalog⟩ := own_run hstart steps
  refine ⟨hanswers, hcatalog, fun locale => ?_⟩
  show (∀ d, ((fresh defaults).run steps).registry.lexicon? locale = some d ↔ _) ∧
    (((fresh defaults).run steps).registry.lexicon? locale = none ↔ _)
  rcases lexicon?_run defaults steps locale with ⟨hnever, hnone⟩ | ⟨w, hlast, hm⟩
  · rw [hnone]
    refine ⟨fun d => iff_of_false nofun ?_, iff_of_true rfl (.inl hnever)⟩
    rintro ⟨config, ⟨n, hn, -⟩, -⟩
    exact hnever n _ hn
  · have hw : ∀ w', (fresh defaults).LastWritten steps locale w' ↔ w = w' := by
      intro w'
      constructor
      · exact hlast.unique
      · rintro rfl
        exact hlast
    have hwritten : ¬∀ n w, ¬(fresh defaults).WritesAt steps locale n w := by
      obtain ⟨n, hn, -⟩ := hlast
      exact fun hnever => hnever n w hn
    simp only [hw, hm.eq_some_iff, hm.eq_none_iff, Session.withKinds_eq_some_iff,
      Session.withKinds_eq_none_iff, hwritten, false_or]
    refine ⟨fun d => exists_congr fun config => ?_, trivial⟩
    rw [and_assoc, and_self_left]

/-- What one inflector has stored another takes away; the first still has its configuration. -/
example :
    let t := (fresh fun _ : Bool => {}).run
      [(true, .store "en" (Inflector.sampleConfig [])), (false, .remove "en")]
    ((t.inflector true).lexicon? "en").isNone = true ∧
      ((t.inflector true).config? "en").isSome = true := by
  decide +kernel

end

end Team
end Concord

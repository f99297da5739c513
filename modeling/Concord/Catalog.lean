/-
# Catalogs

A catalog keeps the configuration of every locale it was given, and builds the
lexicons of a registry from them. Catalogs may share a registry. An operation
that fails changes nothing, neither in the catalog nor in the registry: it has an
error for its result, and no new state.

Key definitions: `Catalog`, `Session`, `Session.store`, `Session.load`, `Session.interpolate`.
-/
import Concord.Entry.Resolution
import Concord.File.Load
import Concord.Keyed
import Concord.Registry

namespace Concord

/-- What is kept for the locales: their configurations, the files they were loaded from, and the
switches that hold where a caller does not say otherwise. -/
structure Catalog where
  configs : Table Config
  paths : Table String
  defaults : Options

namespace Catalog

/-- The catalog without configurations. -/
def empty (defaults : Options) : Catalog := ⟨∅, ∅, defaults⟩

/-- The configuration of a locale. -/
def config? (c : Catalog) (locale : String) : Option Config := c.configs.get? locale

/-- The catalog with a configuration for a locale; one without kinds is not kept. -/
def keep (c : Catalog) (locale : String) (config : Config) : Catalog :=
  if config.isEmpty then { c with configs := c.configs.erase locale }
  else { c with configs := c.configs.insert locale config }

end Catalog

/-- A catalog at work on a registry. -/
structure Session where
  catalog : Catalog
  registry : Registry

namespace Session

/-- The session without configurations, on a registry of its own. -/
def fresh (defaults : Options) : Session := ⟨.empty defaults, .empty⟩

/-- The lexicon of a locale. -/
def lexicon? (s : Session) (locale : String) : Option Lexicon := s.registry.lexicon? locale

/-! ### Configurations -/

/-- Replace the configuration of a locale, and rebuild its lexicon. -/
def replace (s : Session) (locale : String) (config : Config) :
    Except ConfigError (Session × Option Lexicon) :=
  (s.registry.rebuild locale config).map fun r => (⟨s.catalog.keep locale config, r.1⟩, r.2)

/-- Merge a configuration into that of a locale, and rebuild its lexicon. -/
def store (s : Session) (locale : String) (config : Config) :
    Except ConfigError (Session × Option Lexicon) :=
  s.replace locale (((s.catalog.config? locale).getD .empty).merge config)

/-- The session with a file recorded for a locale. -/
def record (s : Session) (locale path : String) : Session :=
  { s with catalog := { s.catalog with paths := s.catalog.paths.insert locale path } }

/-- Replace the configuration of a locale by that of a file, and record the file. -/
def load (files : Files) (s : Session) (locale path : String) :
    Except LoadError (Session × Option Lexicon) :=
  match Config.ofFile files path with
  | .error e => .error e
  | .ok config =>
    match s.replace locale config with
    | .error e => .error (.config e)
    | .ok (s, d) => .ok (s.record locale path, d)

/-- Load a locale from the file that is recorded for it. -/
def reload (files : Files) (s : Session) (locale : String) :
    Except LoadError (Session × Option Lexicon) :=
  match s.catalog.paths.get? locale with
  | some path => s.load files locale path
  | none => .error (.noPath locale)

/-- The session without a locale. -/
def remove (s : Session) (locale : String) : Session where
  catalog :=
    { s.catalog with
      configs := s.catalog.configs.erase locale
      paths := s.catalog.paths.erase locale }
  registry := s.registry.delete locale

/-- The session with other defaults. -/
def setDefaults (s : Session) (defaults : Options) : Session :=
  { s with catalog := { s.catalog with defaults } }

/-! ### Resolution -/

/-- A call in a locale. -/
def call (s : Session) (locale : String) (args : Args) (overrides : Overrides) : Call where
  lexicon := s.lexicon? locale
  locale := locale
  args := args
  options := overrides.apply s.catalog.defaults

/-- Resolve a string. -/
def interpolate (s : Session) (text locale : String) (args : Args) (overrides : Overrides) :
    Except ResolutionError String × List Invocation :=
  Call.run ((s.call locale args overrides).template (Template.scan text))

/-- Resolve a keyed inflection. -/
def interpolateKeyed (s : Session) (keyed : Keyed) (locale : String) (args : Args)
    (overrides : Overrides) : Except ResolutionError String × List Invocation :=
  Call.run ((s.call locale args overrides).template keyed.toTemplate)

/-- Resolve an entry. -/
def interpolateEntry (s : Session) (entry : Entry) (locale : String) (args : Args)
    (overrides : Overrides) : Except ResolutionError Entry × List Invocation :=
  ((s.call locale args overrides).entry entry).run []

end Session
end Concord

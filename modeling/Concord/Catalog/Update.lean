/-
# Updates in place

An inflector works on its catalog and its registry in place, one write after the
other. If something fails between two writes, the first one has been made: that
such an operation changes nothing is due to the order of its steps, in which all
that can fail comes before all that is written.

Key definitions: `Update`, `Update.rebuild`, `Update.replace`, `Update.store`,
`Update.load`, `Update.reload`.
-/
import Concord.Catalog

namespace Concord

/-- An update of a session in place. It may stop with an error, and what it has written before that
stays written. -/
abbrev Update (ε : Type) := ExceptT ε (StateM Session)

namespace Update

variable {ε : Type}

/-- Write the registry. -/
def writeRegistry (f : Registry → Registry) : Update ε Unit :=
  modify fun s => { s with registry := f s.registry }

/-- Write the catalog. -/
def writeCatalog (f : Catalog → Catalog) : Update ε Unit :=
  modify fun s => { s with catalog := f s.catalog }

/-- Put the lexicon that a configuration describes in the place of that of a locale. A configuration
without kinds deletes the lexicon of the locale. -/
def rebuild (locale : String) (config : Config) : Update ConfigError (Option Lexicon) :=
  if config.isEmpty then do
    writeRegistry (·.delete locale)
    return none
  else do
    let d ← Lexicon.ofConfig locale config
    writeRegistry (·.add d)
    return some d

/-- Replace the configuration of a locale, and rebuild its lexicon. -/
def replace (locale : String) (config : Config) : Update ConfigError (Option Lexicon) := do
  let d? ← rebuild locale config
  writeCatalog (·.keep locale config)
  return d?

/-- Merge a configuration into that of a locale, and rebuild its lexicon. -/
def store (locale : String) (config : Config) : Update ConfigError (Option Lexicon) := do
  let s ← get
  replace locale (((s.catalog.config? locale).getD .empty).merge config)

/-- Replace the configuration of a locale by that of a file, and record the file. -/
def load (files : Files) (locale path : String) : Update LoadError (Option Lexicon) := do
  let config ← Config.ofFile files path
  let d? ← ExceptT.adapt .config (replace locale config)
  writeCatalog fun c => { c with paths := c.paths.insert locale path }
  return d?

/-- Load a locale from the file that is recorded for it. -/
def reload (files : Files) (locale : String) : Update LoadError (Option Lexicon) := do
  let s ← get
  match s.catalog.paths.get? locale with
  | some path => load files locale path
  | none => throw (.noPath locale)

end Update
end Concord

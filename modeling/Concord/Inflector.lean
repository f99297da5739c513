/-
# Inflectors

An inflector is a session that keeps the templates of the texts it scanned, so
that a text that comes again is not scanned again. It keeps a bounded number of
them: when there is no room for another, all are dropped.

Key definitions: `Scans`, `Scans.template`, `Inflector`, `Inflector.interpolate`.
-/
import Concord.Catalog

namespace Concord

/-- The templates that are kept, by the texts they were scanned from. -/
structure Scans where
  templates : Table Template

namespace Scans

/-- No templates. -/
def empty : Scans := ⟨∅⟩

/-- The most templates that are kept. -/
def limit : Nat := 1024

/-- The template of a text, and the templates that are kept from then on. -/
def template (s : Scans) (text : String) : Template × Scans :=
  match s.templates.get? text with
  | some t => (t, s)
  | none =>
    let room := if s.templates.size < limit then s.templates else ∅
    (Template.scan text, ⟨room.insert text (Template.scan text)⟩)

end Scans

/-- A sequence of calls that keeps the templates of its texts. -/
abbrev ScanningCalls := ExceptT ResolutionError (StateM (Scans × List Invocation))

/-- A string as a call of its own, scanned only if its template is not kept. -/
def Call.keptString (call : Call) (text : String) : ScanningCalls String := fun kept =>
  let t := kept.1.template text
  let r := run (call.template t.1)
  (r.1, t.2, kept.2 ++ r.2)

/-- A session and the templates that are kept in it. -/
structure Inflector where
  session : Session
  scans : Scans

namespace Inflector

/-- The inflector without configurations, on a registry of its own. -/
def fresh (defaults : Options) : Inflector := ⟨.fresh defaults, .empty⟩

/-- The configuration of a locale. -/
def config? (i : Inflector) (locale : String) : Option Config := i.session.catalog.config? locale

/-- The lexicon of a locale. -/
def lexicon? (i : Inflector) (locale : String) : Option Lexicon := i.session.lexicon? locale

/-- The switches that hold where a caller does not say otherwise. -/
def defaults (i : Inflector) : Options := i.session.catalog.defaults

/-- Resolve a string. -/
def interpolate (i : Inflector) (text locale : String) (args : Args) (overrides : Overrides) :
    (Except ResolutionError String × List Invocation) × Inflector :=
  let t := i.scans.template text
  (Call.run ((i.session.call locale args overrides).template t.1), { i with scans := t.2 })

/-- Resolve a keyed inflection. It is not scanned, so nothing of it is kept. -/
def interpolateKeyed (i : Inflector) (keyed : Keyed) (locale : String) (args : Args)
    (overrides : Overrides) : Except ResolutionError String × List Invocation :=
  i.session.interpolateKeyed keyed locale args overrides

/-- Resolve an entry. -/
def interpolateEntry (i : Inflector) (entry : Entry) (locale : String) (args : Args)
    (overrides : Overrides) : (Except ResolutionError Entry × List Invocation) × Inflector :=
  let call := i.session.call locale args overrides
  let r := (entry.resolve call.options call.keptString).run (i.scans, [])
  ((r.1, r.2.2), { i with scans := r.2.1 })

end Inflector
end Concord

/-
# The lexicons of all locales

A registry holds at most one lexicon for each locale. A lexicon is replaced as a
whole: who holds an earlier one keeps it.

Key definitions: `Registry`, `Registry.rebuild`, `Registry.inflectedLocales`.
-/
import Concord.Lexicon.Build
import Concord.Lexicon.View

namespace Concord

/-- The lexicons by their locales. -/
structure Registry where
  lexicons : Table Lexicon
  deriving DecidableEq

namespace Registry

/-- The registry without lexicons. -/
def empty : Registry := ⟨∅⟩

/-- The lexicon of a locale. -/
def lexicon? (r : Registry) (locale : String) : Option Lexicon := r.lexicons.get? locale

/-- The registry with a lexicon in the place of any of its locale. -/
def add (r : Registry) (d : Lexicon) : Registry := ⟨r.lexicons.insert d.locale d⟩

/-- The registry with a lexicon without kinds for a locale. -/
def addEmpty (r : Registry) (locale : String) : Registry := r.add (.empty locale)

/-- Whether a locale has a lexicon. -/
def has (r : Registry) (locale : String) : Bool := r.lexicons.contains locale

/-- The registry without the lexicon of a locale. -/
def delete (r : Registry) (locale : String) : Registry := ⟨r.lexicons.erase locale⟩

/-- The registry with the lexicon that a configuration describes, and that lexicon. A configuration
without kinds deletes the lexicon of the locale. -/
def rebuild (r : Registry) (locale : String) (config : Config) :
    Except ConfigError (Registry × Option Lexicon) :=
  if config.isEmpty then .ok (r.delete locale, none)
  else (Lexicon.ofConfig locale config).map fun d => (r.add d, some d)

/-- The locales whose lexicon passes a test, in order. -/
def localesWhere (r : Registry) (p : Lexicon → Bool) : List String :=
  (r.lexicons.filter fun _ d => p d).keys

/-- The locales that have a lexicon or, if a kind is given, one with that kind. -/
def inflectedLocales (r : Registry) (kind : Option String) : List String :=
  r.localesWhere fun d => (kind.map (d.view .loose).hasKind).getD true

/-- The locales whose lexicon has strict kinds or, if a kind is given, that strict kind. -/
def strictInflectedLocales (r : Registry) (kind : Option String) : List String :=
  r.localesWhere fun d =>
    match kind with
    | some kind => (d.view .strict).hasKind kind
    | none => !(d.view .strict).kinds.isEmpty

/-- Whether a locale has a name and a lexicon, which may be without kinds. -/
def supports (r : Registry) (locale : String) : Bool := locale != "" && r.has locale

/-- Whether a locale has a lexicon with strict kinds. -/
def supportsStrict (r : Registry) (locale : String) : Bool :=
  ((r.lexicon? locale).map fun d => !(d.view .strict).kinds.isEmpty).getD false

end Registry
end Concord

/-
# Building a lexicon from a configuration

The kinds of a configuration are added in the order of their keys. Of a kind,
descriptions come first, then aliases, then the default, so that the target of
an alias or a default may be listed anywhere in its table.

Key definition: `Lexicon.ofConfig`.
-/
import Concord.Config
import Concord.Lexicon

namespace Concord
namespace Lexicon

/-- Whether a configured value is that of an alias. -/
def isAliasValue (value : Option String) : Bool := (value.bind Name.unmarked?).isSome

/-- The entries of a token table in the order in which they are added. -/
def additions (table : Table (Option String)) : List (String × Option String) :=
  let named := table.entries.filter fun e => e.1 != Name.defaultWord
  (named.filter fun e => !isAliasValue e.2) ++ (named.filter fun e => isAliasValue e.2) ++
    table.entries.filter fun e => e.1 == Name.defaultWord

/-- Add a token after its kind, or fail. -/
def addToken? (d : Lexicon) (key name : String) (value : Option String) :
    Except ConfigError Lexicon :=
  (d.addKind key).bind (·.putToken key name value)

/-- Add the entries of a token table, one after the other. -/
def addAll (d : Lexicon) (key : String) : List (String × Option String) → Except ConfigError Lexicon
  | [] => .ok d
  | (name, value) :: rest => (d.addToken? key name value).bind fun d => d.addAll key rest

/-- Add a kind with everything that is configured for it. -/
def addEntry (d : Lexicon) (key : String) : Config.Entry → Except ConfigError Lexicon
  | .invalid _ => .error (.badKind d.locale key)
  | .tokens table => (d.addKind key).bind fun d => d.addAll key (additions table)

/-- Add the entries of a configuration, one after the other. -/
def addEntries (d : Lexicon) : List (String × Config.Entry) → Except ConfigError Lexicon
  | [] => .ok d
  | (key, entry) :: rest => (d.addEntry key entry).bind fun d => d.addEntries rest

/-- The lexicon that a configuration describes for a locale, or the first error in it. -/
def ofConfig (locale : String) (config : Config) : Except ConfigError Lexicon :=
  (Lexicon.empty locale).addEntries config.kinds.entries

end Lexicon
end Concord

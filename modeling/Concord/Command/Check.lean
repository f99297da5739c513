/-
# Checking configurations

Each file is loaded by itself, for the locale that its name without the extension
tells. A report says what is wrong with it, or lists its kinds: the loose ones
first, each with the numbers of its tokens and aliases and its default token.

Key definitions: `Command.Report`, `Command.report`, `Command.reportLines`.
-/
import Concord.Command.Grid
import Concord.File.Load
import Concord.Json.Printer
import Concord.Lexicon.View

namespace Concord
namespace Command

/-- What is said about a kind. -/
structure KindSummary where
  scope : Scope
  kind : String
  tokens : Nat
  aliases : Nat
  standard : Option String
  deriving DecidableEq, Repr

/-- What is said about a file. -/
structure Report where
  file : String
  locale : String
  error : Option LoadError
  kinds : List KindSummary
  deriving DecidableEq, Repr

/-- The kinds of a namespace, summed up. -/
def summarizeScope (d : Lexicon) (scope : Scope) : List KindSummary :=
  (d.side scope).kinds.entries.map fun e =>
    ⟨scope, e.1, e.2.tokens.size, e.2.aliases.size, e.2.standard⟩

/-- The kinds of a lexicon, summed up. -/
def summarize (d : Lexicon) : List KindSummary :=
  summarizeScope d .loose ++ summarizeScope d .strict

/-- The locale that a file is for. -/
def localeOf (file : String) : String := (Path.stem? file).getD ""

/-- The report about a file. -/
def report (contents : Files) (file : String) : Report :=
  let locale := localeOf file
  match Lexicon.ofFile contents file locale with
  | .ok d => ⟨file, locale, none, summarize d⟩
  | .error e => ⟨file, locale, some e, []⟩

/-- The word for a namespace. -/
def scopeWord : Scope → String
  | .loose => "loose"
  | .strict => "strict"

/-- A summary as JSON. -/
def KindSummary.toJson (k : KindSummary) : Json :=
  .object [("scope", .string (scopeWord k.scope)), ("kind", .string k.kind),
    ("tokens", .ofNat k.tokens), ("aliases", .ofNat k.aliases), ("default", .ofOption k.standard)]

/-- A report as JSON. -/
def Report.toJson (r : Report) : Json :=
  .object [("file", .string r.file), ("locale", .string r.locale),
    ("error", .ofOption (r.error.map (·.message))), ("kinds", .array (r.kinds.map (·.toJson)))]

/-- The cells of a summary. -/
def KindSummary.cells (k : KindSummary) : List String :=
  [scopeWord k.scope, k.kind, toString k.tokens, toString k.aliases, k.standard.getD "-"]

/-- The lines about a file that is in order. -/
def reportLines (r : Report) : List String :=
  ("ok " ++ r.file ++ " (" ++ r.locale ++ ")") ::
    if r.kinds.isEmpty then []
    else Grid.render ["Scope", "Kind", "Tokens", "Aliases", "Default"] (r.kinds.map (·.cells))

end Command
end Concord

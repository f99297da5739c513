/-
# Resolving entries

Texts are resolved wherever they stand in an entry, symbols only if the caller
asks for it, and lists and maps are entered unless the caller forbids it. The
shape of the entry stays. Every text is a call of its own: what a callable
answered for one is not remembered for the next.

Key definitions: `Entry.resolve`, `Call.alone`, `Call.entry`.
-/
import Concord.Entry
import Concord.Resolution
import Concord.Template.Scan

namespace Concord

namespace Entry

variable {m : Type → Type} [Monad m]

mutual

/-- An entry with its texts resolved, one after the other, by a given way to resolve one. -/
def resolve (options : Options) (string : String → m String) : Entry → m Entry
  | .text content => do return .text (← string content)
  | .symbol name =>
    if options.interpolateSymbols then do return .symbol (← string name) else pure (.symbol name)
  | .list items =>
    if options.traverses then do return .list (← resolveItems options string items)
    else pure (.list items)
  | .map fields =>
    if options.traverses then do return .map (← resolveFields options string fields)
    else pure (.map fields)
  | .other data => pure (.other data)

/-- The items of a list with their texts resolved. -/
def resolveItems (options : Options) (string : String → m String) : List Entry → m (List Entry)
  | [] => pure []
  | item :: rest => do
    let item ← resolve options string item
    return item :: (← resolveItems options string rest)

/-- The fields of a map with their texts resolved, in the order of their keys. -/
def resolveFields (options : Options) (string : String → m String) :
    List (String × Entry) → m (List (String × Entry))
  | [] => pure []
  | (key, value) :: rest => do
    let value ← resolve options string value
    return (key, value) :: (← resolveFields options string rest)

end

end Entry

/-- A sequence of calls: it may stop with an error, and lists the times that it asked a callable. -/
abbrev Calls := ExceptT ResolutionError (StateM (List Invocation))

namespace Call

/-- A part of a resolution as a call of its own. -/
def alone {α : Type} (step : Step α) : Calls α := fun asked =>
  let r := run step
  (r.1, asked ++ r.2)

/-- A string as a call of its own. -/
def string (call : Call) (text : String) : Calls String :=
  alone (call.template (Template.scan text))

/-- An entry with its texts resolved, each in a call of its own. -/
def entry (call : Call) (entry : Entry) : Calls Entry := entry.resolve call.options call.string

end Call
end Concord

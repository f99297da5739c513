/-
# Resolving blocks

Along each axis of a block a token is chosen from what the caller supplied and
the default of the kind. The first row whose conditions the tokens meet gives
the wording; if there is none, the free alternative does, and without one the
block is empty. A loud wording is the description of the first token.

Key definitions: `Call.token`, `Call.block`, `Call.template`.
-/
import Concord.Resolution.Row

namespace Concord

/-- The text of a wording; a loud one is the description of a token, if there is one. -/
def Wording.text (description : Option String) : Wording → String
  | .plain text => text
  | .loud => description.getD ""

namespace Block

/-- The text of a block for which no typed alternative applies. -/
def freeText (b : Block) (description : Option String) : String :=
  (b.freeWording.map (·.text description)).getD ""

/-- The text of a block for its rows and the tokens along its axes. -/
def choose (b : Block) (axes : List Axis) (rows : List Row) (tokens : List (Option String)) :
    String :=
  let description := match axes, tokens with
    | axis :: _, some token :: _ => axis.kind.description? token
    | _, _ => none
  match rows.find? (·.applies tokens) with
  | some row => row.wording.text description
  | none => b.freeText description

end Block

namespace Call

/-- The default token of an axis; without one, an error. -/
def defaultToken (call : Call) (pattern : String) (axis : Axis) : Step (Option String) := do
  if axis.kind.standard.isNone then
    call.report (.optionNotFound pattern axis.name)
  return axis.kind.standard

/-- The token for a value that is none: the default token, if unknown values stand for it. -/
def unknownToken (call : Call) (axis : Axis) : Option String :=
  if call.options.unknownDefaults then axis.kind.standard else none

/-- The token for a token of the kind. If tokens that no row asks for are excluded, the default
token takes the place of such a one. -/
def knownToken (call : Call) (axis : Axis) (position : Nat) (rows : List Row) (token : String) :
    Option String :=
  if call.options.excludedDefaults && !rows.any (·.asksFor position token) then
    axis.kind.standard.or (some token)
  else some token

/-- The token along an axis for what is supplied. -/
def tokenFor (call : Call) (block : Block) (axis : Axis) (position : Nat) (rows : List Row) :
    Supply → Step (Option String)
  | .missing =>
    if call.options.excludedDefaults then pure none else call.defaultToken block.source axis
  | .nil => do
    call.report (.invalidOption block.source axis.name none)
    return call.unknownToken axis
  | .token value =>
    if value = Name.defaultWord then call.defaultToken block.source axis
    else match axis.kind.trueToken? value with
      | some token => pure (call.knownToken axis position rows token)
      | none => do
        if !Name.isChoice value || !block.hasWildcard then
          call.report (.invalidOption block.source axis.name (some value))
        return call.unknownToken axis

/-- The token along an axis. -/
def token (call : Call) (block : Block) (axis : Axis) (position : Nat) (rows : List Row) :
    Step (Option String) := do
  call.tokenFor block axis position rows (← (call.supplied axis.name : StateM Memo Supply))

/-- The tokens along axes, the first of which has a position. -/
def tokens (call : Call) (block : Block) (rows : List Row) :
    Nat → List Axis → Step (List (Option String))
  | _, [] => pure []
  | position, axis :: rest => do
    let token ← call.token block axis position rows
    return token :: (← call.tokens block rows (position + 1) rest)

/-- The text of a block, with the lexicon that it is resolved in. -/
def blockIn (call : Call) (d : Lexicon) (block : Block) : Step String := do
  let some axes ← call.axes d block | return block.freeText none
  let some rows ← call.rows d block axes | return block.freeText none
  return block.choose axes rows (← call.tokens block rows 0 axes)

/-- The text of a block; without a lexicon it is empty. -/
def block (call : Call) (b : Block) : Step String :=
  match call.lexicon with
  | some d => call.blockIn d b
  | none => pure ""

/-- The text of a part of a template. -/
def segment (call : Call) : Segment → Step String
  | .literal text => pure text
  | .block b => call.block b

/-- The texts of the parts of a template, one after the other. -/
def segments (call : Call) : List Segment → Step String
  | [] => pure ""
  | s :: rest => do
    let text ← call.segment s
    return text ++ (← call.segments rest)

/-- The text of a template. -/
def template (call : Call) (t : Template) : Step String := call.segments t.segments

/-- The outcome of a part of a resolution on its own, and the times that it asked a callable. -/
def run {α : Type} (step : Step α) : Except ResolutionError α × List Invocation :=
  let r := step.run .empty
  (r.1, r.2.asked)

end Call
end Concord

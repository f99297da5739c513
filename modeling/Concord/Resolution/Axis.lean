/-
# The kinds of a block

A block is resolved along one or more axes: the kinds of its header or, if it
has none, a single kind that is inferred. The first spec that names a token of
the loose namespace tells the kind; if no spec does, the first loose kind for
which one of its tokens is supplied.

Key definitions: `Axis`, `Call.axes`.
-/
import Concord.Lexicon.View
import Concord.Resolution.Call
import Concord.Suggestion
import Concord.Template

namespace Concord

/-- A kind along which a block is resolved, under the name that it was found by. -/
structure Axis where
  name : String
  kind : Kind
  deriving DecidableEq

namespace Lexicon

/-- The names of all kinds, each once, in order. -/
def kindNames (d : Lexicon) : List String :=
  (Table.union (d.strict.kinds.map fun _ => ()) (d.loose.kinds.map fun _ => ())).keys

/-- The kind that a spec tells: the loose owner of its name. -/
def kindOfSpec? (d : Lexicon) : Spec → Option String
  | .name name | .butNot name => (d.view .loose).kindOf? name none
  | .wildcard | .invalid _ => none

end Lexicon

namespace Call

/-- The axes of a header; none if one of its kinds is not known. -/
def headerAxes (call : Call) (d : Lexicon) (pattern : String) :
    List String → Step (Option (List Axis))
  | [] => pure (some [])
  | name :: rest =>
    match d.namedKind? name with
    | some kind => do return (← call.headerAxes d pattern rest).map (⟨name, kind⟩ :: ·)
    | none => do
      call.report (.unknownKind pattern name (suggestions name d.kindNames))
      return none

/-- The first of some loose kinds for which one of its tokens is supplied. -/
def suppliedKind (call : Call) (d : Lexicon) : List String → StateM Memo (Option String)
  | [] => pure none
  | name :: rest => do
    match ← call.supplied name with
    | .token value =>
      if (d.view .loose).hasToken value (some name) then return some name
      else call.suppliedKind d rest
    | _ => call.suppliedKind d rest

/-- The kind that is inferred for a block without a header. -/
def inferredKind (call : Call) (d : Lexicon) (block : Block) : StateM Memo (Option String) :=
  match block.specs.findSome? d.kindOfSpec? with
  | some name => pure (some name)
  | none => call.suppliedKind d d.loose.kinds.keys

/-- The axis of an inferred kind; none if no kind can be inferred. -/
def inferredAxis (call : Call) (d : Lexicon) (block : Block) : Step (Option Axis) := do
  let name? ← (call.inferredKind d block : StateM Memo (Option String))
  match name?.bind fun name => ((d.view .loose).kind? name).map (Axis.mk name) with
  | some axis => return some axis
  | none =>
    call.report (.unknownKind block.source "" [])
    return none

/-- The axes of a block; none if a kind is not known. -/
def axes (call : Call) (d : Lexicon) (block : Block) : Step (Option (List Axis)) :=
  if block.path.isEmpty then do return (← call.inferredAxis d block).map ([·])
  else call.headerAxes d block.source block.path

end Call
end Concord

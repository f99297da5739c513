/-
# Alternatives as conditions

The typed alternatives of a block are read against its axes. A group of specs
becomes a condition on the token along its axis; a row holds the conditions of
an alternative and its wording. Specs that name no token of their axis are
errors, and are left out if errors are passed over.

Key definitions: `Condition`, `Condition.holds`, `Row`, `Call.rows`.
-/
import Concord.Resolution.Axis

namespace Concord

/-- A condition on a token. -/
structure Condition where
  /-- Any token will do. -/
  wildcard : Bool := false
  /-- The tokens that are asked for. -/
  named : List String := []
  /-- The tokens that are ruled out. -/
  excluded : List String := []
  deriving DecidableEq, Repr

namespace Condition

/-- A token meets a condition if any will do, if it is asked for, or if there are tokens that are
ruled out and it is none of them. -/
def holds (c : Condition) (token : String) : Bool :=
  c.wildcard || c.named.contains token || (!c.excluded.isEmpty && !c.excluded.contains token)

end Condition

/-- The conditions and the wording of a typed alternative. -/
structure Row where
  conditions : List Condition
  wording : Wording
  deriving DecidableEq, Repr

namespace Row

/-- Whether there is a token along every axis, and it meets the condition there. -/
def applies (r : Row) (tokens : List (Option String)) : Bool :=
  (r.conditions.zip tokens).all fun p => (p.2.map p.1.holds).getD false

/-- Whether the condition at a position asks for a token. -/
def asksFor (r : Row) (position : Nat) (token : String) : Bool :=
  ((r.conditions[position]?).map fun c => c.named.contains token).getD false

end Row

namespace Lexicon

/-- Whether any kind has a token or alias of a name. -/
def knowsToken (d : Lexicon) (name : String) : Bool :=
  (d.view .loose).hasToken name none ||
    d.strict.kinds.keys.any fun kind => (d.view .strict).hasToken name (some kind)

end Lexicon

namespace Axis

/-- The token that a spec's name stands for in conditions. An alias stands for its true token only
if aliases are allowed in patterns; else it stays itself, which no token ever is. -/
def denoted? (axis : Axis) (aliased : Bool) (name : String) : Option String :=
  if aliased then axis.kind.trueToken? name
  else if axis.kind.hasToken name then some name else none

end Axis

namespace Call

/-- The error for a name that an axis does not have. -/
def nameError (d : Lexicon) (pattern : String) (axis : Axis) (name : String) : ResolutionError :=
  if d.knowsToken name then .misplacedToken pattern name axis.name
  else .invalidToken pattern name (some axis.name)

/-- A condition with one more spec. -/
def addSpec (call : Call) (d : Lexicon) (pattern : String) (axis : Axis) (c : Condition) :
    Spec → Step Condition
  | .wildcard => pure { c with wildcard := true }
  | .invalid written => do
    call.report (.invalidToken pattern written (some axis.name))
    return c
  | .name name =>
    match axis.denoted? call.options.aliasedPatterns name with
    | some token => pure { c with named := c.named ++ [token] }
    | none => do
      call.report (nameError d pattern axis name)
      return c
  | .butNot name =>
    match axis.denoted? call.options.aliasedPatterns name with
    | some token => pure { c with excluded := c.excluded ++ [token] }
    | none => do
      call.report (nameError d pattern axis name)
      return c

/-- A condition with more specs. -/
def addSpecs (call : Call) (d : Lexicon) (pattern : String) (axis : Axis) (c : Condition) :
    List Spec → Step Condition
  | [] => pure c
  | spec :: rest => do call.addSpecs d pattern axis (← call.addSpec d pattern axis c spec) rest

/-- The conditions of groups along their axes. -/
def conditions (call : Call) (d : Lexicon) (pattern : String) :
    List (List Spec) → List Axis → Step (List Condition)
  | group :: groups, axis :: axes => do
    let c ← call.addSpecs d pattern axis {} group
    return c :: (← call.conditions d pattern groups axes)
  | _, _ => pure []

/-- The rows of typed alternatives. One that is not well formed is an error, and has no row. -/
def rowsOf (call : Call) (d : Lexicon) (pattern : String) (axes : List Axis) :
    List Alternative → Step (List Row)
  | [] => pure []
  | a :: rest =>
    if a.isWellFormed axes.length then do
      let cs ← call.conditions d pattern a.groups axes
      return ⟨cs, a.wording⟩ :: (← call.rowsOf d pattern axes rest)
    else do
      call.report (.invalidToken pattern "" (axes.head?.map (·.name)))
      call.rowsOf d pattern axes rest

/-- The rows of a block; none for a block of several kinds with an alternative that is not well
formed. -/
def rows (call : Call) (d : Lexicon) (block : Block) (axes : List Axis) :
    Step (Option (List Row)) :=
  if block.isComplex && block.typed.any (fun a => !a.isWellFormed axes.length) then do
    call.report (.malformed block.source)
    return none
  else do return some (← call.rowsOf d block.source axes block.typed)

end Call
end Concord

/-
# Additions in place

A lexicon grows in place, one write after the other, and the check of an alias
comes when its kind has been written. What has been written stays: that nothing
but the kind has been, where an addition fails, is due to the order of its steps.

Key definitions: `Addition`, `Addition.entry`, `Addition.kind`, `Addition.token`.
-/
import Concord.Lexicon

namespace Concord

/-- An addition to a lexicon in place. It may stop with an error, and what it has written before
that stays written. -/
abbrev Addition (α : Type) := ExceptT ConfigError (StateM Lexicon) α

namespace Addition

/-- Write a namespace. -/
def write (scope : Scope) (f : Namespace → Namespace) : Addition Unit := modify (·.update scope f)

/-- The kind of a name, which is put there without tokens if it is new. -/
def entry (scope : Scope) (name : String) : Addition Kind := do
  write scope (·.addKind name)
  let d ← get
  return (d.side scope).kind name

/-- Add a kind by its key. A kind that is there already stays as it is. -/
def kind (key : String) : Addition Unit := do
  let (scope, name) := Scope.split key
  if Name.isKind name then
    let _ ← entry scope name
  else
    let d ← get
    throw (.badKind d.locale key)

/-- Set the default token of a kind to the true token that a value names, with or without `@`. -/
def standard (scope : Scope) (kind value : String) : Addition Unit := do
  let target := (Name.unmarked? value).getD value
  let k ← entry scope kind
  match k.trueToken? target with
  | some token => write scope (·.setKind kind { k with standard := some token })
  | none =>
    let d ← get
    throw (.badAlias d.locale kind Name.defaultWord target)

/-- Stop if a name may not be added to a kind, as it is there already. -/
def checkFree (scope : Scope) (kind name : String) : Addition Unit := do
  let d ← get
  match d.occupant? scope kind name with
  | some owner => throw (.duplicatedToken d.locale kind name owner)
  | none => return

/-- Enter a name into the table of a kind, which owns it unless another kind does. -/
def enter (scope : Scope) (kind name : String) (t : RawToken) : Addition Unit := do
  let k ← entry scope kind
  match t with
  | .aliasOf target =>
    if k.tokens.contains target then
      write scope (·.setKind kind (k.add name t))
    else
      let d ← get
      throw (.badAlias d.locale kind name target)
  | .description _ => write scope (·.setKind kind (k.add name t))
  write scope (·.own name kind)

/-- Add a token or an alias to a kind. -/
def put (scope : Scope) (kind name : String) (value : Option String) : Addition Unit := do
  let d ← get
  if Name.isToken name then
    checkFree scope kind name
    match RawToken.ofValue? value with
    | none => throw (.badToken d.locale kind name value)
    | some t => enter scope kind name t
  else throw (.badToken d.locale kind name value)

/-- Add a token, an alias or the default token, after its kind. -/
def token (key name : String) (value : Option String) : Addition Unit := do
  kind key
  let (scope, kindName) := Scope.split key
  if name = Name.defaultWord then standard scope kindName (value.getD "")
  else put scope kindName name value

end Addition
end Concord

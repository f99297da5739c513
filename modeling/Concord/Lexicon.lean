/-
# The lexicon of a locale

A lexicon holds the kinds of one locale, in two namespaces. A kind has true
tokens with descriptions, aliases that stand for one of its true tokens, and
perhaps a default token. In the loose namespace a token or alias name belongs
to one kind only, and the owner index says to which; in the strict namespace
names only have to be distinct within their kind.

Lexicons grow by adding kinds and tokens. An addition that fails leaves at
most its kind behind.

Key definitions: `Kind`, `Lexicon`, `Lexicon.addKind`, `Lexicon.addToken`.
-/
import Concord.Name
import Concord.Table
import Concord.Lexicon.Error

namespace Concord

/-- What a name of a kind stands for: itself, with a description, or a true token. -/
inductive RawToken where
  | description (text : String)
  | aliasOf (target : String)
  deriving DecidableEq, Repr

namespace RawToken

/-- A token's value as configured; a missing or empty one has no meaning, nor has a lone `@`. -/
def ofValue? : Option String → Option RawToken
  | none => none
  | some value =>
    if value = "" ∨ value = "@" then none
    else match Name.unmarked? value with
      | some target => some (.aliasOf target)
      | none => some (.description value)

/-- The value that configures a token. -/
def value : RawToken → String
  | .description text => text
  | .aliasOf target => Name.marked target

end RawToken

/-- A kind: its true tokens, its aliases and its default token. -/
structure Kind where
  /-- The true tokens with their descriptions. -/
  tokens : Table String
  /-- The aliases with the true tokens they stand for. -/
  aliases : Table String
  /-- The default token, if there is one. -/
  standard : Option String
  deriving DecidableEq

namespace Kind

/-- The kind without tokens. -/
def empty : Kind := ⟨∅, ∅, none⟩

instance : Inhabited Kind := ⟨empty⟩

/-- Whether a name is a true token or an alias. -/
def hasToken (k : Kind) (name : String) : Bool := k.tokens.contains name || k.aliases.contains name

/-- The true token that a name stands for. -/
def trueToken? (k : Kind) (name : String) : Option String :=
  if k.tokens.contains name then some name else k.aliases.get? name

/-- A name stands for a true token if it is a token or an alias. -/
theorem isSome_trueToken? (k : Kind) (name : String) :
    (k.trueToken? name).isSome = k.hasToken name := by
  unfold trueToken? hasToken
  cases k.tokens.contains name <;> rfl

/-- The description of the true token that a name stands for. -/
def description? (k : Kind) (name : String) : Option String :=
  (k.trueToken? name).bind k.tokens.get?

/-- The names of true tokens and aliases, in increasing order. -/
def names (k : Kind) : List String := (k.tokens.keys ++ k.aliases.keys).mergeSort (· ≤ ·)

/-- The kind with one more name. -/
def add (k : Kind) (name : String) : RawToken → Kind
  | .description text => { k with tokens := k.tokens.insert name text }
  | .aliasOf target => { k with aliases := k.aliases.insert name target }

/-- The names as stored. -/
def rawTokens (k : Kind) : List (String × RawToken) :=
  (k.tokens.entries.map fun e => (e.1, .description e.2)) ++
    k.aliases.entries.map fun e => (e.1, .aliasOf e.2)

end Kind

/-- The kinds of a namespace, and the kind that owns each name. -/
structure Namespace where
  kinds : Table Kind
  owners : Table String
  deriving DecidableEq

namespace Namespace

/-- The namespace without kinds. -/
def empty : Namespace := ⟨∅, ∅⟩

/-- The kind of a name; one without tokens if there is none. -/
def kind (n : Namespace) (name : String) : Kind := (n.kinds.get? name).getD .empty

/-- The namespace with a kind, which is without tokens if it is new. -/
def addKind (n : Namespace) (name : String) : Namespace :=
  if n.kinds.contains name then n else { n with kinds := n.kinds.insert name .empty }

/-- The namespace with a kind in a new state. -/
def setKind (n : Namespace) (name : String) (k : Kind) : Namespace :=
  { n with kinds := n.kinds.insert name k }

/-- The namespace with an owner for a name; a first owner stays. -/
def own (n : Namespace) (name kind : String) : Namespace :=
  if n.owners.contains name then n else { n with owners := n.owners.insert name kind }

/-- The namespace with one more name of a kind, which owns the name unless another kind does. -/
def addName (n : Namespace) (kind name : String) (t : RawToken) : Namespace :=
  (n.setKind kind ((n.kind kind).add name t)).own name kind

end Namespace

/-- The kinds of a locale. -/
structure Lexicon where
  locale : String
  loose : Namespace
  strict : Namespace
  deriving DecidableEq

namespace Lexicon

/-- The lexicon of a locale without kinds. -/
def empty (locale : String) : Lexicon := ⟨locale, .empty, .empty⟩

/-- Whether a lexicon has no kinds. -/
def isEmpty (d : Lexicon) : Bool := d.loose.kinds.isEmpty && d.strict.kinds.isEmpty

/-- The namespace of a scope. -/
def side (d : Lexicon) : Scope → Namespace
  | .loose => d.loose
  | .strict => d.strict

/-- The lexicon with a namespace changed. -/
def update (d : Lexicon) (scope : Scope) (f : Namespace → Namespace) : Lexicon :=
  match scope with
  | .loose => { d with loose := f d.loose }
  | .strict => { d with strict := f d.strict }

/-- The kind that a name of a block's header means: the strict one, or else the loose one. -/
def namedKind? (d : Lexicon) (name : String) : Option Kind :=
  (d.strict.kinds.get? name).or (d.loose.kinds.get? name)

/-! ### Adding kinds and tokens -/

/-- Add a kind by its key. A kind that is there already stays as it is. -/
def addKind (d : Lexicon) (key : String) : Except ConfigError Lexicon :=
  let (scope, name) := Scope.split key
  if Name.isKind name then .ok (d.update scope (·.addKind name)) else .error (.badKind d.locale key)

/-- The kind that keeps a name from being added to a kind: any owner in the loose namespace, the
kind itself in the strict one. -/
def occupant? (d : Lexicon) (scope : Scope) (kind name : String) : Option String :=
  match scope with
  | .loose => d.loose.owners.get? name
  | .strict => if (d.strict.kind kind).hasToken name then some kind else none

/-- Set the default token of a kind to the true token that a value names, with or without `@`. -/
def setDefault (d : Lexicon) (scope : Scope) (kind value : String) : Except ConfigError Lexicon :=
  let target := (Name.unmarked? value).getD value
  let k := (d.side scope).kind kind
  match k.trueToken? target with
  | some token => .ok (d.update scope (·.setKind kind { k with standard := some token }))
  | none => .error (.badAlias d.locale kind Name.defaultWord target)

/-- Add a token or an alias to a kind. -/
def addName (d : Lexicon) (scope : Scope) (kind name : String) (value : Option String) :
    Except ConfigError Lexicon :=
  if Name.isToken name then
    match d.occupant? scope kind name with
    | some owner => .error (.duplicatedToken d.locale kind name owner)
    | none =>
      match RawToken.ofValue? value with
      | none => .error (.badToken d.locale kind name value)
      | some (.aliasOf target) =>
        if ((d.side scope).kind kind).tokens.contains target then
          .ok (d.update scope (·.addName kind name (.aliasOf target)))
        else .error (.badAlias d.locale kind name target)
      | some (.description text) => .ok (d.update scope (·.addName kind name (.description text)))
  else .error (.badToken d.locale kind name value)

/-- Add a token, an alias or the default token to a kind that is there. -/
def putToken (d : Lexicon) (key name : String) (value : Option String) :
    Except ConfigError Lexicon :=
  let (scope, kind) := Scope.split key
  if name = Name.defaultWord then d.setDefault scope kind (value.getD "")
  else d.addName scope kind name value

/-- Add a token, an alias or the default token, after its kind. If this fails the kind stays. -/
def addToken (d : Lexicon) (key name : String) (value : Option String) :
    Lexicon × Option ConfigError :=
  match d.addKind key with
  | .error e => (d, some e)
  | .ok d' =>
    match d'.putToken key name value with
    | .error e => (d', some e)
    | .ok d'' => (d'', none)

end Lexicon
end Concord

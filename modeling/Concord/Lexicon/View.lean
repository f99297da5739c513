/-
# Reading a lexicon

A view reads a lexicon from one of its namespaces. A question may be about one
kind or, in the loose view, about all kinds at once; in the strict view names
mean nothing without their kind. A kind written with `@` is always a strict one.

Key definitions: `View`, `View.owner?`, `View.tokensOf`, `View.allTokens`.
-/
import Concord.Lexicon

namespace Concord

/-- A lexicon as read from one of its namespaces. -/
structure View where
  lexicon : Lexicon
  scope : Scope

namespace Lexicon

/-- The lexicon read from a namespace. -/
def view (d : Lexicon) (scope : Scope) : View := ⟨d, scope⟩

end Lexicon

namespace View

/-- The names of the kinds of the namespace, in order. -/
def kinds (v : View) : List String := (v.lexicon.side v.scope).kinds.keys

/-- The kind of a key, with its bare name. -/
def entry? (v : View) (key : String) : Option (String × Kind) :=
  let (scope, name) := match Scope.split key with
    | (.strict, name) => (Scope.strict, name)
    | (.loose, name) => (v.scope, name)
  ((v.lexicon.side scope).kinds.get? name).map fun k => (name, k)

/-- The kind of a key. -/
def kind? (v : View) (key : String) : Option Kind := (v.entry? key).map (·.2)

/-- Whether there is a kind of a key. -/
def hasKind (v : View) (key : String) : Bool := (v.kind? key).isSome

/-- The kind that has a token or alias: the one asked about, or else the owner of the name. -/
def owner? (v : View) (token : String) (key : Option String) : Option (String × Kind) :=
  match key with
  | some key => (v.entry? key).filter fun e => e.2.hasToken token
  | none =>
    match v.scope with
    | .loose =>
      (v.lexicon.loose.owners.get? token).bind fun name =>
        (v.lexicon.loose.kinds.get? name).map fun k => (name, k)
    | .strict => none

/-- Whether a name is a token or an alias. -/
def hasToken (v : View) (token : String) (key : Option String) : Bool := (v.owner? token key).isSome

/-- Whether a name is a true token. -/
def hasTrueToken (v : View) (token : String) (key : Option String) : Bool :=
  ((v.owner? token key).map fun e => e.2.tokens.contains token).getD false

/-- Whether a name is an alias. -/
def hasAlias (v : View) (token : String) (key : Option String) : Bool :=
  ((v.owner? token key).map fun e => e.2.aliases.contains token).getD false

/-- The bare name of the kind that a token or alias belongs to. -/
def kindOf? (v : View) (token : String) (key : Option String) : Option String :=
  (v.owner? token key).map (·.1)

/-- The true token that a name stands for. -/
def trueTokenOf? (v : View) (token : String) (key : Option String) : Option String :=
  (v.owner? token key).bind fun e => e.2.trueToken? token

/-- The description of a token or alias. -/
def descriptionOf? (v : View) (token : String) (key : Option String) : Option String :=
  (v.owner? token key).bind fun e => e.2.description? token

/-- The default token of a kind. -/
def defaultTokenOf? (v : View) (key : String) : Option String := (v.kind? key).bind (·.standard)

/-! ### Listings -/

/-- The kinds that a listing covers. -/
def listed (v : View) (key : Option String) : List Kind :=
  match key with
  | some key => (v.kind? key).toList
  | none =>
    match v.scope with
    | .loose => v.lexicon.loose.kinds.values
    | .strict => []

/-- All kinds of the namespace. -/
def allListed (v : View) : List Kind := (v.lexicon.side v.scope).kinds.values

/-- The names of kinds with their descriptions. Of kinds that share a name the last one counts. -/
def described (ks : List Kind) : Table String :=
  .ofList (ks.flatMap fun k => k.names.filterMap fun name => (k.description? name).map (name, ·))

/-- The true tokens of kinds with their descriptions. -/
def trueTokens (ks : List Kind) : Table String := .ofList (ks.flatMap fun k => k.tokens.entries)

/-- The aliases of kinds with the true tokens they stand for. -/
def aliases (ks : List Kind) : Table String := .ofList (ks.flatMap fun k => k.aliases.entries)

/-- The names of kinds as stored. -/
def rawTokens (ks : List Kind) : Table RawToken := .ofList (ks.flatMap fun k => k.rawTokens)

/-- Every token and alias with its description. -/
def tokensOf (v : View) (key : Option String) : Table String := described (v.listed key)

/-- The true tokens with their descriptions. -/
def trueTokensOf (v : View) (key : Option String) : Table String := trueTokens (v.listed key)

/-- The aliases with the true tokens they stand for. -/
def aliasesOf (v : View) (key : Option String) : Table String := aliases (v.listed key)

/-- The tokens and aliases as stored. -/
def rawTokensOf (v : View) (key : Option String) : Table RawToken := rawTokens (v.listed key)

/-- The tokens and aliases of the whole namespace with their descriptions. -/
def allTokens (v : View) : Table String := described v.allListed

/-- The true tokens of the whole namespace with their descriptions. -/
def allTrueTokens (v : View) : Table String := trueTokens v.allListed

/-- The aliases of the whole namespace with the true tokens they stand for. -/
def allAliases (v : View) : Table String := aliases v.allListed

/-- The tokens and aliases of the whole namespace as stored. -/
def allRawTokens (v : View) : Table RawToken := rawTokens v.allListed

end View
end Concord

/-
# What is wrong with a configuration

A lexicon is built from a configuration only if all of it makes sense. The
errors name the locale, the kind and what was found there.

Key definitions: `ConfigError`, `ConfigError.message`, `ConfigError.advice`.
-/
import Concord.Text.Quoted

namespace Concord

/-- The first thing that is wrong with a configuration. -/
inductive ConfigError where
  /-- A kind key that is no name, or an entry that is no token table. -/
  | badKind (locale kind : String)
  /-- A token that is no name, or whose description is missing or empty. -/
  | badToken (locale kind token : String) (description : Option String)
  /-- An alias or a default whose target is no token of its kind. -/
  | badAlias (locale kind name target : String)
  /-- A name that the namespace already has. -/
  | duplicatedToken (locale kind token owner : String)
  deriving DecidableEq, Repr

namespace ConfigError

/-- The text of an error. -/
def message : ConfigError → String
  | badKind locale kind => s!"bad inflection kind '{kind}' in locale '{locale}'"
  | badToken locale kind token description =>
    s!"bad inflection token '{token}' of kind '{kind}' in locale '{locale}'" ++
      match description with
      | some text => " (value: " ++ Text.quoted text ++ ")"
      | none => ""
  | badAlias locale kind name target =>
    s!"bad alias '{name}' -> '{target}' for kind '{kind}' in locale '{locale}'"
  | duplicatedToken locale kind token owner =>
    s!"duplicated token '{token}' of kind '{kind}' in locale '{locale}' " ++
      s!"(already defined for kind '{owner}')"

/-- What to do about an error. -/
def advice : ConfigError → String
  | badKind .. => "kind names must be tables of tokens and avoid reserved characters"
  | badToken .. => "every token needs a non-empty description; `default` is reserved"
  | badAlias .. => "aliases and defaults must point at a true token of the same kind"
  | duplicatedToken .. =>
    "loose kinds share one namespace; move one kind under `@kind` to reuse names"

end ConfigError
end Concord

/-
# What keeps a block from being resolved

Each error names the block as it was written and what in it, or in the values
that were supplied for it, has no meaning.

Key definitions: `ResolutionError`, `ResolutionError.message`.
-/
import Concord.Text.Quoted

namespace Concord

/-- What is wrong with a block or with the values supplied for it. -/
inductive ResolutionError where
  /-- A kind of the header is not known, or none can be inferred. -/
  | unknownKind (pattern kind : String) (suggestions : List String)
  /-- A spec names no token, or an alternative has no specs. -/
  | invalidToken (pattern token : String) (kind : Option String)
  /-- A spec names a token of other kinds only. -/
  | misplacedToken (pattern token kind : String)
  /-- There is neither a value nor a default token. -/
  | optionNotFound (pattern kind : String)
  /-- The value is nothing, or no token of the kind. -/
  | invalidOption (pattern kind : String) (value : Option String)
  /-- The groups of an alternative do not match the kinds of the header. -/
  | malformed (pattern : String)
  deriving DecidableEq, Repr

namespace ResolutionError

/-- A value as it stands in a message. -/
def shownOption : Option String → String
  | some value => "Some(" ++ Text.quoted value ++ ")"
  | none => "None"

/-- The text of an error. -/
def message : ResolutionError → String
  | unknownKind pattern kind suggestions =>
    s!"unknown inflection kind '{kind}' in pattern '{pattern}'" ++
      if suggestions.isEmpty then "" else "; did you mean: " ++ ", ".intercalate suggestions ++ "?"
  | invalidToken pattern token _ => s!"invalid token '{token}' in pattern '{pattern}'"
  | misplacedToken pattern token kind =>
    s!"token '{token}' in pattern '{pattern}' does not belong to kind '{kind}'"
  | optionNotFound pattern kind =>
    s!"no option given for kind '{kind}' in pattern '{pattern}' and no default token"
  | invalidOption pattern kind value =>
    "invalid option " ++ shownOption value ++ s!" for kind '{kind}' in pattern '{pattern}'"
  | malformed pattern => s!"malformed complex pattern '{pattern}'"

end ResolutionError
end Concord

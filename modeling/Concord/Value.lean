/-
# Values that callers supply

For a kind a caller supplies a token, or expressly nothing, or a callable that
is asked, when the value is needed, with the key it was supplied under and the
locale. Values are supplied under the name of a kind, or under `@` and the name,
which goes before.

Key definitions: `Value`, `Args`.
-/
import Concord.Table
import Concord.Text.Quoted

namespace Concord

/-- What a caller supplies under a key. -/
inductive Value where
  | token (name : String)
  | nil
  | lazy (call : String → String → Option String)

/-- The values that a caller supplies, by their keys. -/
abbrev Args := Table Value

namespace Value

/-- The token, if one is supplied outright. -/
def token? : Value → Option String
  | .token name => some name
  | _ => none

/-- Whether expressly nothing is supplied. -/
def isNil : Value → Bool
  | .nil => true
  | _ => false

/-- Whether a callable is supplied. -/
def isLazy : Value → Bool
  | .lazy _ => true
  | _ => false

/-- How a value is shown to a developer. -/
def shown : Value → String
  | .token name => "Token(" ++ Text.quoted name ++ ")"
  | .nil => "Nil"
  | .lazy _ => "Lazy(..)"

end Value
end Concord

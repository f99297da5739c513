/-
# Switches of a resolution

How a string is resolved depends on six switches. A caller sets those that are
to differ from the defaults in force.

Key definitions: `Options`, `Overrides`, `Overrides.apply`.
-/

namespace Concord

/-- The switches of a resolution. -/
structure Options where
  /-- Stop with an error where a block would otherwise fall back to its free text. -/
  raises : Bool := false
  /-- Take a value that is no token of its kind for the default token. -/
  unknownDefaults : Bool := true
  /-- Let no typed alternative apply where no value is given, and take the default token for a
  token that no alternative names. -/
  excludedDefaults : Bool := false
  /-- Let the aliases named in alternatives stand for their tokens. -/
  aliasedPatterns : Bool := false
  /-- Resolve the blocks in symbols. -/
  interpolateSymbols : Bool := false
  /-- Resolve the texts in lists and maps. -/
  traverses : Bool := true
  deriving DecidableEq, Repr, Inhabited

/-- The switches that a caller sets. -/
structure Overrides where
  raises : Option Bool := none
  unknownDefaults : Option Bool := none
  excludedDefaults : Option Bool := none
  aliasedPatterns : Option Bool := none
  interpolateSymbols : Option Bool := none
  traverses : Option Bool := none
  deriving DecidableEq, Repr, Inhabited

/-- The switches with those a caller sets in the place of the base ones. -/
def Overrides.apply (o : Overrides) (base : Options) : Options where
  raises := o.raises.getD base.raises
  unknownDefaults := o.unknownDefaults.getD base.unknownDefaults
  excludedDefaults := o.excludedDefaults.getD base.excludedDefaults
  aliasedPatterns := o.aliasedPatterns.getD base.aliasedPatterns
  interpolateSymbols := o.interpolateSymbols.getD base.interpolateSymbols
  traverses := o.traverses.getD base.traverses

end Concord

/-
# Templates: literal text and pattern blocks

A translatable string is read as a *template*: literal text, and pattern
blocks such as `@gender{f:Lady|m:Sir|You}` that are resolved against the
kinds named in their header. A block lists alternatives. A *typed* one says,
for each kind of the header, which tokens it is written for; a *free* one has
no tokens, and is the text used when no typed alternative applies.

This module holds the types and what can be read off them.

Key definitions: `Spec`, `Wording`, `Alternative`, `Block`, `Template`.
-/

namespace Concord

/-- One entry of an alternative's token list. -/
inductive Spec where
  /-- The token or alias of this name. -/
  | name (name : String)
  /-- Any value but the token or alias of this name, written `!name`. -/
  | butNot (name : String)
  /-- Any value, written `*`. -/
  | wildcard
  /-- Text that can name no token. -/
  | invalid (written : String)
  deriving DecidableEq, Repr

/-- What an alternative puts in the place of its block. -/
inductive Wording where
  /-- This text. -/
  | plain (text : String)
  /-- The description of the token that was chosen for the block, written `~`. -/
  | loud
  deriving DecidableEq, Repr

/-- One alternative of a block: a group of specs for each kind, and a wording. -/
structure Alternative where
  groups : List (List Spec)
  wording : Wording
  deriving DecidableEq, Repr

/-- A pattern block. -/
structure Block where
  /-- The kinds named in the header; none if the kind is to be inferred. -/
  path : List String
  /-- The alternatives as listed. -/
  alternatives : List Alternative
  /-- The block as written, for messages. -/
  source : String
  deriving DecidableEq, Repr

/-- A part of a template. -/
inductive Segment where
  | literal (text : String)
  | block (block : Block)
  deriving DecidableEq, Repr

/-- A string as literal text and pattern blocks, in order. -/
structure Template where
  segments : List Segment
  deriving DecidableEq, Repr

namespace Alternative

/-- An alternative without tokens is the free text of its block. -/
def isFree (a : Alternative) : Bool := a.groups.isEmpty

/-- The groups match a header of so many kinds: one for each (a header without kinds stands for
one), and none of them empty. -/
def isWellFormed (a : Alternative) (arity : Nat) : Bool :=
  a.groups.length == max arity 1 && a.groups.all fun g => !g.isEmpty

/-- The specs of all groups, in order. -/
def specs (a : Alternative) : List Spec := a.groups.flatten

end Alternative

namespace Block

/-- A block of two kinds or more. -/
def isComplex (b : Block) : Bool := 1 < b.path.length

/-- The alternatives that have tokens. -/
def typed (b : Block) : List Alternative := b.alternatives.filter fun a => !a.isFree

/-- The wording of the first free alternative. -/
def freeWording (b : Block) : Option Wording := (b.alternatives.find? (·.isFree)).map (·.wording)

/-- The specs of all alternatives, in order. -/
def specs (b : Block) : List Spec := b.alternatives.flatMap (·.specs)

/-- Whether any spec is the wildcard. -/
def hasWildcard (b : Block) : Bool := b.specs.contains .wildcard

end Block

namespace Template

/-- The blocks of a template, in order. -/
def blocks (t : Template) : List Block :=
  t.segments.filterMap fun
    | .block b => some b
    | .literal _ => none

/-- Whether a template has no blocks. -/
def isLiteral (t : Template) : Bool := t.blocks.isEmpty

end Template

end Concord

/-
# Keyed inflections

An inflection may also be written as a list of keys and texts: a key is a list
of specs, with its wording as text. Keys that start with `@` direct: `@kind`
names the kind, `@free` gives the free text, and `@prefix` and `@suffix` give
literal text before and behind the block. Other such keys mean nothing.

Of a repeated key the last text counts, at the place of the first.

Key definitions: `Keyed.ofPairs`, `Keyed.toBlock`, `Keyed.toTemplate`.
-/
import Concord.Template.Body

namespace Concord

/-- An inflection written with keys. -/
structure Keyed where
  /-- The kind of the block; none if it is to be inferred. -/
  kind : Option String
  /-- The lists of specs with their wordings, in order. -/
  tokens : List (String × String)
  /-- The free text. -/
  free : Option String
  /-- The literal text before the block. -/
  lead : String
  /-- The literal text behind the block. -/
  trail : String
  deriving DecidableEq, Repr

namespace Keyed

/-- The inflection without keys. -/
def empty : Keyed := ⟨none, [], none, "", ""⟩

/-- The list with a text for a key, in the place of the key's text if it has one. -/
def setText (key text : String) : List (String × String) → List (String × String)
  | [] => [(key, text)]
  | (k, old) :: rest => if k = key then (k, text) :: rest else (k, old) :: setText key text rest

/-- The inflection with one more key. -/
def add (k : Keyed) (key text : String) : Keyed :=
  if key = "@kind" then { k with kind := some text }
  else if key = "@free" then { k with free := some text }
  else if key = "@prefix" then { k with lead := text }
  else if key = "@suffix" then { k with trail := text }
  else if (Name.unmarked? key).isSome then k
  else { k with tokens := setText key text k.tokens }

/-- The inflection of a list of keys and texts. -/
def ofPairs (pairs : List (String × String)) : Keyed :=
  pairs.foldl (fun k p => k.add p.1 p.2) empty

/-- The alternative of a list of specs and a wording. -/
def alternative (specs text : String) : Alternative where
  groups := [(specs.toList.splitOn ',').map fun s => Spec.parse (String.ofList s)]
  wording := Wording.parse text

/-- The text between the braces of the block. -/
def body (k : Keyed) : String :=
  "|".intercalate ((k.tokens.map fun t => t.1 ++ ":" ++ t.2) ++ k.free.toList)

/-- The block: the alternatives of the keys in order, and then the free one. -/
def toBlock (k : Keyed) : Block where
  path := k.kind.toList
  alternatives :=
    (k.tokens.map fun t => alternative t.1 t.2) ++ k.free.toList.map fun t => ⟨[], Wording.parse t⟩
  source := "@" ++ k.kind.getD "" ++ "\x7b" ++ k.body ++ "\x7d"

/-- A literal segment, unless it is empty. -/
def literal (text : String) : List Segment := if text = "" then [] else [.literal text]

/-- The block between its literal texts. -/
def toTemplate (k : Keyed) : Template :=
  ⟨literal k.lead ++ .block k.toBlock :: literal k.trail⟩

end Keyed
end Concord

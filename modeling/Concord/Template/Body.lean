/-
# Alternatives as written

The text between the braces of a block lists its alternatives, separated by
`|`. An alternative with an unescaped `:` is typed: what stands before its
first one are the token groups, separated by `+` in a block of two kinds or
more, each a list of specs separated by `,`; what stands behind is the
wording. Without a `:` the whole is the wording of a free alternative.

Key definitions: `Spec.parse`, `Wording.parse`, `Alternative.parse`,
`Template.parseBody`.
-/
import Concord.Name
import Concord.Template
import Concord.Template.Escape

namespace Concord

/-- A spec as written: `*`, a token name, `!` and a token name, or else invalid. -/
def Spec.parse (written : String) : Spec :=
  if written = "*" then .wildcard
  else match written.toList with
    | '!' :: rest =>
      let name := String.ofList rest
      if Name.isToken name then .butNot name else .invalid written
    | _ => if Name.isToken written then .name written else .invalid written

/-- A wording as written. Escapes are removed; `~` alone is the loud wording, and backslashes before
a `~` that is otherwise alone lose one of them. -/
def Wording.parse (written : String) : Wording :=
  let text := Template.unescape written.toList
  if text = ['~'] then .loud
  else match text with
    | '\\' :: rest =>
      if rest.dropWhile (· == '\\') = ['~'] then .plain (String.ofList rest)
      else .plain (String.ofList text)
    | _ => .plain (String.ofList text)

namespace Alternative

/-- The specs of a group as written; an empty text is a group without specs. -/
def parseGroup (written : List Char) : List Spec :=
  if written.isEmpty then []
  else (written.splitOn ',').map fun s => Spec.parse (String.ofList s)

/-- The groups before a `:`; in a block of at most one kind there is one group. -/
def parseGroups (arity : Nat) (written : List Char) : List (List Spec) :=
  if 1 < arity then (written.splitOn '+').map parseGroup else [parseGroup written]

/-- An alternative as written, in a block with a header of so many kinds. -/
def parse (arity : Nat) (written : List Char) : Alternative :=
  match Template.cutFirst ':' written with
  | none => ⟨[], Wording.parse (String.ofList written)⟩
  | some (groups, wording) =>
    ⟨parseGroups arity groups, Wording.parse (String.ofList wording)⟩

end Alternative

namespace Template

/-- The alternatives between the braces of a block with a header of so many kinds. -/
def parseBody (body : String) (arity : Nat) : List Alternative :=
  (cut '|' body.toList).map (Alternative.parse arity)

end Template
end Concord

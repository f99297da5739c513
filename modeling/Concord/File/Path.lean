/-
# Paths of files

The parts of a path stand between slashes; empty parts and single dots mean
nothing. The last part is the name of the file. Its extension is what stands
behind the last dot, provided that something stands before it, and its stem is
the rest.

Key definitions: `Path.name?`, `Path.stem?`, `Path.extension?`.
-/

namespace Concord
namespace Path

/-- The parts of a path that mean something. -/
def parts (path : String) : List (List Char) :=
  (path.toList.splitOn '/').filter fun part => !part.isEmpty && part != ['.']

/-- The name of the file; the way up is no name. -/
def name? (path : String) : Option (List Char) :=
  ((parts path).getLast?).filter (· != ['.', '.'])

/-- A name before its last dot, and the text behind it, if something stands before the dot. -/
def splitName (name : List Char) : List Char × Option (List Char) :=
  let back := name.reverse
  match back.dropWhile (· != '.') with
  | '.' :: c :: stem => ((c :: stem).reverse, some (back.takeWhile (· != '.')).reverse)
  | _ => (name, none)

/-- The stem of the file's name. -/
def stem? (path : String) : Option String :=
  (name? path).map fun name => String.ofList (splitName name).1

/-- The extension of the file's name. -/
def extension? (path : String) : Option String :=
  ((name? path).bind fun name => (splitName name).2).map String.ofList

end Path
end Concord

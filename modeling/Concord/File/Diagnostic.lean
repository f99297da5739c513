/-
# Diagnostics

What a developer is told about a configuration that cannot be loaded: a message,
the place in the file if there is one to point at, and advice for errors in what
the configuration says.

Key definitions: `Diagnostic.spanAt`, `Diagnostic.ofError`.
-/
import Concord.File.Load

namespace Concord

/-- What a developer is told. -/
structure Diagnostic where
  message : String
  span : Option Span
  advice : Option String
  deriving DecidableEq, Repr

namespace Diagnostic

/-- The code of all diagnostics about configurations. -/
def code : String := "inflect::config"

/-- The byte at a place of a text, as far as it lies inside the text. -/
def spanAt (bytes : List UInt8) (place : Text.Position) : Span :=
  Span.clamp bytes.length ⟨place.offset bytes, 1⟩

/-- The message about a text that is not in its format. -/
def syntaxMessage (said : String) : String := s!"syntax error: {said}"

/-- The diagnostic of an error, with the text of the file. -/
def ofError (content : String) (e : LoadError) : Diagnostic :=
  let bytes := content.toUTF8.toList
  match e with
  | .unreadable .. | .noPath _ => ⟨e.message, none, none⟩
  | .notToml _ complaint =>
    ⟨syntaxMessage complaint.message, complaint.part.map (Span.clamp bytes.length), none⟩
  | .notJson _ place said => ⟨syntaxMessage said, some (spanAt bytes place), none⟩
  | .config e => ⟨e.message, none, some e.advice⟩

end Diagnostic
end Concord

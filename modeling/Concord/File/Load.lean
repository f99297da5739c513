/-
# Configuration files

A file whose extension is `json` is read as JSON, any other as TOML. It must be
UTF-8, and its data an object. What the system says of a file that it cannot
read, and what the readers of the two formats say of a text that they cannot
read, comes from outside; an error passes it on.

Key definitions: `Files`, `LoadError`, `Config.ofFile`, `Lexicon.ofFile`.
-/
import Concord.Config.Coding
import Concord.File.Path
import Concord.Json.Reader
import Concord.Lexicon.Build
import Concord.Text.Position
import Concord.Toml.Reader

namespace Concord

/-- What a reader of TOML says of a text that it cannot read: all of it, the message alone, and the
part of the text that is at fault, if it knows one. -/
structure Toml.Complaint where
  said : String
  message : String
  part : Option Span
  deriving DecidableEq, Repr

/-- What keeps a configuration from being loaded. -/
inductive LoadError where
  /-- There is no such file, or it is not text; the system says why. -/
  | unreadable (path reason : String)
  /-- The text is no TOML document. -/
  | notToml (path : String) (complaint : Toml.Complaint)
  /-- The text is no JSON object; reading stopped at this place, and the reader says why. -/
  | notJson (path : String) (place : Text.Position) (said : String)
  /-- The configuration makes no sense. -/
  | config (error : ConfigError)
  /-- There is no file to load a locale from once more. -/
  | noPath (locale : String)
  deriving DecidableEq, Repr

/-- The text of an error. -/
def LoadError.message : LoadError → String
  | unreadable path reason => s!"failed to read '{path}': {reason}"
  | notToml path complaint => s!"{path}: {complaint.said}"
  | notJson path _ said => s!"{path}: {said}"
  | config error => error.message
  | noPath locale => s!"no configuration file recorded for locale '{locale}'"

/-- What there is outside: the bytes of files, or what the system says of a path that it cannot read;
and what the readers of the two formats say of a text that they cannot read. -/
structure Files where
  content : String → Except String ByteArray
  toml : String → Toml.Complaint
  json : String → String

namespace Files

/-- What the system says of bytes that are no text. -/
def notText : String := "stream did not contain valid UTF-8"

/-- The text of a file, or what the system says if it cannot be read. -/
def text (files : Files) (path : String) : Except String String :=
  match files.content path with
  | .error reason => .error reason
  | .ok bytes =>
    match String.fromUTF8? bytes with
    | some text => .ok text
    | none => .error notText

end Files

namespace Config

/-- The configuration of a text in TOML. -/
def ofToml (text : String) : Option Config :=
  (Toml.parse text.toList).map ofMembers

/-- The configuration of a text in JSON, or the place where reading it stopped. -/
def ofJson (text : String) : Except Text.Position Config :=
  match Json.parseObject text.toList with
  | .ok members => .ok (ofMembers members)
  | .error fault =>
    let bytes := text.toUTF8.toList
    .error (.ofIndex bytes (bytes.length - fault.left))

/-- The configuration of a file's text. -/
def ofText (files : Files) (path text : String) : Except LoadError Config :=
  if Path.extension? path = some "json" then
    (ofJson text).mapError fun place => .notJson path place (files.json text)
  else
    match ofToml text with
    | some c => .ok c
    | none => .error (.notToml path (files.toml text))

/-- The configuration of a file. -/
def ofFile (files : Files) (path : String) : Except LoadError Config :=
  match files.text path with
  | .ok text => ofText files path text
  | .error reason => .error (.unreadable path reason)

end Config

/-- The lexicon that the configuration of a file describes. -/
def Lexicon.ofFile (files : Files) (path locale : String) : Except LoadError Lexicon :=
  match Config.ofFile files path with
  | .error e => .error e
  | .ok config => (ofConfig locale config).mapError .config

end Concord

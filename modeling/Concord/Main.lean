/-
# The command-line tool

Reads the files that the command names, runs it, and writes what it has to say.

Key definition: `main`.
-/
import Concord.Command

open Concord

/-- The content of a file, or what the system says if it cannot be read. -/
def readContent (path : String) : IO (Except String ByteArray) :=
  try return .ok (← IO.FS.readBinFile path) catch e => return .error (toString e)

/-- What is said of a text that is no JSON object. -/
def saidOfJson (text : String) : String :=
  match Config.ofJson text with
  | .ok _ => ""
  | .error place => s!"no JSON object at line {place.line} column {place.column}"

/-- Files with their contents, and what is said of texts that cannot be read. -/
def filesOf (contents : List (String × Except String ByteArray)) : Files where
  content path := (contents.lookup path).getD (.error "not read")
  toml _ := ⟨"no TOML document", "no TOML document", none⟩
  json := saidOfJson

/-- Runs the command of a command line. -/
def main (args : List String) : IO UInt32 := do
  let paths := ((Command.parse args).map Command.files).getD []
  let contents ← paths.mapM readContent
  let outcome := Command.runLine (filesOf (paths.zip contents)) args
  IO.print outcome.output
  IO.eprint outcome.errors
  return outcome.exit.toUInt32

/-
# Running commands

A command writes lines and ends with a code: 0 if all is well, 65 if a file or a
string is not in order, 70 if there is no configuration to evaluate a string in,
2 if the command line is not understood.

Key definitions: `Command.Outcome`, `Command.run`.
-/
import Concord.Command.Check
import Concord.Command.Usage
import Concord.File.Diagnostic
import Concord.Inflector

namespace Concord
namespace Command

/-- How a command ends: its code, what it writes, and what it says about errors. -/
structure Outcome where
  exit : Nat
  output : String
  errors : String
  deriving DecidableEq, Repr

/-- Lines as text. -/
def unlines (lines : List String) : String := String.join (lines.map (· ++ "\n"))

/-- The code for files and strings that are not in order. -/
def dataError : Nat := 65

/-- The code for a configuration that cannot be loaded. -/
def softwareError : Nat := 70

/-- The code for a command line that is not understood. -/
def usageError : Nat := 2

/-- What is told about a file that cannot be loaded. -/
def diagnose (contents : Files) (file : String) (e : LoadError) : Diagnostic :=
  .ofError ((contents.text file).toOption.getD "") e

/-- Check files. -/
def runCheck (contents : Files) (files : List String) (json : Bool) : Outcome :=
  let reports := files.map (report contents)
  let failed := reports.filterMap fun r => r.error.map (diagnose contents r.file)
  let exit := if failed.isEmpty then 0 else dataError
  if json then ⟨exit, unlines [(Json.array (reports.map (·.toJson))).pretty], ""⟩
  else
    ⟨exit, unlines ((reports.filter (·.error.isNone)).flatMap reportLines),
      unlines (failed.map (·.message))⟩

/-- The switches of an evaluation. -/
def Evaluation.overrides (e : Evaluation) : Overrides where
  raises := some e.raises
  unknownDefaults := some !e.noUnknownDefaults
  excludedDefaults := some e.excludedDefaults
  aliasedPatterns := some e.aliasedPatterns

/-- The value of an argument. -/
def valueOf : Option String → Value
  | some name => .token name
  | none => .nil

/-- The values of an evaluation; of a repeated kind the last counts. -/
def Evaluation.values (e : Evaluation) : Args :=
  .ofList (e.args.map fun a => (a.1, valueOf a.2))

/-- Evaluate a string. -/
def runEval (contents : Files) (e : Evaluation) : Outcome :=
  let start := Inflector.fresh {}
  match start.session.load contents e.locale e.config with
  | .error error => ⟨softwareError, "", unlines [(diagnose contents e.config error).message]⟩
  | .ok (s, _) =>
    let i : Inflector := { start with session := s }
    match (i.interpolate e.text e.locale (Evaluation.values e) (Evaluation.overrides e)).1.1 with
    | .ok text =>
      let line := if e.json then (Json.object [("result", .string text)]).pretty else text
      ⟨0, unlines [line], ""⟩
    | .error error =>
      let line :=
        if e.json then (Json.object [("error", .string error.message)]).pretty else error.message
      ⟨dataError, "", unlines [line]⟩

/-- Run a command with the contents of files. -/
def run (contents : Files) : Command → Outcome
  | .check files json => runCheck contents files json
  | .eval e => runEval contents e

/-- What is said about a command line that is not understood. -/
def usage : String := "usage: check FILE... | eval --locale L --config FILE --text S"

/-- Run a command line. -/
def runLine (contents : Files) (args : List String) : Outcome :=
  match parse args with
  | some command => run contents command
  | none => ⟨usageError, "", unlines [usage]⟩

/-- The files that a command reads. -/
def files : Command → List String
  | .check files _ => files
  | .eval e => [e.config]

end Command
end Concord

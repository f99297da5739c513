/-
# Command lines

There are two commands: `check` takes configuration files, `eval` takes a
configuration, a locale and a string. Options may stand in any order, a value
behind its option or, for long ones, behind an equals sign. Behind a double
dash everything is a file. All options but the arguments of a resolution are
given at most once.

Key definitions: `Command`, `Command.parse`.
-/

namespace Concord

/-- The settings of an evaluation. -/
structure Evaluation where
  locale : String
  config : String
  text : String
  /-- The values for kinds, in order; expressly nothing where there is no value. -/
  args : List (String × Option String)
  raises : Bool
  noUnknownDefaults : Bool
  excludedDefaults : Bool
  aliasedPatterns : Bool
  json : Bool
  deriving DecidableEq, Repr

/-- A command. -/
inductive Command where
  | check (files : List String) (json : Bool)
  | eval (settings : Evaluation)
  deriving DecidableEq, Repr

namespace Command

/-- A part of a command line. -/
inductive Part where
  | positional (text : String)
  | switch (name : String)
  | option (name value : String)
  deriving DecidableEq, Repr

/-- What a command understands: its switches, its options with a value, and its one-letter options
with the names they stand for. -/
structure Grammar where
  switches : List String
  options : List String
  letters : List (Char × String)

/-- Whether a text can be the value of an option that stands before it. -/
def isValue (text : String) : Bool :=
  match text.toList with
  | '-' :: _ :: _ => false
  | _ => true

/-- A text before its first equals sign, and the text behind it. -/
def splitEquals (text : List Char) : List Char × Option (List Char) :=
  match text.dropWhile (· != '=') with
  | _ :: value => (text.takeWhile (· != '='), some value)
  | [] => (text, none)

/-- A part before other parts. -/
def before (part : Part) (rest : Option (List Part)) : Option (List Part) := rest.map (part :: ·)

/-- The parts of a command line. -/
def parts (g : Grammar) : List String → Option (List Part)
  | [] => some []
  | arg :: rest =>
    match arg.toList with
    | ['-', '-'] => some (rest.map .positional)
    | '-' :: '-' :: long =>
      let (name, value) := splitEquals long
      let name := String.ofList name
      if g.switches.contains name then
        if value.isSome then none else before (.switch name) (parts g rest)
      else if g.options.contains name then
        match value, rest with
        | some value, rest => before (.option name (String.ofList value)) (parts g rest)
        | none, value :: rest =>
          if isValue value then before (.option name value) (parts g rest) else none
        | none, [] => none
      else none
    | '-' :: letter :: attached =>
      match g.letters.lookup letter with
      | none => none
      | some name =>
        match attached, rest with
        | '=' :: value, rest => before (.option name (String.ofList value)) (parts g rest)
        | c :: value, rest => before (.option name (String.ofList (c :: value))) (parts g rest)
        | [], value :: rest =>
          if isValue value then before (.option name value) (parts g rest) else none
        | [], [] => none
    | _ => before (.positional arg) (parts g rest)

/-- The texts that stand without an option. -/
def positionals (parts : List Part) : List String :=
  parts.filterMap fun
    | .positional text => some text
    | _ => none

/-- The values of an option, in order. -/
def valuesOf (name : String) (parts : List Part) : List String :=
  parts.filterMap fun
    | .option n value => if n = name then some value else none
    | _ => none

/-- Whether a switch is given; none if it is given more than once. -/
def switch? (name : String) (parts : List Part) : Option Bool :=
  match parts.count (.switch name) with
  | 0 => some false
  | 1 => some true
  | _ => none

/-- The value of an option that is given once. -/
def single? (name : String) (parts : List Part) : Option String :=
  match valuesOf name parts with
  | [value] => some value
  | _ => none

/-- A path, which is not empty. -/
def path? (text : String) : Option String := if text = "" then none else some text

/-- A kind and its value, with an equals sign between them; without one, expressly nothing. -/
def argument? (text : String) : Option (String × Option String) :=
  let (kind, value) := splitEquals text.toList
  if kind.isEmpty then none else some (String.ofList kind, value.map String.ofList)

/-- What `check` understands. -/
def checkGrammar : Grammar := ⟨["json"], [], []⟩

/-- What `eval` understands. -/
def evalGrammar : Grammar where
  switches := ["raises", "no-unknown-defaults", "excluded-defaults", "aliased-patterns", "json"]
  options := ["locale", "config", "text", "arg"]
  letters := [('a', "arg")]

/-- The command `check` with its arguments. -/
def parseCheck (args : List String) : Option Command := do
  let parts ← parts checkGrammar args
  let files ← (positionals parts).mapM path?
  if files.isEmpty then none else return .check files (← switch? "json" parts)

/-- The command `eval` with its arguments. -/
def parseEval (args : List String) : Option Command := do
  let parts ← parts evalGrammar args
  if !(positionals parts).isEmpty then none
  return .eval
    { locale := ← single? "locale" parts
      config := ← (single? "config" parts).bind path?
      text := ← single? "text" parts
      args := ← (valuesOf "arg" parts).mapM argument?
      raises := ← switch? "raises" parts
      noUnknownDefaults := ← switch? "no-unknown-defaults" parts
      excludedDefaults := ← switch? "excluded-defaults" parts
      aliasedPatterns := ← switch? "aliased-patterns" parts
      json := ← switch? "json" parts }

/-- A command line as a command; none if it is not understood. -/
def parse : List String → Option Command
  | "check" :: args => parseCheck args
  | "eval" :: args => parseEval args
  | _ => none

end Command
end Concord

/-
# One resolution call

While a string is resolved, its values are looked up for every block. What a
callable answers is remembered under the key that it was found under, and not
asked for again. Apart from what is remembered, every time that a callable is
asked is on record, with what it was asked. Errors stop the call if it raises;
otherwise they are passed over.

Key definitions: `Call`, `Memo`, `Step`, `Call.invoke`, `Call.supplied`, `Call.report`.
-/
import Concord.Lexicon
import Concord.Options
import Concord.Resolution.Error
import Concord.Value

namespace Concord

/-- What a resolution call works with. Without a lexicon every block is empty. -/
structure Call where
  lexicon : Option Lexicon
  locale : String
  args : Args
  options : Options

/-- A time that a callable was asked: the key and the locale that it was asked with. -/
structure Invocation where
  key : String
  locale : String
  deriving DecidableEq, Repr

/-- What a call keeps: what callables have answered, by the keys that they were found under; and the
record of the times that one was asked. -/
structure Memo where
  answers : Table (Option String)
  asked : List Invocation
  deriving DecidableEq

/-- Nothing is remembered, and no callable has been asked. -/
def Memo.empty : Memo := ⟨∅, []⟩

/-- A part of a resolution: it may ask callables, and it may stop with an error. -/
abbrev Step := ExceptT ResolutionError (StateM Memo)

/-- What is supplied for a kind. -/
inductive Supply where
  /-- There is no value under either key. -/
  | missing
  /-- Expressly nothing, or a callable that answered nothing. -/
  | nil
  /-- A token name, valid or not. -/
  | token (name : String)
  deriving DecidableEq, Repr

/-- The supply that an answer stands for. -/
def Supply.ofAnswer : Option String → Supply
  | some name => .token name
  | none => .nil

namespace Call

/-- Ask a callable with a key and the locale. That it is asked goes on record. -/
def invoke (call : Call) (key : String) (f : String → String → Option String) :
    StateM Memo (Option String) :=
  modifyGet fun memo =>
    (f key call.locale, { memo with asked := memo.asked ++ [⟨key, call.locale⟩] })

/-- The answer of the callable under a key. It is asked if no answer is remembered, and what it
answers is remembered. -/
def ask (call : Call) (key : String) (f : String → String → Option String) :
    StateM Memo (Option String) := do
  match (← get).answers.get? key with
  | some answer => return answer
  | none =>
    let answer ← call.invoke key f
    modify fun memo => { memo with answers := memo.answers.insert key answer }
    return answer

/-- The supply of a value found under a key. -/
def supplyOf (call : Call) (key : String) : Value → StateM Memo Supply
  | .token name => pure (.token name)
  | .nil => pure .nil
  | .lazy f => do return .ofAnswer (← call.ask key f)

/-- What is supplied for a kind: the value under `@` and its name, else that under its name. -/
def supplied (call : Call) (kind : String) : StateM Memo Supply :=
  match call.args.get? (Name.marked kind) with
  | some value => call.supplyOf (Name.marked kind) value
  | none =>
    match call.args.get? kind with
    | some value => call.supplyOf kind value
    | none => pure .missing

/-- Stop with an error if the call raises; else go on. -/
def report (call : Call) (e : ResolutionError) : Step Unit :=
  if call.options.raises then throw e else pure ()

end Call
end Concord

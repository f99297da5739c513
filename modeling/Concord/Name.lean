/-
# Names of kinds and tokens

A *kind* is a grammatical category (gender, tense), a *token* one of its
values. Their names may hold any character that is neither white space nor
one of the marks that patterns and configurations give a meaning to. The word
`default` is never a name: in a configuration it sets the default token of a
kind, and as a caller's value it asks for that token. Kind names also keep
clear of the option keys that start with `inflector_`.

A kind key written with a leading `@` addresses the strict namespace, in which
token names belong to their kind; without it the loose one, which shares its
token names among all kinds.

Key definitions: `Name.isKind`, `Name.isToken`, `Name.isChoice`, `Scope.split`.
-/
import Concord.Text.Blank

namespace Concord

namespace Name

/-- The characters with a meaning of their own in patterns or configurations. -/
def reserved : List Char := ['@', ',', '+', '!', ':', '~', '*', '|', '{', '}', '\\']

/-- The word that stands for a kind's default token. -/
def defaultWord : String := "default"

/-- How the option keys start that no kind may be named like. -/
def optionStem : String := "inflector_"

/-- Whether a character may stand in a name. -/
def isNameChar (c : Char) : Bool := !Text.isBlank c && !reserved.contains c

/-- Whether a text has at least one character, and only characters of names. -/
def isSpelled (name : String) : Bool := !name.toList.isEmpty && name.toList.all isNameChar

/-- Whether a text may name a kind. -/
def isKind (name : String) : Bool :=
  isSpelled name && !optionStem.toList.isPrefixOf name.toList && name != defaultWord

/-- Whether a text may name a token or an alias. -/
def isToken (name : String) : Bool := isSpelled name && name != defaultWord

/-- Whether a text may be a caller's value for a kind: a token name, or the word for the default. -/
def isChoice (value : String) : Bool := value == defaultWord || isToken value

/-- A text without its first character, if that is `@`. -/
def unmarked? (text : String) : Option String :=
  match text.toList with
  | '@' :: rest => some (String.ofList rest)
  | _ => none

/-- A name behind an `@`: the key of a strict kind, or an alias's value. -/
def marked (name : String) : String := "@" ++ name

@[simp] theorem unmarked?_marked (name : String) : unmarked? (marked name) = some name := by
  simp [unmarked?, marked, String.toList_append]

theorem unmarked?_eq_some_iff {text name : String} :
    unmarked? text = some name ↔ text = marked name := by
  constructor
  · intro h
    unfold unmarked? at h
    split at h
    · next rest heq =>
      cases h
      rw [← String.toList_inj, heq]
      simp [marked, String.toList_append]
    · cases h
  · rintro rfl
    exact unmarked?_marked name

theorem isToken_of_isKind {name : String} (h : isKind name = true) : isToken name = true := by
  simp only [isKind, isToken, Bool.and_eq_true] at *
  exact ⟨h.1.1, h.2⟩

theorem isNameChar_mark : isNameChar '@' = false := by decide

/-- No name starts with `@`. -/
theorem unmarked?_of_isToken {name : String} (h : isToken name = true) :
    unmarked? name = none := by
  cases hu : unmarked? name with
  | none => rfl
  | some rest =>
    rw [unmarked?_eq_some_iff] at hu
    subst hu
    simp [isToken, isSpelled, marked, String.toList_append, isNameChar_mark] at h

end Name

/-- The two namespaces of a locale. -/
inductive Scope where
  /-- Kinds keyed by their bare name; token names are shared by all of them. -/
  | loose
  /-- Kinds keyed by `@` and their name; token names belong to their kind. -/
  | strict
  deriving DecidableEq, Repr

namespace Scope

/-- The namespace that a kind key addresses, and the bare name of the kind. -/
def split (key : String) : Scope × String :=
  match Name.unmarked? key with
  | some name => (.strict, name)
  | none => (.loose, key)

/-- The key under which a kind of a namespace is configured. -/
def key (scope : Scope) (name : String) : String :=
  match scope with
  | .loose => name
  | .strict => Name.marked name

@[simp] theorem split_marked (name : String) : split (Name.marked name) = (.strict, name) := by
  simp [split]

theorem split_of_isKind {name : String} (h : Name.isKind name = true) :
    split name = (.loose, name) := by
  simp [split, Name.unmarked?_of_isToken (Name.isToken_of_isKind h)]

/-- Splitting undoes keying, for names of kinds. -/
theorem split_key {scope : Scope} {name : String} (h : Name.isKind name = true) :
    split (scope.key name) = (scope, name) := by
  cases scope with
  | loose => exact split_of_isKind h
  | strict => exact split_marked name

end Scope

end Concord

/-
# What a block means

The rules that give a block its text, for a call that passes errors over. The
kinds are those of the header, or one that is inferred from the specs or from
what is given. Along each of them there is a value or none. The first
alternative all of whose groups accept the values gives the text, else the free
alternative does; the free alternative also stands in for a block whose kinds
are not known, or whose alternatives do not match them.

Key definitions: `Call.Infers`, `Call.Along`, `Kind.Accepts`, `Call.valueAt`,
`Call.Selects`, `Call.Means`.
-/
import Concord.Proofs.Resolution.Parts

namespace Concord

/-- The first member of a list with a property. -/
def First {α : Type} (p : α → Prop) (l : List α) (a : α) : Prop :=
  ∃ before after, l = before ++ a :: after ∧ p a ∧ ∀ b ∈ before, ¬p b

/-! ### Kinds -/

/-- A loose kind has a token or alias of a name. -/
def Lexicon.Owns (d : Lexicon) (kind name : String) : Prop :=
  ∃ k, d.loose.kinds.get? kind = some k ∧ k.hasToken name = true

/-- A spec names a token or alias of a loose kind. -/
def Spec.Tells (d : Lexicon) (kind : String) : Spec → Prop
  | .name token | .butNot token => d.Owns kind token
  | .wildcard | .invalid _ => False

namespace Call

/-- A token or alias of a loose kind is given for it. -/
def Offers (call : Call) (d : Lexicon) (kind : String) : Prop :=
  ∃ name, call.given kind = .token name ∧ d.Owns kind name

/-- The kind of a block without a header. -/
inductive Infers (call : Call) (d : Lexicon) (b : Block) (kind : String) : Prop where
  /-- The first spec that names a token of a loose kind tells it. -/
  | told {spec : Spec} :
      First (fun s => ∃ other, s.Tells d other) b.specs spec → spec.Tells d kind →
      Infers call d b kind
  /-- If no spec does, it is the first loose kind for which one of its tokens is given. -/
  | offered :
      (∀ s ∈ b.specs, ∀ other, ¬s.Tells d other) →
      First (call.Offers d) d.loose.kinds.keys kind → Infers call d b kind

/-- The kinds along which a block is resolved. -/
inductive Along (call : Call) (d : Lexicon) (b : Block) : List Axis → Prop where
  /-- Those of the header, all of which are known. -/
  | header {axes : List Axis} :
      b.path ≠ [] → axes.map (·.name) = b.path →
      (∀ axis ∈ axes, d.namedKind? axis.name = some axis.kind) → Along call d b axes
  /-- The inferred kind, if there is no header. -/
  | inferred {kind : String} {k : Kind} :
      b.path = [] → call.Infers d b kind → d.loose.kinds.get? kind = some k →
      Along call d b [⟨kind, k⟩]

end Call

/-! ### Groups -/

namespace Kind

/-- The token that a name in a pattern denotes: with aliases allowed the true token it stands for,
else itself. -/
def Denotes (k : Kind) (aliased : Bool) (name token : String) : Prop :=
  if aliased then k.trueToken? name = some token else k.hasToken name = true ∧ token = name

/-- A group asks for a token. -/
def Names (k : Kind) (aliased : Bool) (group : List Spec) (token : String) : Prop :=
  ∃ name, .name name ∈ group ∧ k.Denotes aliased name token

/-- A group accepts a token if it has the wildcard, asks for the token, or rules names of the kind
out, none of which denotes it. -/
def Accepts (k : Kind) (aliased : Bool) (group : List Spec) (token : String) : Prop :=
  .wildcard ∈ group ∨ k.Names aliased group token ∨
    ((∃ name, .butNot name ∈ group ∧ k.hasToken name = true) ∧
      ∀ name, .butNot name ∈ group → ¬k.Denotes aliased name token)

theorem denotes_iff {axis : Axis} {aliased : Bool} {name token : String} :
    axis.denoted? aliased name = some token ↔ axis.kind.Denotes aliased name token := by
  unfold Axis.denoted? Denotes
  cases aliased with
  | true => exact Iff.rfl
  | false =>
    show (if axis.kind.hasToken name = true then some name else none) = some token ↔
      axis.kind.hasToken name = true ∧ token = name
    rw [Option.ite_none_right_eq_some, Option.some.injEq]
    exact and_congr_right fun _ => eq_comm

theorem names_iff (axis : Axis) {aliased : Bool} {group : List Spec} {token : String} :
    (axis.condition aliased group).named.contains token = true ↔
      axis.kind.Names aliased group token := by
  rw [List.contains_iff_mem, Axis.condition, List.mem_filterMap]
  constructor
  · intro h
    obtain ⟨spec, hs, ht⟩ := h
    cases spec with
    | name name => exact ⟨name, hs, denotes_iff.mp ht⟩
    | _ => cases ht
  · intro h
    obtain ⟨name, hs, ht⟩ := h
    exact ⟨.name name, hs, denotes_iff.mpr ht⟩

instance (k : Kind) (aliased : Bool) (group : List Spec) (token : String) :
    Decidable (k.Names aliased group token) :=
  decidable_of_iff _ (names_iff ⟨"", k⟩)

end Kind

/-- An alternative has a group for each of so many kinds, and none is empty. -/
def Alternative.Fits (a : Alternative) (arity : Nat) : Prop :=
  a.groups.length = arity ∧ ∀ group ∈ a.groups, group ≠ []

instance (a : Alternative) (arity : Nat) : Decidable (a.Fits arity) :=
  inferInstanceAs (Decidable (_ ∧ _))

namespace Block

/-- An alternative that fits the kinds asks for a token at a position. -/
def AsksFor (b : Block) (arity : Nat) (aliased : Bool) (k : Kind) (position : Nat)
    (token : String) : Prop :=
  ∃ a ∈ b.alternatives, a.Fits arity ∧ ∃ group ∈ a.groups[position]?, k.Names aliased group token

instance (b : Block) (arity : Nat) (aliased : Bool) (k : Kind) (position : Nat) (token : String) :
    Decidable (b.AsksFor arity aliased k position token) :=
  inferInstanceAs (Decidable (∃ a ∈ b.alternatives, _ ∧ _))

/-- A block of several kinds has a typed alternative that does not fit them. -/
def Misfits (b : Block) (arity : Nat) : Prop :=
  1 < b.path.length ∧ ∃ a ∈ b.alternatives, a.groups ≠ [] ∧ ¬a.Fits arity

/-- The free text of a block: that of the first alternative without groups, or nothing. -/
inductive Free (b : Block) (description : Option String) : String → Prop where
  | first {a : Alternative} :
      First (fun a => a.groups = []) b.alternatives a → Free b description (a.wording.text description)
  | absent : (∀ a ∈ b.alternatives, a.groups ≠ []) → Free b description ""

end Block

/-! ### Values and texts -/

namespace Call

/-- The value along an axis. The default token stands in for a value that is missing, for the word
that asks for it, and, if so switched, for values that are no tokens and for tokens that no
alternative asks for. -/
def valueAt (call : Call) (b : Block) (arity position : Nat) (axis : Axis) : Option String :=
  match call.given axis.name with
  | .missing => if call.options.excludedDefaults then none else axis.kind.standard
  | .nil => if call.options.unknownDefaults then axis.kind.standard else none
  | .token value =>
    if value = Name.defaultWord then axis.kind.standard
    else match axis.kind.trueToken? value with
      | none => if call.options.unknownDefaults then axis.kind.standard else none
      | some token =>
        if call.options.excludedDefaults ∧
            ¬b.AsksFor arity call.options.aliasedPatterns axis.kind position token then
          axis.kind.standard.or (some token)
        else some token

/-- An alternative fits the kinds, and at every position there is a value that its group accepts. -/
def Selects (call : Call) (b : Block) (axes : List Axis) (a : Alternative) : Prop :=
  a.Fits axes.length ∧
    ∀ (position : Nat) (axis : Axis) (group : List Spec), axes[position]? = some axis →
      a.groups[position]? = some group →
        ∃ token, call.valueAt b axes.length position axis = some token ∧
          axis.kind.Accepts call.options.aliasedPatterns group token

/-- The description of the first value. -/
def describes (call : Call) (b : Block) (axes : List Axis) : Option String :=
  axes.head?.bind fun axis => (call.valueAt b axes.length 0 axis).bind axis.kind.tokens.get?

/-- The text that a block means. -/
inductive Means (call : Call) (d : Lexicon) (b : Block) : String → Prop where
  /-- A kind of the header is in neither namespace. -/
  | unknownKind {kind text : String} :
      kind ∈ b.path → d.strict.kinds.get? kind = none → d.loose.kinds.get? kind = none →
      b.Free none text → Means call d b text
  /-- There is no header, and no kind can be inferred. -/
  | noKind {text : String} :
      b.path = [] → (∀ kind, ¬call.Infers d b kind) → b.Free none text → Means call d b text
  /-- An alternative of a block of several kinds does not fit them. -/
  | misfit {axes : List Axis} {text : String} :
      call.Along d b axes → b.Misfits axes.length → b.Free none text → Means call d b text
  /-- An alternative is selected, and none before it is. -/
  | selected {axes : List Axis} {a : Alternative} :
      call.Along d b axes → ¬b.Misfits axes.length →
      First (call.Selects b axes) b.alternatives a →
      Means call d b (a.wording.text (call.describes b axes))
  /-- No alternative is selected. -/
  | free {axes : List Axis} {text : String} :
      call.Along d b axes → ¬b.Misfits axes.length →
      (∀ a ∈ b.alternatives, ¬call.Selects b axes a) → b.Free (call.describes b axes) text →
      Means call d b text

end Call

end Concord

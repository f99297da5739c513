/-
# The first fault of a block

A call that raises stops at the first thing that is wrong with a block. The
rules name what can be wrong with each part: with the kinds, the layout of the
alternatives, a spec along its axis, and what is given for an axis. What comes
first counts: kinds before alternatives, alternatives before values, and each of
them in the order in which they stand. A block without faults comes to a text.

Key definitions: `FirstFault`, `Spec.Fault`, `Alternative.Fault`, `Call.ValueFault`,
`Call.Stops`, `Call.Faultless`.
Key theorems: `Call.firstError?_eq_some_iff`, `Call.faultless_iff`,
`Call.stops_at_first_fault`.
-/
import Concord.Proofs.Lexicon.Views
import Concord.Proofs.Resolution.Adequacy

namespace Concord

/-- The error of the first member of a list that has one. -/
def FirstFault {α : Type} (faulty : α → ResolutionError → Prop) (l : List α)
    (e : ResolutionError) : Prop :=
  ∃ a, First (fun a => ∃ e, faulty a e) l a ∧ faulty a e

/-! ### Faults -/

/-- Some kind, loose or strict, has a token or alias of a name. -/
def Lexicon.Knows (d : Lexicon) (name : String) : Prop :=
  ∃ scope kind k, (d.side scope).kinds.get? kind = some k ∧ k.hasToken name = true

namespace Spec

/-- The name that a spec has, plain or negated. -/
def named? : Spec → Option String
  | .name token | .butNot token => some token
  | .wildcard | .invalid _ => none

/-- A spec has a meaning along the axis of a kind: it is the wildcard, or a valid name that is a
token or alias of the kind. -/
def Suits (k : Kind) : Spec → Prop
  | .wildcard => True
  | .name token | .butNot token => Name.isToken token = true ∧ k.hasToken token = true
  | .invalid _ => False

/-- What is wrong with a spec along an axis. -/
inductive Fault (d : Lexicon) (pattern : String) (axis : Axis) (s : Spec) :
    ResolutionError → Prop where
  /-- It can name no token. -/
  | invalid {written : String} :
      s = .invalid written → Fault d pattern axis s (.invalidToken pattern written (some axis.name))
  /-- The kind of the axis does not have its name, nor does any other. -/
  | unknown {name : String} :
      s.named? = some name → axis.kind.hasToken name = false → ¬d.Knows name →
      Fault d pattern axis s (.invalidToken pattern name (some axis.name))
  /-- The kind of the axis does not have its name, but another kind does. -/
  | misplaced {name : String} :
      s.named? = some name → axis.kind.hasToken name = false → d.Knows name →
      Fault d pattern axis s (.misplacedToken pattern name axis.name)

end Spec

/-- What is wrong with an alternative. -/
inductive Alternative.Fault (d : Lexicon) (pattern : String) (axes : List Axis) (a : Alternative) :
    ResolutionError → Prop where
  /-- It has groups, but not one with specs for each axis. -/
  | misfit :
      a.groups ≠ [] → ¬a.Fits axes.length →
      Fault d pattern axes a (.invalidToken pattern "" (axes.head?.map (·.name)))
  /-- One of its specs has a fault. -/
  | spec {e : ResolutionError} :
      a.Fits axes.length →
      FirstFault (fun p => FirstFault (Spec.Fault d pattern p.2) p.1) (a.groups.zip axes) e →
      Fault d pattern axes a e

namespace Call

/-- What is given for an axis leads to a token, or need not to. -/
inductive Serves (call : Call) (b : Block) (axis : Axis) : Prop where
  /-- Nothing is given, and no default is to stand in for it. -/
  | excluded : call.given axis.name = .missing → call.options.excludedDefaults = true →
      Serves call b axis
  /-- Nothing is given, and there is a default. -/
  | absent : call.given axis.name = .missing → axis.kind.standard ≠ none → Serves call b axis
  /-- The default is asked for, and there is one. -/
  | default : call.given axis.name = .token Name.defaultWord → axis.kind.standard ≠ none →
      Serves call b axis
  /-- A token or alias of the kind is given. -/
  | known {value : String} : call.given axis.name = .token value →
      axis.kind.hasToken value = true → Serves call b axis
  /-- The name of another token is given, and the block has a wildcard. -/
  | other {value : String} : call.given axis.name = .token value → Name.isToken value = true →
      .wildcard ∈ b.specs → Serves call b axis

/-- What is wrong with what is given for an axis. -/
inductive ValueFault (call : Call) (b : Block) (axis : Axis) : ResolutionError → Prop where
  /-- Nothing is given, and there is no default to stand in for it. -/
  | absent : call.given axis.name = .missing → call.options.excludedDefaults = false →
      axis.kind.standard = none → ValueFault call b axis (.optionNotFound b.source axis.name)
  /-- The default is asked for, and there is none. -/
  | default : call.given axis.name = .token Name.defaultWord → axis.kind.standard = none →
      ValueFault call b axis (.optionNotFound b.source axis.name)
  /-- Expressly nothing is given. -/
  | nil : call.given axis.name = .nil →
      ValueFault call b axis (.invalidOption b.source axis.name none)
  /-- No token or alias of the kind is given, and it is not a name that a wildcard excuses. -/
  | unknown {value : String} : call.given axis.name = .token value → value ≠ Name.defaultWord →
      axis.kind.hasToken value = false → (Name.isToken value = true → .wildcard ∉ b.specs) →
      ValueFault call b axis (.invalidOption b.source axis.name (some value))

/-- What is wrong with the kinds of a block. -/
inductive KindFault (call : Call) (d : Lexicon) (b : Block) : ResolutionError → Prop where
  /-- The first kind of the header that is in neither namespace. -/
  | unknown {kind : String} :
      First (fun kind => d.strict.kinds.get? kind = none ∧ d.loose.kinds.get? kind = none)
        b.path kind →
      KindFault call d b (.unknownKind b.source kind (suggestions kind d.kindNames))
  /-- There is no header, and no kind can be inferred. -/
  | none :
      b.path = [] → (∀ kind, ¬call.Infers d b kind) →
      KindFault call d b (.unknownKind b.source "" [])

/-- The error at which a block stops. -/
inductive Stops (call : Call) (d : Lexicon) (b : Block) : ResolutionError → Prop where
  /-- The kinds have a fault. -/
  | kinds {e : ResolutionError} : call.KindFault d b e → Stops call d b e
  /-- The kinds are known, and the layout of a block of several kinds does not match them. -/
  | malformed {axes : List Axis} :
      call.Along d b axes → b.Misfits axes.length → Stops call d b (.malformed b.source)
  /-- The layout matches, and an alternative has a fault. -/
  | alternative {axes : List Axis} {e : ResolutionError} :
      call.Along d b axes → ¬b.Misfits axes.length →
      FirstFault (Alternative.Fault d b.source axes) b.alternatives e → Stops call d b e
  /-- No alternative has a fault, but what is given for an axis has one. -/
  | value {axes : List Axis} {e : ResolutionError} :
      call.Along d b axes → ¬b.Misfits axes.length →
      (∀ a ∈ b.alternatives, ∀ e, ¬a.Fault d b.source axes e) →
      FirstFault (call.ValueFault b) axes e → Stops call d b e

/-- Nothing is wrong with a block along its axes. -/
structure Faultless (call : Call) (d : Lexicon) (b : Block) (axes : List Axis) : Prop where
  along : call.Along d b axes
  fits : ∀ a ∈ b.alternatives, a.groups ≠ [] → a.Fits axes.length
  suits : ∀ a ∈ b.alternatives, ∀ p ∈ a.groups.zip axes, ∀ s ∈ p.1, s.Suits p.2.kind
  serves : ∀ axis ∈ axes, call.Serves b axis

end Call

/-! ### First faults -/

section

variable {α : Type} {faulty : α → ResolutionError → Prop} {l : List α}

/-- A list has no first fault if none of its members has a fault. -/
theorem forall_not_firstFault_iff :
    (∀ e, ¬FirstFault faulty l e) ↔ ∀ a ∈ l, ∀ e, ¬faulty a e := by
  constructor
  · intro h a ha e he
    have hexists : ∃ first, First (fun a => ∃ e, faulty a e) l first :=
      exists_first_iff.mpr ⟨a, ha, e, he⟩
    obtain ⟨first, before, after, hl, ⟨e', he'⟩, hbefore⟩ := hexists
    exact h e' ⟨first, ⟨before, after, hl, ⟨e', he'⟩, hbefore⟩, he'⟩
  · rintro h e ⟨a, ⟨before, after, rfl, -⟩, he⟩
    exact h a (by simp) e he

theorem firstFault_iff_findSome? {f : α → Option ResolutionError}
    (h : ∀ a ∈ l, ∀ e, f a = some e ↔ faulty a e) {e : ResolutionError} :
    FirstFault faulty l e ↔ l.findSome? f = some e :=
  first_iff_findSome? h

end

/-- The first error that is met. -/
def firstError? (es : List Event) : Option ResolutionError := es.findSome? Event.error?

theorem firstError?_append (es fs : List Event) :
    firstError? (es ++ fs) = (firstError? es).or (firstError? fs) :=
  List.findSome?_append

theorem firstError?_flatMap {α : Type} (l : List α) (f : α → List Event) :
    firstError? (l.flatMap f) = l.findSome? fun a => firstError? (f a) := by
  simp only [firstError?, ← List.head?_filterMap, List.filterMap_flatMap, List.head?_flatMap]

theorem firstError?_met (errors : List ResolutionError) :
    firstError? (errors.map .met) = errors.head? := by
  cases errors <;> rfl

theorem firstError?_lookup (kinds : List String) : firstError? (kinds.map .lookup) = none := by
  simp [firstError?, Event.error?]

theorem firstError?_toList (e? : Option ResolutionError) :
    firstError? ((e?.map Event.met).toList) = e? := by
  cases e? <;> rfl

/-! ### Specs -/

namespace Lexicon

/-- A name is known if some kind has it. -/
theorem Sound.knowsToken_iff {d : Lexicon} (h : d.Sound) {name : String} :
    d.knowsToken name = true ↔ d.Knows name := by
  unfold knowsToken
  rw [Bool.or_eq_true, View.hasToken_iff h, List.any_eq_true]
  constructor
  · rintro (⟨kind, k, hc, ht⟩ | ⟨key, -, hkey⟩)
    · cases hc with
      | every _ hk => exact ⟨.loose, kind, k, hk, ht⟩
    · obtain ⟨kind, k, hc, ht⟩ := (View.hasToken_iff h).mp hkey
      cases hc with
      | marked hk => exact ⟨.strict, kind, k, hk, ht⟩
      | bare _ hk => exact ⟨.strict, key, k, hk, ht⟩
  · rintro ⟨scope, kind, k, hk, ht⟩
    cases scope with
    | loose => exact .inl ⟨kind, k, .every rfl hk, ht⟩
    | strict =>
      have hname := Name.isToken_of_isKind ((h.side .strict).named kind k hk)
      have hkey : kind ∈ d.strict.kinds.keys :=
        Table.mem_keys_iff.mpr (Table.contains_iff.mpr ⟨k, hk⟩)
      have hcovers : (d.view .strict).Covers (some kind) kind k :=
        .bare (Name.unmarked?_of_isToken hname) hk
      exact .inr ⟨kind, hkey, (View.hasToken_iff h).mpr ⟨kind, k, hcovers, ht⟩⟩

end Lexicon

namespace Spec

variable {d : Lexicon} {pattern : String} {axis : Axis} {s : Spec}

/-- A name has a fault if the axis lacks it: which one depends on whether another kind has it. -/
theorem fault_of_named?_iff (h : d.Sound) {name : String} (hs : s.named? = some name)
    {e : ResolutionError} :
    s.Fault d pattern axis e ↔
      axis.kind.hasToken name = false ∧ Call.nameError d pattern axis name = e := by
  unfold Call.nameError
  constructor
  · intro hf
    cases hf with
    | invalid hi =>
      rw [hi] at hs
      cases hs
    | unknown hn hlacks hnone =>
      rw [hs] at hn
      cases hn
      exact ⟨hlacks, if_neg fun hk => hnone (h.knowsToken_iff.mp hk)⟩
    | misplaced hn hlacks hknown =>
      rw [hs] at hn
      cases hn
      exact ⟨hlacks, if_pos (h.knowsToken_iff.mpr hknown)⟩
  · rintro ⟨hlacks, rfl⟩
    by_cases hk : d.knowsToken name = true
    · rw [if_pos hk]
      exact .misplaced hs hlacks (h.knowsToken_iff.mp hk)
    · rw [if_neg hk]
      exact .unknown hs hlacks fun hknown => hk (h.knowsToken_iff.mpr hknown)

theorem specError?_eq_some_iff (h : d.Sound) {e : ResolutionError} :
    axis.specError? d pattern s = some e ↔ s.Fault d pattern axis e := by
  have hname : ∀ name, s.named? = some name →
      ((if axis.kind.hasToken name then none else some (Call.nameError d pattern axis name)) =
        some e ↔ s.Fault d pattern axis e) := by
    intro name hs
    rw [fault_of_named?_iff h hs]
    by_cases ht : axis.kind.hasToken name = true <;> simp [ht]
  cases s with
  | name name => exact hname name rfl
  | butNot name => exact hname name rfl
  | wildcard => exact iff_of_false nofun nofun
  | invalid written =>
    constructor
    · intro he
      cases he
      exact .invalid rfl
    · intro hf
      cases hf with
      | invalid hi =>
        cases hi
        rfl
      | unknown hn => cases hn
      | misplaced hn => cases hn

/-- A spec has a meaning or a fault. -/
theorem suits_iff (h : d.Sound) (hk : axis.kind.Sound) :
    s.Suits axis.kind ↔ ∀ e, ¬s.Fault d pattern axis e := by
  have hname : ∀ name, s.named? = some name →
      (Name.isToken name = true ∧ axis.kind.hasToken name = true ↔
        ∀ e, ¬s.Fault d pattern axis e) := by
    intro name hs
    simp only [fault_of_named?_iff h hs, not_and]
    by_cases ht : axis.kind.hasToken name = true
    · simp [ht, hk.named name ht]
    · simp [ht]
  cases s with
  | name name => exact hname name rfl
  | butNot name => exact hname name rfl
  | wildcard => exact iff_of_true trivial fun _ => nofun
  | invalid written => exact iff_of_false id fun hnone => hnone _ (.invalid rfl)

end Spec

/-! ### Alternatives -/

theorem Axis.firstError?_groupEvents (axis : Axis) (d : Lexicon) (pattern : String)
    (group : List Spec) :
    firstError? (axis.groupEvents d pattern group) = group.findSome? (axis.specError? d pattern) := by
  rw [groupEvents, firstError?_met, List.head?_filterMap]

namespace Alternative

variable {d : Lexicon} {pattern : String} {axes : List Axis} {a : Alternative}

/-- The first error of an alternative; one without groups has none. -/
def fault? (a : Alternative) (d : Lexicon) (pattern : String) (axes : List Axis) :
    Option ResolutionError :=
  if a.isFree then none else firstError? (a.events d pattern axes)

theorem fault?_eq_some_iff (h : d.Sound) (hpos : 0 < axes.length) {e : ResolutionError} :
    a.fault? d pattern axes = some e ↔ a.Fault d pattern axes e := by
  have hfree : a.isFree = true ↔ a.groups = [] := List.isEmpty_iff
  have hspecs : firstError? ((a.groups.zip axes).flatMap fun p => p.2.groupEvents d pattern p.1) =
      some e ↔
      FirstFault (fun p => FirstFault (Spec.Fault d pattern p.2) p.1) (a.groups.zip axes) e := by
    rw [firstError?_flatMap]
    refine (firstFault_iff_findSome? fun p _ e => ?_).symm
    rw [Axis.firstError?_groupEvents]
    exact (firstFault_iff_findSome? fun s _ e => Spec.specError?_eq_some_iff h).symm
  unfold fault? events
  by_cases hfits : a.Fits axes.length
  · have hne : a.groups ≠ [] := by
      intro hnil
      rw [Fits, hnil] at hfits
      exact absurd hfits.1 (Nat.ne_of_lt hpos)
    rw [if_neg (mt hfree.mp hne), if_pos ((isWellFormed_iff hpos).mpr hfits), hspecs]
    constructor
    · exact .spec hfits
    · intro hf
      cases hf with
      | misfit _ hmisfit => exact absurd hfits hmisfit
      | spec _ hfirst => exact hfirst
  · rw [if_neg (mt (isWellFormed_iff hpos).mp hfits), Option.ite_none_left_eq_some, hfree]
    constructor
    · rintro ⟨hne, he⟩
      cases he
      exact .misfit hne hfits
    · intro hf
      cases hf with
      | misfit hne _ => exact ⟨hne, rfl⟩
      | spec hfits' _ => exact absurd hfits' hfits

/-- An alternative without faults fits the axes, if it has groups, and its specs have a meaning. -/
theorem faultless_iff (h : d.Sound) (hsound : ∀ axis ∈ axes, axis.kind.Sound) :
    (∀ e, ¬a.Fault d pattern axes e) ↔
      (a.groups ≠ [] → a.Fits axes.length) ∧
        ∀ p ∈ a.groups.zip axes, ∀ s ∈ p.1, s.Suits p.2.kind := by
  have hspecs : (∀ e, ¬FirstFault (fun p => FirstFault (Spec.Fault d pattern p.2) p.1)
      (a.groups.zip axes) e) ↔ ∀ p ∈ a.groups.zip axes, ∀ s ∈ p.1, s.Suits p.2.kind := by
    rw [forall_not_firstFault_iff]
    refine forall₂_congr fun p hp => ?_
    rw [forall_not_firstFault_iff]
    exact forall₂_congr fun s _ => (Spec.suits_iff h (hsound p.2 (List.of_mem_zip hp).2)).symm
  constructor
  · intro hnone
    have hfits : a.groups ≠ [] → a.Fits axes.length :=
      fun hne => by_contra fun hmisfit => hnone _ (.misfit hne hmisfit)
    refine ⟨hfits, ?_⟩
    by_cases hnil : a.groups = []
    · simp [hnil]
    · exact hspecs.mp fun e he => hnone e (.spec (hfits hnil) he)
  · rintro ⟨hfits, hsuits⟩ e hf
    cases hf with
    | misfit hne hmisfit => exact hmisfit (hfits hne)
    | spec _ hfirst => exact hspecs.mpr hsuits e hfirst

end Alternative

/-! ### Values -/

namespace Call

variable {call : Call} {b : Block} {axis : Axis}

theorem tokenError?_eq_some_iff {e : ResolutionError} :
    call.tokenError? b axis = some e ↔ call.ValueFault b axis e := by
  unfold tokenError? defaultError?
  constructor
  · intro he
    split at he
    · next hg =>
      split at he
      · cases he
      · next hex =>
        obtain ⟨hst, he⟩ := Option.ite_none_right_eq_some.mp he
        cases he
        exact .absent hg (Bool.eq_false_iff.mpr hex) (Option.isNone_iff_eq_none.mp hst)
    · next hg =>
      cases he
      exact .nil hg
    · next value hg =>
      split at he
      · next hv =>
        obtain ⟨hst, he⟩ := Option.ite_none_right_eq_some.mp he
        cases he
        exact .default (hv ▸ hg) (Option.isNone_iff_eq_none.mp hst)
      · next hv =>
        obtain ⟨ht, he⟩ := Option.ite_none_left_eq_some.mp he
        obtain ⟨hexcused, he⟩ := Option.ite_none_right_eq_some.mp he
        cases he
        refine .unknown hg hv (Bool.eq_false_iff.mpr ht) fun hn hw => ?_
        have hwild : b.hasWildcard = true := List.contains_iff_mem.mpr hw
        simp [Name.isChoice, hn, hwild] at hexcused
  · intro hf
    cases hf with
    | absent hg hex hst => simp [hg, hex, hst]
    | default hg hst => simp [hg, hst]
    | nil hg => simp [hg]
    | @unknown value hg hv ht hexcused =>
      have hchoice : Name.isChoice value = Name.isToken value := by simp [Name.isChoice, hv]
      simpa [hg, hv, ht, hchoice, Block.hasWildcard] using hexcused

/-- What is given for an axis serves it or has a fault. -/
theorem serves_iff (hk : axis.kind.Sound) :
    call.Serves b axis ↔ ∀ e, ¬call.ValueFault b axis e := by
  constructor
  · intro hs e hf
    rw [← tokenError?_eq_some_iff] at hf
    cases hs with
    | excluded hg hex => simp [tokenError?, hg, hex] at hf
    | absent hg hst => simp [tokenError?, defaultError?, hg, hst] at hf
    | default hg hst => simp [tokenError?, defaultError?, hg, hst] at hf
    | known hg ht => simp [tokenError?, hg, Name.ne_default_of_isToken (hk.named _ ht), ht] at hf
    | other hg hn hw =>
      simp [tokenError?, hg, Name.ne_default_of_isToken hn, Name.isChoice, hn, Block.hasWildcard, hw] at hf
  · intro hnone
    cases hg : call.given axis.name with
    | missing =>
      by_cases hex : call.options.excludedDefaults = true
      · exact .excluded hg hex
      · exact .absent hg fun hst => hnone _ (.absent hg (Bool.eq_false_iff.mpr hex) hst)
    | nil => exact absurd (.nil hg) (hnone _)
    | token value =>
      by_cases hv : value = Name.defaultWord
      · subst hv
        exact .default hg fun hst => hnone _ (.default hg hst)
      · by_cases ht : axis.kind.hasToken value = true
        · exact .known hg ht
        · by_cases hother : Name.isToken value = true ∧ .wildcard ∈ b.specs
          · exact .other hg hother.1 hother.2
          · have hexcused : Name.isToken value = true → .wildcard ∉ b.specs :=
              fun hn hw => hother ⟨hn, hw⟩
            exact absurd (.unknown hg hv (Bool.eq_false_iff.mpr ht) hexcused) (hnone _)

/-! ### Kinds -/

variable {d : Lexicon} {axes : List Axis} {e : ResolutionError}

theorem Along.unique {axes' : List Axis} (h : d.Sound) (ha : call.Along d b axes)
    (ha' : call.Along d b axes') : axes = axes' := by
  rw [← axes?_eq_some_iff h] at ha ha'
  rw [ha] at ha'
  exact Option.some.inj ha'

/-- There are kinds along which a block is resolved, or they have a fault. -/
theorem exists_along_iff (h : d.Sound) :
    (∃ axes, call.Along d b axes) ↔ ∀ e, ¬call.KindFault d b e := by
  have hnone : (∀ axes, ¬call.Along d b axes) ↔
      (∃ kind ∈ b.path, d.strict.kinds.get? kind = none ∧ d.loose.kinds.get? kind = none) ∨
        (b.path = [] ∧ ∀ kind, ¬call.Infers d b kind) := by
    simp only [← Lexicon.namedKind?_eq_none_iff]
    rw [← axes?_eq_none_iff h, Option.eq_none_iff_forall_ne_some]
    exact forall_congr' fun axes => not_congr (axes?_eq_some_iff h).symm
  constructor
  · rintro ⟨axes, ha⟩ e he
    cases he with
    | unknown hfirst => exact hnone.mpr (.inl (exists_first_iff.mp ⟨_, hfirst⟩)) axes ha
    | none hp hinfers => exact hnone.mpr (.inr ⟨hp, hinfers⟩) axes ha
  · intro hfault
    by_contra hex
    rcases hnone.mp (not_exists.mp hex) with hunknown | ⟨hp, hinfers⟩
    · obtain ⟨kind, hfirst⟩ := exists_first_iff.mpr hunknown
      exact hfault _ (.unknown hfirst)
    · exact hfault _ (.none hp hinfers)

/-- The first kind of a header that is not known is the first error in it. -/
theorem firstError?_headerEvents_eq_some_iff {pattern : String} {path : List String} :
    firstError? (d.headerEvents pattern path) = some e ↔
      ∃ kind, First (fun kind => d.strict.kinds.get? kind = none ∧ d.loose.kinds.get? kind = none)
        path kind ∧ .unknownKind pattern kind (suggestions kind d.kindNames) = e := by
  have hfind : ∀ kind ∈ path, (d.namedKind? kind).isNone = true ↔
      d.strict.kinds.get? kind = none ∧ d.loose.kinds.get? kind = none := by
    intro kind _
    rw [Option.isNone_iff_eq_none, Lexicon.namedKind?_eq_none_iff]
  have hmet : firstError? (d.headerEvents pattern path) =
      (path.find? fun name => (d.namedKind? name).isNone).map fun name =>
        .unknownKind pattern name (suggestions name d.kindNames) := by
    unfold Lexicon.headerEvents
    cases path.find? fun name => (d.namedKind? name).isNone <;> rfl
  rw [hmet, Option.map_eq_some_iff]
  simp only [first_iff_find? hfind]

/-- That no kind can be inferred is the only error of an inference. -/
theorem firstError?_inferredEvents :
    firstError? (call.inferredEvents d b) =
      if (call.inferredAxis? d b).isSome then none else some (.unknownKind b.source "" []) := by
  have hlookups : firstError? (if (b.specs.findSome? d.kindOfSpec?).isSome then []
      else call.inferenceEvents d d.loose.kinds.keys) = none := by
    split
    · rfl
    · exact firstError?_lookup _
  rw [inferredEvents, firstError?_append, hlookups, Option.none_or]
  split <;> rfl

theorem firstError?_axesEvents_eq_some_iff (h : d.Sound) :
    firstError? (call.axesEvents d b) = some e ↔ call.KindFault d b e := by
  unfold axesEvents
  by_cases hp : b.path = []
  · have hinfers : call.inferredAxis? d b = none ↔ ∀ kind, ¬call.Infers d b kind := by
      have haxes : call.axes? d b = (call.inferredAxis? d b).map ([·]) :=
        if_pos (List.isEmpty_iff.mpr hp)
      rw [← Option.map_eq_none_iff, ← haxes, axes?_eq_none_iff h]
      simp [hp]
    rw [if_pos (List.isEmpty_iff.mpr hp), firstError?_inferredEvents, Option.ite_none_left_eq_some,
      Option.not_isSome_iff_eq_none, hinfers]
    constructor
    · rintro ⟨hnone, he⟩
      cases he
      exact .none hp hnone
    · intro hf
      cases hf with
      | unknown hfirst =>
        obtain ⟨kind, hmem, -⟩ := exists_first_iff.mp ⟨_, hfirst⟩
        rw [hp] at hmem
        cases hmem
      | none _ hnone => exact ⟨hnone, rfl⟩
  · rw [if_neg (mt List.isEmpty_iff.mp hp), firstError?_headerEvents_eq_some_iff]
    constructor
    · rintro ⟨kind, hfirst, rfl⟩
      exact .unknown hfirst
    · intro hf
      cases hf with
      | unknown hfirst => exact ⟨_, hfirst, rfl⟩
      | none hnil _ => exact absurd hnil hp

/-! ### Blocks -/

theorem firstError?_rowsEvents (hm : ¬b.isMalformed axes.length = true) :
    firstError? (b.rowsEvents d axes) = b.alternatives.findSome? (·.fault? d b.source axes) := by
  unfold Block.rowsEvents
  rw [if_neg hm, firstError?_flatMap, Block.typed, ← List.head?_filterMap, List.filterMap_filter,
    List.head?_filterMap]
  congr
  funext a
  unfold Alternative.fault?
  cases a.isFree <;> rfl

theorem firstError?_tokensEvents :
    firstError? (call.tokensEvents b axes) = axes.findSome? (call.tokenError? b) := by
  unfold tokensEvents
  rw [firstError?_flatMap]
  congr
  funext axis
  exact firstError?_toList _

/-- Without kinds a block stops at what is wrong with them. -/
theorem stops_iff_of_unknown (hnot : ∀ axes, ¬call.Along d b axes) :
    call.Stops d b e ↔ call.KindFault d b e := by
  constructor
  · intro hs
    cases hs with
    | kinds he => exact he
    | malformed ha _ => exact absurd ha (hnot _)
    | alternative ha _ _ => exact absurd ha (hnot _)
    | value ha _ _ _ => exact absurd ha (hnot _)
  · exact .kinds

theorem stops_iff_of_misfits (h : d.Sound) (ha : call.Along d b axes) (hm : b.Misfits axes.length) :
    call.Stops d b e ↔ .malformed b.source = e := by
  constructor
  · intro hs
    cases hs with
    | kinds he => exact absurd he ((exists_along_iff h).mp ⟨axes, ha⟩ _)
    | malformed _ _ => rfl
    | alternative ha' hfits _ => exact absurd (ha.unique h ha' ▸ hm) hfits
    | value ha' hfits _ _ => exact absurd (ha.unique h ha' ▸ hm) hfits
  · rintro rfl
    exact .malformed ha hm

/-- A block whose layout matches its kinds stops at the first alternative with a fault, or else at the
first value with one. -/
theorem stops_iff_of_fits (h : d.Sound) (ha : call.Along d b axes) (hm : ¬b.Misfits axes.length) :
    call.Stops d b e ↔
      FirstFault (Alternative.Fault d b.source axes) b.alternatives e ∨
        (∀ a ∈ b.alternatives, ∀ e, ¬a.Fault d b.source axes e) ∧
          FirstFault (call.ValueFault b) axes e := by
  constructor
  · intro hs
    cases hs with
    | kinds he => exact absurd he ((exists_along_iff h).mp ⟨axes, ha⟩ _)
    | malformed ha' hm' => exact absurd (ha.unique h ha' ▸ hm') hm
    | alternative ha' _ hfirst =>
      cases ha.unique h ha'
      exact .inl hfirst
    | value ha' _ hnone hfirst =>
      cases ha.unique h ha'
      exact .inr ⟨hnone, hfirst⟩
  · rintro (hfirst | ⟨hnone, hfirst⟩)
    · exact .alternative ha hm hfirst
    · exact .value ha hm hnone hfirst

/-- The first error that is met in a block is the one at which the rules say it stops. -/
theorem firstError?_eq_some_iff (h : d.Sound) :
    firstError? (call.eventsIn d b) = some e ↔ call.Stops d b e := by
  unfold eventsIn
  rw [firstError?_append]
  cases haxes : call.axes? d b with
  | none =>
    have hnot : ∀ axes, ¬call.Along d b axes := by
      intro axes ha
      rw [(axes?_eq_some_iff h).mpr ha] at haxes
      cases haxes
    -- without kinds nothing is looked at behind them
    rw [stops_iff_of_unknown hnot, ← firstError?_axesEvents_eq_some_iff h]
    exact Option.or_none ▸ Iff.rfl
  | some axes =>
    have ha := (axes?_eq_some_iff h).mp haxes
    have hpos := (ha.sound h).1
    have hkinds : firstError? (call.axesEvents d b) = none := by
      refine Option.eq_none_iff_forall_ne_some.mpr fun e he => ?_
      exact (exists_along_iff h).mp ⟨axes, ha⟩ e ((firstError?_axesEvents_eq_some_iff h).mp he)
    rw [hkinds, Option.none_or]
    dsimp only
    by_cases hm : b.isMalformed axes.length = true
    · rw [stops_iff_of_misfits h ha ((Block.isMalformed_iff hpos).mp hm), Block.rowsEvents,
        Block.rows?, if_pos hm, if_pos hm]
      exact Option.some_inj
    · have hfault : ∀ a ∈ b.alternatives, ∀ e,
          a.fault? d b.source axes = some e ↔ a.Fault d b.source axes e :=
        fun a _ e => Alternative.fault?_eq_some_iff h hpos
      have hnone : b.alternatives.findSome? (·.fault? d b.source axes) = none ↔
          ∀ a ∈ b.alternatives, ∀ e, ¬a.Fault d b.source axes e := by
        rw [← forall_not_firstFault_iff, Option.eq_none_iff_forall_ne_some]
        exact forall_congr' fun e => not_congr (firstFault_iff_findSome? hfault).symm
      rw [stops_iff_of_fits h ha (mt (Block.isMalformed_iff hpos).mpr hm), Block.rows?, if_neg hm]
      dsimp only
      rw [firstError?_append, firstError?_rowsEvents hm, firstError?_tokensEvents,
        Option.or_eq_some_iff, hnone, firstFault_iff_findSome? hfault,
        firstFault_iff_findSome? fun axis _ e => tokenError?_eq_some_iff]

/-- A block is without faults, or it stops. -/
theorem faultless_iff (h : d.Sound) :
    (∃ axes, call.Faultless d b axes) ↔ ∀ e, ¬call.Stops d b e := by
  constructor
  · rintro ⟨axes, hf⟩ e hs
    have hsound := (hf.along.sound h).2
    cases hs with
    | kinds he => exact (exists_along_iff h).mp ⟨axes, hf.along⟩ e he
    | malformed ha hm =>
      obtain ⟨-, a, hmem, hne, hmisfit⟩ := hm
      exact hmisfit (hf.along.unique h ha ▸ hf.fits a hmem hne)
    | alternative ha _ hfirst =>
      cases hf.along.unique h ha
      have hnone : ∀ a ∈ b.alternatives, ∀ e, ¬a.Fault d b.source axes e := fun a hmem =>
        (Alternative.faultless_iff h hsound).mpr ⟨hf.fits a hmem, hf.suits a hmem⟩
      exact forall_not_firstFault_iff.mpr hnone e hfirst
    | value ha _ _ hfirst =>
      cases hf.along.unique h ha
      have hnone : ∀ axis ∈ axes, ∀ e, ¬call.ValueFault b axis e := fun axis haxis =>
        (serves_iff (hsound axis haxis)).mp (hf.serves axis haxis)
      exact forall_not_firstFault_iff.mpr hnone e hfirst
  · intro hnone
    obtain ⟨axes, ha⟩ := (exists_along_iff h).mpr fun e he => hnone e (.kinds he)
    have hsound := (ha.sound h).2
    have hm : ¬b.Misfits axes.length := fun hm => hnone _ (.malformed ha hm)
    have halternatives : ∀ a ∈ b.alternatives, ∀ e, ¬a.Fault d b.source axes e :=
      forall_not_firstFault_iff.mp fun e he => hnone e (.alternative ha hm he)
    have hvalues : ∀ axis ∈ axes, ∀ e, ¬call.ValueFault b axis e :=
      forall_not_firstFault_iff.mp fun e he => hnone e (.value ha hm halternatives he)
    have hgood := fun a hmem =>
      (Alternative.faultless_iff h hsound).mp (halternatives a hmem)
    exact ⟨axes, ha, fun a hmem => (hgood a hmem).1, fun a hmem => (hgood a hmem).2,
      fun axis haxis => (serves_iff (hsound axis haxis)).mpr (hvalues axis haxis)⟩

theorem outcome_eq {α : Type} (call : Call) (es : List Event) (result : α) :
    call.outcome es result =
      if call.options.raises = true then (firstError? es).elim (.ok result) .error
      else .ok result := rfl

/-- A block without faults comes to its text, whether the call raises or not. -/
theorem Faultless.fst_run_block (h : d.Sound) (hf : call.Faultless d b axes)
    (hl : call.lexicon = some d) (earlier : Template) :
    ((call.block b).run (call.memoAfter earlier)).1 = .ok (call.textIn d b) := by
  have hnone : firstError? (call.eventsIn d b) = none :=
    Option.eq_none_iff_forall_ne_some.mpr fun e he =>
      (faultless_iff h).mp ⟨axes, hf⟩ e ((firstError?_eq_some_iff h).mp he)
  rw [Call.fst_run_block hl, outcome_eq, hnone]
  exact ite_self _

/-- A call that raises ends with the error at which a block stops. -/
theorem Stops.fst_run_block (h : d.Sound) (hs : call.Stops d b e) (hl : call.lexicon = some d)
    (hr : call.options.raises = true) (earlier : Template) :
    ((call.block b).run (call.memoAfter earlier)).1 = .error e := by
  rw [Call.fst_run_block hl, outcome_eq, if_pos hr, (firstError?_eq_some_iff h).mpr hs]
  rfl

/-! ### Main statement -/

/-- **A call that raises stops at the first fault.** For a lexicon that has come about by additions, a
call that raises, and a context that has resolved any template before, a block comes to a text if
nothing is wrong with it; otherwise it ends with the error of the first thing that is. -/
theorem stops_at_first_fault {locale : String} (hd : Lexicon.Reachable locale d)
    (hl : call.lexicon = some d) (hr : call.options.raises = true) (earlier : Template)
    (b : Block) :
    ((∃ text, ((call.block b).run (call.memoAfter earlier)).1 = .ok text) ↔
      ∃ axes, call.Faultless d b axes) ∧
    ∀ e, ((call.block b).run (call.memoAfter earlier)).1 = .error e ↔ call.Stops d b e := by
  have hevents : call.eventsOf b = call.eventsIn d b := by
    unfold eventsOf
    rw [hl]
    rfl
  have hrun : ((call.block b).run (call.memoAfter earlier)).1 =
      (firstError? (call.eventsIn d b)).elim (.ok (call.textOf b)) .error := by
    rw [(block_course b).run_loud hr (call.faithful_memoAfter earlier), hevents]
    rfl
  rw [hrun, faultless_iff hd.sound]
  simp only [← firstError?_eq_some_iff hd.sound]
  cases firstError? (call.eventsIn d b) with
  | none => simp
  | some e => simp

/-- A block with two faults: in its second alternative a tense stands where a gender belongs, and a
name that nothing has. -/
def faultyBlock : Block where
  path := ["gender", "tense"]
  alternatives := [⟨[[.name "f"], [.wildcard]], .plain "she"⟩,
    ⟨[[.butNot "now"], [.name "soon"]], .plain "he"⟩]
  source := "@gender+tense\x7bf+*:she|!now+soon:he\x7d"

/-- If it raises, the sample call stops at the first of the faults; the sample block has none, with an
alias in it and a wildcard. -/
theorem stops_sample :
    (sampleCall.raising true).Stops Lexicon.sample faultyBlock
        (.misplacedToken faultyBlock.source "now" "gender") ∧
      ∃ axes, (sampleCall.raising true).Faultless Lexicon.sample sampleBlock axes := by
  have hd : Lexicon.Reachable "en" Lexicon.sample :=
    (Lexicon.Reachable.config Lexicon.ofConfig_sample).foldl Lexicon.sampleChanges
  have hstop : (((sampleCall.raising true).block faultyBlock).run
      ((sampleCall.raising true).memoAfter ⟨[]⟩)).1 =
        .error (.misplacedToken faultyBlock.source "now" "gender") := by decide +kernel
  have htext : (((sampleCall.raising true).block sampleBlock).run
      ((sampleCall.raising true).memoAfter ⟨[]⟩)).1 = .ok "male" := by decide +kernel
  exact ⟨((stops_at_first_fault hd rfl rfl ⟨[]⟩ faultyBlock).2 _).mp hstop,
    (stops_at_first_fault hd rfl rfl ⟨[]⟩ sampleBlock).1.mp ⟨"male", htext⟩⟩

end Call

end Concord

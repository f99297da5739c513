/-
# The kinds of a block are those of the rules

The kinds along which a block is resolved are found in two ways: those of a
header by their names, and that of a block without a header by inference. The
owner index of the loose namespace tells the kind of a spec, which is right
because in a sound lexicon it gives the kind that has a name.

Key theorems: `Lexicon.headerAxes?_eq_some_iff`,
`Call.inferredKind?_eq_some_iff`, `Call.axes?_eq_some_iff`,
`Call.axes?_eq_none_iff`.
-/
import Mathlib.Data.List.Basic
import Concord.Proofs.Lexicon.Sound
import Concord.Proofs.Resolution.Meaning

namespace Concord

/-! ### First members -/

theorem first_iff_find? {α : Type} {p : α → Prop} {q : α → Bool} {l : List α}
    (h : ∀ a ∈ l, q a = true ↔ p a) {a : α} : First p l a ↔ l.find? q = some a := by
  rw [List.find?_eq_some_iff_append]
  constructor
  · intro hyp
    obtain ⟨before, after, rfl, ha, hbefore⟩ := hyp
    refine ⟨(h a (by simp)).mpr ha, before, after, rfl, fun b hb => ?_⟩
    rw [Bool.not_eq_true']
    exact Bool.eq_false_iff.mpr fun hq => hbefore b hb ((h b (by simp [hb])).mp hq)
  · intro hyp
    obtain ⟨ha, before, after, rfl, hbefore⟩ := hyp
    refine ⟨before, after, rfl, (h a (by simp)).mp ha, fun b hb hp => ?_⟩
    have hq := hbefore b hb
    rw [(h b (by simp [hb])).mpr hp] at hq
    cases hq

theorem find?_eq_none_iff_forall {α : Type} {p : α → Prop} {q : α → Bool} {l : List α}
    (h : ∀ a ∈ l, q a = true ↔ p a) : l.find? q = none ↔ ∀ a ∈ l, ¬p a := by
  rw [List.find?_eq_none]
  exact forall₂_congr fun a ha => not_congr (h a ha)

/-- Some member has a property if there is a first one that has it. -/
theorem exists_first_iff {α : Type} {p : α → Prop} {l : List α} :
    (∃ a, First p l a) ↔ ∃ a ∈ l, p a := by
  classical
  have hfind : ∀ a, First p l a ↔ l.find? (fun a => decide (p a)) = some a :=
    fun _ => first_iff_find? fun _ _ => decide_eq_true_iff
  simp only [hfind, ← Option.isSome_iff_exists, List.find?_isSome, decide_eq_true_eq]

theorem First.unique {α : Type} {p : α → Prop} {l : List α} {a b : α} (ha : First p l a)
    (hb : First p l b) : a = b := by
  classical
  have hfind : ∀ a, First p l a ↔ l.find? (fun a => decide (p a)) = some a :=
    fun _ => first_iff_find? fun _ _ => decide_eq_true_iff
  exact Option.some.inj (((hfind a).mp ha).symm.trans ((hfind b).mp hb))

/-- What the first member of a list gives that gives anything. -/
theorem first_iff_findSome? {α β : Type} {r : α → β → Prop} {f : α → Option β} {l : List α}
    (h : ∀ a ∈ l, ∀ b, f a = some b ↔ r a b) {b : β} :
    (∃ a, First (fun a => ∃ b, r a b) l a ∧ r a b) ↔ l.findSome? f = some b := by
  rw [List.findSome?_eq_some_iff]
  constructor
  · rintro ⟨a, ⟨before, after, rfl, -, hbefore⟩, hab⟩
    refine ⟨before, a, after, rfl, (h a (by simp) b).mpr hab, fun x hx => ?_⟩
    refine Option.eq_none_iff_forall_ne_some.mpr fun b' hb' => hbefore x hx ⟨b', ?_⟩
    exact (h x (by simp [hx]) b').mp hb'
  · rintro ⟨before, a, after, rfl, hab, hbefore⟩
    have hab := (h a (by simp) b).mp hab
    refine ⟨a, ⟨before, after, rfl, ⟨b, hab⟩, fun x hx => ?_⟩, hab⟩
    rintro ⟨b', hb'⟩
    have hnone := hbefore x hx
    rw [(h x (by simp [hx]) b').mpr hb'] at hnone
    cases hnone

/-! ### Kinds of a lexicon -/

namespace Lexicon

variable {d : Lexicon}

theorem namedKind?_eq_none_iff {kind : String} :
    d.namedKind? kind = none ↔ d.strict.kinds.get? kind = none ∧ d.loose.kinds.get? kind = none :=
  Option.or_eq_none_iff

/-- The axes of a header are those of its kinds, all of which are known. -/
theorem headerAxes?_eq_some_iff {path : List String} {axes : List Axis} :
    d.headerAxes? path = some axes ↔
      axes.map (·.name) = path ∧ ∀ axis ∈ axes, d.namedKind? axis.name = some axis.kind := by
  induction path generalizing axes with
  | nil =>
    show some [] = some axes ↔ _
    rw [Option.some.injEq, eq_comm, List.map_eq_nil_iff]
    refine ⟨fun h => ⟨h, ?_⟩, And.left⟩
    rw [h]
    exact List.forall_mem_nil _
  | cons name rest ih =>
    rw [headerAxes?_cons, Option.bind_eq_some_iff]
    constructor
    · intro hyp
      obtain ⟨kind, hk, h⟩ := hyp
      obtain ⟨others, hothers, rfl⟩ := Option.map_eq_some_iff.mp h
      obtain ⟨hnames, hkinds⟩ := ih.mp hothers
      exact ⟨by rw [List.map_cons, hnames], List.forall_mem_cons.mpr ⟨hk, hkinds⟩⟩
    · intro hyp
      obtain ⟨hnames, hkinds⟩ := hyp
      obtain ⟨axis, others, rfl, rfl, hothers⟩ := List.map_eq_cons_iff.mp hnames
      obtain ⟨hk, hkinds⟩ := List.forall_mem_cons.mp hkinds
      exact ⟨axis.kind, hk, by rw [ih.mpr ⟨hothers, hkinds⟩]; rfl⟩

theorem headerAxes?_eq_none_iff {path : List String} :
    d.headerAxes? path = none ↔ ∃ kind ∈ path, d.namedKind? kind = none := by
  induction path with
  | nil => exact ⟨fun h => (nomatch h), fun ⟨_, h, _⟩ => (nomatch h)⟩
  | cons name rest ih =>
    rw [headerAxes?_cons, List.exists_mem_cons_iff]
    cases hk : d.namedKind? name with
    | none => exact iff_of_true rfl (.inl rfl)
    | some kind =>
      rw [Option.bind_some, Option.map_eq_none_iff, ih]
      exact ⟨.inr, fun h => h.resolve_left nofun⟩

/-- A kind of the lexicon is found by its name in the loose view. -/
theorem Sound.entry_view (h : d.Sound) {kind : String} {k : Kind}
    (hk : d.loose.kinds.get? kind = some k) : View.entry? (d.view .loose) kind = some (kind, k) := by
  unfold View.entry?
  rw [Scope.split_of_isKind ((h.side .loose).named kind k hk)]
  show (d.loose.kinds.get? kind).map _ = _
  rw [hk]
  rfl

/-- A name belongs to the loose kind that owns it. -/
theorem Sound.kindOf?_view (h : d.Sound) (token : String) :
    (d.view .loose).kindOf? token none = d.loose.owners.get? token := by
  unfold View.kindOf? View.owner?
  show Option.map _ ((d.loose.owners.get? token).bind fun name =>
    (d.loose.kinds.get? name).map fun k => (name, k)) = _
  cases ho : d.loose.owners.get? token with
  | none => rfl
  | some owner =>
    obtain ⟨k, hk, -⟩ := (h.owned token owner).mp ho
    rw [Option.bind_some, hk]
    rfl

theorem Sound.kindOfSpec?_eq_some_iff (h : d.Sound) {kind : String} {spec : Spec} :
    d.kindOfSpec? spec = some kind ↔ spec.Tells d kind := by
  cases spec with
  | name token =>
    show (d.view .loose).kindOf? token none = some kind ↔ d.Owns kind token
    rw [h.kindOf?_view]
    exact h.owned token kind
  | butNot token =>
    show (d.view .loose).kindOf? token none = some kind ↔ d.Owns kind token
    rw [h.kindOf?_view]
    exact h.owned token kind
  | wildcard => exact ⟨fun h => (nomatch h), False.elim⟩
  | invalid written => exact ⟨fun h => (nomatch h), False.elim⟩

/-- The first spec that names a token of a loose kind tells the kind. -/
theorem Sound.findSome?_eq_some_iff (h : d.Sound) {specs : List Spec} {kind : String} :
    specs.findSome? d.kindOfSpec? = some kind ↔
      ∃ spec, First (fun s => ∃ other, s.Tells d other) specs spec ∧ spec.Tells d kind :=
  (first_iff_findSome? fun _ _ _ => h.kindOfSpec?_eq_some_iff).symm

theorem Sound.findSome?_eq_none_iff (h : d.Sound) {specs : List Spec} :
    specs.findSome? d.kindOfSpec? = none ↔ ∀ spec ∈ specs, ∀ other, ¬spec.Tells d other := by
  rw [List.findSome?_eq_none_iff]
  refine forall₂_congr fun spec _ => ?_
  simp only [← h.kindOfSpec?_eq_some_iff, Option.eq_none_iff_forall_ne_some, ne_eq]

end Lexicon

/-! ### Kinds of a block -/

namespace Call

variable {call : Call} {d : Lexicon} {b : Block}

/-- For a loose kind, a token is given if one is offered. -/
theorem givesToken_iff (h : d.Sound) {kind : String} (hk : kind ∈ d.loose.kinds.keys) :
    call.givesToken d kind = true ↔ call.Offers d kind := by
  obtain ⟨k, hk⟩ := Table.contains_iff.mp (Table.mem_keys_iff.mp hk)
  have hhas : ∀ token, (d.view .loose).hasToken token (some kind) = k.hasToken token := by
    intro token
    unfold View.hasToken View.owner?
    dsimp only
    rw [h.entry_view hk, Option.isSome_filter]
    rfl
  have howns : ∀ token, d.Owns kind token ↔ k.hasToken token = true := by
    intro token
    constructor
    · intro hyp
      obtain ⟨k', hk', ht⟩ := hyp
      rw [hk] at hk'
      cases hk'
      exact ht
    · exact fun ht => ⟨k, hk, ht⟩
  unfold givesToken Offers
  cases call.given kind with
  | missing => simp
  | nil => simp
  | token value => simp [hhas, howns]

/-- The inferred kind is the one of the rules. -/
theorem inferredKind?_eq_some_iff (h : d.Sound) {kind : String} :
    call.inferredKind? d b = some kind ↔ call.Infers d b kind := by
  unfold inferredKind?
  rw [Option.or_eq_some_iff, h.findSome?_eq_some_iff, h.findSome?_eq_none_iff,
    ← first_iff_find? fun kind hk => givesToken_iff h hk]
  constructor
  · intro hyp
    rcases hyp with ⟨spec, hfirst, htells⟩ | ⟨hnone, hfirst⟩
    · exact .told hfirst htells
    · exact .offered hnone hfirst
  · intro hyp
    rcases hyp with ⟨hfirst, htells⟩ | ⟨hnone, hfirst⟩
    · exact .inl ⟨_, hfirst, htells⟩
    · exact .inr ⟨hnone, hfirst⟩

/-- An inferred kind is one of the loose kinds. -/
theorem Infers.exists_kind {kind : String} (h : call.Infers d b kind) :
    ∃ k, d.loose.kinds.get? kind = some k := by
  have howns : ∃ name, d.Owns kind name := by
    rcases h with ⟨-, htells⟩ | ⟨-, hfirst⟩
    · rename_i spec
      cases spec with
      | name token => exact ⟨token, htells⟩
      | butNot token => exact ⟨token, htells⟩
      | wildcard => exact htells.elim
      | invalid written => exact htells.elim
    · obtain ⟨-, -, -, ⟨name, -, howns⟩, -⟩ := hfirst
      exact ⟨name, howns⟩
  obtain ⟨-, k, hk, -⟩ := howns
  exact ⟨k, hk⟩

theorem inferredAxis?_eq_some_iff (h : d.Sound) {axis : Axis} :
    call.inferredAxis? d b = some axis ↔
      call.Infers d b axis.name ∧ d.loose.kinds.get? axis.name = some axis.kind := by
  have hview : ∀ {kind k}, d.loose.kinds.get? kind = some k →
      (d.view .loose).kind? kind = some k := by
    intro kind k hk
    unfold View.kind?
    rw [h.entry_view hk]
    rfl
  unfold inferredAxis?
  rw [Option.bind_eq_some_iff]
  constructor
  · intro hyp
    obtain ⟨name, hname, haxis⟩ := hyp
    have hinfers := (inferredKind?_eq_some_iff h).mp hname
    obtain ⟨k, hk⟩ := hinfers.exists_kind
    rw [hview hk] at haxis
    cases haxis
    exact ⟨hinfers, hk⟩
  · intro hyp
    obtain ⟨hinfers, hk⟩ := hyp
    refine ⟨axis.name, (inferredKind?_eq_some_iff h).mpr hinfers, ?_⟩
    rw [hview hk]
    rfl

/-- The axes that are found are those of the rules. -/
theorem axes?_eq_some_iff (h : d.Sound) {axes : List Axis} :
    call.axes? d b = some axes ↔ call.Along d b axes := by
  unfold axes?
  by_cases hp : b.path = []
  · rw [if_pos (List.isEmpty_iff.mpr hp), Option.map_eq_some_iff]
    constructor
    · intro hyp
      obtain ⟨axis, haxis, rfl⟩ := hyp
      obtain ⟨hinfers, hk⟩ := (inferredAxis?_eq_some_iff h).mp haxis
      exact .inferred hp hinfers hk
    · intro hyp
      rcases hyp with ⟨hne, -, -⟩ | ⟨-, hinfers, hk⟩
      · exact absurd hp hne
      · exact ⟨_, (inferredAxis?_eq_some_iff h).mpr ⟨hinfers, hk⟩, rfl⟩
  · rw [if_neg (fun he => hp (List.isEmpty_iff.mp he)), Lexicon.headerAxes?_eq_some_iff]
    constructor
    · intro hyp
      obtain ⟨hnames, hkinds⟩ := hyp
      exact .header hp hnames hkinds
    · intro hyp
      rcases hyp with ⟨-, hnames, hkinds⟩ | ⟨he, -, -⟩
      · exact ⟨hnames, hkinds⟩
      · exact absurd he hp

/-- No axes are found if a kind is not known, or none can be inferred. -/
theorem axes?_eq_none_iff (h : d.Sound) :
    call.axes? d b = none ↔
      (∃ kind ∈ b.path, d.namedKind? kind = none) ∨
        (b.path = [] ∧ ∀ kind, ¬call.Infers d b kind) := by
  unfold axes?
  by_cases hp : b.path = []
  · rw [if_pos (List.isEmpty_iff.mpr hp), Option.map_eq_none_iff, Option.eq_none_iff_forall_ne_some]
    constructor
    · intro hnone
      refine .inr ⟨hp, fun kind hinfers => ?_⟩
      obtain ⟨k, hk⟩ := hinfers.exists_kind
      exact hnone ⟨kind, k⟩ ((inferredAxis?_eq_some_iff h).mpr ⟨hinfers, hk⟩)
    · intro hyp
      rcases hyp with ⟨kind, hk, -⟩ | ⟨-, hnone⟩
      · rw [hp] at hk
        cases hk
      · exact fun axis haxis => hnone axis.name ((inferredAxis?_eq_some_iff h).mp haxis).1
  · rw [if_neg (fun he => hp (List.isEmpty_iff.mp he)), Lexicon.headerAxes?_eq_none_iff]
    exact ⟨.inl, fun h => h.resolve_right fun h => hp h.1⟩

end Call

end Concord

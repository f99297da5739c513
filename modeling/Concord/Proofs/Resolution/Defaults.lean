/-
# What stands for the default of a kind

The default token of a kind can be had in many ways: by the word that asks for it,
by its own name or an alias, and, as the switches have it, by expressly nothing, by
a name that the kind does not have, or by no value at all. They cannot be told
apart by what a block comes to. Where the switches do not let them stand for the
default, there is no token along the kind, no alternative is selected, and the
block comes to its free text.

This is about the kinds of a block that are found without looking at values: those
of a header, and the one that a spec tells.

Key definitions: `Block.Has`, `Supply.Defaults`, `Supply.Bars`, `Call.DifferAt`.
Key theorems: `Call.tokenOf_of_defaults`, `Call.DifferAt.given_eq`,
`Call.not_selects_of_bars`, `Call.default_fallback`.
-/
import Concord.Proofs.Resolution.Faults

namespace Concord

/-- A name that a kind does not have stands for no token of it. -/
theorem Kind.trueToken?_of_lacks {k : Kind} {name : String} (h : k.hasToken name = false) :
    k.trueToken? name = none := by
  rw [← Option.not_isSome_iff_eq_none, k.isSome_trueToken?, h]
  exact Bool.false_ne_true

theorem Lexicon.Sound.isToken_of_namedKind? {d : Lexicon} (hd : d.Sound) {kind : String} {k : Kind}
    (hk : d.namedKind? kind = some k) : Name.isToken kind = true := by
  rcases Option.or_eq_some_iff.mp hk with hk | ⟨-, hk⟩
  · exact Name.isToken_of_isKind ((hd.side .strict).named kind k hk)
  · exact Name.isToken_of_isKind ((hd.side .loose).named kind k hk)

/-- A block has a kind, whatever is supplied: its header names it, or the first spec that tells a
kind tells it. -/
inductive Block.Has (d : Lexicon) (b : Block) (kind : String) (k : Kind) : Prop where
  | named : kind ∈ b.path → d.namedKind? kind = some k → Has d b kind k
  | told {spec : Spec} :
      b.path = [] → First (fun s => ∃ other, s.Tells d other) b.specs spec → spec.Tells d kind →
      d.loose.kinds.get? kind = some k → Has d b kind k

theorem Block.Has.isToken {d : Lexicon} {b : Block} {kind : String} {k : Kind} (h : b.Has d kind k)
    (hd : d.Sound) : Name.isToken kind = true := by
  cases h with
  | named _ hk => exact hd.isToken_of_namedKind? hk
  | told _ _ _ hk => exact Name.isToken_of_isKind ((hd.side .loose).named kind k hk)

namespace Supply

/-- What is supplied stands for a token, which is the default of a kind. -/
inductive Defaults (o : Options) (k : Kind) (token : String) : Supply → Prop where
  /-- It is the word that asks for the default. -/
  | word : Defaults o k token (.token Name.defaultWord)
  /-- It is the token itself. -/
  | itself : Defaults o k token (.token token)
  /-- It is an alias of the token. -/
  | aliased {name : String} :
      k.aliases.get? name = some token → Defaults o k token (.token name)
  /-- It is expressly nothing, or a callable that answers nothing. -/
  | nil : o.unknownDefaults = true → Defaults o k token .nil
  /-- It is a text that is no token or alias of the kind. -/
  | unknown {name : String} :
      o.unknownDefaults = true → name ≠ Name.defaultWord → k.hasToken name = false →
      Defaults o k token (.token name)
  /-- There is no value at all. -/
  | missing : o.excludedDefaults = false → Defaults o k token .missing

/-- What is supplied keeps a kind without a token. -/
inductive Bars (o : Options) (k : Kind) : Supply → Prop where
  | nil : o.unknownDefaults = false → Bars o k .nil
  | unknown {name : String} :
      o.unknownDefaults = false → name ≠ Name.defaultWord → k.hasToken name = false →
      Bars o k (.token name)
  | missing : o.excludedDefaults = true → Bars o k .missing

end Supply

namespace Call

/-- Two calls do not differ but in what is supplied for a kind, under its name or its marked
name. -/
structure DifferAt (kind : String) (call call' : Call) : Prop where
  lexicon : call.lexicon = call'.lexicon
  locale : call.locale = call'.locale
  options : call.options = call'.options
  args : ∀ key, key ≠ kind → key ≠ Name.marked kind → call.args.get? key = call'.args.get? key

variable {call call' : Call} {d : Lexicon} {b : Block} {axes : List Axis} {kind : String} {k : Kind}

/-! ### Tokens -/

/-- Whatever stands for the default token leads to it. -/
theorem tokenOf_of_defaults {axis : Axis} {token : String} (hk : axis.kind.Sound)
    (hst : axis.kind.standard = some token)
    (h : (call.given axis.name).Defaults call.options axis.kind token) (position : Nat)
    (rows : List Row) : call.tokenOf axis position rows = some token := by
  have hknown : ∀ name, axis.kind.trueToken? name = some token →
      call.given axis.name = .token name → call.tokenOf axis position rows = some token := by
    intro name hname hg
    have hhas : axis.kind.hasToken name = true := by rw [← axis.kind.isSome_trueToken?, hname]; rfl
    have hne : name ≠ Name.defaultWord := Name.ne_default_of_isToken (hk.named name hhas)
    unfold tokenOf knownToken
    rw [hg]
    dsimp only
    rw [if_neg hne, hname, hst]
    exact ite_self _
  generalize hg : call.given axis.name = s at h
  cases h with
  | word => simp [tokenOf, hg, hst]
  | itself => exact hknown token (Kind.trueToken?_of_contains (hk.standard token hst)) hg
  | aliased ha => exact hknown _ (hk.trueToken?_of_aliases ha) hg
  | nil ho => simp [tokenOf, unknownToken, hg, ho, hst]
  | unknown ho hne hlacks =>
    simp [tokenOf, unknownToken, hg, ho, hst, hne, Kind.trueToken?_of_lacks hlacks]
  | missing ho => simp [tokenOf, hg, ho, hst]

/-- What keeps a kind without a token leaves no value along it. -/
theorem valueAt_of_bars {axis : Axis} (h : (call.given axis.name).Bars call.options axis.kind)
    (arity position : Nat) : call.valueAt b arity position axis = none := by
  unfold valueAt
  generalize call.given axis.name = s at h
  cases h with
  | nil ho => simp [ho]
  | unknown ho hne hlacks => simp [ho, hne, Kind.trueToken?_of_lacks hlacks]
  | missing ho => simp [ho]

/-! ### Kinds that do not depend on values -/

/-- Along an axis with the name of a kind that the block has lies this kind. -/
theorem Along.kind_eq (hd : d.Sound) (ha : call.Along d b axes) (hb : b.Has d kind k) {axis : Axis}
    (haxis : axis ∈ axes) (hname : axis.name = kind) : axis.kind = k := by
  cases hb with
  | named hmem hk =>
    rcases ha with ⟨-, -, hkinds⟩ | ⟨hnil, -, -⟩
    · have hkind := hkinds axis haxis
      rw [hname, hk] at hkind
      exact (Option.some.inj hkind).symm
    · rw [hnil] at hmem
      cases hmem
  | told hnil hfirst htells hk =>
    cases ha.unique hd (.inferred hnil (.told hfirst htells) hk)
    cases List.mem_singleton.mp haxis
    rfl

/-- The block is resolved along a kind that it has. -/
theorem Along.exists_axis (hd : d.Sound) (ha : call.Along d b axes) (hb : b.Has d kind k) :
    ∃ axis ∈ axes, axis.name = kind := by
  cases hb with
  | named hmem hk =>
    rcases ha with ⟨-, hnames, -⟩ | ⟨hnil, -, -⟩
    · rw [← hnames] at hmem
      exact List.mem_map.mp hmem
    · rw [hnil] at hmem
      cases hmem
  | told hnil hfirst htells hk =>
    cases ha.unique hd (.inferred hnil (.told hfirst htells) hk)
    exact ⟨_, List.mem_cons_self, rfl⟩

/-- The kinds of such a block are found whatever is supplied. -/
theorem axes?_of_has (hd : d.Sound) (hb : b.Has d kind k) : call.axes? d b = call'.axes? d b := by
  unfold axes?
  cases hb with
  | named hmem hk =>
    have hne : ¬b.path.isEmpty = true := fun h => List.ne_nil_of_mem hmem (List.isEmpty_iff.mp h)
    rw [if_neg hne, if_neg hne]
  | told hnil hfirst htells hk =>
    unfold inferredAxis? inferredKind?
    rw [hd.findSome?_eq_some_iff.mpr ⟨_, hfirst, htells⟩]
    rfl

/-- The names of the kinds are names of the lexicon. -/
theorem Along.isToken (hd : d.Sound) (ha : call.Along d b axes) {axis : Axis}
    (haxis : axis ∈ axes) : Name.isToken axis.name = true := by
  rcases ha with ⟨-, -, hkinds⟩ | ⟨-, -, hk⟩
  · exact hd.isToken_of_namedKind? (hkinds axis haxis)
  · cases List.mem_singleton.mp haxis
    exact Name.isToken_of_isKind ((hd.side .loose).named _ _ hk)

namespace DifferAt

/-- The same is given for other kinds. -/
theorem given_eq (h : DifferAt kind call call') {other : String} (hkind : Name.isToken kind = true)
    (hother : Name.isToken other = true) (hne : other ≠ kind) :
    call.given other = call'.given other := by
  have hkeys : ∀ name, Name.isToken name = true → ∀ other, name ≠ Name.marked other := by
    rintro name hname other rfl
    have hbare := Name.unmarked?_of_isToken hname
    rw [Name.unmarked?_marked] at hbare
    cases hbare
  have hbare := h.args other hne (hkeys other hother kind)
  have hmarked := h.args (Name.marked other) (hkeys kind hkind other).symm
    (mt Name.marked_injective hne)
  unfold given found?
  rw [hbare, hmarked, h.locale]

/-- If both calls leave the kind to its default, the block comes to the same text. -/
theorem textIn_eq (h : DifferAt kind call call') (hd : d.Sound) (hb : b.Has d kind k)
    {token : String} (hst : k.standard = some token)
    (hs : (call.given kind).Defaults call.options k token)
    (hs' : (call'.given kind).Defaults call'.options k token) :
    call.textIn d b = call'.textIn d b := by
  refine textIn_congr (.of_eq h.options) (axes?_of_has hd hb) fun axes haxes axis haxis position rows => ?_
  have ha : call.Along d b axes := (axes?_eq_some_iff hd).mp haxes
  by_cases hname : axis.name = kind
  · have hkind := ha.kind_eq hd hb haxis hname
    have hsound := (ha.sound hd).2 axis haxis
    subst hname hkind
    rw [tokenOf_of_defaults hsound hst hs, tokenOf_of_defaults hsound hst hs']
  · have hgiven : call.given axis.name = call'.given axis.name :=
      h.given_eq (hb.isToken hd) (ha.isToken hd haxis) hname
    exact tokenOf_congr (.of_eq h.options) hgiven position rows

end DifferAt

/-- No alternative is selected if a kind of the block is kept without a token. -/
theorem not_selects_of_bars (hd : d.Sound) (hb : b.Has d kind k)
    (h : (call.given kind).Bars call.options k) (ha : call.Along d b axes) (a : Alternative) :
    ¬call.Selects b axes a := by
  obtain ⟨axis, haxis, rfl⟩ := ha.exists_axis hd hb
  obtain ⟨position, hp⟩ := List.mem_iff_getElem?.mp haxis
  rintro ⟨hfits, hall⟩
  have hlt : position < a.groups.length := by
    rw [hfits.1]
    exact (List.getElem?_eq_some_iff.mp hp).1
  obtain ⟨token, hv, -⟩ := hall position axis _ hp (List.getElem?_eq_getElem hlt)
  rw [valueAt_of_bars (ha.kind_eq hd hb haxis rfl ▸ h)] at hv
  cases hv

/-! ### Main statement -/

/-- **The default of a kind can be had in many ways.** For a lexicon that has come about by
additions, a call that does not raise, contexts that have resolved any templates before, and a block
that has a kind whatever is supplied: if the kind has a default token, the block comes to the same
text in all calls that do not differ but in what is supplied for the kind, and in which this stands
for the default. If what is supplied keeps the kind without a token, no alternative is selected, and
the block comes to its free text. -/
theorem default_fallback {locale : String} (hd : Lexicon.Reachable locale d)
    (hl : call.lexicon = some d) (hq : call.options.raises = false) (hb : b.Has d kind k)
    (earlier earlier' : Template) :
    (∀ token, k.standard = some token → (call.given kind).Defaults call.options k token →
      ∀ call', DifferAt kind call call' → (call'.given kind).Defaults call.options k token →
        ∃ text, ((call.block b).run (call.memoAfter earlier)).1 = .ok text ∧
          ((call'.block b).run (call'.memoAfter earlier')).1 = .ok text) ∧
    ((call.given kind).Bars call.options k →
      (∀ axes, call.Along d b axes → ∀ a, ¬call.Selects b axes a) ∧
      ∃ text, ((call.block b).run (call.memoAfter earlier)).1 = .ok text ∧
        (b.Free none text ∨
          ∃ axes, call.Along d b axes ∧ b.Free (call.describes b axes) text)) := by
  constructor
  · intro token hst hs call' h hs'
    have hl' : call'.lexicon = some d := h.lexicon ▸ hl
    have hq' : call'.options.raises = false := h.options ▸ hq
    refine ⟨_, fst_run_block_quiet hl hq earlier b, ?_⟩
    rw [fst_run_block_quiet hl' hq', h.textIn_eq hd.sound hb hst hs (h.options ▸ hs')]
  · intro hbars
    have hnone := fun axes (ha : call.Along d b axes) => not_selects_of_bars hd.sound hb hbars ha
    have hmeans : call.Means d b (call.textIn d b) := (means_iff hd.sound).mpr rfl
    refine ⟨hnone, _, fst_run_block_quiet hl hq earlier b, ?_⟩
    generalize call.textIn d b = text at hmeans
    cases hmeans with
    | unknownKind _ _ _ hfree => exact .inl hfree
    | noKind _ _ hfree => exact .inl hfree
    | misfit _ _ hfree => exact .inl hfree
    | selected ha _ hfirst =>
      obtain ⟨-, -, -, hselects, -⟩ := hfirst
      exact absurd hselects (hnone _ ha _)
    | free ha _ _ hfree => exact .inr ⟨_, ha, hfree⟩

/-- The sample call with another value for the gender, under its marked name. -/
def sampleSupplying (value : Value) (options : Options) : Call where
  lexicon := some Lexicon.sample
  locale := "en"
  args := sampleCall.args.insert (Name.marked "gender") value
  options := options

/-- An alias of the default, and a callable that answers nothing, come to the same; a text that is
no name leads to no alternative if it may not stand for the default. -/
theorem default_sample :
    (∃ text, ((sampleCall.block sampleBlock).run (sampleCall.memoAfter ⟨[]⟩)).1 = .ok text ∧
      (((sampleSupplying (.lazy fun _ _ => none) sampleCall.options).block sampleBlock).run
        ((sampleSupplying (.lazy fun _ _ => none) sampleCall.options).memoAfter ⟨[]⟩)).1 =
          .ok text) ∧
    ∀ axes,
      (sampleSupplying (.token "a|b") { unknownDefaults := false }).Along Lexicon.sample sampleBlock
        axes →
      ∀ a, ¬(sampleSupplying (.token "a|b") { unknownDefaults := false }).Selects sampleBlock axes
        a := by
  obtain ⟨k, hk, hst, ha, hlacks⟩ : ∃ k, Lexicon.sample.namedKind? "gender" = some k ∧
      k.standard = some "m" ∧ k.aliases.get? "masculine" = some "m" ∧ k.hasToken "a|b" = false :=
    ⟨Lexicon.sample.loose.kind "gender", by decide +kernel⟩
  have hb : sampleBlock.Has Lexicon.sample "gender" k := .named List.mem_cons_self hk
  have hlexicon : sampleCall.lexicon = some Lexicon.sample := rfl
  have hdiffer : DifferAt "gender" sampleCall
      (sampleSupplying (.lazy fun _ _ => none) sampleCall.options) := {
    lexicon := rfl
    locale := rfl
    options := rfl
    args := fun key _ hmarked => ((Table.get?_insert ..).trans (if_neg hmarked)).symm }
  have hbarred : (sampleSupplying (.token "a|b") { unknownDefaults := false }).lexicon =
      some Lexicon.sample := rfl
  constructor
  · exact (default_fallback Lexicon.reachable_sample hlexicon rfl hb ⟨[]⟩ ⟨[]⟩).1 "m" hst
      (.aliased ha) _ hdiffer (.nil rfl)
  · exact ((default_fallback Lexicon.reachable_sample hbarred rfl hb ⟨[]⟩ ⟨[]⟩).2
      (.unknown rfl (by decide) hlacks)).1

end Call
end Concord

/-
# A block with a header depends on its own kinds only

Two calls, each in a lexicon of its own, may agree on the kinds of a header: the
kinds have the same tables, and the same is supplied for them. Then a block with
this header comes to the same in both, or to an error in both. Whatever else is
in the lexicons or supplied can show only in which error it is: other kinds are
suggested for one that is not known, and tell a misplaced token from one that
does not exist.

Key definitions: `Call.AgreeOn`.
Key theorems: `Call.AgreeOn.given_eq`, `Call.AgreeOn.textIn_eq`,
`Call.AgreeOn.faultless_iff`, `Call.block_isolated`.
-/
import Concord.Proofs.Resolution.Faults

namespace Concord

/-- The axes of a header are told by the tables of its kinds. -/
theorem Lexicon.headerAxes?_congr {d d' : Lexicon} {path : List String}
    (h : ∀ kind ∈ path, d.namedKind? kind = d'.namedKind? kind) :
    d.headerAxes? path = d'.headerAxes? path := by
  induction path with
  | nil => rfl
  | cons kind rest ih =>
    obtain ⟨hkind, hrest⟩ := List.forall_mem_cons.mp h
    rw [headerAxes?_cons, headerAxes?_cons, hkind, ih hrest]

namespace Call

/-- The axes of a block with a header have the names of its kinds. -/
theorem name_mem_path {call : Call} {d : Lexicon} {b : Block} {axes : List Axis}
    (hpath : b.path ≠ []) (haxes : call.axes? d b = some axes) :
    ∀ axis ∈ axes, axis.name ∈ b.path := by
  unfold axes? at haxes
  rw [if_neg (mt List.isEmpty_iff.mp hpath)] at haxes
  intro axis haxis
  rw [← (Lexicon.headerAxes?_eq_some_iff.mp haxes).1]
  exact List.mem_map_of_mem haxis

/-- Two calls with their lexicons do not differ in the locale, in the switches, and in what belongs
to the kinds of a header: their tables, and what is supplied under their marked keys or, where these
are absent, under their bare ones. -/
structure AgreeOn (path : List String) (call call' : Call) (d d' : Lexicon) : Prop where
  locale : call.locale = call'.locale
  options : call.options = call'.options
  kinds : ∀ kind ∈ path, d.namedKind? kind = d'.namedKind? kind
  marked : ∀ kind ∈ path, call.args.get? (Name.marked kind) = call'.args.get? (Name.marked kind)
  bare : ∀ kind ∈ path, call.args.get? (Name.marked kind) = none →
    call.args.get? kind = call'.args.get? kind

namespace AgreeOn

variable {call call' : Call} {d d' : Lexicon}

theorem symm {path : List String} (h : AgreeOn path call call' d d') :
    AgreeOn path call' call d' d where
  locale := h.locale.symm
  options := h.options.symm
  kinds kind hk := (h.kinds kind hk).symm
  marked kind hk := (h.marked kind hk).symm
  bare kind hk hnone := (h.bare kind hk ((h.marked kind hk).trans hnone)).symm

/-- The same is given for the kinds. -/
theorem given_eq {path : List String} (h : AgreeOn path call call' d d') {kind : String}
    (hk : kind ∈ path) : call.given kind = call'.given kind := by
  have hfound : call.found? kind = call'.found? kind := by
    unfold found?
    rw [← h.marked kind hk]
    cases hm : call.args.get? (Name.marked kind) with
    | some value => rfl
    | none => rw [h.bare kind hk hm]
  unfold given
  rw [hfound, h.locale]

variable {b : Block} (h : AgreeOn b.path call call' d d') (hpath : b.path ≠ [])

include h

/-- A value along an axis that serves one call serves the other. -/
theorem serves {axis : Axis} (haxis : axis.name ∈ b.path) (hs : call.Serves b axis) :
    call'.Serves b axis := by
  have hgiven := h.given_eq haxis
  cases hs with
  | excluded hg hex => exact .excluded (hgiven ▸ hg) (h.options ▸ hex)
  | absent hg hst => exact .absent (hgiven ▸ hg) hst
  | default hg hst => exact .default (hgiven ▸ hg) hst
  | known hg ht => exact .known (hgiven ▸ hg) ht
  | other hg hn hw => exact .other (hgiven ▸ hg) hn hw

include hpath

theorem axes?_eq : call.axes? d b = call'.axes? d' b := by
  have hne : ¬b.path.isEmpty = true := mt List.isEmpty_iff.mp hpath
  unfold axes?
  rw [if_neg hne, if_neg hne, Lexicon.headerAxes?_congr h.kinds]

/-- The texts are the same where errors are passed over. -/
theorem textIn_eq : call.textIn d b = call'.textIn d' b := by
  refine textIn_congr (.of_eq h.options) (h.axes?_eq hpath) fun axes haxes axis haxis position rows => ?_
  exact tokenOf_congr (.of_eq h.options) (h.given_eq (name_mem_path hpath haxes axis haxis)) position rows

/-- What is without faults for one call is so for the other. -/
theorem faultless (hd : d.Sound) (hd' : d'.Sound) {axes : List Axis}
    (hf : call.Faultless d b axes) : call'.Faultless d' b axes := by
  have haxes : call.axes? d b = some axes := (axes?_eq_some_iff hd).mpr hf.along
  constructor
  case along => exact (axes?_eq_some_iff hd').mp (h.axes?_eq hpath ▸ haxes)
  case fits => exact hf.fits
  case suits => exact hf.suits
  case serves =>
    exact fun axis haxis => h.serves (name_mem_path hpath haxes axis haxis) (hf.serves axis haxis)

theorem faultless_iff (hd : d.Sound) (hd' : d'.Sound) :
    (∃ axes, call.Faultless d b axes) ↔ ∃ axes, call'.Faultless d' b axes :=
  ⟨fun ⟨axes, hf⟩ => ⟨axes, h.faultless hpath hd hd' hf⟩,
    fun ⟨axes, hf⟩ => ⟨axes, h.symm.faultless hpath hd' hd hf⟩⟩

end AgreeOn

/-! ### Main statement -/

/-- **A block with a header depends on its own kinds only.** For two calls in lexicons that have come
about by additions, which agree on the kinds of a block's header, and contexts that have resolved any
templates before: without raising the block comes to the same text in both; with raising it comes to
the same text in both, or it ends with an error in both. -/
theorem block_isolated {locale locale' : String} {call call' : Call} {d d' : Lexicon} {b : Block}
    (hd : Lexicon.Reachable locale d) (hd' : Lexicon.Reachable locale' d')
    (hl : call.lexicon = some d) (hl' : call'.lexicon = some d')
    (hpath : b.path ≠ []) (h : AgreeOn b.path call call' d d') (earlier earlier' : Template) :
    (call.options.raises = false → ∃ text,
      ((call.block b).run (call.memoAfter earlier)).1 = .ok text ∧
        ((call'.block b).run (call'.memoAfter earlier')).1 = .ok text) ∧
    (call.options.raises = true →
      (∃ text, ((call.block b).run (call.memoAfter earlier)).1 = .ok text ∧
        ((call'.block b).run (call'.memoAfter earlier')).1 = .ok text) ∨
      ∃ e e', ((call.block b).run (call.memoAfter earlier)).1 = .error e ∧
        ((call'.block b).run (call'.memoAfter earlier')).1 = .error e') := by
  have htext := h.textIn_eq hpath
  constructor
  · intro hq
    have hq' : call'.options.raises = false := h.options ▸ hq
    refine ⟨call.textIn d b, ?_, ?_⟩
    · rw [fst_run_block hl, outcome, hq]
      rfl
    · rw [fst_run_block hl', outcome, hq', htext]
      rfl
  · intro hr
    have hr' : call'.options.raises = true := h.options ▸ hr
    by_cases hf : ∃ axes, call.Faultless d b axes
    · obtain ⟨axes', hf'⟩ := (h.faultless_iff hpath hd.sound hd'.sound).mp hf
      obtain ⟨axes, hf⟩ := hf
      refine .inl ⟨call.textIn d b, hf.fst_run_block hd.sound hl earlier, ?_⟩
      rw [htext]
      exact hf'.fst_run_block hd'.sound hl' earlier'
    · have hf' := mt (h.faultless_iff hpath hd.sound hd'.sound).mpr hf
      rw [Call.faultless_iff hd.sound, not_forall] at hf
      rw [Call.faultless_iff hd'.sound, not_forall] at hf'
      obtain ⟨e, hs⟩ := hf
      obtain ⟨e', hs'⟩ := hf'
      exact .inr ⟨e, e', (not_not.mp hs).fst_run_block hd.sound hl hr earlier,
        (not_not.mp hs').fst_run_block hd'.sound hl' hr' earlier'⟩

/-- The sample lexicon with a kind more. -/
def sampleTimes : Lexicon := Lexicon.sample.apply (.token "@time" "soon" (some "in a while"))

/-- The sample call in this lexicon, with a value more. -/
def sampleElsewhere : Call where
  lexicon := some sampleTimes
  locale := "en"
  args := sampleCall.args.insert "@time" (.token "soon")
  options := { aliasedPatterns := true }

/-- A block in which a spec names no token of the kind of the header. -/
def sampleMisplaced : Block where
  path := ["gender"]
  alternatives := [⟨[[.name "soon"]], .plain "later"⟩, ⟨[[.name "m"]], .plain "he"⟩]
  source := "@gender\x7bsoon:later|m:he\x7d"

/-- The calls agree on the gender. Both come to the same text or, if they raise, to an error, but only
in one of the lexicons the name is that of another kind. -/
theorem isolated_sample :
    (∃ text, ((sampleCall.block sampleMisplaced).run (sampleCall.memoAfter ⟨[]⟩)).1 = .ok text ∧
      ((sampleElsewhere.block sampleMisplaced).run (sampleElsewhere.memoAfter ⟨[]⟩)).1 =
        .ok text) ∧
    ((sampleCall.block sampleMisplaced).run .empty).1 = .ok "he" ∧
    (((sampleCall.raising true).block sampleMisplaced).run .empty).1 =
      .error (.invalidToken sampleMisplaced.source "soon" (some "gender")) ∧
    (((sampleElsewhere.raising true).block sampleMisplaced).run .empty).1 =
      .error (.misplacedToken sampleMisplaced.source "soon" "gender") := by
  have hd : Lexicon.Reachable "en" Lexicon.sample :=
    (Lexicon.Reachable.config Lexicon.ofConfig_sample).foldl Lexicon.sampleChanges
  have hkind : Lexicon.sample.namedKind? "gender" = sampleTimes.namedKind? "gender" := by
    decide +kernel
  have hargs : ∀ key ≠ "@time", sampleCall.args.get? key = sampleElsewhere.args.get? key :=
    fun key hkey => ((Table.get?_insert ..).trans (if_neg hkey)).symm
  have hagree : AgreeOn sampleMisplaced.path sampleCall sampleElsewhere Lexicon.sample
      sampleTimes := {
    locale := by decide
    options := by decide
    kinds := List.forall_mem_singleton.mpr hkind
    marked := List.forall_mem_singleton.mpr (hargs _ (by decide))
    bare := List.forall_mem_singleton.mpr fun _ => hargs _ (by decide) }
  have hquiet := (block_isolated hd (hd.change _) rfl rfl (by decide) hagree ⟨[]⟩ ⟨[]⟩).1 rfl
  exact ⟨hquiet, by decide +kernel, by decide +kernel, by decide +kernel⟩

end Call
end Concord

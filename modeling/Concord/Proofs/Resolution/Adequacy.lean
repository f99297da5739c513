/-
# Blocks are resolved by the rules

What is computed for a block is what the rules say it means. A condition holds
of the tokens that its group accepts, the tokens along the axes are the values
of the rules, and a row applies if its alternative is selected; so the first
row that applies is that of the first alternative that is selected.

Key theorems: `Axis.condition_holds_iff`, `Call.tokenOf_eq_valueAt`,
`Call.applies_iff`, `Call.means_iff`, `Call.block_means`.
-/
import Concord.Proofs.Resolution.Inference
import Concord.Proofs.Resolution.Raising

namespace Concord

/-! ### The alternative that is chosen -/

namespace Axis

variable {axis : Axis} {aliased : Bool} {group : List Spec} {token : String}

theorem excluded_contains_iff :
    (axis.condition aliased group).excluded.contains token = true ↔
      ∃ name, .butNot name ∈ group ∧ axis.kind.Denotes aliased name token := by
  rw [List.contains_iff_mem, condition, List.mem_filterMap]
  constructor
  · intro h
    obtain ⟨spec, hs, ht⟩ := h
    cases spec with
    | butNot name => exact ⟨name, hs, Kind.denotes_iff.mp ht⟩
    | _ => cases ht
  · intro h
    obtain ⟨name, hs, ht⟩ := h
    exact ⟨.butNot name, hs, Kind.denotes_iff.mpr ht⟩

/-- A group rules something out if it has a negated name of the kind. -/
theorem excluded_isEmpty_iff :
    (axis.condition aliased group).excluded.isEmpty = false ↔
      ∃ name, .butNot name ∈ group ∧ axis.kind.hasToken name = true := by
  rw [List.isEmpty_eq_false_iff_exists_mem]
  simp only [← List.contains_iff_mem, excluded_contains_iff, ← Kind.denotes_iff,
    ← axis.isSome_denoted? aliased, Option.isSome_iff_exists]
  constructor
  · intro h
    obtain ⟨token, name, hs, ht⟩ := h
    exact ⟨name, hs, token, ht⟩
  · intro h
    obtain ⟨name, hs, token, ht⟩ := h
    exact ⟨token, name, hs, ht⟩

/-- A condition holds of the tokens that its group accepts. -/
theorem condition_holds_iff :
    (axis.condition aliased group).holds token = true ↔ axis.kind.Accepts aliased group token := by
  unfold Condition.holds Kind.Accepts
  rw [Bool.or_eq_true, Bool.or_eq_true, Bool.and_eq_true, or_assoc, Bool.not_eq_true',
    Bool.not_eq_true', ← Bool.not_eq_true (List.contains _ token)]
  rw [Kind.names_iff, excluded_isEmpty_iff, excluded_contains_iff]
  refine or_congr List.contains_iff_mem (or_congr Iff.rfl (and_congr Iff.rfl ?_))
  exact ⟨fun h name hs ht => h ⟨name, hs, ht⟩, fun h ⟨name, hs, ht⟩ => h name hs ht⟩

end Axis

theorem Alternative.isWellFormed_iff {a : Alternative} {arity : Nat} (h : 0 < arity) :
    a.isWellFormed arity = true ↔ a.Fits arity := by
  unfold isWellFormed Fits
  rw [Nat.max_eq_left h, Bool.and_eq_true, beq_iff_eq, List.all_eq_true]
  refine and_congr Iff.rfl (forall₂_congr fun group _ => ?_)
  rw [Bool.not_eq_true', List.isEmpty_eq_false_iff]

namespace Block

variable {b : Block} {arity : Nat}

theorem mem_typed_iff {a : Alternative} : a ∈ b.typed ↔ a ∈ b.alternatives ∧ a.groups ≠ [] := by
  unfold typed Alternative.isFree
  rw [List.mem_filter, Bool.not_eq_true', List.isEmpty_eq_false_iff]

theorem isMalformed_iff (h : 0 < arity) : b.isMalformed arity = true ↔ b.Misfits arity := by
  unfold isMalformed isComplex Misfits
  rw [Bool.and_eq_true, decide_eq_true_eq, List.any_eq_true]
  simp only [mem_typed_iff, and_assoc, Bool.not_eq_true', ← Bool.not_eq_true,
    Alternative.isWellFormed_iff h]

/-- The free text is the one of the rules. -/
theorem free_iff {description : Option String} {text : String} :
    b.Free description text ↔ text = b.freeText description := by
  have hfree : ∀ a ∈ b.alternatives, a.isFree = true ↔ a.groups = [] :=
    fun a _ => List.isEmpty_iff
  unfold freeText freeWording
  constructor
  · intro h
    rcases h with hfirst | habsent
    · rw [(first_iff_find? hfree).mp hfirst]
      rfl
    · rw [(find?_eq_none_iff_forall hfree).mpr habsent]
      rfl
  · rintro rfl
    cases hfind : b.alternatives.find? (·.isFree) with
    | some a => exact .first ((first_iff_find? hfree).mpr hfind)
    | none => exact .absent ((find?_eq_none_iff_forall hfree).mp hfind)

/-- The rows of a block that is not malformed. -/
def rowsOf (b : Block) (aliased : Bool) (axes : List Axis) : List Row :=
  (b.typed.filter (·.isWellFormed axes.length)).map (·.row aliased axes)

end Block

namespace Call

variable {call : Call} {d : Lexicon} {b : Block} {axes : List Axis}

theorem getElem?_row (a : Alternative) (aliased : Bool) {position : Nat} {axis : Axis}
    (hp : axes[position]? = some axis) :
    (a.row aliased axes).conditions[position]? =
      (a.groups[position]?).map (axis.condition aliased) := by
  unfold Alternative.row
  rw [List.getElem?_zipWith, hp]
  cases a.groups[position]? <;> rfl

/-- A row asks for a token if an alternative does that fits the kinds. -/
theorem any_asksFor_iff {aliased : Bool} {position : Nat} {axis : Axis} {token : String}
    (hp : axes[position]? = some axis) :
    (b.rowsOf aliased axes).any (·.asksFor position token) = true ↔
      b.AsksFor axes.length aliased axis.kind position token := by
  have hpos : 0 < axes.length :=
    Nat.zero_lt_of_lt (List.getElem?_eq_some_iff.mp hp).1
  have hasks : ∀ a : Alternative, (a.row aliased axes).asksFor position token = true ↔
      ∃ group ∈ a.groups[position]?, axis.kind.Names aliased group token := by
    intro a
    unfold Row.asksFor
    rw [getElem?_row a _ hp]
    cases a.groups[position]? with
    | none => simp
    | some group => simpa using Kind.names_iff axis
  unfold Block.rowsOf Block.AsksFor
  rw [List.any_map, List.any_eq_true]
  constructor
  · intro h
    obtain ⟨a, ha, hrow⟩ := h
    obtain ⟨ha, hfits⟩ := List.mem_filter.mp ha
    exact ⟨a, (Block.mem_typed_iff.mp ha).1, (Alternative.isWellFormed_iff hpos).mp hfits,
      (hasks a).mp hrow⟩
  · intro h
    obtain ⟨a, ha, hfits, hnames⟩ := h
    refine ⟨a, List.mem_filter.mpr ⟨Block.mem_typed_iff.mpr ⟨ha, ?_⟩, ?_⟩, (hasks a).mpr hnames⟩
    · rintro hnil
      rw [Alternative.Fits, hnil] at hfits
      exact absurd hfits.1 (Nat.ne_of_lt hpos)
    · exact (Alternative.isWellFormed_iff hpos).mpr hfits

/-- The token along an axis is the value of the rules. -/
theorem tokenOf_eq_valueAt (call : Call) (b : Block) {position : Nat} {axis : Axis}
    (hp : axes[position]? = some axis) :
    call.tokenOf axis position (b.rowsOf call.options.aliasedPatterns axes) =
      call.valueAt b axes.length position axis := by
  unfold tokenOf valueAt
  cases call.given axis.name with
  | missing => rfl
  | nil => rfl
  | token value =>
    dsimp only
    by_cases hv : value = Name.defaultWord
    · rw [if_pos hv, if_pos hv]
    · rw [if_neg hv, if_neg hv]
      cases axis.kind.trueToken? value with
      | none => rfl
      | some token =>
        dsimp only
        unfold knownToken
        refine if_congr ?_ rfl rfl
        rw [Bool.and_eq_true, Bool.not_eq_true', ← Bool.not_eq_true, any_asksFor_iff hp]

theorem getElem?_tokensOf (call : Call) (b : Block) (axes : List Axis) (position : Nat) :
    (call.tokensOf (b.rowsOf call.options.aliasedPatterns axes) 0 axes)[position]? =
      (axes[position]?).map (call.valueAt b axes.length position) := by
  unfold tokensOf
  rw [List.getElem?_map, List.getElem?_zipIdx, Nat.zero_add]
  cases hp : axes[position]? with
  | none => rfl
  | some axis => exact congrArg some (call.tokenOf_eq_valueAt b hp)

/-- A row applies if the groups of its alternative accept the values. -/
theorem applies_iff {a : Alternative} :
    (a.row call.options.aliasedPatterns axes).applies
        (call.tokensOf (b.rowsOf call.options.aliasedPatterns axes) 0 axes) = true ↔
      ∀ (position : Nat) (axis : Axis) (group : List Spec), axes[position]? = some axis →
        a.groups[position]? = some group →
          ∃ token, call.valueAt b axes.length position axis = some token ∧
            axis.kind.Accepts call.options.aliasedPatterns group token := by
  unfold Row.applies
  rw [List.all_eq_true]
  constructor
  · intro h position axis group hp hg
    have hcondition := getElem?_row a call.options.aliasedPatterns hp
    have htoken := call.getElem?_tokensOf b axes position
    rw [hg, Option.map_some] at hcondition
    rw [hp, Option.map_some] at htoken
    have hholds := h (axis.condition call.options.aliasedPatterns group,
        call.valueAt b axes.length position axis)
      (List.mem_of_getElem? (List.getElem?_zip_eq_some.mpr ⟨hcondition, htoken⟩))
    cases hv : call.valueAt b axes.length position axis with
    | none =>
      rw [hv] at hholds
      cases hholds
    | some token =>
      rw [hv] at hholds
      exact ⟨token, rfl, Axis.condition_holds_iff.mp hholds⟩
  · intro h pair hpair
    obtain ⟨position, hposition⟩ := List.mem_iff_getElem?.mp hpair
    obtain ⟨hcondition, htoken⟩ := List.getElem?_zip_eq_some.mp hposition
    rw [getElem?_tokensOf] at htoken
    obtain ⟨axis, hp, hvalue⟩ := Option.map_eq_some_iff.mp htoken
    rw [getElem?_row a _ hp] at hcondition
    obtain ⟨group, hg, hc⟩ := Option.map_eq_some_iff.mp hcondition
    obtain ⟨token, hv, haccepts⟩ := h position axis group hp hg
    rw [← hvalue, ← hc, hv]
    exact Axis.condition_holds_iff.mpr haccepts

/-- The first row with a property is that of the first alternative that fits the kinds and whose row
has it. -/
theorem find?_rowsOf (hpos : 0 < axes.length) (p : Row → Bool) (aliased : Bool) :
    (b.rowsOf aliased axes).find? p =
      (b.alternatives.find? fun a => a.isWellFormed axes.length && p (a.row aliased axes)).map
        (·.row aliased axes) := by
  have htyped : b.typed.filter (·.isWellFormed axes.length) =
      b.alternatives.filter (·.isWellFormed axes.length) := by
    unfold Block.typed
    rw [List.filter_filter]
    refine List.filter_congr fun a _ => ?_
    cases hw : a.isWellFormed axes.length with
    | false => rfl
    | true =>
      have hfits := ((Alternative.isWellFormed_iff hpos).mp hw).1
      cases hg : a.groups with
      | nil =>
        rw [hg] at hfits
        exact absurd hfits (Nat.ne_of_lt hpos)
      | cons group rest => rw [Alternative.isFree, hg]; rfl
  unfold Block.rowsOf
  rw [htyped, List.find?_map, List.find?_filter]
  congr 2
  funext a
  simp

/-- The alternatives whose rows apply are those that are selected. -/
theorem selects_iff (hpos : 0 < axes.length) (a : Alternative) :
    (a.isWellFormed axes.length &&
      (a.row call.options.aliasedPatterns axes).applies
        (call.tokensOf (b.rowsOf call.options.aliasedPatterns axes) 0 axes)) = true ↔
      call.Selects b axes a := by
  rw [Bool.and_eq_true, Alternative.isWellFormed_iff hpos, applies_iff]
  rfl

/-! ### The description -/

/-- The kinds along which a block is resolved are kinds of the lexicon. -/
theorem Along.sound (h : d.Sound) (ha : call.Along d b axes) :
    0 < axes.length ∧ ∀ axis ∈ axes, axis.kind.Sound := by
  rcases ha with ⟨hp, hnames, hkinds⟩ | ⟨-, -, hk⟩
  · refine ⟨?_, fun axis haxis => ?_⟩
    · rw [← List.length_map (·.name), hnames]
      exact List.length_pos_iff.mpr hp
    · rcases Option.or_eq_some_iff.mp (hkinds axis haxis) with hk | ⟨-, hk⟩
      · exact (h.side .strict).kinds axis.name axis.kind hk
      · exact (h.side .loose).kinds axis.name axis.kind hk
  · refine ⟨Nat.zero_lt_one, fun axis haxis => ?_⟩
    rw [List.mem_singleton.mp haxis]
    exact (h.side .loose).kinds _ _ hk

/-- A value depends on the block by the tokens that are asked for only. -/
theorem valueAt_congr {b' : Block} {arity arity' position position' : Nat} {axis : Axis}
    (h : ∀ token, b'.AsksFor arity' call.options.aliasedPatterns axis.kind position' token ↔
      b.AsksFor arity call.options.aliasedPatterns axis.kind position token) :
    call.valueAt b' arity' position' axis = call.valueAt b arity position axis := by
  unfold valueAt
  simp only [h]

/-- What stands for an unknown value is a true token. -/
theorem contains_of_unknownToken {axis : Axis} {token : String} (hk : axis.kind.Sound)
    (h : call.unknownToken axis = some token) : axis.kind.tokens.contains token = true := by
  unfold unknownToken at h
  split at h
  · exact hk.standard token h
  · cases h

/-- What takes the place of a true token is one. -/
theorem contains_of_or {k : Kind} {found token : String} (hk : k.Sound)
    (hfound : k.tokens.contains found = true) (h : k.standard.or (some found) = some token) :
    k.tokens.contains token = true := by
  rcases Option.or_eq_some_iff.mp h with hstandard | ⟨-, e⟩
  · exact hk.standard token hstandard
  · cases e
    exact hfound

/-- A value is a true token of its kind. -/
theorem contains_of_valueAt {arity position : Nat} {axis : Axis} {token : String}
    (hk : axis.kind.Sound) (hv : call.valueAt b arity position axis = some token) :
    axis.kind.tokens.contains token = true := by
  unfold valueAt at hv
  split at hv
  · split at hv
    · cases hv
    · exact hk.standard token hv
  · exact contains_of_unknownToken hk hv
  · split at hv
    · exact hk.standard token hv
    · split at hv
      · exact contains_of_unknownToken hk hv
      · next found hfound =>
        have hcontains := hk.contains_of_trueToken? hfound
        split at hv
        · exact contains_of_or hk hcontains hv
        · cases hv
          exact hcontains

/-- The description that a loud wording gives, for the tokens along the axes. -/
def descriptionOf (axes : List Axis) (tokens : List (Option String)) : Option String :=
  match axes, tokens with
  | axis :: _, some token :: _ => axis.kind.description? token
  | _, _ => none

/-- The text of a block is that of the first row that applies, or else the free text. -/
theorem choose_eq (b : Block) (axes : List Axis) (rows : List Row) (tokens : List (Option String)) :
    b.choose axes rows tokens =
      ((rows.find? (·.applies tokens)).map fun row =>
        row.wording.text (descriptionOf axes tokens)).getD
          (b.freeText (descriptionOf axes tokens)) := by
  unfold Block.choose descriptionOf
  cases rows.find? (·.applies tokens) <;> rfl

/-- The description is that of the first value. -/
theorem descriptionOf_eq_describes (hsound : ∀ axis ∈ axes, axis.kind.Sound) :
    descriptionOf axes (call.tokensOf (b.rowsOf call.options.aliasedPatterns axes) 0 axes) =
      call.describes b axes := by
  cases axes with
  | nil => rfl
  | cons axis rest =>
    have hfirst : (axis :: rest)[0]? = some axis := rfl
    have hvalue := call.tokenOf_eq_valueAt b hfirst
    unfold tokensOf describes
    rw [List.zipIdx_cons, List.map_cons, hvalue]
    dsimp only [List.head?_cons, Option.bind_some]
    cases hv : call.valueAt b (axis :: rest).length 0 axis with
    | none => rfl
    | some token =>
      have hcontains := contains_of_valueAt (hsound axis List.mem_cons_self) hv
      show (axis.kind.trueToken? token).bind axis.kind.tokens.get? = axis.kind.tokens.get? token
      rw [Kind.trueToken?_of_contains hcontains]
      rfl

/-! ### The text -/

/-- The first alternative that is selected. -/
def selected? (call : Call) (b : Block) (axes : List Axis) : Option Alternative :=
  b.alternatives.find? fun a => a.isWellFormed axes.length &&
    (a.row call.options.aliasedPatterns axes).applies
      (call.tokensOf (b.rowsOf call.options.aliasedPatterns axes) 0 axes)

theorem selected?_eq_some_iff (hpos : 0 < axes.length) {a : Alternative} :
    call.selected? b axes = some a ↔ First (call.Selects b axes) b.alternatives a :=
  (first_iff_find? fun a _ => selects_iff hpos a).symm

theorem selected?_eq_none_iff (hpos : 0 < axes.length) :
    call.selected? b axes = none ↔ ∀ a ∈ b.alternatives, ¬call.Selects b axes a :=
  find?_eq_none_iff_forall fun a _ => selects_iff hpos a

theorem textIn_of_unknown (h : call.axes? d b = none) : call.textIn d b = b.freeText none := by
  unfold textIn
  rw [h]

theorem textIn_of_misfits (h : d.Sound) (ha : call.Along d b axes) (hm : b.Misfits axes.length) :
    call.textIn d b = b.freeText none := by
  have hrows : b.rows? call.options.aliasedPatterns axes = none :=
    if_pos ((Block.isMalformed_iff (ha.sound h).1).mpr hm)
  unfold textIn
  rw [(axes?_eq_some_iff h).mpr ha]
  dsimp only
  rw [hrows]

/-- Otherwise the text of a block is that of the first alternative that is selected. -/
theorem textIn_of_fits (h : d.Sound) (ha : call.Along d b axes) (hm : ¬b.Misfits axes.length) :
    call.textIn d b =
      ((call.selected? b axes).map fun a => a.wording.text (call.describes b axes)).getD
        (b.freeText (call.describes b axes)) := by
  obtain ⟨hpos, hsound⟩ := ha.sound h
  have hrows : b.rows? call.options.aliasedPatterns axes =
      some (b.rowsOf call.options.aliasedPatterns axes) :=
    if_neg fun hb => hm ((Block.isMalformed_iff hpos).mp hb)
  unfold textIn
  rw [(axes?_eq_some_iff h).mpr ha]
  dsimp only
  rw [hrows]
  dsimp only
  rw [choose_eq, descriptionOf_eq_describes hsound, find?_rowsOf hpos, Option.map_map]
  rfl

/-- A block means one text, the one that is computed for it. -/
theorem means_iff (h : d.Sound) {text : String} :
    call.Means d b text ↔ text = call.textIn d b := by
  constructor
  · rintro (⟨hp, hs, hl, hfree⟩ | ⟨hp, hnone, hfree⟩ | ⟨ha, hm, hfree⟩ | ⟨ha, hm, hfirst⟩ |
      ⟨ha, hm, hnone, hfree⟩)
    · have hunknown := Lexicon.namedKind?_eq_none_iff.mpr ⟨hs, hl⟩
      rw [textIn_of_unknown ((axes?_eq_none_iff h).mpr (.inl ⟨_, hp, hunknown⟩))]
      exact Block.free_iff.mp hfree
    · rw [textIn_of_unknown ((axes?_eq_none_iff h).mpr (.inr ⟨hp, hnone⟩))]
      exact Block.free_iff.mp hfree
    · rw [textIn_of_misfits h ha hm]
      exact Block.free_iff.mp hfree
    · rw [textIn_of_fits h ha hm, (selected?_eq_some_iff (ha.sound h).1).mpr hfirst,
        Option.map_some, Option.getD_some]
    · rw [textIn_of_fits h ha hm, (selected?_eq_none_iff (ha.sound h).1).mpr hnone]
      exact Block.free_iff.mp hfree
  · rintro rfl
    cases haxes : call.axes? d b with
    | none =>
      have hfree : b.Free none (call.textIn d b) := Block.free_iff.mpr (textIn_of_unknown haxes)
      rcases (axes?_eq_none_iff h).mp haxes with ⟨kind, hp, hk⟩ | ⟨hp, hnone⟩
      · obtain ⟨hs, hl⟩ := Lexicon.namedKind?_eq_none_iff.mp hk
        exact .unknownKind hp hs hl hfree
      · exact .noKind hp hnone hfree
    | some axes =>
      have ha := (axes?_eq_some_iff h).mp haxes
      have hpos := (ha.sound h).1
      by_cases hm : b.Misfits axes.length
      · exact .misfit ha hm (Block.free_iff.mpr (textIn_of_misfits h ha hm))
      · have htext := textIn_of_fits h ha hm
        cases hfind : call.selected? b axes with
        | some a =>
          rw [hfind] at htext
          rw [htext]
          exact .selected ha hm ((selected?_eq_some_iff hpos).mp hfind)
        | none =>
          rw [hfind] at htext
          exact .free ha hm ((selected?_eq_none_iff hpos).mp hfind) (Block.free_iff.mpr htext)

/-! ### Main statement -/

/-- **A block comes to what it means.** For a lexicon that has come about by additions, a call that
does not raise, and a context that has resolved any template before, a block comes to a text, and
this is the one text that the block means. -/
theorem block_means {locale : String} {d : Lexicon} {call : Call} (hd : Lexicon.Reachable locale d)
    (hl : call.lexicon = some d) (hq : call.options.raises = false) (earlier : Template) (b : Block) :
    ∃ text, ((call.block b).run (call.memoAfter earlier)).1 = .ok text ∧
      ∀ other, call.Means d b other ↔ other = text := by
  have htext : call.textOf b = call.textIn d b := by
    unfold textOf
    rw [hl]
    rfl
  refine ⟨call.textOf b, ?_, fun other => ?_⟩
  · rw [(block_course b).run_quiet hq (call.faithful_memoAfter earlier)]
  · rw [htext]
    exact means_iff hd.sound

/-- A call that asks for the tense, and allows aliases in patterns. -/
def sampleCall : Call where
  lexicon := some Lexicon.sample
  locale := "en"
  args := .ofList [("gender", .token "masculine"),
    ("@tense", .lazy fun key locale => if key = "@tense" ∧ locale = "en" then some "past" else none)]
  options := { aliasedPatterns := true }

/-- A block of a loose and a strict kind, in which an alias and a negated name stand. -/
def sampleBlock : Block where
  path := ["gender", "tense"]
  alternatives := [⟨[[.name "f"], [.wildcard]], .plain "she"⟩,
    ⟨[[.name "masculine"], [.butNot "now"]], .loud⟩, ⟨[], .plain "they"⟩]
  source := "@gender+tense\x7bf+*:she|masculine+!now:~|they\x7d"

/-- The call gives the second alternative, as the rules do, even after it has asked for the tense. -/
theorem means_sample : sampleCall.Means Lexicon.sample sampleBlock "male" := by
  have hd : Lexicon.Reachable "en" Lexicon.sample :=
    (Lexicon.Reachable.config Lexicon.ofConfig_sample).foldl Lexicon.sampleChanges
  have hrun : (((sampleCall.block sampleBlock).run
      (sampleCall.memoAfter ⟨[.block sampleBlock]⟩)).1).toOption = some "male" := by decide +kernel
  have hl : sampleCall.lexicon = some Lexicon.sample := rfl
  obtain ⟨text, htext, hmeans⟩ := block_means hd hl rfl ⟨[.block sampleBlock]⟩ sampleBlock
  rw [htext] at hrun
  cases hrun
  exact (hmeans "male").mpr rfl

end Call

end Concord

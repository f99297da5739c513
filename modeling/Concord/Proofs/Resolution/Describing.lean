/-
# A loud wording always has something to say

Whatever is given for a kind, and whatever the switches make of it, the token along
an axis is a true token of the kind: not an alias, not the word that asks for the
default, and no token of other kinds only. Every true token has a description, so
a block whose first row that applies is loud comes to this very description of its
first token, and never to an empty text.

Key definition: `Call.Wins`.
Key theorems: `Call.contains_of_run_token`, `Call.Wins.run_block`,
`Call.Wins.exists_description`, `Call.loud_described`.
-/
import Concord.Proofs.Resolution.Adequacy

namespace Concord
namespace Call

/-- A row wins a block. The kinds, the rows and the tokens are found one after the other without an
error, and it is the first row that applies. -/
def Wins (call : Call) (d : Lexicon) (b : Block) (memo : Memo) (axes : List Axis)
    (tokens : List (Option String)) (row : Row) (memo' : Memo) : Prop :=
  ∃ rows memo₁ memo₂,
    (call.axes d b).run memo = (.ok (some axes), memo₁) ∧
    (call.rows d b axes).run memo₁ = (.ok (some rows), memo₂) ∧
    (call.tokens b rows 0 axes).run memo₂ = (.ok tokens, memo') ∧
    First (fun row => row.applies tokens = true) rows row

variable {call : Call} {d : Lexicon} {b : Block} {axis : Axis} {axes : List Axis} {position : Nat}
  {rows : List Row} {row : Row} {token : String} {tokens : List (Option String)} {memo memo' : Memo}

/-! ### The token along an axis -/

theorem eq_of_run_pure {α : Type} {a a' : α} (h : (pure a : Step α).run memo = (.ok a', memo')) :
    a' = a :=
  (Except.ok.inj (congrArg Prod.fst h)).symm

/-- If an error does not stop a part, the part ends with its result. -/
theorem eq_of_run_report {α : Type} {e : ResolutionError} {a a' : α}
    (h : (do call.report e; return a : Step α).run memo = (.ok a', memo')) : a' = a := by
  unfold report at h
  split at h
  · cases h
  · exact eq_of_run_pure h

theorem contains_of_knownToken (hk : axis.kind.Sound) {found : String}
    (hfound : axis.kind.tokens.contains found = true)
    (h : call.knownToken axis position rows found = some token) :
    axis.kind.tokens.contains token = true := by
  unfold knownToken at h
  split at h
  · exact contains_of_or hk hfound h
  · cases h
    exact hfound

theorem contains_of_run_defaultToken (hk : axis.kind.Sound) {pattern : String}
    (h : (call.defaultToken pattern axis).run memo = (.ok (some token), memo')) :
    axis.kind.tokens.contains token = true := by
  unfold defaultToken at h
  split at h
  · exact hk.standard token (eq_of_run_report h).symm
  · exact hk.standard token (eq_of_run_pure h).symm

/-- Whatever is supplied, the token for it is a true one. -/
theorem contains_of_run_tokenFor (hk : axis.kind.Sound) {s : Supply}
    (h : (call.tokenFor b axis position rows s).run memo = (.ok (some token), memo')) :
    axis.kind.tokens.contains token = true := by
  unfold tokenFor at h
  cases s with
  | missing =>
    dsimp only at h
    split at h
    · cases h
    · exact contains_of_run_defaultToken hk h
  | nil => exact contains_of_unknownToken hk (eq_of_run_report h).symm
  | token value =>
    dsimp only at h
    split at h
    · exact contains_of_run_defaultToken hk h
    · split at h
      · next found hfound =>
        exact contains_of_knownToken hk (hk.contains_of_trueToken? hfound) (eq_of_run_pure h).symm
      · split at h
        · exact contains_of_unknownToken hk (eq_of_run_report h).symm
        · exact contains_of_unknownToken hk (eq_of_run_pure h).symm

theorem contains_of_run_token (hk : axis.kind.Sound)
    (h : (call.token b axis position rows).run memo = (.ok (some token), memo')) :
    axis.kind.tokens.contains token = true := by
  unfold Call.token at h
  rw [run_bind] at h
  exact contains_of_run_tokenFor hk h

/-! ### The description of the first token -/

namespace Wins

/-- A block comes to the wording of the row that wins it. -/
theorem run_block (h : call.Wins d b memo axes tokens row memo') (hl : call.lexicon = some d) :
    (call.block b).run memo = (.ok (row.wording.text (descriptionOf axes tokens)), memo') := by
  obtain ⟨rows, memo₁, memo₂, haxes, hrows, htokens, hfirst⟩ := h
  have hfind : rows.find? (·.applies tokens) = some row :=
    (first_iff_find? fun _ _ => Iff.rfl).mp hfirst
  have hchoose : b.choose axes rows tokens = row.wording.text (descriptionOf axes tokens) := by
    rw [choose_eq, hfind]
    rfl
  unfold block
  rw [hl]
  show (call.blockIn d b).run memo = _
  unfold blockIn
  rw [run_bind, haxes]
  dsimp only
  rw [run_bind, hrows]
  dsimp only
  rw [run_bind, htokens, ← hchoose]
  rfl

/-- The row that wins is that of the first alternative that is selected. -/
theorem selected (h : call.Wins d b memo axes tokens row memo') (hd : d.Sound)
    (hm : call.Faithful memo) :
    call.Along d b axes ∧
      tokens = call.tokensOf (b.rowsOf call.options.aliasedPatterns axes) 0 axes ∧
      ∃ a, First (call.Selects b axes) b.alternatives a ∧
        a.row call.options.aliasedPatterns axes = row := by
  obtain ⟨rows, memo₁, memo₂, haxes, hrows, htokens, hfirst⟩ := h
  obtain ⟨haxes?, hm₁⟩ := (axes_course b).eq_of_run hm haxes
  obtain ⟨hrows?, hm₂⟩ := (rows_course b axes).eq_of_run hm₁ hrows
  obtain ⟨rfl, -⟩ := (tokens_course b rows axes 0).eq_of_run hm₂ htokens
  have ha : call.Along d b axes := (axes?_eq_some_iff hd).mp haxes?.symm
  have hrowsOf : b.rowsOf call.options.aliasedPatterns axes = rows :=
    Option.some.inj (Option.ite_none_left_eq_some.mp hrows?.symm).2
  subst hrowsOf
  refine ⟨ha, rfl, ?_⟩
  have hpos := (ha.sound hd).1
  have hfind := (first_iff_find? fun _ _ => Iff.rfl).mp hfirst
  rw [find?_rowsOf hpos, Option.map_eq_some_iff] at hfind
  obtain ⟨a, hselected, hrow⟩ := hfind
  exact ⟨a, (selected?_eq_some_iff hpos).mp hselected, hrow⟩

/-- If a row wins, there is a first token, and it is a true one with a description. -/
theorem exists_description (h : call.Wins d b memo axes tokens row memo') (hd : d.Sound)
    (hm : call.Faithful memo) :
    ∃ axis token text, axes.head? = some axis ∧ axis.kind.Sound ∧
      tokens.head? = some (some token) ∧ axis.kind.tokens.get? token = some text ∧
      descriptionOf axes tokens = some text := by
  obtain ⟨ha, rfl, a, ⟨-, -, -, ⟨⟨hlength, -⟩, hall⟩, -⟩, -⟩ := h.selected hd hm
  obtain ⟨hpos, hsound⟩ := ha.sound hd
  -- the alternative has a group at the first position, so there is a value that the group accepts
  obtain ⟨axis, haxis⟩ : ∃ axis, axes[0]? = some axis := ⟨_, List.getElem?_eq_getElem hpos⟩
  obtain ⟨group, hgroup⟩ : ∃ group, a.groups[0]? = some group :=
    ⟨_, List.getElem?_eq_getElem (hlength ▸ hpos)⟩
  obtain ⟨token, hvalue, -⟩ := hall 0 axis group haxis hgroup
  have hkind := hsound axis (List.mem_of_getElem? haxis)
  obtain ⟨text, htext⟩ := Table.contains_iff.mp (contains_of_valueAt hkind hvalue)
  have hhead := call.getElem?_tokensOf b axes 0
  rw [haxis, Option.map_some, hvalue] at hhead
  rw [← List.head?_eq_getElem?] at haxis hhead
  refine ⟨axis, token, text, haxis, hkind, hhead, htext, ?_⟩
  rw [descriptionOf_eq_describes hsound, describes, haxis]
  show (call.valueAt b axes.length 0 axis).bind axis.kind.tokens.get? = some text
  rw [hvalue]
  exact htext

end Wins

/-! ### Main statement -/

/-- **A loud wording always has something to say.** For a lexicon that has come about by additions,
and a context that has resolved any template before: whatever has been remembered in between and
whatever the rows are, a token along one of the axes of a block is a true token of the kind that lies
along it, no alias of it, and not the word that asks for the default. If a loud row wins the block,
the block comes to the description of the first token, which is not empty and does not start with
`@`. -/
theorem loud_described {locale : String} (hd : Lexicon.Reachable locale d)
    (hl : call.lexicon = some d) (earlier : Template) (b : Block) :
    (∀ axes memo₁, (call.axes d b).run (call.memoAfter earlier) = (.ok (some axes), memo₁) →
      ∀ axis ∈ axes, ∀ position rows memo token memo',
        (call.token b axis position rows).run memo = (.ok (some token), memo') →
          axis.kind.tokens.contains token = true ∧ axis.kind.aliases.contains token = false ∧
            token ≠ Name.defaultWord) ∧
    ∀ axes tokens row memo', call.Wins d b (call.memoAfter earlier) axes tokens row memo' →
      row.wording = .loud →
        ∃ axis token text, axes.head? = some axis ∧ tokens.head? = some (some token) ∧
          axis.kind.tokens.get? token = some text ∧
          text ≠ "" ∧ (∀ rest, text ≠ Name.marked rest) ∧
          (call.block b).run (call.memoAfter earlier) = (.ok text, memo') := by
  have hm := call.faithful_memoAfter earlier
  constructor
  · intro axes memo₁ haxes axis haxis position rows memo token memo' htoken
    have ha := (axes?_eq_some_iff hd.sound).mp ((axes_course b).eq_of_run hm haxes).1.symm
    have hkind := (ha.sound hd.sound).2 axis haxis
    have hcontains := contains_of_run_token hkind htoken
    have hname := hkind.named token (Kind.hasToken_iff.mpr (.inl hcontains))
    exact ⟨hcontains, hkind.disjoint token hcontains, Name.ne_default_of_isToken hname⟩
  · intro axes tokens row memo' h hloud
    obtain ⟨axis, token, text, haxis, hkind, hhead, htext, hdescription⟩ :=
      h.exists_description hd.sound hm
    obtain ⟨hne, hunmarked⟩ := hkind.described token text htext
    refine ⟨axis, token, text, haxis, hhead, htext, hne, hunmarked, ?_⟩
    rw [h.run_block hl, hloud, hdescription]
    rfl

/-- A call in which a gender is given, and the default takes the place of tokens that no alternative
asks for. -/
def sampleExcluding : Call where
  lexicon := some Lexicon.sample
  locale := "en"
  args := .ofList [("gender", .token "f")]
  options := { excludedDefaults := true }

/-- A block that asks for the default gender only. -/
def sampleLoud : Block where
  path := ["gender"]
  alternatives := [⟨[[.name "m"]], .loud⟩]
  source := "@gender\x7bm:~\x7d"

/-- The axis of the block. -/
def sampleGender : Axis := ⟨"gender", Lexicon.sample.loose.kind "gender"⟩

/-- The row of the block. -/
def sampleRow : Row := ⟨[{ named := ["m"] }], .loud⟩

/-- The default gender takes the place of the one that is given, and the block comes to its
description. -/
theorem described_sample :
    sampleExcluding.Wins Lexicon.sample sampleLoud (sampleExcluding.memoAfter ⟨[.block sampleLoud]⟩)
        [sampleGender] [some "m"] sampleRow .empty ∧
      sampleGender.kind.tokens.contains "m" = true ∧
      sampleGender.kind.aliases.contains "m" = false ∧
      (sampleExcluding.block sampleLoud).run (sampleExcluding.memoAfter ⟨[.block sampleLoud]⟩) =
        (.ok "male", .empty) := by
  have hl : sampleExcluding.lexicon = some Lexicon.sample := rfl
  obtain ⟨htrue, hloud⟩ :=
    loud_described Lexicon.reachable_sample hl ⟨[.block sampleLoud]⟩ sampleLoud
  have haxes : (sampleExcluding.axes Lexicon.sample sampleLoud).run
      (sampleExcluding.memoAfter ⟨[.block sampleLoud]⟩) = (.ok (some [sampleGender]), .empty) :=
    Prod.ext (by decide +kernel) (by decide +kernel)
  have hrows : (sampleExcluding.rows Lexicon.sample sampleLoud [sampleGender]).run .empty =
      (.ok (some [sampleRow]), .empty) :=
    Prod.ext (by decide +kernel) (by decide +kernel)
  have htoken : (sampleExcluding.token sampleLoud sampleGender 0 [sampleRow]).run .empty =
      (.ok (some "m"), .empty) :=
    Prod.ext (by decide +kernel) (by decide +kernel)
  have htokens : (sampleExcluding.tokens sampleLoud [sampleRow] 0 [sampleGender]).run .empty =
      (.ok [some "m"], .empty) :=
    Prod.ext (by decide +kernel) (by decide +kernel)
  have hwins : sampleExcluding.Wins Lexicon.sample sampleLoud
      (sampleExcluding.memoAfter ⟨[.block sampleLoud]⟩) [sampleGender] [some "m"] sampleRow .empty :=
    ⟨[sampleRow], .empty, .empty, haxes, hrows, htokens, [], [], rfl, by decide, nofun⟩
  obtain ⟨hcontains, halias, -⟩ := htrue _ _ haxes _ List.mem_cons_self _ _ _ _ _ htoken
  refine ⟨hwins, hcontains, halias, ?_⟩
  obtain ⟨_, _, text, haxis, hhead, htext, -, -, hrun⟩ := hloud _ _ _ _ hwins rfl
  cases haxis
  cases hhead
  have hmale : sampleGender.kind.tokens.get? "m" = some "male" := by decide +kernel
  cases hmale.symm.trans htext
  exact hrun

end Call
end Concord

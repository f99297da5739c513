/-
# Aliases in patterns where they are not allowed

Where aliases are not allowed in patterns, the name of an alias in a spec stands
for itself, and no value is ever an alias. So a group of plain aliases accepts no
value: an alternative with such a group is never selected, and its wording can
never be seen. A negated alias, though, rules out what no value is: a group of
aliases one of which is negated accepts every value, as the wildcard does.

Key definitions: `Spec.IsAlias`, `Alternative.Barred`, `Block.reword`.
Key theorems: `Kind.accepts_iff_of_aliases`, `Call.textIn_reword`,
`Call.disallowed_aliases`.
-/
import Concord.Proofs.Resolution.Aliases

namespace Concord

/-! ### Groups of aliases -/

namespace Spec

/-- A spec is the name of an alias, plain or negated. -/
def IsAlias (k : Kind) (s : Spec) : Prop :=
  ∃ name, s.named? = some name ∧ k.aliases.contains name = true

/-- A spec is negated. -/
def isNegated : Spec → Bool
  | .butNot _ => true
  | _ => false

end Spec

namespace Kind

variable {k : Kind} {group : List Spec} {token : String}

/-- A true token is denoted by no alias that stands for itself. -/
theorem Sound.not_denotes_of_alias (hk : k.Sound) (ht : k.tokens.contains token = true)
    {name : String} (ha : k.aliases.contains name = true) : ¬k.Denotes false name token := by
  rintro ⟨-, rfl⟩
  rw [hk.disjoint token ht] at ha
  cases ha

/-- A group of aliases accepts every token or none: it does if one of them is negated. -/
theorem accepts_iff_of_aliases (hk : k.Sound) (h : ∀ s ∈ group, s.IsAlias k)
    (ht : k.tokens.contains token = true) :
    k.Accepts false group token ↔ ∃ s ∈ group, s.isNegated = true := by
  have halias : ∀ s ∈ group, ∀ name, s.named? = some name → k.aliases.contains name = true := by
    intro s hs name hname
    obtain ⟨other, hother, ha⟩ := h s hs
    rw [hname] at hother
    cases hother
    exact ha
  constructor
  · rintro (hwild | ⟨name, hmem, hdenotes⟩ | ⟨⟨name, hmem, -⟩, -⟩)
    · obtain ⟨name, hname, -⟩ := h _ hwild
      cases hname
    · exact absurd hdenotes (hk.not_denotes_of_alias ht (halias _ hmem name rfl))
    · exact ⟨_, hmem, rfl⟩
  · rintro ⟨s, hmem, hneg⟩
    cases s with
    | butNot name =>
      refine .inr (.inr ⟨⟨name, hmem, ?_⟩, fun other hother => ?_⟩)
      · unfold hasToken
        rw [halias _ hmem name rfl, Bool.or_true]
      · exact hk.not_denotes_of_alias ht (halias _ hother other rfl)
    | _ => cases hneg

end Kind

/-- One of the groups of an alternative consists of plain aliases of the kind at its position. -/
def Alternative.Barred (tableAt : Nat → Kind → Prop) (a : Alternative) : Prop :=
  ∃ position group k, a.groups[position]? = some group ∧ tableAt position k ∧
    ∀ s ∈ group, s.IsAlias k ∧ s.isNegated = false

/-- The alternative with another wording. -/
def Alternative.reword (w : Alternative → Wording) (a : Alternative) : Alternative :=
  { a with wording := w a }

/-- The block with other wordings. -/
def Block.reword (w : Alternative → Wording) (b : Block) : Block :=
  { b with alternatives := b.alternatives.map (·.reword w) }

/-! ### Wordings -/

theorem First.map {α β : Type} {f : α → β} {p : β → Prop} {l : List α} {a : α}
    (h : First (fun a => p (f a)) l a) : First p (l.map f) (f a) := by
  obtain ⟨before, after, rfl, ha, hbefore⟩ := h
  exact ⟨before.map f, after.map f, by simp, ha, by simpa using hbefore⟩

namespace Block

variable {b : Block} {w : Alternative → Wording}

theorem specs_reword : (b.reword w).specs = b.specs := by
  unfold specs reword
  rw [List.flatMap_map]
  rfl

theorem asksFor_reword {arity : Nat} {aliased : Bool} {k : Kind} {position : Nat} {token : String} :
    (b.reword w).AsksFor arity aliased k position token ↔
      b.AsksFor arity aliased k position token := by
  unfold AsksFor reword
  simp only [List.mem_map, exists_exists_and_eq_and]
  rfl

theorem misfits_reword {arity : Nat} : (b.reword w).Misfits arity ↔ b.Misfits arity := by
  unfold Misfits reword
  simp only [List.mem_map, exists_exists_and_eq_and]
  rfl

/-- The free text stays if its wording does. -/
theorem Free.reword {description : Option String} {text : String} (h : b.Free description text)
    (hw : ∀ a, a.groups = [] → w a = a.wording) : (b.reword w).Free description text := by
  cases h with
  | @first a hfirst =>
    obtain ⟨-, -, -, hnil, -⟩ := id hfirst
    have hfirst' : First (fun a => a.groups = []) (b.reword w).alternatives (a.reword w) :=
      First.map (f := Alternative.reword w) hfirst
    rw [← hw a hnil]
    exact .first hfirst'
  | absent hne => exact .absent (List.forall_mem_map.mpr hne)

end Block

namespace Call

variable {call : Call} {d : Lexicon} {b : Block} {axes : List Axis} {w : Alternative → Wording}

/-- The kinds of a block do not depend on its wordings. -/
theorem infers_reword {kind : String} :
    call.Infers d (b.reword w) kind ↔ call.Infers d b kind := by
  constructor <;> rintro (⟨hfirst, htells⟩ | ⟨hnone, hfirst⟩)
  · exact .told (Block.specs_reword ▸ hfirst) htells
  · exact .offered (Block.specs_reword ▸ hnone) hfirst
  · exact .told (Block.specs_reword.symm ▸ hfirst) htells
  · exact .offered (Block.specs_reword.symm ▸ hnone) hfirst

theorem Along.reword (h : call.Along d b axes) : call.Along d (b.reword w) axes := by
  rcases h with ⟨hp, hnames, hkinds⟩ | ⟨hp, hinfers, hk⟩
  · exact .header hp hnames hkinds
  · exact .inferred hp (infers_reword.mpr hinfers) hk

/-- Nor do its values, nor which alternatives are selected. -/
theorem valueAt_reword (arity position : Nat) (axis : Axis) :
    call.valueAt (b.reword w) arity position axis = call.valueAt b arity position axis :=
  valueAt_congr fun _ => Block.asksFor_reword

theorem selects_reword {a : Alternative} :
    call.Selects (b.reword w) axes (a.reword w) ↔ call.Selects b axes a := by
  unfold Selects
  simp only [valueAt_reword]
  rfl

theorem describes_reword : call.describes (b.reword w) axes = call.describes b axes := by
  unfold describes
  simp only [valueAt_reword]

/-- A block means the same with other wordings if those of its free and of its selected alternatives
stay. -/
theorem Means.reword {text : String} (h : call.Means d b text)
    (hfree : ∀ a, a.groups = [] → w a = a.wording)
    (hselected : ∀ axes a, call.Along d b axes → call.Selects b axes a → w a = a.wording) :
    call.Means d (b.reword w) text := by
  cases h with
  | unknownKind hp hs hl htext => exact .unknownKind hp hs hl (htext.reword hfree)
  | noKind hp hnone htext =>
    exact .noKind hp (fun kind => mt infers_reword.mp (hnone kind)) (htext.reword hfree)
  | misfit ha hm htext =>
    exact .misfit ha.reword (Block.misfits_reword.mpr hm) (htext.reword hfree)
  | @selected axes a ha hm hfirst =>
    obtain ⟨-, -, -, hselects, -⟩ := id hfirst
    have hfirst' : First (call.Selects (b.reword w) axes) (b.reword w).alternatives
        (a.reword w) := by
      refine First.map ?_
      simpa only [selects_reword] using hfirst
    rw [← hselected axes a ha hselects, ← describes_reword (w := w)]
    exact .selected ha.reword (mt Block.misfits_reword.mp hm) hfirst'
  | @free axes _ ha hm hnone htext =>
    refine .free ha.reword (mt Block.misfits_reword.mp hm)
      (List.forall_mem_map.mpr fun a hmem => ?_) ?_
    · exact mt selects_reword.mp (hnone a hmem)
    · rw [describes_reword]
      exact htext.reword hfree

/-! ### Alternatives with groups of aliases -/

/-- An alternative stays selected with a group in the place of one that accepts no more. -/
theorem Selects.set {a : Alternative} (hs : call.Selects b axes a)
    (hsound : ∀ axis ∈ axes, axis.kind.Sound) {position : Nat} {group group' : List Spec}
    (hg : a.groups[position]? = some group) (hne : group' ≠ [])
    (haccepts : ∀ (axis : Axis) (token : String), axes[position]? = some axis →
      axis.kind.tokens.contains token = true →
      axis.kind.Accepts call.options.aliasedPatterns group token →
      axis.kind.Accepts call.options.aliasedPatterns group' token) :
    call.Selects b axes { a with groups := a.groups.set position group' } := by
  refine ⟨⟨List.length_set.trans hs.1.1, fun g hmem => ?_⟩, fun other axis g hp hother => ?_⟩
  · rcases List.mem_or_eq_of_mem_set hmem with hmem | rfl
    · exact hs.1.2 g hmem
    · exact hne
  · by_cases h : position = other
    · subst h
      obtain ⟨token, hv, ha⟩ := hs.2 position axis group hp hg
      have hcontains := contains_of_valueAt (hsound axis (List.mem_of_getElem? hp)) hv
      rw [List.getElem?_set_self (List.getElem?_eq_some_iff.mp hg).1] at hother
      cases hother
      exact ⟨token, hv, haccepts axis token hp hcontains ha⟩
    · rw [List.getElem?_set_ne h] at hother
      exact hs.2 other axis g hp hother

section

variable (hd : d.Sound) (hoff : call.options.aliasedPatterns = false) (halong : call.Along d b axes)
  {a : Alternative}

include hd hoff halong

/-- A group of plain aliases bars its alternative from being selected. -/
theorem not_selects_of_barred (h : a.Barred (call.TableAt d b)) : ¬call.Selects b axes a := by
  obtain ⟨position, group, k, hg, hat, halias⟩ := h
  rintro ⟨hfits, hall⟩
  have hlt := (List.getElem?_eq_some_iff.mp hg).1
  rw [hfits.1] at hlt
  have hp : axes[position]? = some axes[position] := List.getElem?_eq_getElem hlt
  have hsound := (halong.sound hd).2 _ (List.getElem_mem hlt)
  cases hat.eq_kind hd halong hp
  obtain ⟨token, hv, haccepts⟩ := hall position _ group hp hg
  rw [hoff, Kind.accepts_iff_of_aliases hsound (fun s hs => (halias s hs).1)
    (contains_of_valueAt hsound hv)] at haccepts
  obtain ⟨s, hs, hneg⟩ := haccepts
  rw [(halias s hs).2] at hneg
  cases hneg

/-- A group of aliases one of which is negated may as well be the wildcard. -/
theorem selects_set_wildcard_iff {position : Nat} {group : List Spec} {k : Kind}
    (hg : a.groups[position]? = some group) (hat : call.TableAt d b position k)
    (halias : ∀ s ∈ group, s.IsAlias k) (hneg : ∃ s ∈ group, s.isNegated = true) :
    call.Selects b axes a ↔
      call.Selects b axes { a with groups := a.groups.set position [.wildcard] } := by
  have hsound := (halong.sound hd).2
  have haccepts : ∀ axis token, axes[position]? = some axis →
      axis.kind.tokens.contains token = true → axis.kind.Accepts false group token := by
    intro axis token hp ht
    cases hat.eq_kind hd halong hp
    exact (Kind.accepts_iff_of_aliases (hsound axis (List.mem_of_getElem? hp)) halias ht).mpr hneg
  constructor
  · exact fun hs => hs.set hsound hg (List.cons_ne_nil _ _)
      fun axis token _ _ _ => .inl List.mem_cons_self
  · intro hs
    obtain ⟨hlt, rfl⟩ := List.getElem?_eq_some_iff.mp hg
    obtain ⟨s, hmem, -⟩ := hneg
    -- the group is put back in the place of the wildcard
    have hback := hs.set hsound (List.getElem?_set_self hlt) (List.ne_nil_of_mem hmem)
      fun axis token hp ht _ => hoff ▸ haccepts axis token hp ht
    rwa [List.set_set, List.set_getElem_self] at hback

end

/-! ### Main statement -/

/-- **Plain aliases match nothing where they are not allowed, negated ones everything.** For a
lexicon that has come about by additions, a call that neither raises nor allows aliases in patterns,
and contexts that have resolved any templates before: an alternative one of whose groups consists of
aliases of the kind at its position is never selected if they are plain, and is selected as if the
wildcard stood there if one of them is negated. Other wordings for alternatives with a group of
plain aliases give a block the same text. -/
theorem disallowed_aliases {locale : String} (hd : Lexicon.Reachable locale d)
    (hl : call.lexicon = some d) (hq : call.options.raises = false)
    (hoff : call.options.aliasedPatterns = false) (b : Block) (earlier earlier' : Template) :
    (∀ axes a position group k, call.Along d b axes → a.groups[position]? = some group →
      call.TableAt d b position k → (∀ s ∈ group, s.IsAlias k) →
      ((∀ s ∈ group, s.isNegated = false) → ¬call.Selects b axes a) ∧
      ((∃ s ∈ group, s.isNegated = true) → (call.Selects b axes a ↔
        call.Selects b axes { a with groups := a.groups.set position [.wildcard] }))) ∧
    ∀ w : Alternative → Wording, (∀ a, ¬a.Barred (call.TableAt d b) → w a = a.wording) →
      ∃ text, ((call.block b).run (call.memoAfter earlier)).1 = .ok text ∧
        ((call.block (b.reword w)).run (call.memoAfter earlier')).1 = .ok text := by
  refine ⟨fun axes a position group k ha hg hat halias => ⟨fun hplain => ?_, fun hneg => ?_⟩,
    fun w hw => ?_⟩
  · exact not_selects_of_barred hd.sound hoff ha
      ⟨position, group, k, hg, hat, fun s hs => ⟨halias s hs, hplain s hs⟩⟩
  · exact selects_set_wildcard_iff hd.sound hoff ha hg hat halias hneg
  · have hmeans : call.Means d b (call.textIn d b) := (means_iff hd.sound).mpr rfl
    have hreword : call.Means d (b.reword w) (call.textIn d b) := by
      refine hmeans.reword (fun a hnil => hw a ?_) fun axes a ha hs => hw a ?_
      · rintro ⟨position, group, k, hg, -⟩
        rw [hnil] at hg
        cases hg
      · exact fun hbarred => not_selects_of_barred hd.sound hoff ha hbarred hs
    refine ⟨_, fst_run_block_quiet hl hq earlier b, ?_⟩
    rw [fst_run_block_quiet hl hq, ← (means_iff hd.sound).mp hreword]

/-- A call that leaves the switches as they are. -/
def samplePlain : Call where
  lexicon := some Lexicon.sample
  locale := "en"
  args := .ofList [("gender", .token "m")]
  options := {}

/-- A block with a plain and a negated alias. -/
def sampleOnlyAliases : Block where
  path := ["gender"]
  alternatives := [⟨[[.name "masculine"]], .plain "he"⟩, ⟨[[.butNot "masculine"]], .plain "they"⟩,
    ⟨[], .plain "nobody"⟩]
  source := "@gender\x7bmasculine:he|!masculine:they|nobody\x7d"

/-- The kind of the block, and what it is told by. -/
theorem exists_gender :
    ∃ k, samplePlain.Along Lexicon.sample sampleOnlyAliases [⟨"gender", k⟩] ∧
      samplePlain.TableAt Lexicon.sample sampleOnlyAliases 0 k ∧ k.Sound ∧
      k.aliases.contains "masculine" = true ∧ k.tokens.contains "m" = true ∧
      samplePlain.valueAt sampleOnlyAliases 1 0 ⟨"gender", k⟩ = some "m" := by
  obtain ⟨k, hk, ha, ht, hv⟩ : ∃ k, Lexicon.sample.namedKind? "gender" = some k ∧
      k.aliases.contains "masculine" = true ∧ k.tokens.contains "m" = true ∧
      samplePlain.valueAt sampleOnlyAliases 1 0 ⟨"gender", k⟩ = some "m" :=
    ⟨Lexicon.sample.loose.kind "gender", by decide +kernel⟩
  have halong : samplePlain.Along Lexicon.sample sampleOnlyAliases [⟨"gender", k⟩] :=
    .header (List.cons_ne_nil _ _) rfl (List.forall_mem_singleton.mpr hk)
  have hsound := (halong.sound Lexicon.reachable_sample.sound).2 _ List.mem_cons_self
  exact ⟨k, halong, .header rfl hk, hsound, ha, ht, hv⟩

/-- A negated alias does match, though aliases are not allowed. -/
theorem negated_alias_selected :
    Lexicon.Reachable "en" Lexicon.sample ∧ samplePlain.lexicon = some Lexicon.sample ∧
      samplePlain.options.raises = false ∧ samplePlain.options.aliasedPatterns = false ∧
      (∃ axes, samplePlain.Along Lexicon.sample sampleOnlyAliases axes ∧
        ∃ a ∈ sampleOnlyAliases.alternatives, ∃ position group k, a.groups[position]? = some group ∧
          samplePlain.TableAt Lexicon.sample sampleOnlyAliases position k ∧
          (∀ s ∈ group, s.IsAlias k) ∧ samplePlain.Selects sampleOnlyAliases axes a) ∧
      ((samplePlain.block sampleOnlyAliases).run .empty).1 = .ok "they" := by
  obtain ⟨k, halong, hat, hk, ha, ht, hv⟩ := exists_gender
  have halias : ∀ s ∈ [Spec.butNot "masculine"], s.IsAlias k :=
    List.forall_mem_singleton.mpr ⟨"masculine", rfl, ha⟩
  have haccepts : k.Accepts false [.butNot "masculine"] "m" :=
    (Kind.accepts_iff_of_aliases hk halias ht).mpr ⟨_, List.mem_cons_self, rfl⟩
  have hfits : (⟨[[.butNot "masculine"]], .plain "they"⟩ : Alternative).Fits 1 := by decide
  refine ⟨Lexicon.reachable_sample, rfl, rfl, rfl,
    ⟨_, halong, ⟨[[.butNot "masculine"]], .plain "they"⟩, by decide, 0, _, k, rfl, hat, halias,
      hfits, fun position axis group hp hg => ?_⟩, by decide +kernel⟩
  cases position with
  | zero =>
    cases hp
    cases hg
    exact ⟨"m", hv, haccepts⟩
  | succ position => cases hp

/-- The plain alias is never selected, and its wording is never seen. -/
theorem disallowed_sample :
    (∃ axes, samplePlain.Along Lexicon.sample sampleOnlyAliases axes ∧
      ¬samplePlain.Selects sampleOnlyAliases axes ⟨[[.name "masculine"]], .plain "he"⟩) ∧
    ∃ text, ((samplePlain.block sampleOnlyAliases).run (samplePlain.memoAfter ⟨[]⟩)).1 = .ok text ∧
      ((samplePlain.block (sampleOnlyAliases.reword fun a =>
        if a.groups = [[.name "masculine"]] then .loud else a.wording)).run
          (samplePlain.memoAfter ⟨[.block sampleOnlyAliases]⟩)).1 = .ok text := by
  obtain ⟨k, halong, hat, -, ha, -, -⟩ := exists_gender
  have halias : ∀ s ∈ [Spec.name "masculine"], s.IsAlias k :=
    List.forall_mem_singleton.mpr ⟨"masculine", rfl, ha⟩
  have hl : samplePlain.lexicon = some Lexicon.sample := rfl
  obtain ⟨hselects, hwording⟩ := disallowed_aliases Lexicon.reachable_sample hl rfl rfl
    sampleOnlyAliases ⟨[]⟩ ⟨[.block sampleOnlyAliases]⟩
  refine ⟨⟨_, halong, (hselects _ _ 0 _ k halong rfl hat halias).1 ?_⟩, hwording _ fun a hnot => ?_⟩
  · exact List.forall_mem_singleton.mpr rfl
  · refine if_neg fun hgroups => hnot ⟨0, [.name "masculine"], k, by rw [hgroups]; rfl, hat, ?_⟩
    exact List.forall_mem_singleton.mpr ⟨halias _ List.mem_cons_self, rfl⟩

end Call
end Concord

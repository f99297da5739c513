/-
# What is stored can be asked for

Names are checked when they are stored, header characters when a pattern is
scanned, specs when a body is read, and values when a block is resolved. These
rules go together: every token and every alias of a kind can be named in a
pattern, under a header or where its kind is inferred, and is met when it is
given for the kind.

The text that is given for it may hold any characters but those that end it and
the backslash, and may not be the mark of the loud wording.

Key definitions: `Template.Bare`, `Block.asking`, `Call.giving`.
Key theorems: `Block.scan_asking`, `Call.textIn_asking`, `Call.faultless_asking`,
`Call.stored_addressed`.
-/
import Concord.Proofs.Resolution.Faults
import Concord.Proofs.Template.Keyed

namespace Concord

/-! ### Patterns that ask for one name -/

namespace Template

/-- A text that stands in a body as it is. -/
structure Bare (text : String) : Prop where
  plain : ∀ c ∈ text.toList, c ≠ '|' ∧ c ≠ '}' ∧ c ≠ '\\'
  ne_loud : text ≠ "~"

theorem Bare.clear {text : String} (h : Bare text) :
    Clear '|' text.toList ∧ Clear '}' text.toList := by
  constructor
  · refine .of_forall fun c hc => ?_
    obtain ⟨hbar, -, hslash⟩ := h.plain c hc
    exact ⟨hslash, hbar⟩
  · refine .of_forall fun c hc => ?_
    obtain ⟨-, hbrace, hslash⟩ := h.plain c hc
    exact ⟨hslash, hbrace⟩

/-- It is read as it is. -/
theorem Bare.parse {text : String} (h : Bare text) : Wording.parse text = .plain text := by
  have hslash : ∀ c ∈ text.toList, c ≠ '\\' := fun c hc => (h.plain c hc).2.2
  have hloud : text.toList ≠ ['~'] := fun htilde => h.ne_loud (String.toList_inj.mp htilde)
  unfold Wording.parse
  rw [unescape_of_no_backslash hslash]
  dsimp only
  rw [if_neg hloud]
  split
  · next rest heq => exact absurd rfl (hslash '\\' (heq ▸ List.mem_cons_self))
  · rw [String.ofList_toList]

end Template

namespace Block

/-- The block, with a kind or without one, that has a text for a name. -/
def asking (kind : Option String) (name text : String) : Block where
  path := kind.toList
  alternatives := [⟨[[.name name]], .plain text⟩]
  source := "@" ++ kind.getD "" ++ "\x7b" ++ name ++ ":" ++ text ++ "\x7d"

/-- It is read as it is written. -/
theorem scan_asking {kind : Option String} {name text : String}
    (hkind : ∀ k ∈ kind, Name.isKind k = true) (hname : Name.isToken name = true)
    (htext : Template.Bare text) :
    Template.scan (asking kind name text).source = ⟨[.block (asking kind name text)]⟩ := by
  have hlisted : Spec.ListedAs [.name name] name :=
    ⟨List.cons_ne_nil _ _, List.forall_mem_singleton.mpr hname,
      (List.intercalate_singleton ..).symm⟩
  have hwritable : (Keyed.mk kind [(name, text)] none "" "").IsWritable := {
    kind := hkind
    keys := List.forall_mem_singleton.mpr ⟨_, hlisted⟩
    texts := List.forall_mem_singleton.mpr htext.clear
    free := fun _ h => nomatch h
    ne_nil := .inl (List.cons_ne_nil _ _) }
  have hspecs : (name.toList.splitOn ',').map (fun s => Spec.parse (String.ofList s)) =
      [.name name] := by
    have hgroup := hlisted.eq_parseGroup
    unfold Alternative.parseGroup at hgroup
    split at hgroup
    · cases hgroup
    · exact hgroup
  have hblock : (Keyed.mk kind [(name, text)] none "" "").toBlock = asking kind name text := by
    simp [Keyed.toBlock, Keyed.body, Keyed.alternative, asking, hspecs, htext.parse,
      String.append_assoc]
  have hscan := hwritable.scan_source
  rw [hblock] at hscan
  exact congrArg Template.mk hscan

end Block

/-! ### Values that are given for the name -/

namespace Call

/-- The call in which a name is given for a kind, and nothing else. -/
def giving (d : Lexicon) (locale kind name : String) (options : Options) : Call :=
  ⟨some d, locale, .ofList [(kind, .token name)], options⟩

theorem given_giving {d : Lexicon} {locale kind name : String} {options : Options} :
    (giving d locale kind name options).given kind = .token name := by
  have hmarked : Name.marked kind ≠ kind := by
    intro h
    have hlength := congrArg (fun s => s.toList.length) h
    simp [Name.marked, String.toList_append] at hlength
  have hargs : (giving d locale kind name options).args =
      (∅ : Args).insert kind (.token name) := rfl
  unfold given found?
  rw [hargs, Table.get?_insert, if_neg hmarked, Table.get?_insert_self]
  rfl

variable {call : Call} {d : Lexicon} {axis : Axis} {kind : Option String} {name text : String}

/-- The token that a given name stands for meets the condition of a pattern that asks for the name:
with aliases allowed it is what the name denotes, and a true token always denotes itself. -/
theorem exists_token_of_given (htoken : axis.kind.hasToken name = true)
    (haliased : call.options.aliasedPatterns = true ∨ axis.kind.tokens.contains name = true) :
    ∃ token, axis.kind.trueToken? name = some token ∧
      axis.kind.Denotes call.options.aliasedPatterns name token := by
  cases hcontains : axis.kind.tokens.contains name with
  | true =>
    have htrue := Kind.trueToken?_of_contains hcontains
    refine ⟨name, htrue, ?_⟩
    unfold Kind.Denotes
    split
    · exact htrue
    · exact ⟨htoken, rfl⟩
  | false =>
    have halias : call.options.aliasedPatterns = true := by simpa [hcontains] using haliased
    rw [← axis.kind.isSome_trueToken? name, Option.isSome_iff_exists] at htoken
    obtain ⟨token, htrue⟩ := htoken
    refine ⟨token, htrue, ?_⟩
    unfold Kind.Denotes
    rwa [if_pos halias]

theorem fits_asking : (⟨[[.name name]], .plain text⟩ : Alternative).Fits 1 :=
  ⟨rfl, by simp⟩

/-- The alternative that asks for a name is selected where the name is given. -/
theorem selects_asking (hname : Name.isToken name = true)
    (hgiven : call.given axis.name = .token name) (htoken : axis.kind.hasToken name = true)
    (haliased : call.options.aliasedPatterns = true ∨ axis.kind.tokens.contains name = true) :
    call.Selects (.asking kind name text) [axis] ⟨[[.name name]], .plain text⟩ := by
  obtain ⟨token, htrue, hdenotes⟩ := exists_token_of_given htoken haliased
  have hnames : axis.kind.Names call.options.aliasedPatterns [.name name] token :=
    ⟨name, List.mem_cons_self, hdenotes⟩
  have hasks : (Block.asking kind name text).AsksFor 1 call.options.aliasedPatterns axis.kind 0
      token := ⟨_, List.mem_cons_self, fits_asking, _, rfl, hnames⟩
  have hvalue : call.valueAt (.asking kind name text) 1 0 axis = some token := by
    have hdefault : name ≠ Name.defaultWord := Name.ne_default_of_isToken hname
    simp [valueAt, hgiven, hdefault, htrue, hasks]
  refine ⟨fits_asking, fun position axis' group haxis hgroup => ?_⟩
  cases position with
  | zero =>
    cases haxis
    cases hgroup
    exact ⟨token, hvalue, .inr (.inl hnames)⟩
  | succ position => cases haxis

theorem not_misfits_asking : ¬(Block.asking kind name text).Misfits 1 := by
  rintro ⟨harity, -⟩
  cases kind <;> simp [Block.asking] at harity

theorem textIn_asking (h : d.Sound) (ha : call.Along d (.asking kind name text) [axis])
    (hname : Name.isToken name = true) (hgiven : call.given axis.name = .token name)
    (htoken : axis.kind.hasToken name = true)
    (haliased : call.options.aliasedPatterns = true ∨ axis.kind.tokens.contains name = true) :
    call.textIn d (.asking kind name text) = text := by
  have hfirst : First (call.Selects (.asking kind name text) [axis])
      (Block.asking kind name text).alternatives ⟨[[.name name]], .plain text⟩ :=
    ⟨[], [], rfl, selects_asking hname hgiven htoken haliased, List.forall_mem_nil _⟩
  have hselected := (selected?_eq_some_iff (ha.sound h).1).mpr hfirst
  rw [textIn_of_fits h ha not_misfits_asking, hselected]
  rfl

theorem faultless_asking (ha : call.Along d (.asking kind name text) [axis])
    (hname : Name.isToken name = true) (hgiven : call.given axis.name = .token name)
    (htoken : axis.kind.hasToken name = true) :
    call.Faultless d (.asking kind name text) [axis] where
  along := ha
  fits := List.forall_mem_singleton.mpr fun _ => fits_asking
  suits := by simp [Block.asking, Spec.Suits, hname, htoken]
  serves := List.forall_mem_singleton.mpr (.known hgiven htoken)

/-- Where a kind of the lexicon is the one along which it is resolved, a pattern that asks for a name
of the kind comes to its text. -/
theorem fst_run_asking (h : d.Sound) (hl : call.lexicon = some d)
    (ha : call.Along d (.asking kind name text) [axis])
    (hkind : ∀ k ∈ kind, Name.isKind k = true) (htext : Template.Bare text)
    (hgiven : call.given axis.name = .token name) (htoken : axis.kind.hasToken name = true)
    (haliased : call.options.aliasedPatterns = true ∨ axis.kind.tokens.contains name = true)
    (earlier : Template) :
    ((call.template (Template.scan (Block.asking kind name text).source)).run
      (call.memoAfter earlier)).1 = .ok text := by
  have hname : Name.isToken name = true :=
    ((ha.sound h).2 axis (List.mem_singleton_self axis)).named name htoken
  have hf := faultless_asking ha hname hgiven htoken
  rw [Block.scan_asking hkind hname htext, template_block, hf.fst_run_block h hl,
    textIn_asking h ha hname hgiven htoken haliased]

/-! ### Main statement -/

/-- **What is stored can be asked for.** In a lexicon that has come about by additions, let a name be
a token or alias of a kind, and let the call give it for the kind. A pattern with the header of the
kind that asks for the name, and has a text for it, comes to the text, whether the call raises or not
and however it is switched, if it allows aliases in patterns or the name is a true token. For a loose
kind so does the pattern without a header. -/
theorem stored_addressed {locale : String} (hd : Lexicon.Reachable locale d) {kind : String}
    {k : Kind} (htoken : k.hasToken name = true) (htext : Template.Bare text) {options : Options}
    (haliased : options.aliasedPatterns = true ∨ k.tokens.contains name = true)
    (locale' : String) (earlier : Template) :
    (d.namedKind? kind = some k →
      (((giving d locale' kind name options).template
          (Template.scan ("@" ++ kind ++ "\x7b" ++ name ++ ":" ++ text ++ "\x7d"))).run
        ((giving d locale' kind name options).memoAfter earlier)).1 = .ok text) ∧
    (d.loose.kinds.get? kind = some k →
      (((giving d locale' kind name options).template
          (Template.scan ("@\x7b" ++ name ++ ":" ++ text ++ "\x7d"))).run
        ((giving d locale' kind name options).memoAfter earlier)).1 = .ok text) := by
  have h := hd.sound
  constructor
  · intro hk
    have hkind : Name.isKind kind = true := by
      rcases Option.or_eq_some_iff.mp hk with hstrict | ⟨-, hloose⟩
      · exact (h.side .strict).named kind k hstrict
      · exact (h.side .loose).named kind k hloose
    have ha : (giving d locale' kind name options).Along d (.asking (some kind) name text)
        [⟨kind, k⟩] := .header (List.cons_ne_nil _ _) rfl (List.forall_mem_singleton.mpr hk)
    exact fst_run_asking h rfl ha (fun _ hmem => Option.mem_some.mp hmem ▸ hkind) htext
      given_giving htoken haliased earlier
  · intro hk
    have htells : (Spec.name name).Tells d kind := ⟨k, hk, htoken⟩
    have hfirst : First (fun s => ∃ other, Spec.Tells d other s)
        (Block.asking none name text).specs (.name name) :=
      ⟨[], [], rfl, ⟨kind, htells⟩, List.forall_mem_nil _⟩
    have ha : (giving d locale' kind name options).Along d (.asking none name text)
        [⟨kind, k⟩] := .inferred rfl (.told hfirst htells) hk
    exact fst_run_asking h rfl ha (fun _ hmem => nomatch hmem) htext given_giving htoken haliased
      earlier

/-- A call that raises, puts the default for what no alternative asks for, and allows aliases. -/
def sampleGiving : Call :=
  giving Lexicon.sample "en" "gender" "masculine"
    { raises := true, excludedDefaults := true, aliasedPatterns := true }

/-- An alias of a loose kind is met under its header and without it; a token of a strict kind is met
where no aliases are allowed in patterns. -/
theorem addressed_sample :
    ((sampleGiving.template (Template.scan "@gender\x7bmasculine:a:b\x7b~\x7d")).run .empty).1 =
        .ok "a:b\x7b~" ∧
      ((sampleGiving.template (Template.scan "@\x7bmasculine:a:b\x7b~\x7d")).run .empty).1 =
        .ok "a:b\x7b~" ∧
      (((giving Lexicon.sample "en" "tense" "past" { raises := true }).template
        (Template.scan "@tense\x7bpast:a:b\x7b~\x7d")).run .empty).1 = .ok "a:b\x7b~" := by
  have hd : Lexicon.Reachable "en" Lexicon.sample :=
    (Lexicon.Reachable.config Lexicon.ofConfig_sample).foldl Lexicon.sampleChanges
  have htext : Template.Bare "a:b\x7b~" := ⟨by simp, by decide⟩
  obtain ⟨gender, hgender, hmasculine⟩ : ∃ k, Lexicon.sample.loose.kinds.get? "gender" = some k ∧
      k.hasToken "masculine" = true := ⟨_, rfl, by decide +kernel⟩
  obtain ⟨tense, htense, hpast⟩ : ∃ k, Lexicon.sample.namedKind? "tense" = some k ∧
      k.tokens.contains "past" = true := ⟨_, rfl, by decide +kernel⟩
  have hnamed : Lexicon.sample.namedKind? "gender" = some gender := by
    rw [← hgender]
    decide +kernel
  have htoken : tense.hasToken "past" = true := by
    rw [Kind.hasToken, hpast]
    rfl
  exact ⟨(stored_addressed hd hmasculine htext (.inl rfl) "en" ⟨[]⟩).1 hnamed,
    (stored_addressed hd hmasculine htext (.inl rfl) "en" ⟨[]⟩).2 hgender,
    (stored_addressed hd htoken htext (.inr hpast) "en" ⟨[]⟩).1 htense⟩

end Call
end Concord

/-
# What holds of every lexicon

Whatever is added to a lexicon, and whether it succeeds or fails: the names of
its kinds and tokens are names, in a kind no true token is an alias, aliases
and the default stand for true tokens of their own kind, and descriptions are
texts that could not be taken for aliases (`Kind.Sound`, `Namespace.Sound`). In
the loose namespace the owner index is exactly the inverse of the kinds
(`Namespace.Owned`), so a name belongs to one kind only.

The strict namespace has no such index: there a name is looked up in its kind.

Key definitions: `Kind.Sound`, `Namespace.Sound`, `Namespace.Owned`,
`Lexicon.Sound`.
Key theorems: `Lexicon.Sound.extend?`, `Lexicon.Sound.apply`,
`Lexicon.Reachable.sound`.
-/
import Concord.Proofs.Lexicon.Growth

namespace Concord

/-! ### Kinds -/

namespace Kind

/-- What holds of every kind. -/
structure Sound (k : Kind) : Prop where
  named : ∀ name, k.hasToken name = true → Name.isToken name = true
  disjoint : ∀ name, k.tokens.contains name = true → k.aliases.contains name = false
  targets : ∀ name target, k.aliases.get? name = some target → k.tokens.contains target = true
  standard : ∀ token, k.standard = some token → k.tokens.contains token = true
  described : ∀ name text, k.tokens.get? name = some text →
    text ≠ "" ∧ ∀ rest, text ≠ Name.marked rest

theorem sound_empty : Sound empty where
  named _ h := by cases h
  disjoint _ h := by cases h
  targets _ _ h := by cases h
  standard _ h := by cases h
  described _ _ h := by cases h

/-- A name that is new to a kind can be added to it, as a true token or as an alias of one. -/
theorem Sound.add {k : Kind} (h : k.Sound) {name : String} {value : Option String} {t : RawToken}
    (hn : Name.isToken name = true) (hf : k.hasToken name = false)
    (hv : RawToken.ofValue? value = some t)
    (ht : ∀ target, t = .aliasOf target → k.tokens.contains target = true) :
    (k.add name t).Sound := by
  have hnamed : ∀ other, (k.add name t).hasToken other = true → Name.isToken other = true := by
    intro other ho
    rcases hasToken_add_iff.mp ho with rfl | ho
    · exact hn
    · exact h.named other ho
  simp only [hasToken, Bool.or_eq_false_iff] at hf
  obtain ⟨hft, hfa⟩ := hf
  cases t with
  | description text =>
    obtain ⟨-, hne, hmark⟩ := RawToken.ofValue?_eq_description_iff.mp hv
    refine ⟨hnamed, fun other ho => ?_, fun other target ha => ?_, fun token hs => ?_,
      fun other text' ho => ?_⟩
    · rcases Table.contains_insert_iff.mp ho with rfl | ho
      · exact hfa
      · exact h.disjoint other ho
    · exact Table.contains_insert_iff.mpr (.inr (h.targets other target ha))
    · exact Table.contains_insert_iff.mpr (.inr (h.standard token hs))
    · simp only [Kind.add, Table.get?_insert] at ho
      split at ho
      · cases ho
        exact ⟨hne, hmark⟩
      · exact h.described other text' ho
  | aliasOf target =>
    refine ⟨hnamed, fun other ho => ?_, fun other target' ha => ?_, h.standard, h.described⟩
    · have hne : other ≠ name := by
        rintro rfl
        rw [show k.tokens.contains other = true from ho] at hft
        cases hft
      refine Bool.eq_false_iff.mpr fun ha => ?_
      rcases Table.contains_insert_iff.mp ha with e | ha
      · exact hne e
      · rw [h.disjoint other ho] at ha
        cases ha
    · simp only [Kind.add, Table.get?_insert] at ha
      split at ha
      · cases ha
        exact ht target rfl
      · exact h.targets other target' ha

/-- A true token that a kind has can be made its default. -/
theorem Sound.setStandard {k : Kind} (h : k.Sound) {token : String}
    (ht : k.tokens.contains token = true) : ({ k with standard := some token } : Kind).Sound where
  named := h.named
  disjoint := h.disjoint
  targets := h.targets
  standard := by
    intro other ho
    cases ho
    exact ht
  described := h.described

/-- The token that a name stands for is a true one. -/
theorem Sound.contains_of_trueToken? {k : Kind} (h : k.Sound) {name token : String}
    (ht : k.trueToken? name = some token) : k.tokens.contains token = true := by
  unfold trueToken? at ht
  split at ht
  · next hc =>
    cases ht
    exact hc
  · exact h.targets name token ht

theorem trueToken?_of_contains {k : Kind} {token : String} (h : k.tokens.contains token = true) :
    k.trueToken? token = some token := if_pos h

/-- True tokens and aliases are listed together in strictly increasing order. -/
theorem Sound.names_ordered {k : Kind} (h : k.Sound) : k.names.Pairwise (· < ·) := by
  have hsorted : k.names.Pairwise fun a b => (decide (a ≤ b)) = true := by
    apply List.pairwise_mergeSort
    · intro a b c hab hbc
      rw [decide_eq_true_eq] at *
      exact String.le_trans hab hbc
    · intro a b
      rw [Bool.or_eq_true, decide_eq_true_eq, decide_eq_true_eq]
      exact String.le_total a b
  have hdistinct : k.names.Nodup := by
    refine (List.mergeSort_perm _ _).nodup_iff.mpr
      (List.nodup_append.mpr ⟨k.tokens.keys_nodup, k.aliases.keys_nodup, ?_⟩)
    rintro a ha b hb rfl
    have hd := h.disjoint a (Table.mem_keys_iff.mp ha)
    rw [Table.mem_keys_iff.mp hb] at hd
    cases hd
  refine (hsorted.and hdistinct).imp fun {a b} hab => ?_
  have hle : a ≤ b := of_decide_eq_true hab.1
  exact Decidable.byContradiction fun hlt =>
    hab.2 (String.le_antisymm hle (String.not_lt.mp hlt))

end Kind

/-! ### Namespaces -/

namespace Namespace

/-- What holds of every namespace. -/
structure Sound (n : Namespace) : Prop where
  named : ∀ name k, n.kinds.get? name = some k → Name.isKind name = true
  kinds : ∀ name k, n.kinds.get? name = some k → k.Sound

/-- The owner index gives the kind that has a name. -/
def Owned (n : Namespace) : Prop :=
  ∀ name kind, n.owners.get? name = some kind ↔
    ∃ k, n.kinds.get? kind = some k ∧ k.hasToken name = true

theorem sound_empty : Sound empty where
  named _ _ h := by cases h
  kinds _ _ h := by cases h

theorem owned_empty : Owned empty := by
  intro name kind
  exact ⟨fun h => (nomatch h), fun ⟨_, h, _⟩ => (nomatch h)⟩

theorem Sound.kind {n : Namespace} (h : n.Sound) (name : String) : (n.kind name).Sound := by
  cases hk : n.kinds.get? name with
  | none => exact kind_of_not_contains hk ▸ Kind.sound_empty
  | some k => exact kind_of_get? hk ▸ h.kinds name k hk

theorem Sound.addKind {n : Namespace} (h : n.Sound) {name : String}
    (hn : Name.isKind name = true) : (n.addKind name).Sound := by
  refine ⟨fun other k hk => ?_, fun other k hk => ?_⟩ <;> rw [get?_addKind] at hk <;> split at hk
  · next e => exact e ▸ hn
  · exact h.named other k hk
  · cases hk
    exact h.kind name
  · exact h.kinds other k hk

theorem Sound.setKind {n : Namespace} (h : n.Sound) {name : String} {k : Kind}
    (hn : Name.isKind name = true) (hk : k.Sound) : (n.setKind name k).Sound := by
  refine ⟨fun other k' hk' => ?_, fun other k' hk' => ?_⟩ <;> rw [get?_setKind] at hk' <;>
    split at hk'
  · next e => exact e ▸ hn
  · exact h.named other k' hk'
  · cases hk'
    exact hk
  · exact h.kinds other k' hk'

theorem Sound.of_kinds_eq {n m : Namespace} (h : n.Sound) (e : m.kinds = n.kinds) : m.Sound where
  named := e ▸ h.named
  kinds := e ▸ h.kinds

/-- Owners are told by the kinds as they are read, whether they are there or not. -/
theorem owned_iff {n : Namespace} :
    n.Owned ↔ ∀ name kind, n.owners.get? name = some kind ↔
      (n.kind kind).hasToken name = true := by
  simp only [Owned, hasToken_kind_iff]

theorem Owned.addKind {n : Namespace} (h : n.Owned) (name : String) : (n.addKind name).Owned := by
  rw [owned_iff] at *
  intro other kind
  rw [owners_addKind, kind_addKind]
  exact h other kind

theorem kind_setKind (n : Namespace) (name other : String) (k : Kind) :
    (n.setKind name k).kind other = if other = name then k else n.kind other := by
  rw [kind, get?_setKind]
  by_cases h : other = name
  · rw [if_pos h, if_pos h]
    rfl
  · rw [if_neg h, if_neg h]
    rfl

/-- A kind may change as long as it keeps its names. -/
theorem Owned.setKind {n : Namespace} (h : n.Owned) {name : String} {k : Kind}
    (hk : ∀ other, k.hasToken other = (n.kind name).hasToken other) : (n.setKind name k).Owned := by
  rw [owned_iff] at *
  intro other kind
  rw [owners_setKind, kind_setKind, h other kind]
  by_cases e : kind = name
  · rw [if_pos e, hk, e]
  · rw [if_neg e]

/-- A name that nobody owns may be added to a kind. -/
theorem Owned.addName {n : Namespace} (h : n.Owned) {kind name : String} {t : RawToken}
    (hf : n.owners.get? name = none) : (n.addName kind name t).Owned := by
  rw [owned_iff] at *
  intro other kind'
  have hkind : (n.addName kind name t).kind kind' =
      if kind' = kind then (n.kind kind).add name t else n.kind kind' := by
    rw [← kind_setKind, Namespace.kind, kinds_addName]
    rfl
  have hfree : ∀ kind', ¬(n.kind kind').hasToken name = true := by
    intro kind' hk
    rw [(h name kind').mpr hk] at hf
    cases hf
  rw [get?_owners_addName hf, hkind]
  by_cases ho : other = name
  · subst ho
    rw [if_pos rfl]
    by_cases hk : kind' = kind
    · simp [hk, Kind.hasToken_add_iff]
    · rw [if_neg hk]
      exact iff_of_false (fun e => hk (Option.some.inj e).symm) (hfree kind')
  · rw [if_neg ho, h other kind']
    by_cases hk : kind' = kind
    · rw [if_pos hk, hk, Kind.hasToken_add_iff]
      simp [ho]
    · rw [if_neg hk]

end Namespace

/-! ### Lexicons -/

namespace Lexicon

/-- What holds of every lexicon. -/
structure Sound (d : Lexicon) : Prop where
  side : ∀ scope, (d.side scope).Sound
  owned : d.loose.Owned

theorem sound_empty (locale : String) : Sound (empty locale) where
  side scope := by cases scope <;> exact Namespace.sound_empty
  owned := Namespace.owned_empty

/-- A change to one namespace keeps a lexicon sound if it keeps the namespace so and, for the loose
one, the owner index right. -/
theorem Sound.update {d : Lexicon} (h : d.Sound) {scope : Scope} {f : Namespace → Namespace}
    (hs : (f (d.side scope)).Sound) (ho : scope = .loose → (f d.loose).Owned) :
    (d.update scope f).Sound := by
  refine ⟨fun other => ?_, ?_⟩
  · rw [side_update]
    split
    · exact hs
    · exact h.side other
  · cases scope with
    | loose => exact ho rfl
    | strict => exact h.owned

theorem Sound.addKind {d d' : Lexicon} {key : String} (h : d.Sound)
    (hd : d.addKind key = .ok d') : d'.Sound := by
  obtain ⟨hn, rfl⟩ := addKind_eq_ok_iff.mp hd
  exact h.update ((h.side _).addKind hn) fun _ => h.owned.addKind _

/-- Before a name is put into a kind the kind is added. -/
theorem isKind_of_addKind {d d' : Lexicon} {key : String} (hd : d.addKind key = .ok d') :
    Name.isKind (Scope.split key).2 = true := (addKind_eq_ok_iff.mp hd).1

/-- A name that has no occupant is new to its kind. -/
theorem Sound.hasToken_of_occupant? {d : Lexicon} (h : d.Sound) {scope : Scope}
    {kind name : String} (ho : d.occupant? scope kind name = none) :
    ((d.side scope).kind kind).hasToken name = false := by
  cases scope with
  | loose =>
    refine Bool.eq_false_iff.mpr fun hk => ?_
    have howner := (Namespace.owned_iff.mp h.owned name kind).mpr hk
    rw [show d.loose.owners.get? name = none from ho] at howner
    cases howner
  | strict =>
    simp only [occupant?] at ho
    split at ho
    · cases ho
    · next hk => exact Bool.eq_false_iff.mpr hk

theorem Sound.puts {d d' : Lexicon} (h : d.Sound) {scope : Scope} {kind name : String}
    {value : Option String} (hk : Name.isKind kind = true)
    (hp : Puts d scope kind name value d') : d'.Sound := by
  have hkind := (h.side scope).kind kind
  cases hp with
  | standard token hn ht =>
    have hset := hkind.setStandard (hkind.contains_of_trueToken? ht)
    refine h.update ((h.side scope).setKind hk hset) ?_
    rintro rfl
    exact h.owned.setKind fun other => rfl
  | name t hn ho hv ht =>
    have hadd := hkind.add hn (h.hasToken_of_occupant? ho) hv ht
    refine h.update (.of_kinds_eq ((h.side scope).setKind hk hadd) (Namespace.kinds_addName ..)) ?_
    rintro rfl
    exact h.owned.addName ho

/-- A successful addition keeps a lexicon sound. -/
theorem Sound.extend? {d d' : Lexicon} (h : d.Sound) {c : Change} (hc : d.extend? c = .ok d') :
    d'.Sound := by
  cases c with
  | kind key => exact h.addKind hc
  | token key name value =>
    obtain ⟨d₁, hk, hp⟩ := addToken?_eq_ok_iff.mp hc
    exact (h.addKind hk).puts (isKind_of_addKind hk) hp

theorem Sound.run? {d d' : Lexicon} (h : d.Sound) {cs : List Change} (hc : d.run? cs = .ok d') :
    d'.Sound := by
  induction cs generalizing d with
  | nil =>
    cases hc
    exact h
  | cons c rest ih =>
    obtain ⟨d₁, h₁, hrest⟩ := bind_eq_ok_iff.mp hc
    exact ih (h.extend? h₁) hrest

/-- An addition keeps a lexicon sound even where it fails. -/
theorem Sound.apply {d : Lexicon} (h : d.Sound) (c : Change) : (d.apply c).Sound := by
  rcases apply_cases d c with e | ⟨key, d₁, hk, e | ⟨name, value, -, hp⟩⟩
  · rw [e]
    exact h
  · rw [e]
    exact h.addKind hk
  · exact (h.addKind hk).puts (isKind_of_addKind hk) (putToken_eq_ok_iff.mp hp)

theorem Reachable.sound {locale : String} {d : Lexicon} (h : Reachable locale d) : d.Sound := by
  induction h with
  | empty => exact sound_empty locale
  | config hc => exact (sound_empty locale).run? (ofConfig_eq_ok_iff.mp hc).2
  | change c _ ih => exact ih.apply c

/-! ### Locales -/

theorem locale_addKind {d d' : Lexicon} {key : String} (h : d.addKind key = .ok d') :
    d'.locale = d.locale := by
  obtain ⟨-, rfl⟩ := addKind_eq_ok_iff.mp h
  exact locale_update ..

theorem Puts.locale_eq {d d' : Lexicon} {scope : Scope} {kind name : String} {value : Option String}
    (h : Puts d scope kind name value d') : d'.locale = d.locale := by
  cases h <;> exact locale_update ..

theorem locale_extend? {d d' : Lexicon} {c : Change} (h : d.extend? c = .ok d') :
    d'.locale = d.locale := by
  cases c with
  | kind key => exact locale_addKind h
  | token key name value =>
    obtain ⟨d₁, hk, hp⟩ := addToken?_eq_ok_iff.mp h
    exact hp.locale_eq.trans (locale_addKind hk)

theorem locale_run? {d d' : Lexicon} {cs : List Change} (h : d.run? cs = .ok d') :
    d'.locale = d.locale := by
  induction cs generalizing d with
  | nil =>
    cases h
    rfl
  | cons c rest ih =>
    obtain ⟨d₁, h₁, hrest⟩ := bind_eq_ok_iff.mp h
    exact (ih hrest).trans (locale_extend? h₁)

theorem locale_apply (d : Lexicon) (c : Change) : (d.apply c).locale = d.locale := by
  rcases apply_cases d c with e | ⟨key, d₁, hk, e | ⟨name, value, -, hp⟩⟩
  · rw [e]
  · rw [e, locale_addKind hk]
  · exact (putToken_eq_ok_iff.mp hp).locale_eq.trans (locale_addKind hk)

theorem Reachable.locale_eq {locale : String} {d : Lexicon} (h : Reachable locale d) :
    d.locale = locale := by
  induction h with
  | empty => rfl
  | config hc => exact locale_run? (ofConfig_eq_ok_iff.mp hc).2
  | change c _ ih => exact (locale_apply _ c).trans ih

theorem Reachable.foldl {locale : String} {d : Lexicon} (h : Reachable locale d)
    (cs : List Change) : Reachable locale (cs.foldl apply d) := by
  induction cs generalizing d with
  | nil => exact h
  | cons c rest ih => exact ih (.change c h)

/-! ### Main statement -/

/-- **Every lexicon is well formed.** Kinds and names are named as they may be; a kind is sound and
lists its names in strictly increasing order; a loose name belongs to one kind, which is what the
owner index says of it and of nothing else; and the locale is the one given at first. -/
theorem wellFormed_of_reachable {locale : String} {d : Lexicon} (h : Reachable locale d) :
    (∀ scope kind k, (d.side scope).kinds.get? kind = some k →
      Name.isKind kind = true ∧ k.Sound ∧ k.names.Pairwise (· < ·)) ∧
    (∀ name kind, d.loose.owners.get? name = some kind ↔
      ∃ k, d.loose.kinds.get? kind = some k ∧ k.hasToken name = true) ∧
    (∀ name kind kind' k k', d.loose.kinds.get? kind = some k → k.hasToken name = true →
      d.loose.kinds.get? kind' = some k' → k'.hasToken name = true → kind = kind') ∧
    d.locale = locale := by
  have hs := h.sound
  refine ⟨fun scope kind k hk => ?_, hs.owned, ?_, h.locale_eq⟩
  · have hkind := (hs.side scope).kinds kind k hk
    exact ⟨(hs.side scope).named kind k hk, hkind, hkind.names_ordered⟩
  · intro name kind kind' k k' hk hn hk' hn'
    have howner := (hs.owned name kind).mpr ⟨k, hk, hn⟩
    rw [(hs.owned name kind').mpr ⟨k', hk', hn'⟩] at howner
    exact (Option.some.inj howner).symm

/-- A configuration with a loose and a strict kind, both with a default. -/
def sampleConfig : Config :=
  ⟨.ofList [
    ("gender", .tokens (.ofList [("f", some "female"), ("m", some "male"),
      ("masculine", some "@m"), ("default", some "masculine")])),
    ("@tense", .tokens (.ofList [("now", some "present"), ("past", some "past"),
      ("default", some "@now")]))]⟩

/-- The lexicon of the configuration. -/
def sampleStart : Lexicon where
  locale := "en"
  loose :=
    ⟨.ofList [("gender", ⟨.ofList [("f", "female"), ("m", "male")],
      .ofList [("masculine", "m")], some "m"⟩)],
      .ofList [("f", "gender"), ("m", "gender"), ("masculine", "gender")]⟩
  strict :=
    ⟨.ofList [("tense", ⟨.ofList [("now", "present"), ("past", "past")], ∅, some "now"⟩)],
      .ofList [("now", "tense"), ("past", "tense")]⟩

theorem ofConfig_sample : ofConfig "en" sampleConfig = .ok sampleStart := by
  have h : (ofConfig "en" sampleConfig).toOption = some sampleStart := by decide +kernel
  cases hc : ofConfig "en" sampleConfig with
  | error e =>
    rw [hc] at h
    cases h
  | ok d =>
    rw [hc] at h
    exact congrArg Except.ok (Option.some.inj h)

/-- Additions to it: a name that is taken, which leaves its kind behind, a kind that is no name, an
alias of no token, and a strict name that is taken in the loose namespace only. -/
def sampleChanges : List Change :=
  [.token "person" "m" (some "first"), .kind "a b", .token "gender" "neutral" (some "@n"),
    .token "@person" "m" (some "me")]

/-- The lexicon after the additions. -/
def sample : Lexicon := sampleChanges.foldl apply sampleStart

theorem reachable_sample : Reachable "en" sample :=
  (Reachable.config ofConfig_sample).foldl sampleChanges

theorem wellFormed_sample :
    Reachable "en" sample ∧ sample.loose.kinds.keys = ["gender", "person"] ∧
      (∀ name kind, sample.loose.owners.get? name = some kind ↔
        ∃ k, sample.loose.kinds.get? kind = some k ∧ k.hasToken name = true) ∧
      sample.locale = "en" := by
  have h : Reachable "en" sample := (Reachable.config ofConfig_sample).foldl sampleChanges
  obtain ⟨-, howned, -, hlocale⟩ := wellFormed_of_reachable h
  exact ⟨h, by decide +kernel, howned, hlocale⟩

end Lexicon
end Concord

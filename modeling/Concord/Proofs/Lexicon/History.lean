/-
# What a history tells of a lexicon

A lexicon that additions built one after the other, all with success, holds
what the additions said and nothing else: it has the kinds that were mentioned,
their names stand for what was said of them, and their defaults are what the
last word on them reaches (`Tells`). So whether one more addition succeeds can
be read off the additions before it (`Admissible`), without the lexicon.

Key definitions: `Lexicon.Says`, `Lexicon.Tells`, `Lexicon.Admissible`.
Key theorems: `Lexicon.tells_of_run?`, `Lexicon.extend?_isOk_iff`,
`Lexicon.run?_isOk_iff`.
-/
import Mathlib.Data.List.Induction
import Concord.Proofs.Lexicon.Sound

namespace Concord

/-! ### Places in a history -/

/-- A place in a longer list is its last one, or one in the list without the last. -/
theorem eq_append_cons_concat_iff {α : Type} {l before later : List α} {a b : α} :
    l ++ [a] = before ++ b :: later ↔
      (l = before ∧ a = b ∧ later = []) ∨ ∃ rest, later = rest ++ [a] ∧ l = before ++ b :: rest := by
  constructor
  · intro heq
    rcases List.eq_nil_or_concat later with rfl | ⟨rest, c, rfl⟩
    · obtain ⟨hl, hab⟩ := List.append_inj' heq rfl
      exact .inl ⟨hl, List.singleton_inj.mp hab, rfl⟩
    · rw [List.concat_eq_append, ← List.cons_append, ← List.append_assoc] at heq
      obtain ⟨hl, hac⟩ := List.append_inj' heq rfl
      rw [List.concat_eq_append, ← List.singleton_inj.mp hac]
      exact .inr ⟨rest, rfl, hl⟩
  · rintro (⟨rfl, rfl, rfl⟩ | ⟨rest, rfl, rfl⟩) <;> simp

/-! ### Names and what they stand for -/

namespace Kind

/-- A name of a kind stands for itself, with a description, or for a true token. -/
def Has (k : Kind) (name : String) : RawToken → Prop
  | .description text => k.tokens.get? name = some text
  | .aliasOf target => k.aliases.get? name = some target

theorem hasToken_iff_has {k : Kind} {name : String} :
    k.hasToken name = true ↔ ∃ t, k.Has name t := by
  rw [hasToken_iff, Table.contains_iff, Table.contains_iff]
  constructor
  · intro hyp
    rcases hyp with ⟨text, h⟩ | ⟨target, h⟩
    · exact ⟨.description text, h⟩
    · exact ⟨.aliasOf target, h⟩
  · intro hyp
    obtain ⟨t, h⟩ := hyp
    cases t with
    | description text => exact .inl ⟨text, h⟩
    | aliasOf target => exact .inr ⟨target, h⟩

theorem not_has_empty {name : String} {t : RawToken} : ¬empty.Has name t := by
  cases t <;> exact fun h => (nomatch h)

/-- A new name stands for what it is added for; the others stand for what they did. -/
theorem has_add_iff {k : Kind} {name other : String} {t u : RawToken}
    (hf : k.hasToken name = false) :
    (k.add name t).Has other u ↔ (other = name ∧ u = t) ∨ k.Has other u := by
  have hold : ∀ u, ¬k.Has name u := by
    intro u hu
    rw [hasToken_iff_has.mpr ⟨u, hu⟩] at hf
    cases hf
  by_cases ho : other = name
  · subst ho
    refine Iff.trans ?_ (or_iff_left (hold u)).symm
    have hnone := hold (.description "")
    cases t <;> cases u <;> simp only [add, Has, Table.get?_insert_self]
    · simp [eq_comm]
    · exact iff_of_false (hold (.aliasOf _)) (by simp)
    · exact iff_of_false (hold (.description _)) (by simp)
    · simp [eq_comm]
  · cases t <;> cases u <;> simp [add, Has, Table.get?_insert, ho]

theorem exists_trueToken?_iff {k : Kind} {name : String} :
    (∃ token, k.trueToken? name = some token) ↔ k.hasToken name = true := by
  rw [← Option.isSome_iff_exists, isSome_trueToken?]

theorem standard_add (k : Kind) (name : String) (t : RawToken) :
    (k.add name t).standard = k.standard := by
  cases t <;> rfl

/-- What a name stands for does not change when another name is added. -/
theorem trueToken?_add {k : Kind} {name other : String} {t : RawToken} (h : other ≠ name) :
    (k.add name t).trueToken? other = k.trueToken? other := by
  cases t with
  | description text =>
    have hc : (k.tokens.insert name text).contains other = k.tokens.contains other := by
      rw [Table.contains, Table.get?_insert, if_neg h]
      rfl
    show (if (k.tokens.insert name text).contains other = true then some other
      else k.aliases.get? other) = _
    rw [hc]
    rfl
  | aliasOf target =>
    show (if k.tokens.contains other = true then some other
      else (k.aliases.insert name target).get? other) = _
    rw [Table.get?_insert, if_neg h]
    rfl

end Kind

namespace Namespace

theorem contains_setKind_iff {n : Namespace} {name other : String} {k : Kind} :
    (n.setKind name k).kinds.contains other = true ↔
      other = name ∨ n.kinds.contains other = true :=
  Table.contains_insert_iff

theorem contains_addKind_iff {n : Namespace} {name other : String} :
    (n.addKind name).kinds.contains other = true ↔
      other = name ∨ n.kinds.contains other = true := by
  rw [Table.contains, get?_addKind]
  by_cases h : other = name <;> simp [h, Table.contains]

end Namespace

namespace Lexicon

theorem kind_addKind (d : Lexicon) (scope other : Scope) (name kind : String) :
    ((d.update scope (·.addKind name)).side other).kind kind = (d.side other).kind kind := by
  rw [side_update]
  by_cases h : other = scope
  · rw [if_pos h, h, Namespace.kind_addKind]
  · rw [if_neg h]

theorem kind_setKind (d : Lexicon) (scope other : Scope) (name kind : String) (k : Kind) :
    ((d.update scope (·.setKind name k)).side other).kind kind =
      if other = scope ∧ kind = name then k else (d.side other).kind kind := by
  rw [side_update]
  by_cases h : other = scope
  · rw [if_pos h, h, Namespace.kind_setKind]
    simp
  · rw [if_neg h, if_neg fun e => h e.1]

theorem kind_addName (d : Lexicon) (scope other : Scope) (kind name kind' : String) (t : RawToken) :
    ((d.update scope (·.addName kind name t)).side other).kind kind' =
      if other = scope ∧ kind' = kind then ((d.side scope).kind kind).add name t
      else (d.side other).kind kind' := by
  rw [← kind_setKind d scope other kind kind' (((d.side scope).kind kind).add name t), side_update,
    side_update]
  by_cases h : other = scope
  · rw [if_pos h, if_pos h, Namespace.kind, Namespace.kinds_addName]
    rfl
  · rw [if_neg h, if_neg h]

/-! ### What additions say -/

/-- The key of the kind that an addition is about. -/
def Change.key : Change → String
  | .kind key => key
  | .token key _ _ => key

/-- Some addition is about a kind. -/
def Mentions (cs : List Change) (scope : Scope) (kind : String) : Prop :=
  ∃ c ∈ cs, Scope.split c.key = (scope, kind)

/-- Some addition says what a name of a kind stands for. -/
def Says (cs : List Change) (scope : Scope) (kind name : String) (t : RawToken) : Prop :=
  ∃ key value, Change.token key name value ∈ cs ∧ Scope.split key = (scope, kind) ∧
    name ≠ Name.defaultWord ∧ RawToken.ofValue? value = some t

/-- The text that an addition names as the default of a kind. -/
def defaultOf (scope : Scope) (kind : String) : Change → Option String
  | .kind _ => none
  | .token key name value =>
    if Scope.split key = (scope, kind) ∧ name = Name.defaultWord then some (defaultTarget value)
    else none

/-- The last text that additions name as the default of a kind. -/
def lastDefault (scope : Scope) (kind : String) (cs : List Change) : Option String :=
  cs.reverse.findSome? (defaultOf scope kind)

theorem mentions_concat_iff {cs : List Change} {c : Change} {scope : Scope} {kind : String} :
    Mentions (cs ++ [c]) scope kind ↔
      Mentions cs scope kind ∨ Scope.split c.key = (scope, kind) := by
  simp [Mentions, or_and_right, exists_or]

theorem says_concat_iff {cs : List Change} {c : Change} {scope : Scope} {kind name : String}
    {t : RawToken} :
    Says (cs ++ [c]) scope kind name t ↔
      Says cs scope kind name t ∨ Says [c] scope kind name t := by
  simp [Says, or_and_right, exists_or]

theorem not_says_kind {key : String} {scope : Scope} {kind name : String} {t : RawToken} :
    ¬Says [.kind key] scope kind name t := by
  simp [Says]

theorem says_token_iff {key other : String} {value : Option String} {scope : Scope}
    {kind name : String} {t : RawToken} :
    Says [.token key other value] scope kind name t ↔
      Scope.split key = (scope, kind) ∧ name = other ∧ name ≠ Name.defaultWord ∧
        RawToken.ofValue? value = some t := by
  constructor
  · intro h
    obtain ⟨key', value', hm, hs, hn, hv⟩ := h
    cases List.mem_singleton.mp hm
    exact ⟨hs, rfl, hn, hv⟩
  · intro h
    obtain ⟨hs, rfl, hn, hv⟩ := h
    exact ⟨key, value, List.mem_singleton_self _, hs, hn, hv⟩

theorem lastDefault_concat (scope : Scope) (kind : String) (cs : List Change) (c : Change) :
    lastDefault scope kind (cs ++ [c]) =
      (defaultOf scope kind c).or (lastDefault scope kind cs) := by
  rw [lastDefault, List.reverse_append, List.reverse_singleton, List.singleton_append,
    List.findSome?_cons]
  cases defaultOf scope kind c <;> rfl

/-- A lexicon holds what additions said, and nothing else. -/
structure Tells (cs : List Change) (d : Lexicon) : Prop where
  kinds : ∀ scope kind, (d.side scope).kinds.contains kind = true ↔ Mentions cs scope kind
  names : ∀ scope kind name t, ((d.side scope).kind kind).Has name t ↔ Says cs scope kind name t
  standard : ∀ scope kind, ((d.side scope).kind kind).standard =
    (lastDefault scope kind cs).bind ((d.side scope).kind kind).trueToken?
  targets : ∀ scope kind target, lastDefault scope kind cs = some target →
    ((d.side scope).kind kind).hasToken target = true

theorem tells_empty (locale : String) : Tells [] (empty locale) where
  kinds scope kind := by cases scope <;> simp [Mentions, side, empty, Namespace.empty]
  names scope kind name t := by
    have hkind : ((empty locale).side scope).kind kind = .empty := by cases scope <;> rfl
    rw [hkind]
    exact iff_of_false Kind.not_has_empty (by simp [Says])
  standard scope kind := by cases scope <;> rfl
  targets _ _ _ h := by cases h

/-! ### A step -/

theorem Tells.addKind {cs : List Change} {d d' : Lexicon} (h : Tells cs d) {key : String}
    (hd : d.addKind key = .ok d') : Tells (cs ++ [.kind key]) d' := by
  obtain ⟨-, rfl⟩ := addKind_eq_ok_iff.mp hd
  rcases hkey : Scope.split key with ⟨scope₀, name₀⟩
  refine ⟨fun scope kind => ?_, fun scope kind name t => ?_, fun scope kind => ?_,
    fun scope kind target ht => ?_⟩
  · rw [mentions_concat_iff, ← h.kinds, show (Change.kind key).key = key from rfl, hkey, side_update]
    by_cases hs : scope = scope₀
    · rw [if_pos hs, hs, Namespace.contains_addKind_iff]
      constructor
      · intro hyp
        rcases hyp with rfl | hm
        · exact .inr rfl
        · exact .inl hm
      · intro hyp
        rcases hyp with hm | e
        · exact .inr hm
        · exact .inl (congrArg (·.2) e).symm
    · rw [if_neg hs]
      exact (or_iff_left fun e => hs (congrArg (·.1) e).symm).symm
  · rw [kind_addKind, says_concat_iff, h.names, or_iff_left not_says_kind]
  · rw [kind_addKind, lastDefault_concat]
    exact h.standard scope kind
  · rw [lastDefault_concat] at ht
    rw [kind_addKind]
    exact h.targets scope kind target ht

theorem mentions_concat_token_iff {cs : List Change} {key name : String} {value : Option String}
    {scope : Scope} {kind : String} :
    Mentions (cs ++ [.token key name value]) scope kind ↔ Mentions (cs ++ [.kind key]) scope kind := by
  rw [mentions_concat_iff, mentions_concat_iff]
  rfl

theorem lastDefault_concat_token (scope : Scope) (kind : String) (cs : List Change)
    (key name : String) (value : Option String) :
    lastDefault scope kind (cs ++ [.token key name value]) =
      (defaultOf scope kind (.token key name value)).or
        (lastDefault scope kind (cs ++ [.kind key])) := by
  rw [lastDefault_concat, lastDefault_concat]
  rfl

section

variable {cs : List Change} {d : Lexicon} {key name : String} {value : Option String}

/-- A kind that has been added may get a new state. -/
theorem Tells.contains_setKind_iff (h : Tells (cs ++ [.kind key]) d) (scope : Scope) (kind : String)
    (k : Kind) :
    ((d.update (Scope.split key).1 (·.setKind (Scope.split key).2 k)).side scope).kinds.contains
      kind = true ↔ Mentions (cs ++ [.token key name value]) scope kind := by
  rw [mentions_concat_token_iff, ← h.kinds, side_update]
  by_cases e : scope = (Scope.split key).1
  · rw [if_pos e, e, Namespace.contains_setKind_iff]
    refine or_iff_right_of_imp ?_
    rintro rfl
    exact (h.kinds _ _).mpr (mentions_concat_iff.mpr (.inr rfl))
  · rw [if_neg e]

theorem Tells.says_concat_iff (h : Tells (cs ++ [.kind key]) d) {scope : Scope}
    {kind other : String} {t : RawToken} :
    Says (cs ++ [.token key name value]) scope kind other t ↔
      ((d.side scope).kind kind).Has other t ∨ Says [.token key name value] scope kind other t := by
  rw [Lexicon.says_concat_iff, h.names, Lexicon.says_concat_iff, or_iff_left not_says_kind]

/-- What a lexicon tells when a default has been set. -/
theorem Tells.putStandard (h : Tells (cs ++ [.kind key]) d) {token : String}
    (ht : ((d.side (Scope.split key).1).kind (Scope.split key).2).trueToken? (defaultTarget value) =
      some token) :
    Tells (cs ++ [.token key Name.defaultWord value])
      (d.update (Scope.split key).1 (·.setKind (Scope.split key).2
        { (d.side (Scope.split key).1).kind (Scope.split key).2 with standard := some token })) := by
  refine ⟨fun scope kind => h.contains_setKind_iff scope kind _, fun scope kind other t => ?_,
    fun scope kind => ?_, fun scope kind target hl => ?_⟩
  · have hno : ¬Says [.token key Name.defaultWord value] scope kind other t := by
      intro hsaid
      obtain ⟨-, he, hne, -⟩ := says_token_iff.mp hsaid
      exact hne he
    rw [h.says_concat_iff, or_iff_left hno, kind_setKind]
    by_cases e : scope = (Scope.split key).1 ∧ kind = (Scope.split key).2
    · rw [if_pos e, e.1, e.2]
      cases t <;> rfl
    · rw [if_neg e]
  · rw [lastDefault_concat_token, kind_setKind, defaultOf]
    by_cases e : scope = (Scope.split key).1 ∧ kind = (Scope.split key).2
    · rw [if_pos e, e.1, e.2, if_pos ⟨rfl, rfl⟩]
      exact ht.symm
    · rw [if_neg e, if_neg fun he => e (Scope.split_eq_iff.mp he.1)]
      exact h.standard scope kind
  · rw [lastDefault_concat_token, defaultOf] at hl
    rw [kind_setKind]
    by_cases e : scope = (Scope.split key).1 ∧ kind = (Scope.split key).2
    · rw [e.1, e.2, if_pos ⟨rfl, rfl⟩] at hl
      cases hl
      rw [if_pos e]
      exact Kind.exists_trueToken?_iff.mp ⟨token, ht⟩
    · rw [if_neg fun he => e (Scope.split_eq_iff.mp he.1)] at hl
      rw [if_neg e]
      exact h.targets scope kind target hl

/-- What a lexicon tells when a name has been added that its kind did not have. -/
theorem Tells.putName (h : Tells (cs ++ [.kind key]) d) {t : RawToken} (hne : name ≠ Name.defaultWord)
    (hfree : ((d.side (Scope.split key).1).kind (Scope.split key).2).hasToken name = false)
    (hv : RawToken.ofValue? value = some t) :
    Tells (cs ++ [.token key name value])
      (d.update (Scope.split key).1 (·.addName (Scope.split key).2 name t)) := by
  have hdefault : ∀ scope kind, lastDefault scope kind (cs ++ [.token key name value]) =
      lastDefault scope kind (cs ++ [.kind key]) := by
    intro scope kind
    have hnone : defaultOf scope kind (.token key name value) = none := if_neg fun e => hne e.2
    rw [lastDefault_concat_token, hnone, Option.none_or]
  refine ⟨fun scope kind => ?_, fun scope kind other u => ?_, fun scope kind => ?_,
    fun scope kind target hl => ?_⟩
  · rw [← h.contains_setKind_iff scope kind
      (((d.side (Scope.split key).1).kind (Scope.split key).2).add name t), side_update, side_update]
    by_cases e : scope = (Scope.split key).1
    · rw [if_pos e, if_pos e, Namespace.kinds_addName]
    · rw [if_neg e, if_neg e]
  · rw [h.says_concat_iff, kind_addName, says_token_iff, Scope.split_eq_iff]
    by_cases e : scope = (Scope.split key).1 ∧ kind = (Scope.split key).2
    · rw [if_pos e, e.1, e.2, Kind.has_add_iff hfree, or_comm, hv]
      refine or_congr_right ?_
      constructor
      · intro hyp
        obtain ⟨rfl, rfl⟩ := hyp
        exact ⟨⟨rfl, rfl⟩, rfl, hne, rfl⟩
      · intro hyp
        obtain ⟨-, rfl, -, he⟩ := hyp
        exact ⟨rfl, (Option.some.inj he).symm⟩
    · rw [if_neg e, or_iff_left fun he => e he.1]
  · rw [hdefault, kind_addName]
    by_cases e : scope = (Scope.split key).1 ∧ kind = (Scope.split key).2
    · rw [if_pos e, e.1, e.2, Kind.standard_add, h.standard]
      cases hl : lastDefault (Scope.split key).1 (Scope.split key).2 (cs ++ [.kind key]) with
      | none => rfl
      | some target =>
        have htarget := h.targets _ _ target hl
        refine (Kind.trueToken?_add ?_).symm
        rintro rfl
        rw [hfree] at htarget
        cases htarget
    · rw [if_neg e]
      exact h.standard scope kind
  · rw [hdefault] at hl
    have htarget := h.targets scope kind target hl
    rw [kind_addName]
    by_cases e : scope = (Scope.split key).1 ∧ kind = (Scope.split key).2
    · rw [if_pos e, Kind.hasToken_add_iff]
      exact .inr (e.1 ▸ e.2 ▸ htarget)
    · rw [if_neg e]
      exact htarget

/-- What a lexicon tells when a kind has been added and a name put into it. -/
theorem Tells.puts {d' : Lexicon} (hs : d.Sound) (h : Tells (cs ++ [.kind key]) d)
    (hp : Puts d (Scope.split key).1 (Scope.split key).2 name value d') :
    Tells (cs ++ [.token key name value]) d' := by
  cases hp with
  | standard token hn ht =>
    subst hn
    exact h.putStandard ht
  | name t hn ho hv ht =>
    have hne : name ≠ Name.defaultWord := by
      rintro rfl
      rw [Name.not_isToken_default] at hn
      cases hn
    exact h.putName hne (hs.hasToken_of_occupant? ho) hv

theorem Tells.extend? {d' : Lexicon} (hs : d.Sound) (h : Tells cs d) {c : Change}
    (hc : d.extend? c = .ok d') : Tells (cs ++ [c]) d' := by
  cases c with
  | kind key => exact h.addKind hc
  | token key name value =>
    obtain ⟨d₁, hk, hp⟩ := addToken?_eq_ok_iff.mp hc
    exact (h.addKind hk).puts (hs.addKind hk) hp

end

/-- What additions that all succeed build is what they say. -/
theorem tells_of_run? {locale : String} {cs : List Change} {d : Lexicon}
    (h : (empty locale).run? cs = .ok d) : Tells cs d := by
  induction cs using List.reverseRecOn generalizing d with
  | nil =>
    cases h
    exact tells_empty locale
  | append_singleton cs c ih =>
    obtain ⟨d₁, h₁, hc⟩ := run?_concat_eq_ok_iff.mp h
    exact (ih h₁).extend? ((sound_empty locale).run? h₁) hc

/-! ### Whether additions succeed -/

/-- No addition has given a name to a kind that would keep it from another: in the loose namespace
to any kind, in the strict one to that kind. -/
def Free (cs : List Change) (scope : Scope) (kind name : String) : Prop :=
  match scope with
  | .loose => ∀ other t, ¬Says cs .loose other name t
  | .strict => ∀ t, ¬Says cs .strict kind name t

/-- An addition makes sense after others. -/
def Admissible (cs : List Change) : Change → Prop
  | .kind key => Name.isKind (Scope.split key).2 = true
  | .token key name value =>
    Name.isKind (Scope.split key).2 = true ∧
      if name = Name.defaultWord then
        ∃ t, Says cs (Scope.split key).1 (Scope.split key).2 (defaultTarget value) t
      else
        Name.isToken name = true ∧ Free cs (Scope.split key).1 (Scope.split key).2 name ∧
          ∃ t, RawToken.ofValue? value = some t ∧ ∀ target, t = .aliasOf target →
            ∃ text, Says cs (Scope.split key).1 (Scope.split key).2 target (.description text)

theorem Tells.hasToken_iff {cs : List Change} {d : Lexicon} (h : Tells cs d) {scope : Scope}
    {kind name : String} :
    ((d.side scope).kind kind).hasToken name = true ↔ ∃ t, Says cs scope kind name t := by
  simp only [Kind.hasToken_iff_has, h.names]

theorem Tells.contains_iff {cs : List Change} {d : Lexicon} (h : Tells cs d) {scope : Scope}
    {kind name : String} :
    ((d.side scope).kind kind).tokens.contains name = true ↔
      ∃ text, Says cs scope kind name (.description text) := by
  simp only [Table.contains_iff, ← h.names, Kind.Has]

/-- A name has no occupant if it is free. -/
theorem Tells.occupant?_eq_none_iff {cs : List Change} {d : Lexicon} (hs : d.Sound)
    (h : Tells cs d) {scope : Scope} {kind name : String} :
    d.occupant? scope kind name = none ↔ Free cs scope kind name := by
  cases scope with
  | loose =>
    show d.loose.owners.get? name = none ↔ ∀ other t, ¬Says cs .loose other name t
    rw [Option.eq_none_iff_forall_not_mem]
    refine forall_congr' fun other => ?_
    rw [Option.mem_def, Namespace.owned_iff.mp hs.owned name other,
      show d.loose = d.side .loose from rfl, h.hasToken_iff, not_exists]
  | strict =>
    show (if ((d.side .strict).kind kind).hasToken name = true then some kind else none) = none ↔
      ∀ t, ¬Says cs .strict kind name t
    rw [← not_exists, ← h.hasToken_iff]
    by_cases hk : ((d.side .strict).kind kind).hasToken name = true <;> simp [hk]

/-- Putting a name into a kind that is there succeeds if it makes sense. -/
theorem Tells.puts_iff {cs : List Change} {d : Lexicon} {key name : String}
    {value : Option String} (hs : d.Sound) (h : Tells cs d)
    (hk : Name.isKind (Scope.split key).2 = true) :
    (∃ d', Puts d (Scope.split key).1 (Scope.split key).2 name value d') ↔
      Admissible cs (.token key name value) := by
  rw [Admissible, and_iff_right hk]
  by_cases hn : name = Name.defaultWord
  · rw [if_pos hn, ← h.hasToken_iff, ← Kind.exists_trueToken?_iff]
    constructor
    · intro hyp
      obtain ⟨d', ⟨token, -, ht⟩ | ⟨t, ht, -, -, -⟩⟩ := hyp
      · exact ⟨token, ht⟩
      · rw [hn, Name.not_isToken_default] at ht
        cases ht
    · intro hyp
      obtain ⟨token, ht⟩ := hyp
      exact ⟨_, .standard token hn ht⟩
  · rw [if_neg hn, ← h.occupant?_eq_none_iff hs]
    constructor
    · intro hyp
      obtain ⟨d', ⟨token, he, -⟩ | ⟨t, ht, ho, hv, htarget⟩⟩ := hyp
      · exact absurd he hn
      · exact ⟨ht, ho, t, hv, fun target e => h.contains_iff.mp (htarget target e)⟩
    · intro hyp
      obtain ⟨ht, ho, t, hv, htarget⟩ := hyp
      exact ⟨_, .name t ht ho hv fun target e => h.contains_iff.mpr (htarget target e)⟩

/-- The kind that is added before a name says nothing of names. -/
theorem admissible_concat_kind_iff {cs : List Change} {key name : String} {value : Option String}
    (key' : String) :
    Admissible (cs ++ [.kind key']) (.token key name value) ↔
      Admissible cs (.token key name value) := by
  have hsaid : ∀ scope kind name t, Says (cs ++ [.kind key']) scope kind name t ↔
      Says cs scope kind name t := by
    intro scope kind name t
    rw [says_concat_iff, or_iff_left not_says_kind]
  have hfree : ∀ scope kind name, Free (cs ++ [.kind key']) scope kind name ↔
      Free cs scope kind name := by
    intro scope kind name
    cases scope <;> simp only [Free, hsaid]
  simp only [Admissible, hsaid, hfree]

/-- An addition to a lexicon succeeds if it makes sense after what built the lexicon. -/
theorem Tells.extend?_isOk_iff {cs : List Change} {d : Lexicon} (hs : d.Sound) (h : Tells cs d)
    {c : Change} : (∃ d', d.extend? c = .ok d') ↔ Admissible cs c := by
  cases c with
  | kind key =>
    simp only [Lexicon.extend?, addKind_eq_ok_iff, Admissible]
    constructor
    · intro hyp
      obtain ⟨d', hk, -⟩ := hyp
      exact hk
    · exact fun hk => ⟨_, hk, rfl⟩
  | token key name value =>
    simp only [Lexicon.extend?, addToken?_eq_ok_iff]
    rw [← admissible_concat_kind_iff key]
    constructor
    · intro hyp
      obtain ⟨d', d₁, hk, hp⟩ := hyp
      exact ((h.addKind hk).puts_iff (hs.addKind hk) (isKind_of_addKind hk)).mp ⟨d', hp⟩
    · intro ha
      have hk : d.addKind key = .ok _ := addKind_eq_ok_iff.mpr ⟨ha.1, rfl⟩
      obtain ⟨d', hp⟩ := ((h.addKind hk).puts_iff (hs.addKind hk) ha.1).mpr ha
      exact ⟨d', _, hk, hp⟩

/-- **Additions all succeed if each makes sense after those before it.** -/
theorem run?_isOk_iff {locale : String} {cs : List Change} :
    (∃ d, (empty locale).run? cs = .ok d) ↔
      ∀ before c after, cs = before ++ c :: after → Admissible before c := by
  induction cs using List.reverseRecOn with
  | nil => simp [run?]
  | append_singleton cs c ih =>
    simp only [run?_concat_eq_ok_iff]
    constructor
    · rintro ⟨d, d₁, h₁, hc⟩ before c' after e
      have htells := tells_of_run? h₁
      have hsound := (sound_empty locale).run? h₁
      rcases eq_append_cons_concat_iff.mp e with ⟨rfl, rfl, -⟩ | ⟨after, -, rfl⟩
      · exact (htells.extend?_isOk_iff hsound).mp ⟨d, hc⟩
      · exact ih.mp ⟨d₁, h₁⟩ before c' after rfl
    · intro h
      have hbefore : ∀ before c' after, cs = before ++ c' :: after → Admissible before c' := by
        rintro before c' after rfl
        exact h before c' (after ++ [c]) (by simp)
      obtain ⟨d₁, h₁⟩ := ih.mpr hbefore
      have hsound := (sound_empty locale).run? h₁
      obtain ⟨d, hc⟩ := ((tells_of_run? h₁).extend?_isOk_iff hsound).mpr (h cs c [] rfl)
      exact ⟨d, d₁, h₁, hc⟩

/-- Of additions that all succeed those of names have a value that says something. -/
theorem named_of_run? {locale : String} {cs : List Change} {d : Lexicon} {key name : String}
    {value : Option String} (h : (empty locale).run? cs = .ok d)
    (hc : .token key name value ∈ cs) (hn : name ≠ Name.defaultWord) :
    Name.isToken name = true ∧ ∃ t, RawToken.ofValue? value = some t := by
  obtain ⟨before, after, rfl⟩ := List.append_of_mem hc
  obtain ⟨-, hadm⟩ := run?_isOk_iff.mp ⟨d, h⟩ before _ after rfl
  rw [if_neg hn] at hadm
  obtain ⟨hname, -, t, ht, -⟩ := hadm
  exact ⟨hname, t, ht⟩

end Lexicon
end Concord

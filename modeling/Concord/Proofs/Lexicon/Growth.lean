/-
# How a lexicon grows

A lexicon starts without kinds or from a configuration, and then changes by
added kinds and added tokens. An addition either succeeds, in one of the ways
listed here, or fails and leaves at most its kind behind.

Key definitions: `Lexicon.Puts`, `Lexicon.Change`, `Lexicon.Reachable`.
Key theorems: `Lexicon.addKind_eq_ok_iff`, `Lexicon.putToken_eq_ok_iff`,
`Lexicon.apply_cases`, `Lexicon.ofConfig_eq_ok_iff`.
-/
import Concord.Lexicon.Build

namespace Concord

/-- One step after another succeeds if both do. -/
theorem bind_eq_ok_iff {ε α β : Type} {x : Except ε α} {f : α → Except ε β} {b : β} :
    x.bind f = .ok b ↔ ∃ a, x = .ok a ∧ f a = .ok b := by
  cases x with
  | error e => exact ⟨fun h => (nomatch h), fun ⟨_, h, _⟩ => (nomatch h)⟩
  | ok a =>
    refine ⟨fun h => ⟨a, rfl, h⟩, ?_⟩
    intro hyp
    obtain ⟨a', ha, h⟩ := hyp
    cases ha
    exact h

/-- A part that follows another goes on where that one ends, unless it stops with an error. -/
theorem run_bind {ε σ α β : Type} (x : ExceptT ε (StateM σ) α) (f : α → ExceptT ε (StateM σ) β)
    (s : σ) :
    (x >>= f).run s = match x.run s with
      | (.ok a, s') => (f a).run s'
      | (.error e, s') => (.error e, s') := by
  show ExceptT.bindCont f (x.run s).1 (x.run s).2 = _
  rcases x.run s with ⟨e | a, s'⟩
  · rfl
  · rfl

theorem run_get {ε σ : Type} (s : σ) : (get : ExceptT ε (StateM σ) σ).run s = (.ok s, s) := rfl

/-! ### Values -/

namespace Name

/-- A text without a leading `@`, if it has one. -/
def stripped (text : String) : String := (unmarked? text).getD text

theorem marked_ne_empty (name : String) : marked name ≠ "" := by
  intro h
  rw [← String.toList_inj] at h
  simp [marked, String.toList_append] at h

theorem marked_injective {a b : String} (h : marked a = marked b) : a = b := by
  have ha := unmarked?_marked a
  rw [h, unmarked?_marked] at ha
  exact (Option.some.inj ha).symm

theorem unmarked?_eq_none_iff {text : String} :
    unmarked? text = none ↔ ∀ rest, text ≠ marked rest := by
  constructor
  · rintro h rest rfl
    rw [unmarked?_marked] at h
    cases h
  · intro h
    cases hu : unmarked? text with
    | none => rfl
    | some rest => exact absurd (unmarked?_eq_some_iff.mp hu) (h rest)

theorem not_isToken_empty : isToken "" = false := by decide

theorem not_isToken_default : isToken defaultWord = false := by
  simp [isToken]

/-- The word for the default is neither a token nor an alias. -/
theorem ne_default_of_isToken {name : String} (h : isToken name = true) : name ≠ defaultWord := by
  rintro rfl
  rw [not_isToken_default] at h
  cases h

end Name

namespace RawToken

/-- A description is any text but the empty one that does not start with `@`. -/
theorem ofValue?_eq_description_iff {value : Option String} {text : String} :
    ofValue? value = some (.description text) ↔
      value = some text ∧ text ≠ "" ∧ ∀ rest, text ≠ Name.marked rest := by
  cases value with
  | none => simp [ofValue?]
  | some v =>
    simp only [ofValue?, Option.some.injEq]
    by_cases hbad : v = "" ∨ v = "@"
    · rw [if_pos hbad]
      refine iff_of_false (by simp) ?_
      intro hyp
      obtain ⟨rfl, hne, hmark⟩ := hyp
      rcases hbad with rfl | rfl
      · exact hne rfl
      · exact hmark "" rfl
    · rw [if_neg hbad]
      cases hu : Name.unmarked? v with
      | some target =>
        refine iff_of_false (by simp) ?_
        intro hyp
        obtain ⟨rfl, -, hmark⟩ := hyp
        exact hmark target (Name.unmarked?_eq_some_iff.mp hu)
      | none =>
        have hmark := Name.unmarked?_eq_none_iff.mp hu
        constructor
        · intro h
          cases h
          exact ⟨rfl, fun e => hbad (.inl e), hmark⟩
        · intro hyp
          obtain ⟨rfl, -, -⟩ := hyp
          rfl

/-- The value of an alias is `@` and a text that is not empty. -/
theorem ofValue?_eq_aliasOf_iff {value : Option String} {target : String} :
    ofValue? value = some (.aliasOf target) ↔
      value = some (Name.marked target) ∧ target ≠ "" := by
  cases value with
  | none => simp [ofValue?]
  | some v =>
    simp only [ofValue?, Option.some.injEq]
    by_cases hbad : v = "" ∨ v = "@"
    · rw [if_pos hbad]
      refine iff_of_false (by simp) ?_
      intro hyp
      obtain ⟨rfl, hne⟩ := hyp
      rcases hbad with h | h
      · exact Name.marked_ne_empty target h
      · exact hne (Name.marked_injective (b := "") h)
    · rw [if_neg hbad]
      cases hu : Name.unmarked? v with
      | none =>
        refine iff_of_false (by simp) ?_
        intro hyp
        obtain ⟨rfl, -⟩ := hyp
        exact Name.unmarked?_eq_none_iff.mp hu target rfl
      | some t =>
        have hv := Name.unmarked?_eq_some_iff.mp hu
        constructor
        · intro h
          cases h
          exact ⟨hv, fun e => hbad (.inr (by rw [hv, e]; rfl))⟩
        · intro hyp
          obtain ⟨hm, -⟩ := hyp
          rw [Name.marked_injective (hv.symm.trans hm)]

end RawToken

theorem Scope.split_snd (key : String) : (Scope.split key).2 = Name.stripped key := by
  unfold Scope.split Name.stripped
  cases Name.unmarked? key <;> rfl

theorem Scope.split_eq_iff {key name : String} {scope : Scope} :
    split key = (scope, name) ↔ scope = (split key).1 ∧ name = (split key).2 := by
  rw [Prod.ext_iff, eq_comm, @eq_comm _ (split key).2]

/-! ### Parts of a lexicon -/

namespace Kind

@[simp] theorem hasToken_empty (name : String) : empty.hasToken name = false := rfl

theorem hasToken_iff {k : Kind} {name : String} :
    k.hasToken name = true ↔ k.tokens.contains name = true ∨ k.aliases.contains name = true := by
  simp [hasToken]

/-- A kind with one more name has that name and those it had before. -/
theorem hasToken_add_iff {k : Kind} {name other : String} {t : RawToken} :
    (k.add name t).hasToken other = true ↔ other = name ∨ k.hasToken other = true := by
  cases t <;> simp only [add, hasToken_iff, Table.contains_insert_iff]
  · exact or_assoc
  · exact or_left_comm

end Kind

namespace Namespace

theorem kind_of_get? {n : Namespace} {name : String} {k : Kind} (h : n.kinds.get? name = some k) :
    n.kind name = k := by
  rw [kind, h]
  rfl

theorem kind_of_not_contains {n : Namespace} {name : String} (h : n.kinds.get? name = none) :
    n.kind name = .empty := by
  rw [kind, h]
  rfl

/-- A kind has a name only if it is there. -/
theorem hasToken_kind_iff {n : Namespace} {kind name : String} :
    (n.kind kind).hasToken name = true ↔
      ∃ k, n.kinds.get? kind = some k ∧ k.hasToken name = true := by
  cases h : n.kinds.get? kind with
  | none => simp [kind_of_not_contains h]
  | some k => simp [kind_of_get? h]

theorem get?_addKind (n : Namespace) (name other : String) :
    (n.addKind name).kinds.get? other =
      if other = name then some (n.kind name) else n.kinds.get? other := by
  unfold addKind
  split
  · next h =>
    obtain ⟨k, hk⟩ := Table.contains_iff.mp h
    by_cases ho : other = name
    · rw [if_pos ho, ho, hk, kind_of_get? hk]
    · rw [if_neg ho]
  · next h =>
    have hn : n.kinds.get? name = none := by simpa [Table.contains] using h
    rw [Table.get?_insert, kind_of_not_contains hn]

@[simp] theorem owners_addKind (n : Namespace) (name : String) :
    (n.addKind name).owners = n.owners := by
  unfold addKind
  split <;> rfl

/-- Adding a kind changes no kind. -/
@[simp] theorem kind_addKind (n : Namespace) (name other : String) :
    (n.addKind name).kind other = n.kind other := by
  rw [kind, get?_addKind]
  by_cases h : other = name
  · rw [if_pos h, h]
    rfl
  · rw [if_neg h]
    rfl

theorem get?_setKind (n : Namespace) (name other : String) (k : Kind) :
    (n.setKind name k).kinds.get? other =
      if other = name then some k else n.kinds.get? other :=
  Table.get?_insert n.kinds name other k

@[simp] theorem owners_setKind (n : Namespace) (name : String) (k : Kind) :
    (n.setKind name k).owners = n.owners := rfl

@[simp] theorem kinds_own (n : Namespace) (name kind : String) :
    (n.own name kind).kinds = n.kinds := by
  unfold own
  split <;> rfl

@[simp] theorem kinds_addName (n : Namespace) (kind name : String) (t : RawToken) :
    (n.addName kind name t).kinds = (n.setKind kind ((n.kind kind).add name t)).kinds := by
  simp [addName]

/-- A name that nobody owns goes to the kind it is added to. -/
theorem get?_owners_addName {n : Namespace} {kind name : String} {t : RawToken}
    (h : n.owners.get? name = none) (other : String) :
    (n.addName kind name t).owners.get? other =
      if other = name then some kind else n.owners.get? other := by
  have hc : ¬(n.setKind kind ((n.kind kind).add name t)).owners.contains name = true := by
    rw [owners_setKind, Table.contains, h]
    exact Bool.false_ne_true
  rw [addName, own, if_neg hc]
  exact Table.get?_insert n.owners name other kind

end Namespace

namespace Lexicon

@[simp] theorem side_update_self (d : Lexicon) (scope : Scope) (f : Namespace → Namespace) :
    (d.update scope f).side scope = f (d.side scope) := by
  cases scope <;> rfl

theorem side_update_of_ne {d : Lexicon} {scope other : Scope} {f : Namespace → Namespace}
    (h : other ≠ scope) : (d.update scope f).side other = d.side other := by
  cases scope with
  | loose =>
    cases other with
    | loose => exact absurd rfl h
    | strict => rfl
  | strict =>
    cases other with
    | loose => rfl
    | strict => exact absurd rfl h

@[simp] theorem locale_update (d : Lexicon) (scope : Scope) (f : Namespace → Namespace) :
    (d.update scope f).locale = d.locale := by
  cases scope <;> rfl

theorem side_update (d : Lexicon) (scope other : Scope) (f : Namespace → Namespace) :
    (d.update scope f).side other = if other = scope then f (d.side scope) else d.side other := by
  by_cases h : other = scope
  · rw [if_pos h, h, side_update_self]
  · rw [if_neg h, side_update_of_ne h]

/-! ### What an addition does -/

theorem addKind_eq_ok_iff {d d' : Lexicon} {key : String} :
    d.addKind key = .ok d' ↔
      Name.isKind (Scope.split key).2 = true ∧
        d' = d.update (Scope.split key).1 (·.addKind (Scope.split key).2) := by
  simp only [addKind]
  split
  · next h =>
    rw [Except.ok.injEq]
    exact ⟨fun e => ⟨h, e.symm⟩, fun e => e.2.symm⟩
  · next h => exact ⟨fun e => (nomatch e), fun e => absurd e.1 h⟩

/-- The text that the value of a default names. -/
def defaultTarget (value : Option String) : String := Name.stripped (value.getD "")

/-- The changes that putting a name into a kind can make. -/
inductive Puts (d : Lexicon) (scope : Scope) (kind name : String) (value : Option String) :
    Lexicon → Prop where
  /-- A true token becomes the default. -/
  | standard (token : String) :
      name = Name.defaultWord →
      ((d.side scope).kind kind).trueToken? (defaultTarget value) = some token →
      Puts d scope kind name value
        (d.update scope (·.setKind kind { (d.side scope).kind kind with standard := some token }))
  /-- A name that is free becomes a true token, or an alias of one. -/
  | name (t : RawToken) :
      Name.isToken name = true →
      d.occupant? scope kind name = none →
      RawToken.ofValue? value = some t →
      (∀ target, t = .aliasOf target →
        ((d.side scope).kind kind).tokens.contains target = true) →
      Puts d scope kind name value (d.update scope (·.addName kind name t))

theorem setDefault_eq_ok_iff {d d' : Lexicon} {scope : Scope} {kind : String}
    {value : Option String} :
    d.setDefault scope kind (value.getD "") = .ok d' ↔
      Puts d scope kind Name.defaultWord value d' := by
  simp only [setDefault]
  constructor
  · intro h
    split at h
    · next token ht =>
      cases h
      exact .standard token rfl ht
    · cases h
  · intro hyp
    rcases hyp with ⟨token, -, ht⟩ | ⟨t, hn, -, -, -⟩
    · rw [defaultTarget, Name.stripped] at ht
      rw [ht]
    · rw [Name.not_isToken_default] at hn
      cases hn

theorem addName_eq_ok_iff {d d' : Lexicon} {scope : Scope} {kind name : String}
    {value : Option String} (hd : name ≠ Name.defaultWord) :
    d.addName scope kind name value = .ok d' ↔ Puts d scope kind name value d' := by
  constructor
  · intro h
    unfold addName at h
    split at h
    · next hn =>
      split at h
      · cases h
      · next ho =>
        split at h
        · cases h
        · next target hv =>
          split at h
          · next ht =>
            cases h
            refine .name _ hn ho hv fun target' e => ?_
            cases e
            exact ht
          · cases h
        · next text hv =>
          cases h
          exact .name _ hn ho hv fun target' e => nomatch e
    · cases h
  · intro hyp
    rcases hyp with ⟨token, hn, -⟩ | ⟨t, hn, ho, hv, ht⟩
    · exact absurd hn hd
    · unfold addName
      rw [if_pos hn, ho, hv]
      cases t with
      | description text => rfl
      | aliasOf target => exact if_pos (ht target rfl)

/-- A name is put into a kind in one of the ways of `Puts`, or not at all. -/
theorem putToken_eq_ok_iff {d d' : Lexicon} {key name : String} {value : Option String} :
    d.putToken key name value = .ok d' ↔
      Puts d (Scope.split key).1 (Scope.split key).2 name value d' := by
  simp only [putToken]
  split
  · next h =>
    subst h
    exact setDefault_eq_ok_iff
  · next h => exact addName_eq_ok_iff h

/-- Adding a token changes nothing, adds just the kind, or adds the kind and puts the name. -/
theorem addToken_cases (d : Lexicon) (key name : String) (value : Option String) :
    (d.addToken key name value).1 = d ∨
      ∃ d₁, d.addKind key = .ok d₁ ∧
        ((d.addToken key name value).1 = d₁ ∨
          d₁.putToken key name value = .ok (d.addToken key name value).1) := by
  unfold addToken
  cases hk : d.addKind key with
  | error e => exact .inl rfl
  | ok d₁ =>
    refine .inr ⟨d₁, rfl, ?_⟩
    dsimp only
    cases hp : d₁.putToken key name value with
    | error e => exact .inl rfl
    | ok d₂ => exact .inr rfl

theorem addToken?_eq_ok_iff {d d' : Lexicon} {key name : String} {value : Option String} :
    d.addToken? key name value = .ok d' ↔
      ∃ d₁, d.addKind key = .ok d₁ ∧
        Puts d₁ (Scope.split key).1 (Scope.split key).2 name value d' := by
  rw [addToken?, bind_eq_ok_iff]
  simp only [putToken_eq_ok_iff]

/-! ### Histories -/

/-- An addition that a caller asks for. -/
inductive Change where
  | kind (key : String)
  | token (key name : String) (value : Option String)
  deriving DecidableEq, Repr

/-- The lexicon after an addition, whether it succeeds or fails. -/
def apply (d : Lexicon) : Change → Lexicon
  | .kind key => (d.addKind key).toOption.getD d
  | .token key name value => (d.addToken key name value).1

/-- An addition changes nothing, adds just the kind, or adds the kind and puts the name. -/
theorem apply_cases (d : Lexicon) (c : Change) :
    d.apply c = d ∨ ∃ key d₁, d.addKind key = .ok d₁ ∧
      (d.apply c = d₁ ∨ ∃ name value, c = .token key name value ∧
        d₁.putToken key name value = .ok (d.apply c)) := by
  cases c with
  | kind key =>
    show (d.addKind key).toOption.getD d = d ∨ _
    cases hk : d.addKind key with
    | error e => exact .inl rfl
    | ok d₁ => exact .inr ⟨key, d₁, hk, .inl (congrArg (·.toOption.getD d) hk)⟩
  | token key name value =>
    rcases addToken_cases d key name value with e | ⟨d₁, hk, e | hp⟩
    · exact .inl e
    · exact .inr ⟨key, d₁, hk, .inl e⟩
    · exact .inr ⟨key, d₁, hk, .inr ⟨name, value, rfl, hp⟩⟩

/-- The lexicon after an addition that is to succeed. -/
def extend? (d : Lexicon) : Change → Except ConfigError Lexicon
  | .kind key => d.addKind key
  | .token key name value => d.addToken? key name value

/-- The lexicon after additions all of which are to succeed. -/
def run? (d : Lexicon) : List Change → Except ConfigError Lexicon
  | [] => .ok d
  | c :: rest => (d.extend? c).bind (·.run? rest)

theorem run?_append (d : Lexicon) (cs more : List Change) :
    d.run? (cs ++ more) = (d.run? cs).bind (·.run? more) := by
  induction cs generalizing d with
  | nil => rfl
  | cons c rest ih =>
    simp only [List.cons_append, run?]
    cases d.extend? c with
    | error e => rfl
    | ok d' => exact ih d'

/-- A run succeeds by one more addition if it succeeds and the addition does. -/
theorem run?_concat_eq_ok_iff {d d' : Lexicon} {cs : List Change} {c : Change} :
    d.run? (cs ++ [c]) = .ok d' ↔ ∃ d₁, d.run? cs = .ok d₁ ∧ d₁.extend? c = .ok d' := by
  rw [run?_append, bind_eq_ok_iff]
  simp only [run?, bind_eq_ok_iff, Except.ok.injEq, exists_eq_right]

/-- The lexicons of a locale: one without kinds, those of configurations, and what additions make
of them. -/
inductive Reachable (locale : String) : Lexicon → Prop where
  | empty : Reachable locale (.empty locale)
  | config {config : Config} {d : Lexicon} :
      ofConfig locale config = .ok d → Reachable locale d
  | change {d : Lexicon} (c : Change) : Reachable locale d → Reachable locale (d.apply c)

/-! ### Configurations as histories -/

/-- The additions that a token table asks for. -/
def tableChanges (key : String) (table : Table (Option String)) : List Change :=
  .kind key :: (additions table).map fun e => .token key e.1 e.2

/-- The additions that a list of entries asks for. -/
def entryChanges : List (String × Config.Entry) → List Change
  | [] => []
  | (key, .tokens table) :: rest => tableChanges key table ++ entryChanges rest
  | (_, .invalid _) :: rest => entryChanges rest

theorem addAll_eq_run? (d : Lexicon) (key : String) (l : List (String × Option String)) :
    d.addAll key l = d.run? (l.map fun e => .token key e.1 e.2) := by
  induction l generalizing d with
  | nil => rfl
  | cons e rest ih =>
    simp only [addAll, List.map_cons, run?, extend?]
    cases d.addToken? key e.1 e.2 with
    | error e => rfl
    | ok d' => exact ih d'

theorem addEntry_tokens (d : Lexicon) (key : String) (table : Table (Option String)) :
    d.addEntry key (.tokens table) = d.run? (tableChanges key table) := by
  simp only [addEntry, tableChanges, run?, extend?]
  cases d.addKind key with
  | error e => rfl
  | ok d' => exact addAll_eq_run? d' key _

/-- Entries are added if all of them are token tables and all their additions succeed. -/
theorem addEntries_eq_ok_iff {d d' : Lexicon} {l : List (String × Config.Entry)} :
    d.addEntries l = .ok d' ↔
      (∀ e ∈ l, ∃ table, e.2 = .tokens table) ∧ d.run? (entryChanges l) = .ok d' := by
  induction l generalizing d with
  | nil => simp [addEntries, entryChanges, run?]
  | cons e rest ih =>
    obtain ⟨key, entry⟩ := e
    cases entry with
    | invalid data =>
      refine iff_of_false (fun h => (nomatch h)) ?_
      intro hyp
      obtain ⟨h, -⟩ := hyp
      obtain ⟨table, ht⟩ := h _ List.mem_cons_self
      cases ht
    | tokens table =>
      simp only [addEntries, addEntry_tokens, entryChanges, run?_append, bind_eq_ok_iff, ih]
      constructor
      · intro hyp
        obtain ⟨d₁, h₁, hrest, h₂⟩ := hyp
        refine ⟨?_, d₁, h₁, h₂⟩
        rintro e (_ | ⟨_, he⟩)
        · exact ⟨table, rfl⟩
        · exact hrest e he
      · intro hyp
        obtain ⟨hall, d₁, h₁, h₂⟩ := hyp
        exact ⟨d₁, h₁, fun e he => hall e (List.mem_cons_of_mem _ he), h₂⟩

/-- A configuration has a lexicon if all its entries are token tables and all that they ask for
can be added, one after the other. -/
theorem ofConfig_eq_ok_iff {locale : String} {config : Config} {d : Lexicon} :
    ofConfig locale config = .ok d ↔
      (∀ e ∈ config.kinds.entries, ∃ table, e.2 = .tokens table) ∧
        (empty locale).run? (entryChanges config.kinds.entries) = .ok d :=
  addEntries_eq_ok_iff

end Lexicon
end Concord

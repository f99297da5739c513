/-
# What an addition changes

An addition works in place, and has written its kind before most of what can fail
is asked. Nothing else is written before all of it has been: each later step acts
as an operation that has a new lexicon for its result, or an error and none
(`Addition.settled`). So an addition that fails leaves what adding its kind alone
does, which is at most one new kind without tokens; and one that succeeds changes
one thing more in that kind.

Key definitions: `Addition.settled`, `Lexicon.Beside`, `Lexicon.KindAdded`,
`Lexicon.Gains`.
Key theorems: `Addition.run_kind`, `Addition.run_put`, `Addition.run_token`,
`Lexicon.kindAdded_of_addKind`, `Lexicon.Puts.gains`, `Addition.token_frame`.
-/
import Concord.Lexicon.Addition
import Concord.Proofs.Lexicon.Sound

namespace Concord

/-- A kind that is there is not written again. -/
theorem Lexicon.update_addKind_of_contains {d : Lexicon} {scope : Scope} {name : String}
    (h : (d.side scope).kinds.contains name = true) : d.update scope (·.addKind name) = d := by
  cases scope with
  | loose => exact congrArg (fun n => { d with loose := n }) (if_pos h)
  | strict => exact congrArg (fun n => { d with strict := n }) (if_pos h)

/-! ### Additions as operations -/

namespace Addition

variable {d d' : Lexicon} {scope : Scope} {key kind name : String}

/-- What an addition comes to that acts as an operation on lexicons: it leaves the new lexicon
behind or, if it fails, the one that it started from. -/
def settled (d : Lexicon) (x : Except ConfigError Lexicon) : Except ConfigError Unit × Lexicon :=
  (x.map fun _ => (), x.toOption.getD d)

theorem run_entry (d : Lexicon) (scope : Scope) (name : String) :
    (entry scope name).run d =
      (.ok ((d.side scope).kind name), d.update scope (·.addKind name)) := by
  have hkind : ((d.update scope (·.addKind name)).side scope).kind name =
      (d.side scope).kind name := by
    rw [Lexicon.side_update_self, Namespace.kind_addKind]
  rw [← hkind]
  rfl

theorem run_entry_of_contains (h : (d.side scope).kinds.contains name = true) :
    (entry scope name).run d = (.ok ((d.side scope).kind name), d) := by
  rw [run_entry, Lexicon.update_addKind_of_contains h]

theorem run_kind (d : Lexicon) (key : String) :
    (Addition.kind key).run d = settled d (d.addKind key) := by
  unfold Addition.kind Lexicon.addKind
  dsimp only
  by_cases h : Name.isKind (Scope.split key).2 = true
  · rw [if_pos h, if_pos h, run_bind, run_entry]
    rfl
  · rw [if_neg h, if_neg h]
    rfl

theorem run_standard (h : (d.side scope).kinds.contains kind = true) (value : String) :
    (standard scope kind value).run d = settled d (d.setDefault scope kind value) := by
  unfold standard Lexicon.setDefault
  rw [run_bind, run_entry_of_contains h]
  dsimp only
  cases ((d.side scope).kind kind).trueToken? ((Name.unmarked? value).getD value) <;> rfl

theorem run_checkFree_of_some {owner : String} (h : d.occupant? scope kind name = some owner) :
    (checkFree scope kind name).run d =
      (.error (.duplicatedToken d.locale kind name owner), d) := by
  unfold checkFree
  rw [run_bind, run_get]
  dsimp only
  rw [h]
  rfl

theorem run_checkFree_of_none (h : d.occupant? scope kind name = none) :
    (checkFree scope kind name).run d = (.ok (), d) := by
  unfold checkFree
  rw [run_bind, run_get]
  dsimp only
  rw [h]
  rfl

/-- Where a name is entered, it is owned; an alias of no true token is not entered. -/
theorem run_enter (h : (d.side scope).kinds.contains kind = true) (t : RawToken) :
    (enter scope kind name t).run d =
      settled d (match t with
        | .aliasOf target =>
          if ((d.side scope).kind kind).tokens.contains target then
            .ok (d.update scope (·.addName kind name (.aliasOf target)))
          else .error (.badAlias d.locale kind name target)
        | .description text => .ok (d.update scope (·.addName kind name (.description text)))) := by
  unfold enter
  rw [run_bind, run_entry_of_contains h]
  cases t with
  | description text => cases scope <;> rfl
  | aliasOf target =>
    dsimp only
    by_cases ht : ((d.side scope).kind kind).tokens.contains target = true
    · rw [if_pos ht, if_pos ht]
      cases scope <;> rfl
    · rw [if_neg ht, if_neg ht]
      rfl

theorem run_put (h : (d.side scope).kinds.contains kind = true) (value : Option String) :
    (put scope kind name value).run d = settled d (d.addName scope kind name value) := by
  unfold put Lexicon.addName
  rw [run_bind, run_get]
  dsimp only
  by_cases hn : Name.isToken name = true
  · rw [if_pos hn, if_pos hn, run_bind]
    cases ho : d.occupant? scope kind name with
    | some owner =>
      rw [run_checkFree_of_some ho]
      rfl
    | none =>
      rw [run_checkFree_of_none ho]
      cases RawToken.ofValue? value with
      | none => rfl
      | some t =>
        dsimp only
        rw [run_enter h]
        cases t <;> rfl
  · rw [if_neg hn, if_neg hn]
    rfl

theorem contains_of_addKind (h : d.addKind key = .ok d') :
    (d'.side (Scope.split key).1).kinds.contains (Scope.split key).2 = true := by
  obtain ⟨-, rfl⟩ := Lexicon.addKind_eq_ok_iff.mp h
  rw [Lexicon.side_update_self, Table.contains, Namespace.get?_addKind, if_pos rfl]
  rfl

/-- After its kind an addition acts as an operation, in all that it does. -/
theorem run_token (d : Lexicon) (key name : String) (value : Option String) :
    (token key name value).run d = match d.addKind key with
      | .ok d' => settled d' (d'.putToken key name value)
      | .error e => (.error e, d) := by
  unfold token
  rw [run_bind, run_kind]
  cases hk : d.addKind key with
  | error e => rfl
  | ok d' =>
    have hthere := contains_of_addKind hk
    dsimp only [settled, Except.map, Except.toOption, Option.getD_some]
    unfold Lexicon.putToken
    dsimp only
    by_cases hd : name = Name.defaultWord
    · rw [if_pos hd, if_pos hd, run_standard hthere]
      rfl
    · rw [if_neg hd, if_neg hd, run_put hthere]
      rfl

/-- The addition in place that a change asks for. -/
def ofChange : Lexicon.Change → Addition Unit
  | .kind key => Addition.kind key
  | .token key name value => token key name value

/-- Additions in place do what the histories of lexicons tell of them. -/
theorem snd_run_ofChange (d : Lexicon) (c : Lexicon.Change) :
    ((ofChange c).run d).2 = d.apply c := by
  cases c with
  | kind key =>
    rw [ofChange, run_kind]
    rfl
  | token key name value =>
    rw [ofChange, run_token, Lexicon.apply]
    unfold Lexicon.addToken
    cases d.addKind key with
    | error e => rfl
    | ok d' =>
      dsimp only
      cases d'.putToken key name value <;> rfl

end Addition

/-! ### Changes -/

/-- A name is owned by who owned it already, or else by the kind that it is added to. -/
theorem Namespace.get?_owners_own (n : Namespace) (name kind other : String) :
    (n.own name kind).owners.get? other =
      if other = name then some ((n.owners.get? name).getD kind) else n.owners.get? other := by
  unfold own
  cases h : n.owners.get? name with
  | some owner =>
    rw [if_pos (by rw [Table.contains, h]; rfl)]
    by_cases ho : other = name
    · rw [if_pos ho, ho, h]
      rfl
    · rw [if_neg ho]
  | none =>
    rw [if_neg (by rw [Table.contains, h]; exact Bool.false_ne_true)]
    exact Table.get?_insert n.owners name other kind

namespace Lexicon

variable {d d' : Lexicon} {scope : Scope} {kind name : String} {value : Option String}

/-- A lexicon differs from another one in no more than a kind of a namespace, and in who owns the
names of that namespace. -/
structure Beside (d : Lexicon) (scope : Scope) (kind : String) (d' : Lexicon) : Prop where
  locale : d'.locale = d.locale
  side : ∀ other, other ≠ scope → d'.side other = d.side other
  kinds : ∀ other, other ≠ kind →
    (d'.side scope).kinds.get? other = (d.side scope).kinds.get? other

/-- What adding a kind makes of a lexicon. -/
inductive KindAdded (d : Lexicon) (key : String) (d' : Lexicon) : Prop where
  /-- Nothing, if the key is no kind's. -/
  | refused : Name.isKind (Scope.split key).2 = false → d' = d → KindAdded d key d'
  /-- Nothing, if the kind is there. -/
  | there {k : Kind} :
      (d.side (Scope.split key).1).kinds.get? (Scope.split key).2 = some k → d' = d →
      KindAdded d key d'
  /-- The kind is new, and without tokens. -/
  | new :
      Name.isKind (Scope.split key).2 = true →
      (d.side (Scope.split key).1).kinds.get? (Scope.split key).2 = none →
      (d'.side (Scope.split key).1).kinds.get? (Scope.split key).2 = some .empty →
      (d'.side (Scope.split key).1).owners = (d.side (Scope.split key).1).owners →
      Beside d (Scope.split key).1 (Scope.split key).2 d' → KindAdded d key d'

/-- A name has an owner, which is the kind it was added to if nobody owned it. A loose name was
owned by nobody. No other name has changed owners. -/
structure NameOwned (d : Lexicon) (scope : Scope) (kind name : String) (d' : Lexicon) : Prop where
  owners : ∀ other, (d'.side scope).owners.get? other =
    if other = name then some (((d.side scope).owners.get? name).getD kind)
    else (d.side scope).owners.get? other
  free : scope = .loose → (d.side scope).owners.get? name = none

/-- The one thing that an addition changes in the table of its kind. -/
inductive Gains (d : Lexicon) (scope : Scope) (kind name : String) (value : Option String)
    (d' : Lexicon) : Prop where
  /-- The default is set to the true token that the value names. -/
  | standard {k : Kind} {token : String} :
      name = Name.defaultWord →
      (d.side scope).kinds.get? kind = some k →
      k.trueToken? (defaultTarget value) = some token →
      (d'.side scope).kinds.get? kind = some { k with standard := some token } →
      (d'.side scope).owners = (d.side scope).owners → Gains d scope kind name value d'
  /-- There is a new true token, with its description. -/
  | token {k : Kind} {text : String} :
      name ≠ Name.defaultWord →
      (d.side scope).kinds.get? kind = some k → k.hasToken name = false →
      value = some text → text ≠ "" → (∀ rest, text ≠ Name.marked rest) →
      (d'.side scope).kinds.get? kind = some { k with tokens := k.tokens.insert name text } →
      NameOwned d scope kind name d' → Gains d scope kind name value d'
  /-- There is a new alias of a true token. -/
  | aliasOf {k : Kind} {target : String} :
      name ≠ Name.defaultWord →
      (d.side scope).kinds.get? kind = some k → k.hasToken name = false →
      value = some (Name.marked target) → k.tokens.contains target = true →
      (d'.side scope).kinds.get? kind = some { k with aliases := k.aliases.insert name target } →
      NameOwned d scope kind name d' → Gains d scope kind name value d'

theorem beside_update {f : Namespace → Namespace}
    (h : ∀ other, other ≠ kind → (f (d.side scope)).kinds.get? other =
      (d.side scope).kinds.get? other) : Beside d scope kind (d.update scope f) where
  locale := locale_update d scope f
  side _ hne := side_update_of_ne hne
  kinds := by
    rw [side_update_self]
    exact h

theorem kindAdded_of_addKind {key : String} (h : d.addKind key = .ok d') : KindAdded d key d' := by
  obtain ⟨hname, rfl⟩ := addKind_eq_ok_iff.mp h
  cases hk : (d.side (Scope.split key).1).kinds.get? (Scope.split key).2 with
  | some k => exact .there hk (update_addKind_of_contains (Table.contains_iff.mpr ⟨k, hk⟩))
  | none =>
    refine .new hname hk ?_ ?_ (beside_update fun other hne => ?_)
    · rw [side_update_self, Namespace.get?_addKind, if_pos rfl, Namespace.kind_of_not_contains hk]
    · rw [side_update_self, Namespace.owners_addKind]
    · rw [Namespace.get?_addKind, if_neg hne]

theorem Puts.beside (h : Puts d scope kind name value d') : Beside d scope kind d' := by
  cases h with
  | standard token hn ht =>
    refine beside_update fun other hne => ?_
    rw [Namespace.get?_setKind, if_neg hne]
  | name t hn ho hv ht =>
    refine beside_update fun other hne => ?_
    rw [Namespace.kinds_addName, Namespace.get?_setKind, if_neg hne]

/-- What is put into a kind that is there is the one thing that it gains. -/
theorem Puts.gains {k : Kind} (hs : d.Sound) (hk : (d.side scope).kinds.get? kind = some k)
    (h : Puts d scope kind name value d') : Gains d scope kind name value d' := by
  have hkind := Namespace.kind_of_get? hk
  cases h with
  | standard token hn ht =>
    rw [hkind] at ht ⊢
    refine .standard hn hk ht ?_ ?_
    · rw [side_update_self, Namespace.get?_setKind, if_pos rfl]
    · rw [side_update_self, Namespace.owners_setKind]
  | name t hn ho hv ht =>
    have hword := Name.ne_default_of_isToken hn
    have hnew := hs.hasToken_of_occupant? ho
    have hadded : ((d.update scope (·.addName kind name t)).side scope).kinds.get? kind =
        some (k.add name t) := by
      rw [side_update_self, Namespace.kinds_addName, Namespace.get?_setKind, if_pos rfl, hkind]
    have howns : NameOwned d scope kind name (d.update scope (·.addName kind name t)) := by
      refine ⟨fun other => ?_, ?_⟩
      · rw [side_update_self, Namespace.addName, Namespace.get?_owners_own,
          Namespace.owners_setKind]
      · rintro rfl
        exact ho
    rw [hkind] at hnew ht
    cases t with
    | description text =>
      obtain ⟨hvalue, hne, hmark⟩ := RawToken.ofValue?_eq_description_iff.mp hv
      exact .token hword hk hnew hvalue hne hmark hadded howns
    | aliasOf target =>
      obtain ⟨hvalue, -⟩ := RawToken.ofValue?_eq_aliasOf_iff.mp hv
      exact .aliasOf hword hk hnew hvalue (ht target rfl) hadded howns

end Lexicon

/-! ### Main statement -/

namespace Addition

/-- **An addition changes one thing.** Of any lexicon that can come to be, adding a kind alone
leaves it as it was, or with one new kind without tokens. Adding a name that fails leaves just what
adding its kind does. Adding one that succeeds changes one thing more, in that kind: its default is
set, or it has one new token with its description, or one new alias with its target, and the name
has an owner. The locale, the other namespace, all other kinds and all other owners are the same. -/
theorem token_frame {locale : String} {d : Lexicon} (h : Lexicon.Reachable locale d)
    (key name : String) (value : Option String) :
    d.KindAdded key ((Addition.kind key).run d).2 ∧
    (∀ e, ((token key name value).run d).1 = .error e →
      ((token key name value).run d).2 = ((Addition.kind key).run d).2) ∧
    (((token key name value).run d).1 = .ok () →
      ((Addition.kind key).run d).2.Beside (Scope.split key).1 (Scope.split key).2
        ((token key name value).run d).2 ∧
      ((Addition.kind key).run d).2.Gains (Scope.split key).1 (Scope.split key).2 name value
        ((token key name value).run d).2) := by
  rw [run_kind, run_token]
  cases hk : d.addKind key with
  | error e =>
    refine ⟨.refused ?_ rfl, fun _ _ => rfl, fun hok => nomatch hok⟩
    refine Bool.eq_false_iff.mpr fun hname => ?_
    rw [Lexicon.addKind_eq_ok_iff.mpr ⟨hname, rfl⟩] at hk
    cases hk
  | ok d' =>
    refine ⟨Lexicon.kindAdded_of_addKind hk, ?_⟩
    obtain ⟨k, hthere⟩ := Table.contains_iff.mp (contains_of_addKind hk)
    dsimp only
    cases hp : d'.putToken key name value with
    | error e => exact ⟨fun _ _ => rfl, fun hok => nomatch hok⟩
    | ok d'' =>
      have hputs := Lexicon.putToken_eq_ok_iff.mp hp
      have hsound := h.sound.addKind hk
      exact ⟨fun _ herr => (nomatch herr), fun _ => ⟨hputs.beside, hputs.gains hsound hthere⟩⟩

/-- A name that is taken leaves just its kind behind. A strict name goes into its kind, though it is
owned by the one that had it first. -/
theorem frame_sample :
    (((token "animacy" "f" (some "female")).run Lexicon.sample).1 =
        .error (.duplicatedToken "en" "animacy" "f" "gender") ∧
      ((token "animacy" "f" (some "female")).run Lexicon.sample).2 =
        ((Addition.kind "animacy").run Lexicon.sample).2 ∧
      Lexicon.sample.KindAdded "animacy" ((Addition.kind "animacy").run Lexicon.sample).2) ∧
    ((token "@tense" "m" (some "@now")).run Lexicon.sample).1 = .ok () ∧
      ((Addition.kind "@tense").run Lexicon.sample).2.Gains .strict "tense" "m" (some "@now")
        ((token "@tense" "m" (some "@now")).run Lexicon.sample).2 ∧
      ((token "@tense" "m" (some "@now")).run Lexicon.sample).2.strict.owners.get? "m" =
        some "person" := by
  obtain ⟨hkind, hfails, -⟩ := token_frame Lexicon.reachable_sample "animacy" "f" (some "female")
  obtain ⟨-, -, hsucceeds⟩ := token_frame Lexicon.reachable_sample "@tense" "m" (some "@now")
  obtain ⟨-, hgains⟩ := hsucceeds rfl
  exact ⟨⟨rfl, hfails _ rfl, hkind⟩, rfl, hgains, by decide +kernel⟩

end Addition
end Concord

/-
# Aliases and the tokens they stand for

Where an alias stands for a true token, the token may take its place. A value
that is an alias of the kinds it is looked up for comes to what its true token
comes to. Where aliases are allowed in patterns, so does a spec with an alias of
the kind at its position, plain or negated, even if it is this spec that tells
the kind of the block. Nothing of it can be seen: neither in the text nor, if the
call raises, in the error.

Values are looked up more often than along the axes: to find the kind of a block
whose specs tell none, loose kinds are tried one after the other.

Key definitions: `Call.LooksUp`, `Call.replacing`, `Call.TableAt`, `Block.Unaliased`.
Key theorems: `Call.given_replacing`, `Call.axes?_of_unaliased`, `Block.Unaliased.rows?_eq`,
`Call.aliases_transparent`.
-/
import Mathlib.Data.List.Forall2
import Concord.Proofs.Resolution.Faults
import Concord.Proofs.Resolution.Sharing

namespace Concord

/-- Two tests that agree on every member before which the first finds none find the same. -/
theorem search_congr {α : Type} {p q : α → Bool} {l : List α}
    (h : ∀ before a after, l = before ++ a :: after → (∀ x ∈ before, p x = false) → p a = q a) :
    l.find? p = l.find? q ∧ l.findIdx p = l.findIdx q := by
  induction l with
  | nil => exact ⟨rfl, rfl⟩
  | cons a rest ih =>
    have ha : p a = q a := h [] a rest rfl (List.forall_mem_nil _)
    rw [List.find?_cons, List.find?_cons, List.findIdx_cons, List.findIdx_cons, ← ha]
    cases hp : p a with
    | true => exact ⟨rfl, rfl⟩
    | false =>
      obtain ⟨hfind, hidx⟩ := ih fun before x after e hbefore =>
        h (a :: before) x after (congrArg _ e) (List.forall_mem_cons.mpr ⟨hp, hbefore⟩)
      rw [hfind, hidx]
      exact ⟨rfl, rfl⟩

/-! ### Kinds -/

namespace Kind

variable {k : Kind} {name token : String}

/-- A true token that an alias stands for denotes itself. -/
theorem Sound.trueToken?_of_target (h : k.Sound) (ha : k.aliases.get? name = some token) :
    k.trueToken? token = some token :=
  trueToken?_of_contains (h.targets name token ha)

theorem Sound.hasToken_of_target (h : k.Sound) (ha : k.aliases.get? name = some token) :
    k.hasToken token = true := by
  rw [← k.isSome_trueToken?, h.trueToken?_of_target ha]
  rfl

end Kind

/-! ### Values -/

/-- What is supplied is the same, or it is a true token in the place of an alias of a kind. -/
inductive Supply.Unaliased (k : Kind) : Supply → Supply → Prop where
  | same {s : Supply} : Unaliased k s s
  | token {name token : String} :
      k.aliases.get? name = some token → Unaliased k (.token name) (.token token)

namespace Call

/-- A value is looked up for a kind, to be read in its table: for a kind along which the block is
resolved, or, in search of the kind of a block whose specs tell none, for the loose kinds in order
up to the first one for which one of its tokens is given. -/
inductive LooksUp (call : Call) (d : Lexicon) (b : Block) (kind : String) (k : Kind) : Prop where
  | along {axes : List Axis} :
      call.Along d b axes → ⟨kind, k⟩ ∈ axes → LooksUp call d b kind k
  | sought {before after : List String} :
      b.path = [] → (∀ s ∈ b.specs, ∀ other, ¬s.Tells d other) →
      d.loose.kinds.keys = before ++ kind :: after → (∀ other ∈ before, ¬call.Offers d other) →
      d.loose.kinds.get? kind = some k → LooksUp call d b kind k

/-- The call with another value under a key. -/
def replacing (call : Call) (key : String) (value : Value) : Call :=
  { call with args := call.args.insert key value }

variable {call call' : Call} {d : Lexicon} {b : Block}

theorem found?_replacing {key : String} {old new : Value} (h : call.args.get? key = some old)
    (kind : String) :
    (call.replacing key new).found? kind =
      (call.found? kind).map fun found => if found.1 = key then (key, new) else found := by
  have hget : ∀ j, (call.replacing key new).args.get? j =
      (call.args.get? j).map fun value => if j = key then new else value := by
    intro j
    show (call.args.insert key new).get? j = _
    rw [Table.get?_insert]
    by_cases hj : j = key
    · rw [if_pos hj, hj, h]
      simp
    · simp [hj]
  unfold found?
  rw [hget, hget]
  cases call.args.get? (Name.marked kind) with
  | some value => by_cases hk : Name.marked kind = key <;> simp [hk]
  | none =>
    cases call.args.get? kind with
    | some value => by_cases hk : kind = key <;> simp [hk]
    | none => rfl

/-- A value is looked up for a kind of that name. -/
theorem LooksUp.namedKind?_or {kind : String} {k : Kind} (h : call.LooksUp d b kind k) :
    d.namedKind? kind = some k ∨ d.loose.kinds.get? kind = some k := by
  rcases h with ⟨halong, hmem⟩ | ⟨-, -, -, -, hk⟩
  · rcases halong with ⟨-, -, hkinds⟩ | ⟨-, -, hk⟩
    · exact .inl (hkinds _ hmem)
    · cases List.mem_singleton.mp hmem
      exact .inr hk
  · exact .inr hk

/-- What is given for a kind changes if its value is the one that is replaced. -/
theorem given_replacing {key : String} {old new : Value} (h : call.args.get? key = some old)
    (kind : String) :
    (call.replacing key new).given kind =
      if (call.found? kind).map (·.1) = some key then new.supply key call.locale
      else call.given kind := by
  unfold given
  rw [found?_replacing h]
  cases call.found? kind with
  | none => rfl
  | some found => by_cases hk : found.1 = key <;> simp [hk, replacing]

/-- A replaced alias is a true token in its place wherever it is looked up. -/
theorem unaliased_replacing {key name token : String} {old new : Value} {kind : String} {k : Kind}
    (h : call.args.get? key = some old) (hold : old.supply key call.locale = .token name)
    (hnew : new.supply key call.locale = .token token)
    (hname : call.found? kind = some (key, old) → k.aliases.get? name = some token) :
    Supply.Unaliased k (call.given kind) ((call.replacing key new).given kind) := by
  rw [given_replacing h]
  split
  · next hkey =>
    obtain ⟨⟨key, value⟩, hf, rfl⟩ := Option.map_eq_some_iff.mp hkey
    cases Option.some.inj ((get?_of_found? hf).symm.trans h)
    have hgiven : call.given kind = .token name := by
      unfold given
      rw [hf]
      exact hold
    rw [hgiven, hnew]
    exact .token (hname hf)
  · exact .same

/-! ### Calls that give true tokens -/

section

variable (h : d.Sound) (hoptions : call.options = call'.options)
  (hgiven : ∀ kind k, call.LooksUp d b kind k →
    Supply.Unaliased k (call.given kind) (call'.given kind))

include h in
/-- A token of a kind is given with the alias and with its true token. -/
theorem offers_iff_of_unaliased {kind : String} {k : Kind} (hk : d.loose.kinds.get? kind = some k)
    (hu : Supply.Unaliased k (call.given kind) (call'.given kind)) :
    call.Offers d kind ↔ call'.Offers d kind := by
  have hsound := (h.side .loose).kinds kind k hk
  unfold Offers
  generalize call.given kind = s, call'.given kind = s' at hu
  cases hu with
  | same => exact Iff.rfl
  | token ha =>
    exact iff_of_true ⟨_, rfl, k, hk, Kind.hasToken_of_aliases ha⟩
      ⟨_, rfl, k, hk, hsound.hasToken_of_target ha⟩

include h hgiven in
/-- Where no spec tells the kind, the search for it ends at the same one. -/
theorem search_of_unaliased (hpath : b.path = [])
    (hspecs : b.specs.findSome? d.kindOfSpec? = none) :
    d.loose.kinds.keys.find? (call.givesToken d) = d.loose.kinds.keys.find? (call'.givesToken d) ∧
      d.loose.kinds.keys.findIdx (call.givesToken d) =
        d.loose.kinds.keys.findIdx (call'.givesToken d) := by
  refine search_congr fun before kind after e hbefore => ?_
  have hmem : ∀ other ∈ before ++ kind :: after, other ∈ d.loose.kinds.keys := fun _ ho => e ▸ ho
  have hkind : kind ∈ d.loose.kinds.keys := hmem kind (by simp)
  obtain ⟨k, hk⟩ := Table.contains_iff.mp (Table.mem_keys_iff.mp hkind)
  have hlooks : call.LooksUp d b kind k := by
    refine .sought hpath (h.findSome?_eq_none_iff.mp hspecs) e (fun other ho => ?_) hk
    rw [← givesToken_iff h (hmem other (List.mem_append_left _ ho)), hbefore other ho]
    exact Bool.false_ne_true
  rw [Bool.eq_iff_iff, givesToken_iff h hkind, givesToken_iff h hkind]
  exact offers_iff_of_unaliased h hk (hgiven kind k hlooks)

include h hgiven in
/-- The block is resolved along the same kinds, which are found in the same way. -/
theorem axes?_of_unaliased :
    call.axes? d b = call'.axes? d b ∧ call.axesEvents d b = call'.axesEvents d b := by
  unfold axes? axesEvents
  by_cases hpath : b.path = []
  · have hkind : call.inferredKind? d b = call'.inferredKind? d b := by
      unfold inferredKind?
      cases hspecs : b.specs.findSome? d.kindOfSpec? with
      | some kind => rfl
      | none => rw [(search_of_unaliased h hgiven hpath hspecs).1]
    have haxis : call.inferredAxis? d b = call'.inferredAxis? d b := by
      unfold inferredAxis?
      rw [hkind]
    unfold inferredEvents
    rw [haxis]
    cases hspecs : b.specs.findSome? d.kindOfSpec? with
    | some kind => exact ⟨rfl, rfl⟩
    | none =>
      unfold inferenceEvents
      rw [(search_of_unaliased h hgiven hpath hspecs).2]
      exact ⟨rfl, rfl⟩
  · have hne : ¬b.path.isEmpty = true := mt List.isEmpty_iff.mp hpath
    rw [if_neg hne, if_neg hne, if_neg hne, if_neg hne]
    exact ⟨rfl, rfl⟩

include hoptions in
/-- Along an axis an alias comes to its true token, which is given without a fault as well. -/
theorem token_of_unaliased {axis : Axis} (hk : axis.kind.Sound)
    (hu : Supply.Unaliased axis.kind (call.given axis.name) (call'.given axis.name)) :
    (∀ position rows, call.tokenOf axis position rows = call'.tokenOf axis position rows) ∧
      call.tokenError? b axis = call'.tokenError? b axis := by
  unfold tokenOf tokenError? unknownToken knownToken
  rw [← hoptions]
  generalize call.given axis.name = s, call'.given axis.name = s' at hu
  cases hu with
  | same => exact ⟨fun _ _ => rfl, rfl⟩
  | @token name token ha =>
    have hname := Kind.hasToken_of_aliases ha
    have htoken := hk.hasToken_of_target ha
    have hne : name ≠ Name.defaultWord := Name.ne_default_of_isToken (hk.named name hname)
    have hne' : token ≠ Name.defaultWord := Name.ne_default_of_isToken (hk.named token htoken)
    simp [hne, hne', hname, htoken, hk.trueToken?_of_aliases ha, hk.trueToken?_of_target ha]

include h hoptions hgiven in
/-- The block comes to the same text in the same course. -/
theorem course_of_unaliased :
    call.textIn d b = call'.textIn d b ∧ call.eventsIn d b = call'.eventsIn d b := by
  obtain ⟨haxes, hevents⟩ := axes?_of_unaliased h hgiven
  have htoken : ∀ axes, call.axes? d b = some axes → ∀ axis ∈ axes,
      (∀ position rows, call.tokenOf axis position rows = call'.tokenOf axis position rows) ∧
        call.tokenError? b axis = call'.tokenError? b axis := by
    intro axes ha axis haxis
    have halong : call.Along d b axes := (axes?_eq_some_iff h).mp ha
    exact token_of_unaliased hoptions ((halong.sound h).2 axis haxis)
      (hgiven axis.name axis.kind (.along halong haxis))
  exact ⟨textIn_congr (.of_eq hoptions) haxes fun axes ha axis haxis => (htoken axes ha axis haxis).1,
    eventsIn_congr (.of_eq hoptions) haxes hevents fun axes ha axis haxis => (htoken axes ha axis haxis).2⟩

end

end Call

/-! ### Patterns that name true tokens -/

/-- A spec is the same, or it names a true token in the place of an alias of a kind with a given
property, plain or negated. -/
inductive Spec.Unaliased (here : Kind → Prop) : Spec → Spec → Prop where
  | same {s : Spec} : Unaliased here s s
  | name {k : Kind} {name token : String} :
      here k → k.aliases.get? name = some token → Unaliased here (.name name) (.name token)
  | butNot {k : Kind} {name token : String} :
      here k → k.aliases.get? name = some token → Unaliased here (.butNot name) (.butNot token)

/-- The groups of an alternative name true tokens in the place of aliases of the kinds at their
positions. -/
structure Alternative.Unaliased (tableAt : Nat → Kind → Prop) (a a' : Alternative) : Prop where
  wording : a.wording = a'.wording
  length : a.groups.length = a'.groups.length
  groups : ∀ position group group', a.groups[position]? = some group →
    a'.groups[position]? = some group' →
      List.Forall₂ (Spec.Unaliased (tableAt position)) group group'

/-- The alternatives of a block do so. All else of the block is the same, the block as written
included. -/
structure Block.Unaliased (tableAt : Nat → Kind → Prop) (b b' : Block) : Prop where
  path : b.path = b'.path
  source : b.source = b'.source
  alternatives : List.Forall₂ (Alternative.Unaliased tableAt) b.alternatives b'.alternatives

/-- The kind at a position of a block: that of the header, or the inferred one. -/
inductive Call.TableAt (call : Call) (d : Lexicon) (b : Block) : Nat → Kind → Prop where
  | header {position : Nat} {kind : String} {k : Kind} :
      b.path[position]? = some kind → d.namedKind? kind = some k → TableAt call d b position k
  | inferred {kind : String} {k : Kind} :
      b.path = [] → call.Infers d b kind → d.loose.kinds.get? kind = some k → TableAt call d b 0 k

/-- What does not tell related members apart does not tell related lists apart. -/
theorem map_eq_of_forall₂ {α β γ : Type} {r : α → β → Prop} {f : α → γ} {g : β → γ}
    (h : ∀ a b, r a b → f a = g b) {as : List α} {bs : List β} (hr : List.Forall₂ r as bs) :
    as.map f = bs.map g := by
  rw [← List.forall₂_eq_eq_eq, List.forall₂_map_left_iff, List.forall₂_map_right_iff]
  exact hr.imp h

theorem any_eq_of_forall₂ {α β : Type} {r : α → β → Prop} {p : α → Bool} {q : β → Bool}
    (h : ∀ a b, r a b → p a = q b) {as : List α} {bs : List β} (hr : List.Forall₂ r as bs) :
    as.any p = bs.any q := by
  have hmap : as.map p = bs.map q := map_eq_of_forall₂ h hr
  simpa only [List.any_map, Function.id_comp] using congrArg (List.any · id) hmap

namespace Axis

variable {axis : Axis} {here : Kind → Prop} (hk : axis.kind.Sound) (hat : ∀ k, here k → k = axis.kind)

include hk hat

/-- An alias and its true token denote the same, and neither is a fault. -/
theorem spec_of_unaliased (d : Lexicon) (pattern : String) {s s' : Spec}
    (h : s.Unaliased here s') :
    axis.condition true [s] = axis.condition true [s'] ∧
      axis.specError? d pattern s = axis.specError? d pattern s' := by
  cases h with
  | same => exact ⟨rfl, rfl⟩
  | name hkind ha =>
    cases hat _ hkind
    simp [condition, denoted?, specError?, hk.trueToken?_of_aliases ha, hk.trueToken?_of_target ha,
      Kind.hasToken_of_aliases ha, hk.hasToken_of_target ha]
  | butNot hkind ha =>
    cases hat _ hkind
    simp [condition, denoted?, specError?, hk.trueToken?_of_aliases ha, hk.trueToken?_of_target ha,
      Kind.hasToken_of_aliases ha, hk.hasToken_of_target ha]

theorem group_of_unaliased (d : Lexicon) (pattern : String) {group group' : List Spec}
    (h : List.Forall₂ (Spec.Unaliased here) group group') :
    axis.condition true group = axis.condition true group' ∧
      axis.groupEvents d pattern group = axis.groupEvents d pattern group' := by
  constructor
  · induction h with
    | nil => rfl
    | @cons s s' rest rest' hs _ ih =>
      rw [condition_cons, condition_cons axis true s', ih,
        (spec_of_unaliased hk hat d pattern hs).1]
  · have herrors :
        group.map (axis.specError? d pattern) = group'.map (axis.specError? d pattern) := by
      refine map_eq_of_forall₂ (fun s s' hs => ?_) h
      exact (spec_of_unaliased hk hat d pattern hs).2
    have hmap : ∀ g : List Spec, g.filterMap (axis.specError? d pattern) =
        (g.map (axis.specError? d pattern)).filterMap id := by
      intro g
      rw [List.filterMap_map]
      rfl
    unfold groupEvents
    rw [hmap, hmap group', herrors]

end Axis

namespace Alternative.Unaliased

variable {tableAt : Nat → Kind → Prop} {a a' : Alternative} (h : a.Unaliased tableAt a')

include h

theorem forall₂_groups :
    List.Forall₂ (List.Forall₂ fun s s' => ∃ position, Spec.Unaliased (tableAt position) s s')
      a.groups a'.groups := by
  rw [List.forall₂_iff_get]
  refine ⟨h.length, fun position hp hp' => ?_⟩
  refine (h.groups position _ _ (List.getElem?_eq_getElem hp) (List.getElem?_eq_getElem hp')).imp ?_
  exact fun _ _ hs => ⟨position, hs⟩

/-- It has as many groups, of which as many are empty. -/
theorem shape_eq :
    a.isFree = a'.isFree ∧ ∀ arity, a.isWellFormed arity = a'.isWellFormed arity := by
  have hempty : a.groups.any (·.isEmpty) = a'.groups.any (·.isEmpty) := by
    refine any_eq_of_forall₂ (fun group group' hg => ?_) h.forall₂_groups
    cases hg <;> rfl
  constructor
  · unfold isFree
    rw [Bool.eq_iff_iff, List.isEmpty_iff_length_eq_zero, List.isEmpty_iff_length_eq_zero, h.length]
  · intro arity
    unfold isWellFormed
    rw [h.length, ← List.not_any_eq_all_not, ← List.not_any_eq_all_not, hempty]

/-- What is made of groups along their axes is the same, if along each of them it is. -/
theorem zipWith_eq {α : Type} {f : List Spec → Axis → α} {axes : List Axis}
    (hf : ∀ position axis group group', axes[position]? = some axis →
      List.Forall₂ (Spec.Unaliased (tableAt position)) group group' →
        f group axis = f group' axis) :
    List.zipWith f a.groups axes = List.zipWith f a'.groups axes := by
  refine List.ext_getElem? fun position => ?_
  rw [List.getElem?_zipWith, List.getElem?_zipWith]
  cases haxis : axes[position]? with
  | none => cases a.groups[position]? <;> cases a'.groups[position]? <;> rfl
  | some axis =>
    cases hg : a.groups[position]? with
    | none =>
      have hg' : a'.groups[position]? = none := by
        rw [List.getElem?_eq_none_iff] at hg ⊢
        rwa [← h.length]
      rw [hg']
    | some group =>
      obtain ⟨group', hg'⟩ : ∃ group', a'.groups[position]? = some group' := by
        have hlt := (List.getElem?_eq_some_iff.mp hg).1
        rw [h.length] at hlt
        exact ⟨_, List.getElem?_eq_getElem hlt⟩
      rw [hg']
      exact congrArg some (hf position axis group group' haxis (h.groups position _ _ hg hg'))

variable {axes : List Axis} (hk : ∀ axis ∈ axes, axis.kind.Sound)
  (hat : ∀ position axis, axes[position]? = some axis → ∀ k, tableAt position k → k = axis.kind)

include hk hat

/-- It has the same row, and the same faults. -/
theorem row_eq (d : Lexicon) (pattern : String) :
    a.row true axes = a'.row true axes ∧ a.events d pattern axes = a'.events d pattern axes := by
  have hgroup : ∀ position axis group group', axes[position]? = some axis →
      List.Forall₂ (Spec.Unaliased (tableAt position)) group group' →
        axis.condition true group = axis.condition true group' ∧
          axis.groupEvents d pattern group = axis.groupEvents d pattern group' :=
    fun position axis _ _ hp hg => Axis.group_of_unaliased (hk axis (List.mem_of_getElem? hp))
      (hat position axis hp) d pattern hg
  constructor
  · unfold row
    rw [h.wording, h.zipWith_eq fun position axis group group' hp hg =>
      (hgroup position axis group group' hp hg).1]
  · have hevents : ∀ groups : List (List Spec),
        ((groups.zip axes).flatMap fun p => p.2.groupEvents d pattern p.1) =
          (List.zipWith (fun group axis => axis.groupEvents d pattern group) groups
            axes).flatten := by
      intro groups
      rw [List.flatMap_def, List.zip, List.map_zipWith]
    unfold events
    rw [h.shape_eq.2, hevents, hevents, h.zipWith_eq fun position axis group group' hp hg =>
      (hgroup position axis group group' hp hg).2]

end Alternative.Unaliased

namespace Block.Unaliased

variable {tableAt : Nat → Kind → Prop} {b b' : Block} (h : b.Unaliased tableAt b')

include h

theorem forall₂_typed : List.Forall₂ (Alternative.Unaliased tableAt) b.typed b'.typed := by
  refine List.rel_filter (fun a a' ha => ?_) h.alternatives
  show (!a.isFree) = true ↔ (!a'.isFree) = true
  rw [ha.shape_eq.1]

theorem forall₂_specs :
    List.Forall₂ (fun s s' => ∃ position, Spec.Unaliased (tableAt position) s s') b.specs
      b'.specs :=
  List.rel_flatMap h.alternatives fun _ _ ha => List.rel_flatten ha.forall₂_groups

theorem hasWildcard_eq : b.hasWildcard = b'.hasWildcard := by
  unfold hasWildcard
  rw [List.contains_eq_any_beq, List.contains_eq_any_beq]
  refine any_eq_of_forall₂ (fun s s' hs => ?_) h.forall₂_specs
  obtain ⟨position, hs⟩ := hs
  cases hs <;> rfl

theorem freeText_eq (description : Option String) :
    b.freeText description = b'.freeText description := by
  have hfree : ∀ alternatives : List Alternative,
      (alternatives.find? (·.isFree)).map (·.wording) =
        ((alternatives.map fun a => (a.isFree, a.wording)).find? (·.1)).map (·.2) := by
    intro alternatives
    rw [List.find?_map, Option.map_map]
    rfl
  have hmap : (b.alternatives.map fun a => (a.isFree, a.wording)) =
      b'.alternatives.map fun a => (a.isFree, a.wording) := by
    refine map_eq_of_forall₂ (fun a a' ha => ?_) h.alternatives
    rw [ha.shape_eq.1, ha.wording]
  unfold freeText freeWording
  rw [hfree, hfree, hmap]

variable {axes : List Axis} (hk : ∀ axis ∈ axes, axis.kind.Sound)
  (hat : ∀ position axis, axes[position]? = some axis → ∀ k, tableAt position k → k = axis.kind)

include hk hat

theorem rows?_eq (d : Lexicon) :
    b.rows? true axes = b'.rows? true axes ∧ b.rowsEvents d axes = b'.rowsEvents d axes := by
  have hmalformed : b.isMalformed axes.length = b'.isMalformed axes.length := by
    unfold isMalformed isComplex
    rw [h.path]
    refine congrArg _ (any_eq_of_forall₂ (fun a a' ha => ?_) h.forall₂_typed)
    rw [ha.shape_eq.2]
  have hfits : List.Forall₂ (Alternative.Unaliased tableAt)
      (b.typed.filter (·.isWellFormed axes.length))
      (b'.typed.filter (·.isWellFormed axes.length)) := by
    refine List.rel_filter (fun a a' ha => ?_) h.forall₂_typed
    show a.isWellFormed axes.length = true ↔ a'.isWellFormed axes.length = true
    rw [ha.shape_eq.2]
  have hrows := map_eq_of_forall₂ (fun a a' ha => (ha.row_eq hk hat d b.source).1) hfits
  have hevents := map_eq_of_forall₂ (fun a a' ha => (ha.row_eq hk hat d b.source).2) h.forall₂_typed
  unfold rows? rowsEvents
  rw [hmalformed, ← h.source, hrows, List.flatMap_def, hevents, List.flatMap_def]
  exact ⟨rfl, rfl⟩

end Block.Unaliased

namespace Call

variable {call : Call} {d : Lexicon} {b b' : Block}

/-- The spec that tells the kind of a block tells it with the true token in place of the alias. -/
theorem axes?_of_block_unaliased (hd : d.Sound) (h : b.Unaliased (call.TableAt d b) b') :
    call.axes? d b = call.axes? d b' ∧ call.axesEvents d b = call.axesEvents d b' := by
  unfold axes? axesEvents
  by_cases hpath : b.path = []
  · have hname : ∀ {position k name token}, call.TableAt d b position k →
        k.aliases.get? name = some token →
          d.kindOfSpec? (.name name) = d.kindOfSpec? (.name token) := by
      intro position k name token hat ha
      cases hat with
      | header hp hk =>
        rw [hpath] at hp
        cases hp
      | @inferred kind k _ _ hk =>
        have halias : (Spec.name name).Tells d kind := ⟨k, hk, Kind.hasToken_of_aliases ha⟩
        have htoken : (Spec.name token).Tells d kind :=
          ⟨k, hk, ((hd.side .loose).kinds kind k hk).hasToken_of_target ha⟩
        rw [hd.kindOfSpec?_eq_some_iff.mpr halias, hd.kindOfSpec?_eq_some_iff.mpr htoken]
    have hspecs : b.specs.map d.kindOfSpec? = b'.specs.map d.kindOfSpec? := by
      refine map_eq_of_forall₂ (fun s s' hs => ?_) h.forall₂_specs
      obtain ⟨position, hs⟩ := hs
      cases hs with
      | same => rfl
      | name hat ha => exact hname hat ha
      | butNot hat ha => exact hname hat ha
    have hfind : b.specs.findSome? d.kindOfSpec? = b'.specs.findSome? d.kindOfSpec? := by
      have hmap : ∀ specs : List Spec, specs.findSome? d.kindOfSpec? =
          (specs.map d.kindOfSpec?).findSome? id := by
        intro specs
        rw [List.findSome?_map]
        rfl
      rw [hmap, hspecs, ← hmap]
    unfold inferredEvents inferredAxis? inferredKind?
    rw [hfind, h.path, h.source]
    exact ⟨rfl, rfl⟩
  · unfold Lexicon.headerEvents
    have hne : ¬b.path.isEmpty = true := mt List.isEmpty_iff.mp hpath
    rw [← h.path, if_neg hne, if_neg hne, if_neg hne, if_neg hne, h.source]
    exact ⟨rfl, rfl⟩

/-- The kind at a position is the one along which the block is resolved there. -/
theorem TableAt.eq_kind (hd : d.Sound) {axes : List Axis} (ha : call.Along d b axes)
    {position : Nat} {axis : Axis} (hp : axes[position]? = some axis) {k : Kind}
    (hat : call.TableAt d b position k) : k = axis.kind := by
  cases hat with
  | header hkind hk =>
    rcases ha with ⟨-, hnames, hkinds⟩ | ⟨hnil, -, -⟩
    · rw [← hnames, List.getElem?_map, hp] at hkind
      cases hkind
      rw [hkinds axis (List.mem_of_getElem? hp)] at hk
      exact (Option.some.inj hk).symm
    · rw [hnil] at hkind
      cases hkind
  | inferred hnil hinfers hk =>
    cases ha.unique hd (.inferred hnil hinfers hk)
    cases hp
    rfl

/-- The block comes to the same text in the same course. -/
theorem course_of_block_unaliased (hd : d.Sound) (haliased : call.options.aliasedPatterns = true)
    (h : b.Unaliased (call.TableAt d b) b') :
    call.textIn d b = call.textIn d b' ∧ call.eventsIn d b = call.eventsIn d b' := by
  obtain ⟨haxes, hevents⟩ := axes?_of_block_unaliased hd h
  unfold textIn eventsIn
  rw [← haxes, ← hevents, haliased]
  cases hsome : call.axes? d b with
  | none => exact ⟨h.freeText_eq none, rfl⟩
  | some axes =>
    have halong := (axes?_eq_some_iff hd).mp hsome
    obtain ⟨hrows, hfaults⟩ := h.rows?_eq (halong.sound hd).2
      (fun position axis hp k hat => hat.eq_kind hd halong hp) d
    have htokens : call.tokensEvents b axes = call.tokensEvents b' axes := by
      unfold tokensEvents tokenError?
      rw [h.source, h.hasWildcard_eq]
    dsimp only
    rw [← hrows, ← hfaults, ← htokens]
    refine ⟨?_, rfl⟩
    cases b.rows? true axes with
    | none => exact h.freeText_eq none
    | some rows =>
      dsimp only
      unfold Block.choose
      simp only [h.freeText_eq]

/-! ### Main statement -/

/-- **An alias may give way to its true token.** For a lexicon that has come about by additions, any
call, raising or not, and contexts that have resolved any templates before: a block comes to the
same text or error if a value, supplied outright or by a callable, that is an alias of each kind
that it is looked up for is replaced by the true token; and, where aliases are allowed in patterns,
if aliases of the kinds at their positions are replaced by true tokens in the specs of the block. -/
theorem aliases_transparent {locale : String} (hd : Lexicon.Reachable locale d)
    (hl : call.lexicon = some d) (b : Block) (earlier earlier' : Template) :
    (∀ (key name token : String) (old new : Value), call.args.get? key = some old →
      old.supply key call.locale = .token name → new.supply key call.locale = .token token →
      (∀ kind k, call.LooksUp d b kind k → call.found? kind = some (key, old) →
        k.aliases.get? name = some token) →
      (((call.replacing key new).block b).run ((call.replacing key new).memoAfter earlier')).1 =
        ((call.block b).run (call.memoAfter earlier)).1) ∧
    (call.options.aliasedPatterns = true → ∀ b', b.Unaliased (call.TableAt d b) b' →
      ((call.block b').run (call.memoAfter earlier')).1 =
        ((call.block b).run (call.memoAfter earlier)).1) := by
  constructor
  · intro key name token old new hkey hold hnew hname
    have hl' : (call.replacing key new).lexicon = some d := hl
    have hcourse : call.textIn d b = (call.replacing key new).textIn d b ∧
        call.eventsIn d b = (call.replacing key new).eventsIn d b :=
      course_of_unaliased hd.sound rfl fun kind k hlooks =>
        unaliased_replacing hkey hold hnew (hname kind k hlooks)
    rw [fst_run_block hl, fst_run_block hl', ← hcourse.1, ← hcourse.2]
    rfl
  · intro haliased b' h
    obtain ⟨htext, hevents⟩ := course_of_block_unaliased hd.sound haliased h
    rw [fst_run_block hl, fst_run_block hl, htext, hevents]

/-- A block without a header, the kind of which is told by an alias, and the block that names the
true token instead. -/
def sampleAliased (name : String) : Block where
  path := []
  alternatives := [⟨[[.butNot name]], .plain "she"⟩, ⟨[[.name name]], .plain "he"⟩]
  source := "{!masculine:she|masculine:he}"

/-- In the sample call the alias may be replaced by its true token: where it is given, and where it
stands in a block. -/
theorem transparent_sample :
    (((sampleCall.replacing "gender" (.token "m")).block sampleBlock).run
        ((sampleCall.replacing "gender" (.token "m")).memoAfter ⟨[]⟩)).1 =
      ((sampleCall.block sampleBlock).run (sampleCall.memoAfter ⟨[.block sampleBlock]⟩)).1 ∧
    ((sampleCall.block (sampleAliased "m")).run (sampleCall.memoAfter ⟨[]⟩)).1 =
      ((sampleCall.block (sampleAliased "masculine")).run
        (sampleCall.memoAfter ⟨[.block sampleBlock]⟩)).1 := by
  obtain ⟨k, hk, hnamed, ha⟩ : ∃ k, Lexicon.sample.loose.kinds.get? "gender" = some k ∧
      Lexicon.sample.namedKind? "gender" = some k ∧ k.aliases.get? "masculine" = some "m" :=
    ⟨Lexicon.sample.loose.kind "gender", by decide +kernel⟩
  constructor
  · refine (aliases_transparent Lexicon.reachable_sample rfl sampleBlock ⟨[.block sampleBlock]⟩
      ⟨[]⟩).1 "gender" "masculine" "m" (.token "masculine") (.token "m") rfl rfl rfl
      fun kind k' hlooks hfound => ?_
    obtain ⟨-, hkey | ⟨rfl, -⟩⟩ := found?_eq_some_iff.mp hfound
    · have hbare : Name.unmarked? "gender" = none := by decide
      rw [hkey, Name.unmarked?_marked] at hbare
      cases hbare
    · rcases hlooks.namedKind?_or with hk' | hk'
      · rw [hnamed] at hk'
        exact Option.some.inj hk' ▸ ha
      · rw [hk] at hk'
        exact Option.some.inj hk' ▸ ha
  · refine (aliases_transparent Lexicon.reachable_sample rfl (sampleAliased "masculine")
      ⟨[.block sampleBlock]⟩ ⟨[]⟩).2 rfl (sampleAliased "m") ?_
    have htells : (Spec.butNot "masculine").Tells Lexicon.sample "gender" :=
      ⟨k, hk, Kind.hasToken_of_aliases ha⟩
    have hat : sampleCall.TableAt Lexicon.sample (sampleAliased "masculine") 0 k :=
      .inferred rfl (.told ⟨[], _, rfl, ⟨_, htells⟩, nofun⟩ htells) hk
    have halternative : ∀ s s' wording,
        s.Unaliased (sampleCall.TableAt Lexicon.sample (sampleAliased "masculine") 0) s' →
          Alternative.Unaliased (sampleCall.TableAt Lexicon.sample (sampleAliased "masculine"))
            ⟨[[s]], wording⟩ ⟨[[s']], wording⟩ := by
      intro s s' wording hs
      refine ⟨rfl, rfl, fun position group group' hg hg' => ?_⟩
      cases position with
      | zero =>
        cases hg
        cases hg'
        exact .cons hs .nil
      | succ position => cases hg
    exact ⟨rfl, rfl, .cons (halternative _ _ _ (.butNot hat ha))
      (.cons (halternative _ _ _ (.name hat ha)) .nil)⟩

end Call
end Concord

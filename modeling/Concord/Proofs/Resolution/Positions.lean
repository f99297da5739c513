/-
# The kinds of a header are independent of each other

An alternative is selected if at every position there is a value that its group
accepts, and what is accepted at one position does not depend on another. So the
kinds of a header may be put in another order, together with the groups of the
alternatives, and a kind may be put behind them for which every alternative
accepts any value. Such a kind is met if there is a value along it; without one
no alternative is selected.

The loud wording is not so: it tells of the first kind, so texts stay in another
order only if there is no loud one.

Key definitions: `arranged`, `Block.arranged`, `Block.widened`, `Block.Reshaped`.
Key theorems: `Block.Reshaped.asksFor_iff`, `Call.textIn_of_reshaped`,
`Call.selects_arranged_iff`, `Call.selects_widened_iff`, `Call.positions_independent`.
-/
import Mathlib.Data.List.Find
import Concord.Proofs.Resolution.Faults

namespace Concord

/-- The members of a list at some places, in the order of the places. -/
def arranged {α : Type} (order : List Nat) (l : List α) : List α := order.filterMap (l[·]?)

/-- The alternative with its groups in another order. -/
def Alternative.arranged (order : List Nat) (a : Alternative) : Alternative :=
  { a with groups := Concord.arranged order a.groups }

/-- The alternative with one group more, in which any value will do; a free one stays as it is. -/
def Alternative.widened (a : Alternative) : Alternative :=
  if a.isFree then a else { a with groups := a.groups ++ [[.wildcard]] }

/-- The block with its kinds in another order and the groups of its alternatives with them, written
in some way. -/
def Block.arranged (order : List Nat) (source : String) (b : Block) : Block where
  path := Concord.arranged order b.path
  alternatives := b.alternatives.map (·.arranged order)
  source := source

/-- The block with a kind more, for which any value will do, written in some way. -/
def Block.widened (kind source : String) (b : Block) : Block where
  path := b.path ++ [kind]
  alternatives := b.alternatives.map (·.widened)
  source := source

/-! ### Members in another order -/

section

variable {α : Type} {order : List Nat} {l : List α}

theorem arranged_nil : arranged order ([] : List α) = [] := by
  simp [arranged]

theorem arranged_map {β : Type} (f : α → β) :
    arranged order (l.map f) = (arranged order l).map f := by
  simp [arranged, List.map_filterMap]

theorem arranged_range (l : List α) : arranged (List.range l.length) l = l := by
  unfold arranged
  induction l with
  | nil => rfl
  | cons a rest ih => simp [List.range_succ_eq_map, List.filterMap_map, ih]

theorem perm_arranged (h : order.Perm (List.range l.length)) : (arranged order l).Perm l := by
  have hperm : (arranged order l).Perm (arranged (List.range l.length) l) := h.filterMap _
  rwa [arranged_range] at hperm

/-- At a place stands the member whose place the order has there. -/
theorem getElem?_arranged (h : ∀ i ∈ order, i < l.length) (p : Nat) :
    (arranged order l)[p]? = (order[p]?).bind (l[·]?) := by
  induction order generalizing p with
  | nil => rfl
  | cons i rest ih =>
    obtain ⟨hi, hrest⟩ := List.forall_mem_cons.mp h
    have hcons : arranged (i :: rest) l = l[i] :: arranged rest l := by
      simp [arranged, hi]
    rw [hcons]
    cases p with
    | zero => simp [hi]
    | succ p => exact ih hrest p

end

/-! ### One group more -/

namespace Alternative

variable {a : Alternative}

theorem groups_widened (h : a.groups ≠ []) : a.widened.groups = a.groups ++ [[.wildcard]] := by
  have hfree : ¬a.isFree = true := mt List.isEmpty_iff.mp h
  rw [widened, if_neg hfree]

theorem widened_of_free (h : a.groups = []) : a.widened = a :=
  if_pos (List.isEmpty_iff.mpr h)

theorem wording_widened (a : Alternative) : a.widened.wording = a.wording := by
  unfold widened
  split <;> rfl

theorem groups_widened_eq_nil_iff : a.widened.groups = [] ↔ a.groups = [] := by
  by_cases h : a.groups = []
  · rw [widened_of_free h]
  · simp [groups_widened h, h]

theorem fits_widened_iff {arity : Nat} (hpos : 0 < arity) :
    a.widened.Fits (arity + 1) ↔ a.Fits arity := by
  unfold Fits
  by_cases h : a.groups = []
  · rw [widened_of_free h, h, List.length_nil]
    exact iff_of_false (fun hf => absurd hf.1 (Nat.succ_ne_zero arity).symm)
      fun hf => absurd hf.1 (Nat.ne_of_lt hpos)
  · rw [groups_widened h, List.length_append, List.length_singleton, Nat.add_right_cancel_iff,
      List.forall_mem_append, List.forall_mem_singleton]
    simp

/-- The groups before the last one stay where they are. -/
theorem getElem?_widened {position : Nat} (hlt : position < a.groups.length) :
    a.widened.groups[position]? = a.groups[position]? := by
  rw [groups_widened (List.length_pos_iff.mp (Nat.zero_lt_of_lt hlt)),
    List.getElem?_append_left hlt]

end Alternative

/-! ### Alternatives in another shape -/

/-- The alternatives of a block are those of another one in another shape: they have the same
wordings, the free ones are free, and those fit that fitted. -/
structure Block.Reshaped (f : Alternative → Alternative) (arity arity' : Nat) (b b' : Block) :
    Prop where
  alternatives : b'.alternatives = b.alternatives.map f
  wording : ∀ a ∈ b.alternatives, (f a).wording = a.wording
  free : ∀ a ∈ b.alternatives, (f a).groups = [] ↔ a.groups = []
  fits : ∀ a ∈ b.alternatives, (f a).Fits arity' ↔ a.Fits arity

namespace Block.Reshaped

variable {f : Alternative → Alternative} {arity arity' : Nat} {b b' : Block}

/-- The first alternative with a property comes from the first one that has it in the new shape. -/
theorem find?_eq (h : b.Reshaped f arity arity' b') {p q : Alternative → Bool}
    (hpq : ∀ a ∈ b.alternatives, q (f a) = p a) :
    b'.alternatives.find? q = (b.alternatives.find? p).map f := by
  have hfind : b.alternatives.find? (q ∘ f) = b.alternatives.find? p := List.find?_congr hpq
  rw [h.alternatives, List.find?_map, hfind]

theorem freeWording_eq (h : b.Reshaped f arity arity' b') : b'.freeWording = b.freeWording := by
  have hfree : ∀ a ∈ b.alternatives, (f a).isFree = a.isFree := fun a hmem =>
    Bool.eq_iff_iff.mpr (List.isEmpty_iff.trans ((h.free a hmem).trans List.isEmpty_iff.symm))
  unfold Block.freeWording
  rw [h.find?_eq hfree]
  cases hfind : b.alternatives.find? (·.isFree) with
  | none => rfl
  | some a => exact congrArg some (h.wording a (List.mem_of_find?_eq_some hfind))

theorem freeText_eq (h : b.Reshaped f arity arity' b') (description : Option String) :
    b'.freeText description = b.freeText description := by
  rw [Block.freeText, Block.freeText, h.freeWording_eq]

/-- The same tokens are asked for at a position, if the groups of another one stand there. -/
theorem asksFor_iff (h : b.Reshaped f arity arity' b') {position position' : Nat}
    (hgroup : ∀ a ∈ b.alternatives, a.Fits arity → (f a).groups[position']? = a.groups[position]?)
    {aliased : Bool} {k : Kind} {token : String} :
    b'.AsksFor arity' aliased k position' token ↔ b.AsksFor arity aliased k position token := by
  unfold Block.AsksFor
  rw [h.alternatives]
  simp only [List.mem_map, exists_exists_and_eq_and]
  refine exists_congr fun a => and_congr_right fun hmem => ?_
  rw [h.fits a hmem]
  refine and_congr_right fun hfits => ?_
  rw [hgroup a hmem hfits]

theorem exists_misfit_iff (h : b.Reshaped f arity arity' b') :
    (∃ a ∈ b'.alternatives, a.groups ≠ [] ∧ ¬a.Fits arity') ↔
      ∃ a ∈ b.alternatives, a.groups ≠ [] ∧ ¬a.Fits arity := by
  rw [h.alternatives]
  simp only [List.mem_map, exists_exists_and_eq_and]
  refine exists_congr fun a => and_congr_right fun hmem => ?_
  rw [h.fits a hmem, ne_eq, h.free a hmem]

end Block.Reshaped

namespace Call

variable {call : Call} {d : Lexicon} {b b' : Block} {axes axes' : List Axis}
  {f : Alternative → Alternative}

/-- If the alternatives that are selected are selected in another shape, and their texts are the same,
the block comes to the same text. -/
theorem textIn_of_reshaped (hd : d.Sound) (h : b.Reshaped f axes.length axes'.length b')
    (ha : call.Along d b axes) (ha' : call.Along d b' axes')
    (hmisfits : b'.Misfits axes'.length ↔ b.Misfits axes.length)
    (hselects : ∀ a ∈ b.alternatives, call.Selects b' axes' (f a) ↔ call.Selects b axes a)
    (htexts : ∀ a ∈ b.alternatives,
      a.wording.text (call.describes b' axes') = a.wording.text (call.describes b axes)) :
    call.textIn d b' = call.textIn d b := by
  by_cases hm : b.Misfits axes.length
  · rw [textIn_of_misfits hd ha hm, textIn_of_misfits hd ha' (hmisfits.mpr hm), h.freeText_eq]
  · have hselected : call.selected? b' axes' = (call.selected? b axes).map f := by
      refine h.find?_eq fun a hmem => Bool.eq_iff_iff.mpr ?_
      rw [selects_iff (ha'.sound hd).1, selects_iff (ha.sound hd).1]
      exact hselects a hmem
    have hfree : b'.freeText (call.describes b' axes') = b.freeText (call.describes b axes) := by
      unfold Block.freeText
      rw [h.freeWording_eq]
      unfold Block.freeWording
      cases hfind : b.alternatives.find? (·.isFree) with
      | none => rfl
      | some a => exact htexts a (List.mem_of_find?_eq_some hfind)
    rw [textIn_of_fits hd ha hm, textIn_of_fits hd ha' (mt hmisfits.mp hm), hselected, hfree]
    cases hfind : call.selected? b axes with
    | none => rfl
    | some a =>
      have hmem := List.mem_of_find?_eq_some hfind
      show (f a).wording.text _ = a.wording.text _
      rw [h.wording a hmem, htexts a hmem]

/-- The kinds of a header, if they are known, are as many as it names. -/
theorem Along.length_eq (ha : call.Along d b axes) (hpath : b.path ≠ []) :
    axes.length = b.path.length := by
  rcases ha with ⟨-, hnames, -⟩ | ⟨hnil, -, -⟩
  · rw [← hnames, List.length_map]
  · exact absurd hnil hpath

/-- They are known, or one of them is not. -/
theorem along_or_unknown (call : Call) (hd : d.Sound) (hpath : b.path ≠ []) :
    (∃ axes, call.Along d b axes) ∨ ∃ kind ∈ b.path, d.namedKind? kind = none := by
  cases haxes : call.axes? d b with
  | some axes => exact .inl ⟨axes, (axes?_eq_some_iff hd).mp haxes⟩
  | none => exact .inr (((axes?_eq_none_iff hd).mp haxes).resolve_right fun h => hpath h.1)

theorem textIn_of_unknown_kind (hd : d.Sound) (h : ∃ kind ∈ b.path, d.namedKind? kind = none) :
    call.textIn d b = b.freeText none :=
  textIn_of_unknown ((axes?_eq_none_iff hd).mpr (.inl h))

/-! ### Another order -/

theorem lt_of_mem_order {order : List Nat} {n : Nat} (h : order.Perm (List.range n)) :
    ∀ i ∈ order, i < n :=
  fun _ hi => List.mem_range.mp (h.mem_iff.mp hi)

section

variable {order : List Nat} (source : String) (horder : order.Perm (List.range b.path.length))
  (hgroups : ∀ a ∈ b.alternatives, a.groups ≠ [] → a.groups.length = b.path.length)
  (hpath : b.path ≠ [])

section

include horder hgroups

theorem reshaped_arranged :
    b.Reshaped (·.arranged order) b.path.length b.path.length (b.arranged order source) := by
  have hperm : ∀ a ∈ b.alternatives, (Concord.arranged order a.groups).Perm a.groups := by
    intro a hmem
    by_cases hnil : a.groups = []
    · rw [hnil, arranged_nil]
    · exact perm_arranged (by rwa [hgroups a hmem hnil])
  constructor
  case alternatives => rfl
  case wording => exact fun _ _ => rfl
  case free =>
    intro a hmem
    rw [← List.length_eq_zero_iff, ← List.length_eq_zero_iff]
    exact (hperm a hmem).length_eq ▸ Iff.rfl
  case fits =>
    intro a hmem
    unfold Alternative.Fits Alternative.arranged
    simp only [(hperm a hmem).length_eq, (hperm a hmem).mem_iff]

/-- At a place of the order the value is that of the place in the order. -/
theorem valueAt_arranged {place position : Nat} (hplace : order[place]? = some position)
    (axis : Axis) :
    call.valueAt (b.arranged order source) b.path.length place axis =
      call.valueAt b b.path.length position axis := by
  refine valueAt_congr fun token =>
    (reshaped_arranged source horder hgroups).asksFor_iff fun a _ hfits => ?_
  have hlt : ∀ i ∈ order, i < a.groups.length := hfits.1 ▸ lt_of_mem_order horder
  show (Concord.arranged order a.groups)[place]? = _
  rw [getElem?_arranged hlt, hplace, Option.bind_some]

end

section

include horder hpath

/-- The kinds are the same ones in the other order. -/
theorem Along.arranged (ha : call.Along d b axes) :
    call.Along d (b.arranged order source) (Concord.arranged order axes) := by
  have hlength := ha.length_eq hpath
  rcases ha with ⟨-, hnames, hkinds⟩ | ⟨hnil, -, -⟩
  · have hperm : (Concord.arranged order axes).Perm axes := perm_arranged (by rwa [hlength])
    refine .header ?_ ?_ fun axis haxis => hkinds axis (hperm.mem_iff.mp haxis)
    · exact fun hnil => hpath (List.Perm.eq_nil ((perm_arranged horder).symm.trans (.of_eq hnil)))
    · rw [← arranged_map, hnames]
      rfl
  · exact absurd hnil hpath

end

include horder hgroups hpath

/-- What is selected is selected in the other order. -/
theorem selects_arranged_iff (ha : call.Along d b axes) {a : Alternative}
    (hmem : a ∈ b.alternatives) :
    call.Selects (b.arranged order source) (Concord.arranged order axes) (a.arranged order) ↔
      call.Selects b axes a := by
  have hlength := ha.length_eq hpath
  have hperm : (Concord.arranged order axes).Perm axes := perm_arranged (by rwa [hlength])
  have haxes : ∀ i ∈ order, i < axes.length := hlength ▸ lt_of_mem_order horder
  unfold Selects
  rw [hperm.length_eq, hlength,
    (reshaped_arranged source horder hgroups).fits a hmem]
  refine and_congr_right fun hfits => ?_
  have hlt : ∀ i ∈ order, i < a.groups.length := hfits.1 ▸ lt_of_mem_order horder
  constructor
  · intro h position axis group hp hg
    have hposition : position ∈ order := by
      rw [horder.mem_iff, List.mem_range, ← hlength]
      exact (List.getElem?_eq_some_iff.mp hp).1
    obtain ⟨place, hplace⟩ := List.mem_iff_getElem?.mp hposition
    have hp' : (Concord.arranged order axes)[place]? = some axis := by
      rw [getElem?_arranged haxes, hplace, Option.bind_some, hp]
    have hg' : (a.arranged order).groups[place]? = some group := by
      refine (getElem?_arranged hlt place).trans ?_
      rw [hplace, Option.bind_some, hg]
    rw [← valueAt_arranged source horder hgroups hplace]
    exact h place axis group hp' hg'
  · intro h place axis group hp hg
    rw [getElem?_arranged haxes] at hp
    obtain ⟨position, hplace, hp⟩ := Option.bind_eq_some_iff.mp hp
    have hg' : a.groups[position]? = some group := by
      have hget := getElem?_arranged hlt place
      rw [hplace, Option.bind_some] at hget
      exact hget.symm.trans hg
    rw [valueAt_arranged source horder hgroups hplace]
    exact h position axis group hp hg'

/-- If no wording is loud, the text does not depend on the order. -/
theorem textIn_arranged (hd : d.Sound) (hplain : ∀ a ∈ b.alternatives, a.wording ≠ .loud) :
    call.textIn d (b.arranged order source) = call.textIn d b := by
  have hshape := reshaped_arranged source horder hgroups
  rcases call.along_or_unknown hd hpath with ⟨axes, ha⟩ | hunknown
  case inr =>
    have hunknown' : ∃ kind ∈ (b.arranged order source).path, d.namedKind? kind = none := by
      obtain ⟨kind, hmem, hkind⟩ := hunknown
      exact ⟨kind, (perm_arranged horder).mem_iff.mpr hmem, hkind⟩
    rw [textIn_of_unknown_kind hd hunknown, textIn_of_unknown_kind hd hunknown', hshape.freeText_eq]
  case inl =>
    have hlength := ha.length_eq hpath
    have hperm : (Concord.arranged order axes).Perm axes := perm_arranged (by rwa [hlength])
    have harity : (b.arranged order source).path.length = b.path.length :=
      (perm_arranged horder).length_eq
    have hlength' : (Concord.arranged order axes).length = b.path.length :=
      hperm.length_eq.trans hlength
    refine textIn_of_reshaped (f := (·.arranged order)) hd ?_ ha (ha.arranged source horder hpath) ?_
      (fun a hmem => selects_arranged_iff source horder hgroups hpath ha hmem) fun a hmem => ?_
    · rwa [hlength, hlength']
    · rw [hlength, hlength']
      exact and_congr (by rw [harity]) hshape.exists_misfit_iff
    · cases hw : a.wording with
      | plain text => rfl
      | loud => exact absurd hw (hplain a hmem)

end

/-! ### A kind more -/

section

variable (kind source : String)

/-- Fitting alternatives, and no others, fit one kind more. -/
theorem reshaped_widened (hpath : b.path ≠ []) :
    b.Reshaped (·.widened) b.path.length (b.path.length + 1) (b.widened kind source) where
  alternatives := rfl
  wording a _ := a.wording_widened
  free _ _ := Alternative.groups_widened_eq_nil_iff
  fits _ _ := Alternative.fits_widened_iff (List.length_pos_iff.mpr hpath)

section

variable (hfits : ∀ a ∈ b.alternatives, a.groups ≠ [] → a.Fits b.path.length)

include hfits

theorem not_misfits_of_fits : ¬b.Misfits b.path.length := by
  rintro ⟨-, a, hmem, hne, hmisfit⟩
  exact hmisfit (hfits a hmem hne)

theorem not_misfits_widened (hpath : b.path ≠ []) :
    ¬(b.widened kind source).Misfits (b.path.length + 1) := by
  rintro ⟨-, hmisfit⟩
  obtain ⟨a, hmem, hne, hmisfit⟩ := (reshaped_widened kind source hpath).exists_misfit_iff.mp hmisfit
  exact hmisfit (hfits a hmem hne)

end

/-- The values along the kinds of the block stay. -/
theorem valueAt_widened (hpath : b.path ≠ []) {position : Nat} (hlt : position < b.path.length)
    (axis : Axis) :
    call.valueAt (b.widened kind source) (b.path.length + 1) position axis =
      call.valueAt b b.path.length position axis := by
  refine valueAt_congr fun token => (reshaped_widened kind source hpath).asksFor_iff
    fun a _ hfits => Alternative.getElem?_widened ?_
  rw [hfits.1]
  exact hlt

section

variable {kind} {k : Kind} (hpath : b.path ≠ []) (ha : call.Along d b axes)

include hpath ha

theorem Along.length_concat (axis : Axis) : (axes ++ [axis]).length = b.path.length + 1 := by
  rw [List.length_append, List.length_singleton, ha.length_eq hpath]

/-- The kind that is put behind the others is the last one. -/
theorem Along.widened (hk : d.namedKind? kind = some k) :
    call.Along d (b.widened kind source) (axes ++ [⟨kind, k⟩]) := by
  rcases ha with ⟨-, hnames, hkinds⟩ | ⟨hnil, -, -⟩
  · refine .header (List.append_ne_nil_of_left_ne_nil hpath _) ?_ ?_
    · rw [List.map_append, hnames]
      rfl
    · exact List.forall_mem_append.mpr ⟨hkinds, List.forall_mem_singleton.mpr hk⟩
  · exact absurd hnil hpath

theorem describes_widened (axis : Axis) :
    call.describes (b.widened kind source) (axes ++ [axis]) = call.describes b axes := by
  have hlength := ha.length_eq hpath
  have hpos := List.length_pos_iff.mpr hpath
  have hne : axes ≠ [] := List.length_pos_iff.mp (hlength ▸ hpos)
  unfold describes
  rw [List.head?_append_of_ne_nil _ hne, ha.length_concat hpath, hlength]
  refine congrArg (Option.bind _) (funext fun first => ?_)
  rw [valueAt_widened kind source hpath hpos]

/-- An alternative stays selected if there is a value along the last kind; without one it is not. -/
theorem selects_widened_iff (axis : Axis) {a : Alternative} :
    call.Selects (b.widened kind source) (axes ++ [axis]) a.widened ↔
      call.Selects b axes a ∧ ∃ token, call.valueAt (b.widened kind source) (b.path.length + 1)
        b.path.length axis = some token := by
  have hlength := ha.length_eq hpath
  have hpos := List.length_pos_iff.mpr hpath
  unfold Selects
  rw [ha.length_concat hpath, hlength, Alternative.fits_widened_iff hpos, and_assoc]
  refine and_congr_right fun hfits => ?_
  have hgroups : a.widened.groups = a.groups ++ [[.wildcard]] :=
    Alternative.groups_widened (List.length_pos_iff.mp (hfits.1 ▸ hpos))
  rw [hgroups]
  constructor
  · intro h
    refine ⟨fun position first group hp hg => ?_, ?_⟩
    · have hlt : position < b.path.length := hlength ▸ (List.getElem?_eq_some_iff.mp hp).1
      rw [← valueAt_widened kind source hpath hlt]
      refine h position first group ?_ ?_
      · rwa [List.getElem?_append_left (hlength ▸ hlt)]
      · rwa [List.getElem?_append_left (hfits.1 ▸ hlt)]
    · have hp : (axes ++ [axis])[b.path.length]? = some axis := by
        rw [← hlength, List.getElem?_concat_length]
      have hg : (a.groups ++ [[Spec.wildcard]])[b.path.length]? = some [.wildcard] := by
        rw [← hfits.1, List.getElem?_concat_length]
      obtain ⟨token, hv, -⟩ := h b.path.length axis [.wildcard] hp hg
      exact ⟨token, hv⟩
  · rintro ⟨h, token, hv⟩ position first group hp hg
    rcases Nat.lt_or_ge position b.path.length with hlt | hge
    · rw [List.getElem?_append_left (hlength ▸ hlt)] at hp
      rw [List.getElem?_append_left (hfits.1 ▸ hlt)] at hg
      rw [valueAt_widened kind source hpath hlt]
      exact h position first group hp hg
    · have hlast : position = b.path.length := by
        have hbound := (List.getElem?_eq_some_iff.mp hp).1
        rw [ha.length_concat hpath] at hbound
        omega
      subst hlast
      rw [← hlength, List.getElem?_concat_length] at hp
      rw [← hfits.1, List.getElem?_concat_length] at hg
      cases hp
      cases hg
      exact ⟨token, hv, .inl List.mem_cons_self⟩

end

section

variable {kind} {k : Kind} (hd : d.Sound) (hpath : b.path ≠ [])
  (hfits : ∀ a ∈ b.alternatives, a.groups ≠ [] → a.Fits b.path.length)

include hd hpath

/-- If a kind of the block is not known, the free text stays. -/
theorem textIn_widened_of_unknown (hunknown : ∃ other ∈ b.path, d.namedKind? other = none) :
    call.textIn d (b.widened kind source) = b.freeText none := by
  have hunknown' : ∃ other ∈ (b.widened kind source).path, d.namedKind? other = none := by
    obtain ⟨other, hmem, hother⟩ := hunknown
    exact ⟨other, List.mem_append_left _ hmem, hother⟩
  rw [textIn_of_unknown_kind hd hunknown', (reshaped_widened kind source hpath).freeText_eq]

include hfits

/-- If there is a value along the last kind, the text is the one without it. -/
theorem textIn_widened (hk : d.namedKind? kind = some k) {token : String}
    (hv : call.valueAt (b.widened kind source) (b.path.length + 1) b.path.length ⟨kind, k⟩ =
      some token) :
    call.textIn d (b.widened kind source) = call.textIn d b := by
  rcases call.along_or_unknown hd hpath with ⟨axes, ha⟩ | hunknown
  case inr =>
    rw [textIn_widened_of_unknown source hd hpath hunknown, textIn_of_unknown_kind hd hunknown]
  case inl =>
    have hlength := ha.length_eq hpath
    have hlength' := ha.length_concat hpath ⟨kind, k⟩
    refine textIn_of_reshaped (f := (·.widened)) hd ?_ ha (ha.widened source hpath hk) ?_
      (fun a _ => ?_) fun a _ => ?_
    · rw [hlength, hlength']
      exact reshaped_widened kind source hpath
    · rw [hlength, hlength']
      exact iff_of_false (not_misfits_widened kind source hfits hpath) (not_misfits_of_fits hfits)
    · rw [selects_widened_iff source hpath ha, hv]
      exact and_iff_left ⟨token, rfl⟩
    · rw [describes_widened source hpath ha]

/-- If there is none, nothing is selected, and the free text is left. -/
theorem textIn_widened_of_none (hk : d.namedKind? kind = some k)
    (hv : call.valueAt (b.widened kind source) (b.path.length + 1) b.path.length ⟨kind, k⟩ = none)
    (ha : call.Along d b axes) :
    call.textIn d (b.widened kind source) = b.freeText (call.describes b axes) := by
  have ha' := ha.widened source hpath hk
  have hmisfits : ¬(b.widened kind source).Misfits (axes ++ [Axis.mk kind k]).length := by
    rw [ha.length_concat hpath]
    exact not_misfits_widened kind source hfits hpath
  have hnone : call.selected? (b.widened kind source) (axes ++ [Axis.mk kind k]) = none := by
    refine (selected?_eq_none_iff (ha'.sound hd).1).mpr (List.forall_mem_map.mpr fun a _ hs => ?_)
    obtain ⟨-, token, hsome⟩ := (selects_widened_iff source hpath ha _).mp hs
    rw [hv] at hsome
    cases hsome
  rw [textIn_of_fits hd ha' hmisfits, hnone, describes_widened source hpath ha]
  exact (reshaped_widened kind source hpath).freeText_eq _

end

end

/-! ### Main statement -/

/-- **The kinds of a header are independent of each other.** For a lexicon that has come about by
additions, a call that does not raise, a block with a header, and contexts that have resolved any
templates before: if no wording is loud and all alternatives with groups have one for each kind, the
block comes to the same text with its kinds and groups in any other order; and if the alternatives
with groups fit the kinds, it comes to the same text with a known kind more, for which any value will
do, as long as there is a value along it, and to its free text as soon as there is none. -/
theorem positions_independent {locale : String} (hd : Lexicon.Reachable locale d)
    (hl : call.lexicon = some d) (hq : call.options.raises = false) (hpath : b.path ≠ [])
    (source : String) (earlier earlier' : Template) :
    ((∀ a ∈ b.alternatives, a.wording ≠ .loud) →
      (∀ a ∈ b.alternatives, a.groups ≠ [] → a.groups.length = b.path.length) →
      ∀ order, order.Perm (List.range b.path.length) →
        ∃ text, ((call.block b).run (call.memoAfter earlier)).1 = .ok text ∧
          ((call.block (b.arranged order source)).run (call.memoAfter earlier')).1 = .ok text) ∧
    ((∀ a ∈ b.alternatives, a.groups ≠ [] → a.Fits b.path.length) →
      ∀ kind k, d.namedKind? kind = some k →
        ((∃ token, call.valueAt (b.widened kind source) (b.path.length + 1) b.path.length
            ⟨kind, k⟩ = some token) →
          ∃ text, ((call.block b).run (call.memoAfter earlier)).1 = .ok text ∧
            ((call.block (b.widened kind source)).run (call.memoAfter earlier')).1 = .ok text) ∧
        (call.valueAt (b.widened kind source) (b.path.length + 1) b.path.length ⟨kind, k⟩ = none →
          ∃ text,
            ((call.block (b.widened kind source)).run (call.memoAfter earlier')).1 = .ok text ∧
            (∀ axes, call.Along d b axes → b.Free (call.describes b axes) text) ∧
            ((∃ other ∈ b.path, d.namedKind? other = none) → b.Free none text))) := by
  refine ⟨fun hplain hgroups order horder => ?_, fun hfits kind k hk => ⟨?_, fun hnone => ?_⟩⟩
  · refine ⟨_, fst_run_block_quiet hl hq earlier b, ?_⟩
    rw [fst_run_block_quiet hl hq, textIn_arranged source horder hgroups hpath hd.sound hplain]
  · rintro ⟨token, hv⟩
    refine ⟨_, fst_run_block_quiet hl hq earlier b, ?_⟩
    rw [fst_run_block_quiet hl hq, textIn_widened source hd.sound hpath hfits hk hv]
  · refine ⟨_, fst_run_block_quiet hl hq earlier' _, fun axes ha => ?_, fun hunknown => ?_⟩
    · exact Block.free_iff.mpr (textIn_widened_of_none source hd.sound hpath hfits hk hnone ha)
    · exact Block.free_iff.mpr (textIn_widened_of_unknown source hd.sound hpath hunknown)

/-- A block of a loose and a strict kind with plain texts. -/
def samplePast : Block where
  path := ["gender", "tense"]
  alternatives := [⟨[[.name "f"], [.wildcard]], .plain "she"⟩,
    ⟨[[.name "masculine"], [.butNot "now"]], .plain "he was"⟩, ⟨[], .plain "they"⟩]
  source := "@gender+tense\x7bf+*:she|masculine+!now:he was|they\x7d"

/-- The block comes to the same text with its kinds the other way round, and with the tense once
more; with the person, of which there is neither a value nor a default, it comes to its free text. -/
theorem positions_sample :
    ((sampleCall.block samplePast).run .empty).1 = .ok "he was" ∧
      (∃ text, ((sampleCall.block samplePast).run .empty).1 = .ok text ∧
        ((sampleCall.block (samplePast.arranged [1, 0] "")).run
          (sampleCall.memoAfter ⟨[.block sampleBlock]⟩)).1 = .ok text) ∧
      (∃ text, ((sampleCall.block samplePast).run .empty).1 = .ok text ∧
        ((sampleCall.block (samplePast.widened "tense" "")).run
          (sampleCall.memoAfter ⟨[.block sampleBlock]⟩)).1 = .ok text) ∧
      ∃ text, ((sampleCall.block (samplePast.widened "person" "")).run
          (sampleCall.memoAfter ⟨[.block sampleBlock]⟩)).1 = .ok text ∧
        (∀ axes, sampleCall.Along Lexicon.sample samplePast axes →
          samplePast.Free (sampleCall.describes samplePast axes) text) ∧
        ((∃ other ∈ samplePast.path, Lexicon.sample.namedKind? other = none) →
          samplePast.Free none text) := by
  have hl : sampleCall.lexicon = some Lexicon.sample := rfl
  have hpath : samplePast.path ≠ [] := List.cons_ne_nil _ _
  obtain ⟨hordered, hwidened⟩ := positions_independent Lexicon.reachable_sample hl rfl hpath "" ⟨[]⟩
    ⟨[.block sampleBlock]⟩
  have hfits : ∀ a ∈ samplePast.alternatives, a.groups ≠ [] → a.Fits samplePast.path.length := by
    decide
  obtain ⟨tense, htense, hpast⟩ : ∃ k, Lexicon.sample.namedKind? "tense" = some k ∧
      sampleCall.valueAt (samplePast.widened "tense" "") 3 2 ⟨"tense", k⟩ = some "past" :=
    ⟨Lexicon.sample.strict.kind "tense", by decide +kernel⟩
  obtain ⟨person, hperson, hnone⟩ : ∃ k, Lexicon.sample.namedKind? "person" = some k ∧
      sampleCall.valueAt (samplePast.widened "person" "") 3 2 ⟨"person", k⟩ = none :=
    ⟨Lexicon.sample.strict.kind "person", by decide +kernel⟩
  refine ⟨by decide +kernel, hordered (by decide) (by decide) [1, 0] (by decide), ?_, ?_⟩
  · exact (hwidened hfits "tense" tense htense).1 ⟨"past", hpast⟩
  · exact (hwidened hfits "person" person hperson).2 hnone

end Call
end Concord

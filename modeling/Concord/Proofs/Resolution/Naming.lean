/-
# An inferred kind may as well be named

A block without a header is resolved along one kind, which its specs tell or the
values offer. If no strict kind hides it, the kind can be put in a header: then
the same table is found by its name, and from there on nothing tells the two
blocks apart, neither the text nor the error. A kind that the specs tell is found
without a look at the values, so that the same callables are asked as well;
one that is offered is found after a look at the values of the loose kinds up to
it.

Key definitions: `Block.underHeader`, `Call.lookUp`.
Key theorems: `Call.textIn_underHeader`, `Call.eventsIn_underHeader`,
`Call.run_underHeader`, `Call.inferred_as_named`.
-/
import Concord.Proofs.Resolution.Faults

namespace Concord

/-- The block with a header of one kind, and everything else as it is. -/
def Block.underHeader (b : Block) (kind : String) : Block := { b with path := [kind] }

/-- A loose kind that no strict one hides is found under its name. -/
theorem Lexicon.namedKind?_of_loose {d : Lexicon} {kind : String} {k : Kind}
    (hk : d.loose.kinds.get? kind = some k) (hs : d.strict.kinds.get? kind = none) :
    d.namedKind? kind = some k := by
  rw [namedKind?, hs, Option.none_or, hk]

namespace Call

/-- What is remembered after values have been looked up for kinds, one after the other. -/
def lookUp (call : Call) (kinds : List String) (memo : Memo) : Memo :=
  call.remember (kinds.map .lookup) memo

variable {call : Call} {d : Lexicon} {b : Block} {kind : String}

/-! ### The same axis -/

/-- The kind that is inferred is that of the header. -/
theorem axes?_underHeader (hd : d.Sound) (hp : b.path = []) (hinfers : call.Infers d b kind)
    (hs : d.strict.kinds.get? kind = none) :
    ∃ k, d.namedKind? kind = some k ∧ call.axes? d b = some [⟨kind, k⟩] ∧
      call.axes? d (b.underHeader kind) = some [⟨kind, k⟩] := by
  obtain ⟨k, hk⟩ := hinfers.exists_kind
  have hnamed := Lexicon.namedKind?_of_loose hk hs
  refine ⟨k, hnamed, ?_, ?_⟩
  · exact (axes?_eq_some_iff hd).mpr (.inferred hp hinfers hk)
  · exact (axes?_eq_some_iff hd).mpr
      (.header (List.cons_ne_nil _ _) rfl (List.forall_mem_singleton.mpr hnamed))

/-! ### What follows the axis -/

/-- Neither of the blocks is malformed, as both have one kind. -/
theorem isMalformed_underHeader (hp : b.path = []) (arity : Nat) :
    (b.underHeader kind).isMalformed arity = b.isMalformed arity := by
  have hcomplex : (b.underHeader kind).isComplex = b.isComplex := by
    simp [Block.isComplex, Block.underHeader, hp]
  unfold Block.isMalformed
  rw [hcomplex]
  rfl

theorem rows?_underHeader (hp : b.path = []) (aliased : Bool) (axes : List Axis) :
    (b.underHeader kind).rows? aliased axes = b.rows? aliased axes := by
  unfold Block.rows?
  rw [isMalformed_underHeader hp]
  rfl

theorem rowsEvents_underHeader (hp : b.path = []) (axes : List Axis) :
    (b.underHeader kind).rowsEvents d axes = b.rowsEvents d axes := by
  unfold Block.rowsEvents
  rw [isMalformed_underHeader hp]
  rfl

section

variable (hd : d.Sound) (hp : b.path = []) (hinfers : call.Infers d b kind)
  (hs : d.strict.kinds.get? kind = none)

include hd hp hinfers hs

theorem textIn_underHeader : call.textIn d (b.underHeader kind) = call.textIn d b := by
  obtain ⟨k, -, haxes, hheader⟩ := axes?_underHeader hd hp hinfers hs
  unfold textIn
  rw [haxes, hheader]
  dsimp only
  rw [rows?_underHeader hp]
  rfl

/-- Without a header the kind is found first; then the same happens. -/
theorem eventsIn_underHeader :
    call.eventsIn d b = call.axesEvents d b ++ call.eventsIn d (b.underHeader kind) := by
  obtain ⟨k, hnamed, haxes, hheader⟩ := axes?_underHeader hd hp hinfers hs
  have hfound : call.axesEvents d (b.underHeader kind) = [] := by
    simp [axesEvents, Block.underHeader, Lexicon.headerEvents, hnamed]
  unfold eventsIn
  rw [hfound, haxes, hheader]
  dsimp only
  rw [rowsEvents_underHeader hp, rows?_underHeader hp]
  rfl

/-- Finding the kind is no error, so both blocks come to the same. -/
theorem outcome_underHeader :
    call.outcome (call.eventsIn d b) (call.textIn d b) =
      call.outcome (call.eventsIn d (b.underHeader kind)) (call.textIn d (b.underHeader kind)) := by
  obtain ⟨k, -, haxes, -⟩ := axes?_underHeader hd hp hinfers hs
  have hfound : firstError? (call.axesEvents d b) = none := by
    refine Option.eq_none_iff_forall_ne_some.mpr fun e he => ?_
    exact (exists_along_iff hd).mp ⟨_, (axes?_eq_some_iff hd).mp haxes⟩ e
      ((firstError?_axesEvents_eq_some_iff hd).mp he)
  rw [outcome_eq, outcome_eq, eventsIn_underHeader hd hp hinfers hs, firstError?_append, hfound,
    Option.none_or, textIn_underHeader hd hp hinfers hs]

end

/-! ### How the kind is found -/

/-- A kind that no spec tells is the first for which a token is offered. -/
theorem Infers.first_offers (h : call.Infers d b kind)
    (hnone : ∀ s ∈ b.specs, ∀ other, ¬s.Tells d other) :
    First (call.Offers d) d.loose.kinds.keys kind := by
  cases h with
  | told hfirst _ =>
    obtain ⟨s, hmem, other, htells⟩ := exists_first_iff.mp ⟨_, hfirst⟩
    exact absurd htells (hnone s hmem other)
  | offered _ hfirst => exact hfirst

/-- Values are looked up for the kinds up to the first for which a token is offered. -/
theorem inferenceEvents_of_first (hd : d.Sound) {before after : List String}
    (hkeys : d.loose.kinds.keys = before ++ kind :: after) (hoffers : call.Offers d kind)
    (hbefore : ∀ other ∈ before, ¬call.Offers d other) :
    call.inferenceEvents d d.loose.kinds.keys = (before ++ [kind]).map .lookup := by
  have hgives : ∀ other ∈ before ++ kind :: after,
      call.givesToken d other = true ↔ call.Offers d other :=
    fun other hmem => givesToken_iff hd (hkeys ▸ hmem)
  have hkind : call.givesToken d kind = true := (hgives kind (by simp)).mpr hoffers
  have hskip : before.findIdx (call.givesToken d) = before.length :=
    List.findIdx_eq_length.mpr fun other hmem =>
      Bool.eq_false_iff.mpr (mt (hgives other (by simp [hmem])).mp (hbefore other hmem))
  have hindex : (before ++ kind :: after).findIdx (call.givesToken d) = before.length := by
    rw [List.findIdx_append, hskip, if_neg (Nat.lt_irrefl _), List.findIdx_cons, hkind, cond_true,
      Nat.zero_add]
  unfold inferenceEvents
  rw [hkeys, hindex, List.take_length_add_append]
  rfl

section

variable (hd : d.Sound) (hp : b.path = []) (hinfers : call.Infers d b kind)

include hd hp hinfers

/-- Until the kind is known nothing happens but that values are looked up, if no spec tells it. -/
theorem axesEvents_of_infers :
    call.axesEvents d b =
      if (b.specs.findSome? d.kindOfSpec?).isSome then []
      else call.inferenceEvents d d.loose.kinds.keys := by
  obtain ⟨k, hk⟩ := hinfers.exists_kind
  have haxis : call.inferredAxis? d b = some ⟨kind, k⟩ :=
    (inferredAxis?_eq_some_iff hd).mpr ⟨hinfers, hk⟩
  rw [axesEvents, if_pos (List.isEmpty_iff.mpr hp), inferredEvents, haxis]
  exact List.append_nil _

/-- A kind that a spec tells is found without a look at the values. -/
theorem axesEvents_of_told (htold : ∃ s ∈ b.specs, ∃ other, s.Tells d other) :
    call.axesEvents d b = [] := by
  obtain ⟨s, hmem, other, htells⟩ := htold
  have hspecs : (b.specs.findSome? d.kindOfSpec?).isSome = true := by
    rw [Option.isSome_iff_ne_none, ne_eq, hd.findSome?_eq_none_iff]
    exact fun hnone => hnone s hmem other htells
  rw [axesEvents_of_infers hd hp hinfers, if_pos hspecs]

/-- One that is offered is found by a look at the values of the loose kinds up to it. -/
theorem axesEvents_of_offered (hnone : ∀ s ∈ b.specs, ∀ other, ¬s.Tells d other) :
    ∃ before after, d.loose.kinds.keys = before ++ kind :: after ∧
      call.axesEvents d b = (before ++ [kind]).map .lookup := by
  obtain ⟨before, after, hkeys, hoffers, hbefore⟩ := hinfers.first_offers hnone
  refine ⟨before, after, hkeys, ?_⟩
  rw [axesEvents_of_infers hd hp hinfers, hd.findSome?_eq_none_iff.mpr hnone]
  exact inferenceEvents_of_first hd hkeys hoffers hbefore

end

/-! ### Runs -/

/-- If nothing but look-ups happens until the kind is known, the block runs as under the header where
the same values have been looked up before. -/
theorem run_underHeader (hd : d.Sound) (hl : call.lexicon = some d) (hp : b.path = [])
    (hinfers : call.Infers d b kind) (hs : d.strict.kinds.get? kind = none) {memo : Memo}
    (hm : call.Faithful memo) {kinds : List String}
    (hkinds : call.axesEvents d b = kinds.map .lookup) :
    (call.block b).run memo =
      (call.block (b.underHeader kind)).run (call.lookUp kinds memo) := by
  have hevents : call.eventsOf b =
      kinds.map .lookup ++ call.eventsOf (b.underHeader kind) := by
    simp only [eventsOf, hl, Option.map_some, Option.getD_some]
    rw [eventsIn_underHeader hd hp hinfers hs, hkinds]
  have houtcome : call.outcome (call.eventsOf b) (call.textOf b) =
      call.outcome (call.eventsOf (b.underHeader kind)) (call.textOf (b.underHeader kind)) := by
    simp only [eventsOf, textOf, hl, Option.map_some, Option.getD_some]
    exact outcome_underHeader hd hp hinfers hs
  have hhappened : call.happened (call.eventsOf b) =
      kinds.map .lookup ++ call.happened (call.eventsOf (b.underHeader kind)) := by
    have hlookups : ∀ e ∈ kinds.map Event.lookup, e.error?.isNone = true :=
      List.forall_mem_map.mpr fun _ _ => rfl
    unfold happened
    rw [hevents, List.takeWhile_append_of_pos hlookups]
    split <;> rfl
  rw [(block_course b).run_eq hm, houtcome, hhappened, remember_append]
  exact ((block_course (b.underHeader kind)).run_eq (hm.remember _)).symm

/-! ### Main statement -/

/-- **An inferred kind may as well be named.** For a lexicon that has come about by additions, a block
without a header for which a loose kind is inferred that no strict one hides, and contexts that have
resolved any templates before: the block comes to the same text, or to the same error, as with the
kind in its header. If a spec tells the kind, the same callables are asked. If it is offered, the
values of the loose kinds up to it are looked up first, and from there on the same callables are
asked. -/
theorem inferred_as_named {locale : String} (hd : Lexicon.Reachable locale d)
    (hl : call.lexicon = some d) (hp : b.path = []) (hinfers : call.Infers d b kind)
    (hs : d.strict.kinds.get? kind = none) (earlier earlier' : Template) :
    ((call.block b).run (call.memoAfter earlier)).1 =
        ((call.block (b.underHeader kind)).run (call.memoAfter earlier')).1 ∧
      ((∃ s ∈ b.specs, ∃ other, s.Tells d other) →
        (call.block b).run (call.memoAfter earlier) =
          (call.block (b.underHeader kind)).run (call.memoAfter earlier)) ∧
      ((∀ s ∈ b.specs, ∀ other, ¬s.Tells d other) →
        ∃ before after, d.loose.kinds.keys = before ++ kind :: after ∧
          (call.block b).run (call.memoAfter earlier) =
            (call.block (b.underHeader kind)).run
              (call.lookUp (before ++ [kind]) (call.memoAfter earlier))) := by
  have hm := call.faithful_memoAfter earlier
  refine ⟨?_, fun htold => ?_, fun hnone => ?_⟩
  · rw [fst_run_block hl, fst_run_block hl, outcome_underHeader hd.sound hp hinfers hs]
  · have hevents : call.axesEvents d b = ([] : List String).map .lookup :=
      axesEvents_of_told hd.sound hp hinfers htold
    exact run_underHeader hd.sound hl hp hinfers hs hm hevents
  · obtain ⟨before, after, hkeys, hevents⟩ := axesEvents_of_offered hd.sound hp hinfers hnone
    exact ⟨before, after, hkeys, run_underHeader hd.sound hl hp hinfers hs hm hevents⟩

/-- A block without a header, whose first spec is a negated alias of the gender. -/
def sampleTold : Block where
  path := []
  alternatives := [⟨[[.butNot "masculine"]], .plain "she"⟩, ⟨[[.name "m", .invalid "?"]], .loud⟩]
  source := "@\x7b!masculine:she|m,?:~\x7d"

/-- A block without a header, in which no token stands. -/
def sampleOffered : Block where
  path := []
  alternatives := [⟨[[.wildcard]], .plain "someone"⟩]
  source := "@\x7b*:someone\x7d"

/-- The gender, told by a spec or offered by its value, may be named in the header. The first block
stops at a spec that can name no token, the second one comes to its text. -/
theorem named_sample :
    ((sampleCall.raising true).block sampleTold).run .empty =
        ((sampleCall.raising true).block (sampleTold.underHeader "gender")).run .empty ∧
      (((sampleCall.raising true).block (sampleTold.underHeader "gender")).run .empty).1 =
        .error (.invalidToken sampleTold.source "?" (some "gender")) ∧
      ((sampleCall.block sampleOffered).run .empty).1 =
        ((sampleCall.block (sampleOffered.underHeader "gender")).run
          (sampleCall.memoAfter ⟨[.block sampleBlock]⟩)).1 ∧
      ((sampleCall.block sampleOffered).run .empty).1 = .ok "someone" := by
  obtain ⟨gender, hgender, hmasculine⟩ : ∃ k, Lexicon.sample.loose.kinds.get? "gender" = some k ∧
      k.hasToken "masculine" = true := ⟨Lexicon.sample.loose.kind "gender", by decide +kernel⟩
  have hs : Lexicon.sample.strict.kinds.get? "gender" = none := by decide +kernel
  have htells : (Spec.butNot "masculine").Tells Lexicon.sample "gender" :=
    ⟨gender, hgender, hmasculine⟩
  have htold : (sampleCall.raising true).Infers Lexicon.sample sampleTold "gender" :=
    .told ⟨[], _, rfl, ⟨"gender", htells⟩, List.forall_mem_nil _⟩ htells
  have hoffered : sampleCall.Infers Lexicon.sample sampleOffered "gender" := by
    refine .offered (List.forall_mem_singleton.mpr fun _ => id) ⟨[], ["person"], ?_, ?_, ?_⟩
    · decide +kernel
    · exact ⟨"masculine", by decide +kernel, gender, hgender, hmasculine⟩
    · exact List.forall_mem_nil _
  have hrun := (inferred_as_named Lexicon.reachable_sample rfl rfl htold hs ⟨[]⟩ ⟨[]⟩).2.1
    ⟨_, List.mem_cons_self, "gender", htells⟩
  exact ⟨hrun, by decide +kernel,
    (inferred_as_named Lexicon.reachable_sample rfl rfl hoffered hs ⟨[]⟩
      ⟨[.block sampleBlock]⟩).1, by decide +kernel⟩

end Call
end Concord

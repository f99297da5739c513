/-
# Sharing a context does not show

The blocks of a string share what callables answered, so that each callable is
asked at most once for all of them. In the text this cannot be seen. Every block
comes to what it would come to on its own, and the caller could as well have
asked all callables before and given their answers instead. That no callable is
asked twice is told by the record of the times that one was asked.

Key definitions: `Call.segmentAlone`, `Call.answered`, `Call.Recorded`.
Key theorems: `Call.fst_run_segments`, `Call.agree_answered`,
`Call.Recorded.supplied`, `Call.sharing_unseen`.
-/
import Mathlib.Data.List.Nodup
import Concord.Proofs.Resolution.Raising

namespace Concord
namespace Call

variable {call : Call}

/-! ### One block after another -/

/-- What a segment comes to in a context of its own. -/
def segmentAlone (call : Call) : Segment → Except ResolutionError String
  | .literal text => .ok text
  | .block b => ((call.block b).run .empty).1

theorem segment_course (s : Segment) : ∃ es text, call.Course (call.segment s) es text := by
  cases s with
  | literal text => exact ⟨[], text, .pure text⟩
  | block b => exact ⟨call.eventsOf b, call.textOf b, block_course b⟩

theorem segmentAlone_eq (call : Call) (s : Segment) :
    call.segmentAlone s = ((call.segment s).run .empty).1 := by
  cases s <;> rfl

theorem fst_run_map {α β : Type} (f : α → β) (x : Step α) (memo : Memo) :
    ((do return f (← x) : Step β).run memo).1 = (x.run memo).1.map f := by
  rw [← map_eq_pure_bind, run_map]

/-- Segments come to what each of them comes to on its own, or to the first error among these. -/
theorem fst_run_segments (segments : List Segment) {memo : Memo} (hm : call.Faithful memo) :
    ((call.segments segments).run memo).1 =
      (segments.mapM call.segmentAlone).map String.join := by
  induction segments generalizing memo with
  | nil => rfl
  | cons s rest ih =>
    obtain ⟨es, text, hs⟩ := call.segment_course s
    -- Whatever is remembered by now, the segment comes to what it does on its own.
    have hfst : ((call.segment s).run memo).1 = call.segmentAlone s := by
      rw [hs.run_eq hm, segmentAlone_eq, hs.run_eq call.faithful_empty]
    have hmemo := hs.faithful hm
    rw [segments, run_bind, List.mapM_cons, ← hfst]
    rcases hrun : (call.segment s).run memo with ⟨e | text, memo'⟩
    · rfl
    · rw [hrun] at hmemo
      refine (fst_run_map (text ++ ·) (call.segments rest) memo').trans ?_
      rw [ih hmemo]
      cases rest.mapM call.segmentAlone with
      | error e => rfl
      | ok texts => exact congrArg Except.ok String.join_cons.symm

end Call

/-! ### Answers in the place of callables -/

/-- The value with what its callable answers in its place. -/
def Value.answered (locale key : String) : Value → Value
  | .lazy f =>
    match f key locale with
    | some name => .token name
    | none => .nil
  | value => value

theorem Value.supply_answered (key locale : String) (value : Value) :
    (value.answered locale key).supply key locale = value.supply key locale := by
  cases value with
  | token name => rfl
  | nil => rfl
  | lazy f =>
    unfold answered Value.supply
    dsimp only
    cases f key locale <;> rfl

namespace Call

/-- The call with what its callables answer given in their places. -/
def answered (call : Call) : Call :=
  { call with args := call.args.mapWithKey fun key value => value.answered call.locale key }

variable {call : Call} {d : Lexicon}

theorem found?_answered (kind : String) :
    call.answered.found? kind =
      (call.found? kind).map fun found => (found.1, found.2.answered call.locale found.1) := by
  unfold found? answered
  rw [Table.get?_mapWithKey, Table.get?_mapWithKey]
  cases call.args.get? (Name.marked kind) with
  | some value => rfl
  | none => cases call.args.get? kind <;> rfl

/-- The same is given for every kind. -/
theorem given_answered (kind : String) : call.answered.given kind = call.given kind := by
  unfold given
  rw [found?_answered]
  cases call.found? kind with
  | none => rfl
  | some found => exact found.2.supply_answered found.1 call.locale

theorem agree_answered (call : Call) : call.answered.Agree call := ⟨rfl, given_answered, rfl, rfl, rfl⟩

/-- A template comes to the same if the answers are given beforehand. -/
theorem outcome_answered (t : Template) :
    call.answered.outcome (call.answered.templateEvents t) (call.answered.templateText t) =
      call.outcome (call.templateEvents t) (call.templateText t) := by
  rw [call.agree_answered.templateEvents_eq, call.agree_answered.templateText_eq]
  rfl

/-! ### What is asked -/

/-- A value is found under the marked key of a kind, or under the bare one if that is absent. -/
theorem found?_eq_some_iff {kind key : String} {value : Value} :
    call.found? kind = some (key, value) ↔ call.args.get? key = some value ∧
      (key = Name.marked kind ∨ key = kind ∧ call.args.get? (Name.marked kind) = none) := by
  unfold found?
  cases hm : call.args.get? (Name.marked kind) with
  | some v =>
    constructor
    · intro h
      cases h
      exact ⟨hm, .inl rfl⟩
    · rintro ⟨hv, rfl | ⟨-, h⟩⟩
      · rw [hm] at hv
        cases hv
        rfl
      · cases h
  | none =>
    rw [Option.map_none, Option.none_or, Option.map_eq_some_iff]
    constructor
    · rintro ⟨v, hv, e⟩
      cases e
      exact ⟨hv, .inr ⟨rfl, rfl⟩⟩
    · rintro ⟨hv, rfl | ⟨rfl, -⟩⟩
      · rw [hm] at hv
        cases hv
      · exact ⟨value, hv, rfl⟩

/-- The record is right: no key is on it twice; each that is on it is the key that a callable is found
under for a kind, and was asked with the locale; and the answers that are remembered are those of the
callables on it. -/
structure Recorded (call : Call) (memo : Memo) : Prop where
  once : (memo.asked.map (·.key)).Nodup
  found : ∀ i ∈ memo.asked, i.locale = call.locale ∧
    ∃ kind f, call.found? kind = some (i.key, .lazy f) ∧
      memo.answers.get? i.key = some (f i.key i.locale)
  asked : ∀ key answer, memo.answers.get? key = some answer → key ∈ memo.asked.map (·.key)

theorem recorded_empty (call : Call) : call.Recorded .empty where
  once := .nil
  found _ h := nomatch h
  asked _ _ h := nomatch h

theorem Recorded.supplied {memo : Memo} (h : call.Recorded memo) (kind : String) :
    call.Recorded (call.supplied kind memo).2 := by
  rcases call.supplied_memo kind memo with e | ⟨key, f, hf, hnone, e⟩
  · rwa [e]
  · rw [e]
    -- a key on record has an answer, which this one does not
    have hnew : key ∉ memo.asked.map (·.key) := by
      intro hmem
      obtain ⟨i, hi, rfl⟩ := List.mem_map.mp hmem
      obtain ⟨-, _, _, -, hanswer⟩ := h.found i hi
      rw [hnone] at hanswer
      cases hanswer
    constructor
    · rw [List.map_append]
      exact List.Nodup.append h.once (List.nodup_singleton key) (List.disjoint_singleton.mpr hnew)
    · intro i hi
      rcases List.mem_append.mp hi with hi | hi
      · obtain ⟨hlocale, other, g, hg, hanswer⟩ := h.found i hi
        have hne : i.key ≠ key := fun hkey => hnew (hkey ▸ List.mem_map_of_mem hi)
        refine ⟨hlocale, other, g, hg, ?_⟩
        rw [Table.get?_insert, if_neg hne, hanswer]
      · rw [List.mem_singleton.mp hi]
        refine ⟨rfl, kind, f, hf, ?_⟩
        rw [Table.get?_insert, if_pos rfl]
    · intro other answer ha
      rw [List.map_append, List.mem_append, List.map_singleton, List.mem_singleton]
      rw [Table.get?_insert] at ha
      split at ha
      · next ho => exact .inr ho
      · exact .inl (h.asked other answer ha)

theorem Recorded.remember {memo : Memo} (h : call.Recorded memo) (es : List Event) :
    call.Recorded (call.remember es memo) := by
  induction es generalizing memo with
  | nil => exact h
  | cons e rest ih =>
    cases e with
    | lookup kind => exact ih (h.supplied kind)
    | met e => exact ih h

theorem Recorded.run {α : Type} {x : Step α} {es : List Event} {a : α} {memo : Memo}
    (h : call.Recorded memo) (hx : call.Course x es a) (hm : call.Faithful memo) :
    call.Recorded (x.run memo).2 := by
  rw [hx.run_eq hm]
  exact h.remember _

/-- Whatever a context resolves, its record is right. -/
theorem recorded_template (call : Call) (earlier t : Template) :
    call.Recorded ((call.template t).run (call.memoAfter earlier)).2 := by
  have hearlier : call.Recorded (call.memoAfter earlier) :=
    call.recorded_empty.run (template_course earlier) call.faithful_empty
  exact hearlier.run (template_course t) (call.faithful_memoAfter earlier)

/-! ### Main statement -/

/-- **Sharing a context does not show.** Whatever has been resolved in it before, a template comes to
its literals and what its blocks come to each in a context of its own, one after the other, or to the
first error among these. It comes to the same if what the callables answer is given instead of them.
The callable under a key is asked once at most, before and now; it is asked with this key and the
locale, for a kind that is marked by the key or, if the marked key is absent, is the key. Its answer
is remembered, and no other. -/
theorem sharing_unseen (call : Call) (earlier t : Template) :
    ((call.template t).run (call.memoAfter earlier)).1 =
        (t.segments.mapM call.segmentAlone).map String.join ∧
      ((call.answered.template t).run (call.answered.memoAfter earlier)).1 =
        ((call.template t).run (call.memoAfter earlier)).1 ∧
      (((call.template t).run (call.memoAfter earlier)).2.asked.map (·.key)).Nodup ∧
      (∀ i ∈ ((call.template t).run (call.memoAfter earlier)).2.asked, i.locale = call.locale ∧
        ∃ kind f, call.args.get? i.key = some (.lazy f) ∧
          ((call.template t).run (call.memoAfter earlier)).2.answers.get? i.key =
            some (f i.key i.locale) ∧
          (i.key = Name.marked kind ∨
            i.key = kind ∧ call.args.get? (Name.marked kind) = none)) ∧
      (∀ key answer,
        ((call.template t).run (call.memoAfter earlier)).2.answers.get? key = some answer →
          key ∈ ((call.template t).run (call.memoAfter earlier)).2.asked.map (·.key)) ∧
      ∀ kind value, call.args.get? (Name.marked kind) = some value →
        (∀ memo, (call.supplied kind memo).2 = memo ∨
          ∃ answer, (call.supplied kind memo).2 = ⟨memo.answers.insert (Name.marked kind) answer,
            memo.asked ++ [⟨Name.marked kind, call.locale⟩]⟩) ∧
        (Name.unmarked? kind = none →
          kind ∉ ((call.template t).run (call.memoAfter earlier)).2.asked.map (·.key)) := by
  have hm := call.faithful_memoAfter earlier
  have hrecord := call.recorded_template earlier t
  refine ⟨fst_run_segments t.segments hm, ?_, hrecord.once, ?_, hrecord.asked, ?_⟩
  · rw [(template_course t).run_eq hm,
      (template_course t).run_eq (call.answered.faithful_memoAfter earlier)]
    exact outcome_answered t
  · intro i hi
    obtain ⟨hlocale, kind, f, hf, hanswer⟩ := hrecord.found i hi
    obtain ⟨hv, hkey⟩ := found?_eq_some_iff.mp hf
    exact ⟨hlocale, kind, f, hv, hanswer, hkey⟩
  · intro kind value hv
    refine ⟨fun memo => ?_, fun hu hmem => ?_⟩
    · rcases call.supplied_memo kind memo with e | ⟨key, f, hf, -, e⟩
      · exact .inl e
      · obtain ⟨-, rfl | ⟨-, hnone⟩⟩ := found?_eq_some_iff.mp hf
        · exact .inr ⟨_, e⟩
        · rw [hv] at hnone
          cases hnone
    · -- A key that was asked is a marked one, which `kind` is not, or its marked form is absent.
      obtain ⟨i, hi, rfl⟩ := List.mem_map.mp hmem
      obtain ⟨-, other, f, hf, -⟩ := hrecord.found i hi
      obtain ⟨-, hkey | ⟨rfl, hnone⟩⟩ := found?_eq_some_iff.mp hf
      · rw [hkey, Name.unmarked?_marked] at hu
        cases hu
      · rw [hv] at hnone
        cases hnone

end Call
end Concord

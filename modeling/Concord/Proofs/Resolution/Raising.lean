/-
# Calls that raise and calls that do not

The course of a resolution does not depend on whether the call raises, so two
calls that differ in this only can be followed side by side. The one that does
not raise always comes to its end. The other one does so too if no error is
met, with the same text and the same callables asked; otherwise it stops early.

Key definitions: `Call.raising`, `Outlasts`.
Key theorems: `Call.Course.outlasts`, `Call.quiet_outlasts_loud`.
-/
import Mathlib.Data.List.TakeWhile
import Concord.Proofs.Resolution.Parts

namespace Concord

/-- How a run that does not raise compares to one that does. -/
structure Outlasts {α : Type} (quiet loud : Except ResolutionError α × Memo) : Prop where
  /-- The first one never ends with an error. -/
  succeeds : ∃ result, quiet.1 = .ok result
  /-- If the other one succeeds, it has the same result, has asked the same callables, and remembers
  the same. -/
  agrees : ∀ result, loud.1 = .ok result → quiet = loud
  /-- If the other one stops, it has asked the first of the callables that the first one asks, and
  what it remembers is remembered by the first one. -/
  goesOn : ∀ e, loud.1 = .error e →
    loud.2.asked <+: quiet.2.asked ∧
      ∀ key answer, loud.2.answers.get? key = some answer →
        quiet.2.answers.get? key = some answer

namespace Call

/-- The same call, but one that raises or does not. -/
def raising (call : Call) (raises : Bool) : Call :=
  { call with options := { call.options with raises := raises } }

/-- What is kept after a template has been resolved. -/
def memoAfter (call : Call) (t : Template) : Memo := ((call.template t).run .empty).2

variable (call : Call) (r : Bool)

theorem faithful_memoAfter (t : Template) : call.Faithful (call.memoAfter t) :=
  (template_course t).faithful call.faithful_empty

/-- What a block comes to in a context that has resolved a template before. -/
theorem fst_run_block {call : Call} {d : Lexicon} (hl : call.lexicon = some d) (earlier : Template)
    (b : Block) :
    ((call.block b).run (call.memoAfter earlier)).1 =
      call.outcome (call.eventsIn d b) (call.textIn d b) := by
  rw [(block_course b).run_eq (call.faithful_memoAfter earlier), eventsOf, textOf, hl]
  rfl

/-- If errors are passed over it is the text of the block. -/
theorem fst_run_block_quiet {call : Call} {d : Lexicon} (hl : call.lexicon = some d)
    (hq : call.options.raises = false) (earlier : Template) (b : Block) :
    ((call.block b).run (call.memoAfter earlier)).1 = .ok (call.textIn d b) := by
  rw [fst_run_block hl, outcome, hq]
  rfl

/-! ### What does not depend on raising -/

theorem faithful_raising (memo : Memo) : (call.raising r).Faithful memo ↔ call.Faithful memo :=
  Iff.rfl

theorem remember_raising (es : List Event) (memo : Memo) :
    (call.raising r).remember es memo = call.remember es memo := by
  have hsupplied : ∀ kind, (call.raising r).supplied kind = call.supplied kind := fun _ => rfl
  exact remember_congr hsupplied es memo

theorem agree_raising : (call.raising r).Agree call := ⟨rfl, fun _ => rfl, rfl, rfl, rfl⟩

/-! ### Main statement -/

variable {call}

/-- Two runs that go through one course, of a call that raises and of one that does not, compare in
this way. -/
theorem Course.outlasts {α : Type} {step : Bool → Step α} {es : List Event} {result : α}
    (h : ∀ r, (call.raising r).Course (step r) es result) {memo : Memo} (hm : call.Faithful memo) :
    Outlasts ((step false).run memo) ((step true).run memo) := by
  rw [(h false).run_quiet rfl hm, (h true).run_loud rfl hm, remember_raising, remember_raising]
  cases herr : es.findSome? Event.error? with
  | none =>
    have hall : es.takeWhile (fun e => e.error?.isNone) = es := by
      rw [List.takeWhile_eq_self_iff]
      intro e he
      rw [List.findSome?_eq_none_iff.mp herr e he]
      rfl
    rw [hall]
    exact ⟨⟨result, rfl⟩, fun _ _ => rfl, fun e h => (nomatch h)⟩
  | some e =>
    refine ⟨⟨result, rfl⟩, fun _ h => (nomatch h), fun _ _ => ?_⟩
    -- what is kept only grows, so what is on record up to the error comes first
    obtain ⟨rest, hrest⟩ := List.takeWhile_prefix (l := es) fun e => e.error?.isNone
    have hmore := call.grows_remember rest
      (call.remember (es.takeWhile fun e => e.error?.isNone) memo)
    rw [← remember_append, hrest] at hmore
    exact ⟨hmore.asked, hmore.answers⟩

/-- **Raising only stops a call.** In any context that has resolved a template before, a template or
a block that is resolved without raising succeeds. Where it succeeds if the call raises, the text and
the callables that are asked are the same; where it fails, the callables that have been asked are the
first of those asked without raising. -/
theorem quiet_outlasts_loud (call : Call) (r : Bool) (earlier : Template) :
    (∀ t : Template, Outlasts
      (((call.raising false).template t).run ((call.raising r).memoAfter earlier))
      (((call.raising true).template t).run ((call.raising r).memoAfter earlier))) ∧
    ∀ b : Block, Outlasts
      (((call.raising false).block b).run ((call.raising r).memoAfter earlier))
      (((call.raising true).block b).run ((call.raising r).memoAfter earlier)) := by
  have hm : call.Faithful ((call.raising r).memoAfter earlier) :=
    (call.faithful_raising r _).mp ((call.raising r).faithful_memoAfter earlier)
  constructor
  · intro t
    have hcourse : ∀ r, (call.raising r).Course ((call.raising r).template t)
        (call.templateEvents t) (call.templateText t) := fun r =>
      (template_course t).congr ((call.agree_raising r).templateEvents_eq t)
        ((call.agree_raising r).templateText_eq t)
    exact Course.outlasts hcourse hm
  · intro b
    have hcourse : ∀ r, (call.raising r).Course ((call.raising r).block b)
        (call.eventsOf b) (call.textOf b) := fun r =>
      (block_course b).congr ((call.agree_raising r).eventsOf_eq b)
        ((call.agree_raising r).textOf_eq b)
    exact Course.outlasts hcourse hm

end Call
end Concord

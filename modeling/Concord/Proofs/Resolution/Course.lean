/-
# The course of a resolution

In a resolution two things happen: a value is looked up for a kind, and an
error is met. What happens, in which order, and what comes of it in the end are
told by the block, the lexicon and what is given for the kinds; whether the
call raises has no part in it. A call that does not raise follows this course
to its end, one that raises follows it up to the first error.

Key definitions: `Call.given`, `Call.Faithful`, `Memo.Grows`, `Event`, `Call.Course`.
Key theorems: `Call.Course.bind`, `Call.follow_quiet`, `Call.follow_loud`, `Call.Course.run_eq`.
-/
import Concord.Proofs.Lexicon.Growth
import Concord.Resolution.Call

namespace Concord

/-! ### What is given -/

/-- The supply that a value found under a key is, a callable being asked for it. -/
def Value.supply (key locale : String) : Value → Supply
  | .token name => .token name
  | .nil => .nil
  | .lazy f => .ofAnswer (f key locale)

namespace Call

/-- The value for a kind with its key: the one under `@` and its name, else that under its name. -/
def found? (call : Call) (kind : String) : Option (String × Value) :=
  ((call.args.get? (Name.marked kind)).map (Name.marked kind, ·)).or
    ((call.args.get? kind).map (kind, ·))

/-- What the caller gives for a kind. -/
def given (call : Call) (kind : String) : Supply :=
  match call.found? kind with
  | some (key, value) => value.supply key call.locale
  | none => .missing

theorem get?_of_found? {call : Call} {kind key : String} {value : Value}
    (h : call.found? kind = some (key, value)) : call.args.get? key = some value := by
  unfold found? at h
  cases hm : call.args.get? (Name.marked kind) with
  | some v =>
    rw [hm] at h
    cases h
    exact hm
  | none =>
    rw [hm, Option.map_none, Option.none_or] at h
    obtain ⟨v, hv, e⟩ := Option.map_eq_some_iff.mp h
    cases e
    exact hv

theorem supplied_eq (call : Call) (kind : String) :
    call.supplied kind = match call.found? kind with
      | some (key, value) => call.supplyOf key value
      | none => pure .missing := by
  unfold Call.supplied found?
  cases call.args.get? (Name.marked kind) with
  | some value => rfl
  | none => cases call.args.get? kind <;> rfl

/-- An answer that is remembered is given again; else the callable is asked, which goes on record,
and its answer is remembered. -/
theorem ask_eq (call : Call) (key : String) (f : String → String → Option String) (memo : Memo) :
    call.ask key f memo = match memo.answers.get? key with
      | some answer => (answer, memo)
      | none => (f key call.locale,
          ⟨memo.answers.insert key (f key call.locale), memo.asked ++ [⟨key, call.locale⟩]⟩) := by
  show (match memo.answers.get? key with
    | some answer => pure answer
    | none => do
      let answer ← call.invoke key f
      modify fun memo => { memo with answers := memo.answers.insert key answer }
      return answer : StateM Memo (Option String)) memo = _
  cases memo.answers.get? key <;> rfl

/-- What is remembered of a key is what its callable answers. -/
def Faithful (call : Call) (memo : Memo) : Prop :=
  ∀ key f answer, call.args.get? key = some (.lazy f) → memo.answers.get? key = some answer →
    answer = f key call.locale

theorem faithful_empty (call : Call) : call.Faithful .empty := by
  intro key f answer _ h
  cases h

variable {call : Call} {memo : Memo}

/-- A callable that is asked gives its answer, and nothing wrong is remembered. -/
theorem Faithful.ask (h : call.Faithful memo) {key : String} {f : String → String → Option String}
    (hf : call.args.get? key = some (.lazy f)) :
    (call.ask key f memo).1 = f key call.locale ∧ call.Faithful (call.ask key f memo).2 := by
  rw [ask_eq]
  cases ha : memo.answers.get? key with
  | some answer => exact ⟨h key f answer hf ha, h⟩
  | none =>
    refine ⟨rfl, fun other g answer hg ha => ?_⟩
    rw [Table.get?_insert] at ha
    split at ha
    · next ho =>
      rw [ho, hf] at hg
      cases hg
      rw [ho]
      exact (Option.some.inj ha).symm
    · exact h other g answer hg ha

theorem Faithful.supplyOf (h : call.Faithful memo) {key : String} {value : Value}
    (hv : call.args.get? key = some value) :
    (call.supplyOf key value memo).1 = value.supply key call.locale ∧
      call.Faithful (call.supplyOf key value memo).2 := by
  cases value with
  | token name => exact ⟨rfl, h⟩
  | nil => exact ⟨rfl, h⟩
  | lazy f =>
    obtain ⟨hanswer, hmemo⟩ := h.ask hv
    exact ⟨congrArg Supply.ofAnswer hanswer, hmemo⟩

/-- What is supplied is what is given, and nothing wrong is remembered. -/
theorem Faithful.supplied (h : call.Faithful memo) (kind : String) :
    (call.supplied kind memo).1 = call.given kind ∧ call.Faithful (call.supplied kind memo).2 := by
  rw [supplied_eq, given]
  cases hf : call.found? kind with
  | some found => exact h.supplyOf (get?_of_found? hf)
  | none => exact ⟨rfl, h⟩

/-- A lookup asks nothing, or it asks the callable that is found for the kind, of which no answer is
remembered, and remembers what it answers. -/
theorem supplied_memo (call : Call) (kind : String) (memo : Memo) :
    (call.supplied kind memo).2 = memo ∨
      ∃ key f, call.found? kind = some (key, .lazy f) ∧ memo.answers.get? key = none ∧
        (call.supplied kind memo).2 =
          ⟨memo.answers.insert key (f key call.locale), memo.asked ++ [⟨key, call.locale⟩]⟩ := by
  rw [supplied_eq]
  cases hf : call.found? kind with
  | none => exact .inl rfl
  | some found =>
    obtain ⟨key, value⟩ := found
    cases value with
    | token name => exact .inl rfl
    | nil => exact .inl rfl
    | lazy f =>
      show (call.ask key f memo).2 = memo ∨ _
      cases ha : memo.answers.get? key with
      | some answer =>
        left
        rw [ask_eq, ha]
      | none =>
        refine .inr ⟨key, f, rfl, ha, ?_⟩
        show (call.ask key f memo).2 = _
        rw [ask_eq, ha]

end Call

/-- What is kept grows: what is remembered stays so, and what comes on record comes behind. -/
structure Memo.Grows (memo memo' : Memo) : Prop where
  answers : ∀ key answer, memo.answers.get? key = some answer →
    memo'.answers.get? key = some answer
  asked : memo.asked <+: memo'.asked

namespace Memo.Grows

variable {memo memo' memo'' : Memo}

theorem refl (memo : Memo) : memo.Grows memo := ⟨fun _ _ h => h, List.prefix_refl _⟩

theorem trans (h : memo.Grows memo') (h' : memo'.Grows memo'') : memo.Grows memo'' :=
  ⟨fun key answer ha => h'.answers key answer (h.answers key answer ha), h.asked.trans h'.asked⟩

theorem supplied (call : Call) (kind : String) (memo : Memo) :
    memo.Grows (call.supplied kind memo).2 := by
  rcases call.supplied_memo kind memo with e | ⟨key, f, -, hnew, e⟩
  · rw [e]
    exact refl memo
  · rw [e]
    refine ⟨fun other answer ha => ?_, List.prefix_append _ _⟩
    have hne : other ≠ key := by
      rintro rfl
      rw [hnew] at ha
      cases ha
    rw [Table.get?_insert, if_neg hne]
    exact ha

end Memo.Grows

/-! ### Following a course -/

/-- What is made of a result shows in the result only. -/
theorem run_map {ε σ α β : Type} (f : α → β) (x : ExceptT ε (StateM σ) α) (s : σ) :
    (f <$> x).run s = ((x.run s).1.map f, (x.run s).2) := by
  rw [map_eq_pure_bind, run_bind]
  rcases x.run s with ⟨e | a, s'⟩ <;> rfl

/-- What may happen in a resolution. -/
inductive Event where
  /-- A value is looked up for a kind. -/
  | lookup (kind : String)
  /-- An error is met. -/
  | met (e : ResolutionError)
  deriving DecidableEq, Repr

/-- The error that is met, if it is one. -/
def Event.error? : Event → Option ResolutionError
  | .lookup _ => none
  | .met e => some e

namespace Call

/-- What is remembered after some events. -/
def remember (call : Call) : List Event → Memo → Memo
  | [], memo => memo
  | .lookup kind :: rest, memo => call.remember rest (call.supplied kind memo).2
  | .met _ :: rest, memo => call.remember rest memo

/-- Let events happen. -/
def follow (call : Call) : List Event → Step Unit
  | [] => pure ()
  | .lookup kind :: rest => do
    let _ ← (call.supplied kind : StateM Memo Supply)
    call.follow rest
  | .met e :: rest => do
    call.report e
    call.follow rest

/-- What a course comes to: its result, or the first error if the call raises. -/
def outcome {α : Type} (call : Call) (es : List Event) (result : α) : Except ResolutionError α :=
  if call.options.raises then (es.findSome? Event.error?).elim (.ok result) .error else .ok result

/-- The events of a course that happen: all of them, or those before the first error if the call
raises. -/
def happened (call : Call) (es : List Event) : List Event :=
  if call.options.raises then es.takeWhile fun e => e.error?.isNone else es

/-- A part of a resolution lets events happen and comes to a result. -/
def Course {α : Type} (call : Call) (step : Step α) (events : List Event) (result : α) : Prop :=
  ∀ memo, call.Faithful memo →
    step.run memo = (do call.follow events; return result : Step α).run memo

variable {call : Call}

theorem remember_append (call : Call) (es fs : List Event) (memo : Memo) :
    call.remember (es ++ fs) memo = call.remember fs (call.remember es memo) := by
  induction es generalizing memo with
  | nil => rfl
  | cons e rest ih => cases e <;> exact ih _

/-- What is remembered is told by what is supplied for the kinds. -/
theorem remember_congr {call call' : Call} (h : ∀ kind, call.supplied kind = call'.supplied kind)
    (es : List Event) (memo : Memo) : call.remember es memo = call'.remember es memo := by
  induction es generalizing memo with
  | nil => rfl
  | cons e rest ih =>
    cases e with
    | lookup kind =>
      rw [remember, remember, h kind]
      exact ih _
    | met e => exact ih memo

theorem grows_remember (call : Call) (es : List Event) (memo : Memo) :
    memo.Grows (call.remember es memo) := by
  induction es generalizing memo with
  | nil => exact .refl memo
  | cons e rest ih =>
    cases e with
    | lookup kind => exact (Memo.Grows.supplied call kind memo).trans (ih _)
    | met e => exact ih memo

theorem Faithful.remember {memo : Memo} (h : call.Faithful memo) (es : List Event) :
    call.Faithful (call.remember es memo) := by
  induction es generalizing memo with
  | nil => exact h
  | cons e rest ih =>
    cases e with
    | lookup kind => exact ih (h.supplied kind).2
    | met e => exact ih h

/-- A call that does not raise lets everything happen. -/
theorem follow_quiet (hq : call.options.raises = false) (es : List Event) (memo : Memo) :
    (call.follow es).run memo = (.ok (), call.remember es memo) := by
  induction es generalizing memo with
  | nil => rfl
  | cons e rest ih =>
    cases e with
    | lookup kind => exact ih _
    | met e =>
      have hreport : call.report e = pure () := if_neg (Bool.eq_false_iff.mp hq)
      rw [follow, hreport]
      exact ih memo

/-- A call that raises lets everything happen up to the first error. -/
theorem follow_loud (hr : call.options.raises = true) (es : List Event) (memo : Memo) :
    (call.follow es).run memo =
      ((es.findSome? Event.error?).elim (.ok ()) .error,
        call.remember (es.takeWhile fun e => e.error?.isNone) memo) := by
  induction es generalizing memo with
  | nil => rfl
  | cons e rest ih =>
    cases e with
    | lookup kind => exact ih _
    | met e =>
      have hreport : call.report e = throw e := if_pos hr
      rw [follow, hreport]
      rfl

theorem follow_append (es fs : List Event) :
    call.follow (es ++ fs) = (do call.follow es; call.follow fs) := by
  induction es with
  | nil => rfl
  | cons e rest ih => cases e <;> simp only [List.cons_append, follow, ih, bind_assoc]

/-- Following a course keeps what is remembered right, whether it is stopped or not. -/
theorem Faithful.follow {memo : Memo} (h : call.Faithful memo) (es : List Event) :
    call.Faithful ((call.follow es).run memo).2 := by
  cases hr : call.options.raises with
  | false =>
    rw [follow_quiet hr]
    exact h.remember es
  | true =>
    rw [follow_loud hr]
    exact h.remember _

namespace Course

variable {α β : Type} {es fs : List Event} {x : Step α} {a : α} {b : β}

theorem pure (a : α) : call.Course (Pure.pure a) [] a := fun _ _ => rfl

theorem report (e : ResolutionError) : call.Course (call.report e) [.met e] () := by
  intro memo _
  rw [show call.follow [.met e] = call.report e from bind_pure_unit, bind_pure_unit]

theorem supplied (kind : String) :
    call.Course (call.supplied kind : StateM Memo Supply) [.lookup kind] (call.given kind) := by
  intro memo hm
  have hgiven := (hm.supplied kind).1
  show (Except.ok (call.supplied kind memo).1, _) = (Except.ok (call.given kind), _)
  rw [hgiven]

/-- One part after another goes through the events of both. -/
theorem bind {f : α → Step β} (hx : call.Course x es a) (hf : call.Course (f a) fs b) :
    call.Course (x >>= f) (es ++ fs) b := by
  intro memo hm
  have hmemo := hm.follow es
  rw [follow_append, run_bind, hx memo hm, bind_assoc, run_bind, run_bind]
  rcases hrun : (call.follow es).run memo with ⟨e | u, memo'⟩
  · rfl
  · rw [hrun] at hmemo
    exact hf memo' hmemo

theorem congr {es' : List Event} {a' : α} (hx : call.Course x es a) (he : es = es') (ha : a = a') :
    call.Course x es' a' := he ▸ ha ▸ hx

theorem map {f : α → β} (hx : call.Course x es a) :
    call.Course (do return f (← x)) es (f a) := by
  have h : call.Course (do return f (← x)) (es ++ []) (f a) := hx.bind (.pure (f a))
  rw [List.append_nil] at h
  exact h

/-- After an error a part may end with a result of its own. -/
theorem report_pure (e : ResolutionError) (a : α) :
    call.Course (do call.report e; return a) [.met e] a := (Course.report e).map

theorem faithful (hx : call.Course x es a) {memo : Memo} (hm : call.Faithful memo) :
    call.Faithful (x.run memo).2 := by
  have hmemo := hm.follow es
  rw [hx memo hm, run_bind]
  rcases hrun : (call.follow es).run memo with ⟨e | u, memo'⟩ <;> rw [hrun] at hmemo <;> exact hmemo

/-- A call that does not raise comes to the result. -/
theorem run_quiet (hx : call.Course x es a) (hq : call.options.raises = false) {memo : Memo}
    (hm : call.Faithful memo) : x.run memo = (.ok a, call.remember es memo) := by
  rw [hx memo hm, run_bind, follow_quiet hq]
  rfl

/-- A call that raises comes to the first error, or else to the result. -/
theorem run_loud (hx : call.Course x es a) (hr : call.options.raises = true) {memo : Memo}
    (hm : call.Faithful memo) :
    x.run memo = ((es.findSome? Event.error?).elim (.ok a) .error,
      call.remember (es.takeWhile fun e => e.error?.isNone) memo) := by
  rw [hx memo hm, run_bind, follow_loud hr]
  cases es.findSome? Event.error? <;> rfl

/-- Where a course ends: what it comes to does not depend on what is remembered. -/
theorem run_eq (hx : call.Course x es a) {memo : Memo} (hm : call.Faithful memo) :
    x.run memo = (call.outcome es a, call.remember (call.happened es) memo) := by
  unfold outcome happened
  cases hr : call.options.raises with
  | false => exact hx.run_quiet hr hm
  | true => exact hx.run_loud hr hm

/-- A part that is not stopped by an error ends with its result. -/
theorem eq_of_run (hx : call.Course x es a) {a' : α} {memo memo' : Memo} (hm : call.Faithful memo)
    (h : x.run memo = (.ok a', memo')) : a' = a ∧ call.Faithful memo' := by
  have hmemo := hx.faithful hm
  have hrun := hx.run_eq hm
  rw [h] at hmemo hrun
  refine ⟨?_, hmemo⟩
  have houtcome : call.outcome es a = .ok a' := (congrArg Prod.fst hrun).symm
  unfold outcome at houtcome
  split at houtcome
  · cases herror : es.findSome? Event.error? with
    | none =>
      rw [herror] at houtcome
      exact (Except.ok.inj houtcome).symm
    | some e =>
      rw [herror] at houtcome
      cases houtcome
  · exact (Except.ok.inj houtcome).symm

end Course

end Call
end Concord

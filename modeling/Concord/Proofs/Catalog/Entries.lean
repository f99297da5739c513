/-
# An entry is resolved string by string

Resolving an entry answers its strings one after the other, each as it would be
answered alone, and puts the answers where the strings stood. Which strings these
are the switches tell: the symbols are among them only if symbols are resolved,
and what stands in lists and maps only if these are entered. Everything else
stays. The first string that fails, in the order in which they stand, is where
the entry fails, and no string behind it is looked at.

Key definitions: `Entry.strings`, `Entry.ReadsAs`, `Calls.Answers`.
Key theorems: `Calls.Answers.bind`, `Entry.answers_resolve`, `Entry.ReadsAs.comes`,
`Inflector.entry_answered`.
-/
import Concord.Proofs.Catalog.Inflecting
import Concord.Proofs.Resolution.Faults

namespace Concord
namespace Entry

/-! ### What an entry is read as -/

mutual

/-- The strings of an entry that are resolved, in the order in which they stand. -/
def strings (options : Options) : Entry → List String
  | .text content => [content]
  | .symbol name => if options.interpolateSymbols then [name] else []
  | .list items => if options.traverses then stringsOfItems options items else []
  | .map fields => if options.traverses then stringsOfFields options fields else []
  | .other _ => []

/-- The strings of the items of a list. -/
def stringsOfItems (options : Options) : List Entry → List String
  | [] => []
  | item :: rest => strings options item ++ stringsOfItems options rest

/-- The strings of the fields of a map. -/
def stringsOfFields (options : Options) : List (String × Entry) → List String
  | [] => []
  | (_, value) :: rest => strings options value ++ stringsOfFields options rest

end

section

variable (options : Options) (reads : String → String → Prop)

-- A list relation whose argument is the relation being defined is no inductive definition for
-- fields, as it would be given through a function; so items and fields have relations of their own.
mutual

/-- An entry is read as another one of the same shape: its strings are read, and all else is as it
was. -/
inductive ReadsAs : Entry → Entry → Prop where
  | text {content content' : String} :
      reads content content' → ReadsAs (.text content) (.text content')
  /-- A symbol is read if symbols are resolved. -/
  | symbol {name name' : String} :
      options.interpolateSymbols = true → reads name name' → ReadsAs (.symbol name) (.symbol name')
  | keptSymbol {name : String} :
      options.interpolateSymbols = false → ReadsAs (.symbol name) (.symbol name)
  /-- The items of a list are read if lists are entered. -/
  | list {items items' : List Entry} :
      options.traverses = true → ItemsReadAs items items' → ReadsAs (.list items) (.list items')
  | keptList {items : List Entry} :
      options.traverses = false → ReadsAs (.list items) (.list items)
  /-- The fields of a map are read if maps are entered. -/
  | map {fields fields' : List (String × Entry)} :
      options.traverses = true → FieldsReadAs fields fields' → ReadsAs (.map fields) (.map fields')
  | keptMap {fields : List (String × Entry)} :
      options.traverses = false → ReadsAs (.map fields) (.map fields)
  | other (data : Json) : ReadsAs (.other data) (.other data)

/-- Items are read one by one. -/
inductive ItemsReadAs : List Entry → List Entry → Prop where
  | nil : ItemsReadAs [] []
  | cons {item item' : Entry} {rest rest' : List Entry} :
      ReadsAs item item' → ItemsReadAs rest rest' → ItemsReadAs (item :: rest) (item' :: rest')

/-- Fields are read one by one, and keep their keys. -/
inductive FieldsReadAs : List (String × Entry) → List (String × Entry) → Prop where
  | nil : FieldsReadAs [] []
  | cons {key : String} {value value' : Entry} {rest rest' : List (String × Entry)} :
      ReadsAs value value' → FieldsReadAs rest rest' →
      FieldsReadAs ((key, value) :: rest) ((key, value') :: rest')

end

end

end Entry

/-! ### Sequences of calls -/

namespace Calls

variable {α β : Type} {answer : String → Except ResolutionError String × List Invocation}

/-- How a sequence of calls ends that answers some strings, each as it is answered alone: it goes
through with a result, or it stops at the first string that fails. The callables that have been asked
are those of the strings up to there. -/
inductive Ends (answer : String → Except ResolutionError String × List Invocation)
    (strings : List String) (result : α → Prop) (asked : List Invocation) :
    Except ResolutionError α × List Invocation → Prop where
  | through {a : α} :
      (∀ s ∈ strings, ∃ text, (answer s).1 = .ok text) → result a →
      Ends answer strings result asked (.ok a, asked ++ strings.flatMap fun s => (answer s).2)
  | stops {before after : List String} {s : String} {e : ResolutionError} :
      strings = before ++ s :: after → (∀ s ∈ before, ∃ text, (answer s).1 = .ok text) →
      (answer s).1 = .error e →
      Ends answer strings result asked
        (.error e, asked ++ (before ++ [s]).flatMap fun s => (answer s).2)

/-- A sequence of calls answers some strings, one after the other. -/
def Answers (answer : String → Except ResolutionError String × List Invocation) (x : Calls α)
    (strings : List String) (result : α → Prop) : Prop :=
  ∀ asked, Ends answer strings result asked (x.run asked)

namespace Answers

variable {x : Calls α} {ss ss' : List String} {p : α → Prop} {q : β → Prop}

theorem pure {a : α} (h : p a) : Answers answer (Pure.pure a) [] p := by
  intro asked
  have hends : Ends answer [] p asked (.ok a, asked ++ ([] : List String).flatMap _) :=
    .through (List.forall_mem_nil _) h
  rwa [List.flatMap_nil, List.append_nil] at hends

/-- The strings of one sequence are answered before those of the next. -/
theorem bind {f : α → Calls β} (hx : Answers answer x ss p)
    (hf : ∀ a, p a → Answers answer (f a) ss' q) : Answers answer (x >>= f) (ss ++ ss') q := by
  intro asked
  rw [run_bind]
  have hends := hx asked
  generalize x.run asked = r at hends
  cases hends with
  | @through a hall ha =>
    dsimp only
    have hrest := hf a ha (asked ++ ss.flatMap fun s => (answer s).2)
    generalize (f a).run _ = r at hrest
    cases hrest with
    | through hall' hb =>
      rw [List.append_assoc, ← List.flatMap_append]
      exact .through (List.forall_mem_append.mpr ⟨hall, hall'⟩) hb
    | @stops before after s e hss hbefore he =>
      rw [List.append_assoc, ← List.flatMap_append, ← List.append_assoc]
      have hstops : ss ++ ss' = (ss ++ before) ++ s :: after := by rw [hss, List.append_assoc]
      exact .stops hstops (List.forall_mem_append.mpr ⟨hall, hbefore⟩) he
  | @stops before after s e hss hbefore he =>
    have hstops : ss ++ ss' = before ++ s :: (after ++ ss') := by
      rw [hss, List.append_assoc, List.cons_append]
    exact .stops hstops hbefore he

theorem map {f : α → β} (hx : Answers answer x ss p) (hf : ∀ a, p a → q (f a)) :
    Answers answer (do return f (← x)) ss q := by
  have hbind : Answers answer (do return f (← x)) (ss ++ []) q := hx.bind fun a ha => .pure (hf a ha)
  rwa [List.append_nil] at hbind

end Answers

/-- A call on its own answers its string. -/
theorem answers_alone {step : Step String} {s : String} (h : Call.run step = answer s) :
    Answers answer (Call.alone step) [s] fun text => (answer s).1 = .ok text := by
  intro asked
  show Ends answer [s] _ asked ((Call.run step).1, asked ++ (Call.run step).2)
  have hasked : (answer s).2 = [s].flatMap fun s => (answer s).2 := by
    rw [List.flatMap_singleton]
  rw [h, hasked]
  cases hs : (answer s).1 with
  | error e =>
    have hstops : [s] = [] ++ s :: [] := rfl
    exact .stops hstops (List.forall_mem_nil _) hs
  | ok text => exact .through (List.forall_mem_singleton.mpr ⟨text, hs⟩) rfl

section

variable {x : Calls α} {ss : List String} {p : α → Prop}

theorem Answers.of_ok (hx : Answers answer x ss p) {asked : List Invocation} {a : α}
    (ha : (x.run asked).1 = .ok a) :
    p a ∧ (x.run asked).2 = asked ++ ss.flatMap fun s => (answer s).2 := by
  have hends := hx asked
  generalize x.run asked = r at hends ha
  cases hends with
  | through _ hp =>
    cases ha
    exact ⟨hp, rfl⟩
  | stops => cases ha

/-- It goes through if and only if no string fails. -/
theorem Answers.exists_ok_iff (hx : Answers answer x ss p) {asked : List Invocation} :
    (∃ a, (x.run asked).1 = .ok a) ↔ ∀ s ∈ ss, ∃ text, (answer s).1 = .ok text := by
  have hends := hx asked
  generalize x.run asked = r at hends
  cases hends with
  | through hall _ => exact iff_of_true ⟨_, rfl⟩ hall
  | @stops before after s e hss _ he =>
    refine iff_of_false (fun ⟨_, h⟩ => nomatch h) fun hall => ?_
    obtain ⟨text, htext⟩ := hall s (hss ▸ List.mem_append_right _ List.mem_cons_self)
    rw [he] at htext
    cases htext

/-- It stops with the error of the first string that fails. -/
theorem Answers.eq_error_iff (hx : Answers answer x ss p) {asked : List Invocation}
    {e : ResolutionError} :
    (x.run asked).1 = .error e ↔ FirstFault (fun s e => (answer s).1 = .error e) ss e := by
  have hends := hx asked
  have hnot : ∀ s, (∃ text, (answer s).1 = .ok text) → ¬∃ e, (answer s).1 = .error e := by
    rintro s ⟨text, htext⟩ ⟨e, he⟩
    rw [htext] at he
    cases he
  generalize x.run asked = r at hends
  cases hends with
  | through hall _ =>
    refine iff_of_false (fun h => nomatch h) fun h => ?_
    exact forall_not_firstFault_iff.mpr (fun s hs e he => hnot s (hall s hs) ⟨e, he⟩) e h
  | @stops before after s e' hss hbefore he =>
    have hfirst : First (fun s => ∃ e, (answer s).1 = .error e) ss s :=
      ⟨before, after, hss, ⟨e', he⟩, fun t ht => hnot t (hbefore t ht)⟩
    constructor
    · intro h
      cases h
      exact ⟨s, hfirst, he⟩
    · rintro ⟨t, hfirst', he'⟩
      cases hfirst'.unique hfirst
      exact congrArg Except.error (Except.error.inj (he.symm.trans he'))

end

/-- A sequence of calls comes to a result, whatever has been asked before. -/
def Comes (x : Calls α) (a : α) : Prop := ∀ asked, (x.run asked).1 = .ok a

theorem Comes.pure (a : α) : Comes (Pure.pure a) a := fun _ => rfl

theorem Comes.bind {x : Calls α} {f : α → Calls β} {a : α} {b : β} (hx : Comes x a)
    (hf : Comes (f a) b) : Comes (x >>= f) b := by
  intro asked
  have ha := hx asked
  rw [run_bind]
  rcases hrun : x.run asked with ⟨e | a', asked'⟩ <;> rw [hrun] at ha <;> cases ha
  exact hf asked'

end Calls

/-! ### Entries -/

namespace Entry

open Calls

variable {options : Options} {string : String → Calls String}

section

variable {answer : String → Except ResolutionError String × List Invocation}

mutual

/-- Resolving an entry answers its strings, and comes to what the entry is read as. -/
theorem answers_resolve
    (h : ∀ s, Answers answer (string s) [s] fun text => (answer s).1 = .ok text) :
    ∀ entry : Entry, Answers answer (entry.resolve options string) (entry.strings options)
      (entry.ReadsAs options fun s text => (answer s).1 = .ok text)
  | .text content => (h content).map fun _ ht => .text ht
  | .symbol name => by
    unfold resolve strings
    cases hsymbols : options.interpolateSymbols with
    | true => exact (h name).map fun _ ht => .symbol hsymbols ht
    | false => exact .pure (.keptSymbol hsymbols)
  | .list items => by
    unfold resolve strings
    cases htraverses : options.traverses with
    | true => exact (answers_resolveItems h items).map fun _ => .list htraverses
    | false => exact .pure (.keptList htraverses)
  | .map fields => by
    unfold resolve strings
    cases htraverses : options.traverses with
    | true => exact (answers_resolveFields h fields).map fun _ => .map htraverses
    | false => exact .pure (.keptMap htraverses)
  | .other data => .pure (.other data)

theorem answers_resolveItems
    (h : ∀ s, Answers answer (string s) [s] fun text => (answer s).1 = .ok text) :
    ∀ items : List Entry,
      Answers answer (resolveItems options string items) (stringsOfItems options items)
        (ItemsReadAs options (fun s text => (answer s).1 = .ok text) items)
  | [] => .pure .nil
  | item :: rest =>
    (answers_resolve h item).bind fun _ hitem =>
      (answers_resolveItems h rest).map fun _ => .cons hitem

theorem answers_resolveFields
    (h : ∀ s, Answers answer (string s) [s] fun text => (answer s).1 = .ok text) :
    ∀ fields : List (String × Entry),
      Answers answer (resolveFields options string fields) (stringsOfFields options fields)
        (FieldsReadAs options (fun s text => (answer s).1 = .ok text) fields)
  | [] => .pure .nil
  | (_, value) :: rest =>
    (answers_resolve h value).bind fun _ hvalue =>
      (answers_resolveFields h rest).map fun _ => .cons hvalue

end

end

section

variable {reads : String → String → Prop}

mutual

/-- What an entry is read as is what it comes to. -/
theorem ReadsAs.comes (h : ∀ s text, reads s text → Comes (string s) text) :
    ∀ {entry entry' : Entry}, entry.ReadsAs options reads entry' →
      Comes (entry.resolve options string) entry'
  | _, _, .text ht => (h _ _ ht).bind (.pure _)
  | _, _, .symbol hsymbols ht => by
    unfold resolve
    rw [if_pos hsymbols]
    exact (h _ _ ht).bind (.pure _)
  | _, _, .keptSymbol hsymbols => by
    unfold resolve
    rw [if_neg (Bool.eq_false_iff.mp hsymbols)]
    exact .pure _
  | _, _, .list htraverses hitems => by
    unfold resolve
    rw [if_pos htraverses]
    exact (hitems.comes h).bind (.pure _)
  | _, _, .map htraverses hfields => by
    unfold resolve
    rw [if_pos htraverses]
    exact (hfields.comes h).bind (.pure _)
  | _, _, .keptList htraverses | _, _, .keptMap htraverses => by
    unfold resolve
    rw [if_neg (Bool.eq_false_iff.mp htraverses)]
    exact .pure _
  | _, _, .other _ => .pure _

theorem ItemsReadAs.comes (h : ∀ s text, reads s text → Comes (string s) text) :
    ∀ {items items' : List Entry}, ItemsReadAs options reads items items' →
      Comes (resolveItems options string items) items'
  | _, _, .nil => .pure _
  | _, _, .cons hitem hrest => (hitem.comes h).bind ((hrest.comes h).bind (.pure _))

theorem FieldsReadAs.comes (h : ∀ s text, reads s text → Comes (string s) text) :
    ∀ {fields fields' : List (String × Entry)}, FieldsReadAs options reads fields fields' →
      Comes (resolveFields options string fields) fields'
  | _, _, .nil => .pure _
  | _, _, .cons hvalue hrest => (hvalue.comes h).bind ((hrest.comes h).bind (.pure _))

end

end

end Entry

/-! ### Inflectors -/

namespace Inflector

/-- The switches of a call, for those that the caller sets. -/
def switches (i : Inflector) (overrides : Overrides) : Options := overrides.apply i.defaults

/-- What a string comes to if it is all that is resolved, and the keys whose callables it asks. -/
def alone (i : Inflector) (locale : String) (args : Args) (overrides : Overrides) (text : String) :
    Except ResolutionError String × List Invocation :=
  (i.interpolate text locale args overrides).1

section

variable {i : Inflector} (h : i.scans.Sound) (locale : String) (args : Args)
  (overrides : Overrides)

include h

theorem answers_entry (entry : Entry) :
    Calls.Answers (i.alone locale args overrides)
      ((i.session.call locale args overrides).entry entry) (entry.strings (i.switches overrides))
      (entry.ReadsAs (i.switches overrides) fun s text =>
        (i.alone locale args overrides s).1 = .ok text) := by
  refine Entry.answers_resolve (fun s => Calls.answers_alone ?_) entry
  exact (interpolate_spec h s locale args overrides).1.symm

/-- A call that does not raise comes to a text. -/
theorem alone_quiet (hq : (i.switches overrides).raises = false) (s : String) :
    ∃ text, (i.alone locale args overrides s).1 = .ok text := by
  have hcourse : (i.session.call locale args overrides).Course _ _ _ :=
    Call.template_course (Template.scan s)
  have hrun := congrArg Prod.fst (hcourse.run_quiet hq (Call.faithful_empty _))
  unfold alone
  rw [(interpolate_spec h s locale args overrides).1]
  exact ⟨_, hrun⟩

end

/-! ### Main statement -/

/-- **An entry is resolved string by string.** For an inflector that started empty, after any
history, an entry comes to another one if and only if it is read as that one, with each of its
strings read as what it comes to alone; then the callables that are asked are those of the strings,
each of them asked anew. It comes to an entry if and only if all of its strings come to a text, which
they do if the call does not raise; and it fails with an error if and only if this is the error of
the first string that fails. -/
theorem entry_answered (defaults : Options) (rs : List Session.Request) (entry : Entry)
    (locale : String) (args : Args) (overrides : Overrides) :
    (∀ entry', ((ofHistory defaults rs).interpolateEntry entry locale args overrides).1.1 =
        .ok entry' ↔
      entry.ReadsAs ((ofHistory defaults rs).switches overrides)
        (fun s text => ((ofHistory defaults rs).alone locale args overrides s).1 = .ok text)
        entry') ∧
    (∀ entry', ((ofHistory defaults rs).interpolateEntry entry locale args overrides).1.1 =
        .ok entry' →
      ((ofHistory defaults rs).interpolateEntry entry locale args overrides).1.2 =
        (entry.strings ((ofHistory defaults rs).switches overrides)).flatMap fun s =>
          ((ofHistory defaults rs).alone locale args overrides s).2) ∧
    ((∃ entry', ((ofHistory defaults rs).interpolateEntry entry locale args overrides).1.1 =
        .ok entry') ↔
      ∀ s ∈ entry.strings ((ofHistory defaults rs).switches overrides),
        ∃ text, ((ofHistory defaults rs).alone locale args overrides s).1 = .ok text) ∧
    (((ofHistory defaults rs).switches overrides).raises = false →
      ∃ entry', ((ofHistory defaults rs).interpolateEntry entry locale args overrides).1.1 =
        .ok entry') ∧
    ∀ e, ((ofHistory defaults rs).interpolateEntry entry locale args overrides).1.1 = .error e ↔
      FirstFault (fun s e => ((ofHistory defaults rs).alone locale args overrides s).1 = .error e)
        (entry.strings ((ofHistory defaults rs).switches overrides)) e := by
  have hscans := sound_ofHistory defaults rs
  have hanswers := answers_entry hscans locale args overrides entry
  have hentry := (interpolateEntry_spec hscans entry locale args overrides).1
  generalize ofHistory defaults rs = i at hscans hanswers hentry
  rw [hentry]
  refine ⟨fun entry' => ⟨fun hok => (hanswers.of_ok hok).1, fun hreads => ?_⟩, fun entry' hok => ?_,
    hanswers.exists_ok_iff, fun hq => ?_, fun e => hanswers.eq_error_iff⟩
  · refine hreads.comes (fun s text htext asked => ?_) []
    show (Call.run _).1 = _
    rw [← htext]
    exact congrArg Prod.fst (interpolate_spec hscans s locale args overrides).1.symm
  · exact (hanswers.of_ok hok).2
  · exact hanswers.exists_ok_iff.mpr fun s _ => alone_quiet hscans locale args overrides hq s

/-- A gender that is asked for whenever it is needed. -/
def sampleAsking : Args := .ofList [("gender", .lazy fun _ _ => some "o")]

/-- An entry with a text and a symbol in a list, and a text behind the list. -/
def sampleEntry : Entry :=
  .map [("greeting", .list [.text sampleText, .symbol sampleText, .other .null]),
    ("title", .text "@gender\x7bf:Ms|Mx\x7d")]

/-- Without raising the two texts are resolved, each of which asks for the gender; with raising the
entry stops at the first one, which names a token that there is not. -/
theorem entry_sample :
    ((ofHistory {} [.store "en" (sampleConfig [])]).interpolateEntry sampleEntry "en" sampleAsking
        {}).1.1 =
      .ok (.map [("greeting", .list [.text "Dear You!", .symbol sampleText, .other .null]),
        ("title", .text "Mx")]) ∧
    ((ofHistory {} [.store "en" (sampleConfig [])]).interpolateEntry sampleEntry "en" sampleAsking
        {}).1.2 = [⟨"gender", "en"⟩, ⟨"gender", "en"⟩] ∧
    (∃ entry', ((ofHistory {} [.store "en" (sampleConfig [])]).interpolateEntry sampleEntry "en"
        sampleAsking {}).1.1 = .ok entry') ∧
    ((ofHistory {} [.store "en" (sampleConfig [])]).interpolateEntry sampleEntry "en" sampleAsking
        { raises := some true }).1.1 =
      .error (.invalidToken "@\x7bf:Lady|o:Others|n:You|All\x7d" "o" (some "gender")) := by
  obtain ⟨hreads, hasked, -, hquiet, -⟩ :=
    entry_answered {} [.store "en" (sampleConfig [])] sampleEntry "en" sampleAsking {}
  obtain ⟨-, -, -, -, hstops⟩ := entry_answered {} [.store "en" (sampleConfig [])] sampleEntry "en"
    sampleAsking { raises := some true }
  have hlist : Entry.ReadsAs ((ofHistory {} [.store "en" (sampleConfig [])]).switches {})
      (fun s text => ((ofHistory {} [.store "en" (sampleConfig [])]).alone "en" sampleAsking {} s).1 =
        .ok text) (.list [.text sampleText, .symbol sampleText, .other .null])
      (.list [.text "Dear You!", .symbol sampleText, .other .null]) :=
    .list rfl (.cons (.text (by decide +kernel)) (.cons (.keptSymbol rfl) (.cons (.other _) .nil)))
  have hentry := (hreads _).mpr
    (.map rfl (.cons hlist (.cons (.text (by decide +kernel : _ = Except.ok "Mx")) .nil)))
  refine ⟨hentry, (hasked _ hentry).trans (by decide +kernel), hquiet rfl, (hstops _).mpr ?_⟩
  have hfault : ((ofHistory {} [.store "en" (sampleConfig [])]).alone "en" sampleAsking
      { raises := some true } sampleText).1 =
        .error (.invalidToken "@\x7bf:Lady|o:Others|n:You|All\x7d" "o" (some "gender")) := by
    decide +kernel
  exact ⟨sampleText, ⟨[], _, rfl, ⟨_, hfault⟩, List.forall_mem_nil _⟩, hfault⟩

end Inflector
end Concord

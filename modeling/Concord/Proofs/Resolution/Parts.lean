/-
# What each part of a resolution comes to

For every part of a resolution, from the kinds of a block to a whole template:
the result that it comes to if errors are passed over, and the events on its
way there. Both are functions of the block, the lexicon, the switches and what
is given for the kinds; none of them looks at whether the call raises. So calls
that agree on these come to the same in the same course.

Key definitions: `Call.axes?`, `Axis.condition`, `Block.rows?`, `Call.tokenOf`,
`Call.textOf`, `Call.eventsOf`, `Call.Agree`.
Key theorems: `Call.axes_course`, `Call.rows_course`, `Call.tokens_course`,
`Call.block_course`, `Call.template_course`, `Call.Agree.templateText_eq`,
`Call.Agree.templateEvents_eq`.
-/
import Concord.Resolution
import Concord.Proofs.Resolution.Course

namespace Concord

/-! ### Kinds -/

namespace Lexicon

/-- The axes of a header; none if one of its kinds is not known. -/
def headerAxes? (d : Lexicon) (path : List String) : Option (List Axis) :=
  path.mapM fun name => (d.namedKind? name).map (Axis.mk name)

/-- The first kind of a header that is not known is an error. -/
def headerEvents (d : Lexicon) (pattern : String) (path : List String) : List Event :=
  ((path.find? fun name => (d.namedKind? name).isNone).map fun name =>
    .met (.unknownKind pattern name (suggestions name d.kindNames))).toList

theorem headerAxes?_cons (d : Lexicon) (name : String) (rest : List String) :
    d.headerAxes? (name :: rest) = (d.namedKind? name).bind fun kind =>
      (d.headerAxes? rest).map (⟨name, kind⟩ :: ·) := by
  unfold headerAxes?
  rw [List.mapM_cons]
  cases d.namedKind? name with
  | none => rfl
  | some kind => cases rest.mapM fun name => (d.namedKind? name).map (Axis.mk name) <;> rfl

end Lexicon

namespace Call

/-- Whether one of the tokens of a loose kind is given for it. -/
def givesToken (call : Call) (d : Lexicon) (kind : String) : Bool :=
  match call.given kind with
  | .token value => (d.view .loose).hasToken value (some kind)
  | _ => false

/-- Values are looked up for kinds until a token is found. -/
def inferenceEvents (call : Call) (d : Lexicon) (kinds : List String) : List Event :=
  (kinds.take (kinds.findIdx (call.givesToken d) + 1)).map .lookup

/-- The kind that is inferred for a block. -/
def inferredKind? (call : Call) (d : Lexicon) (b : Block) : Option String :=
  (b.specs.findSome? d.kindOfSpec?).or (d.loose.kinds.keys.find? (call.givesToken d))

/-- The axis of the inferred kind. -/
def inferredAxis? (call : Call) (d : Lexicon) (b : Block) : Option Axis :=
  (call.inferredKind? d b).bind fun name => ((d.view .loose).kind? name).map (Axis.mk name)

/-- The kind of a block without a header is told by its specs, or else by what is given. That there
is none is an error. -/
def inferredEvents (call : Call) (d : Lexicon) (b : Block) : List Event :=
  (if (b.specs.findSome? d.kindOfSpec?).isSome then []
    else call.inferenceEvents d d.loose.kinds.keys) ++
  if (call.inferredAxis? d b).isSome then [] else [.met (.unknownKind b.source "" [])]

/-- The axes of a block; none if a kind is not known. -/
def axes? (call : Call) (d : Lexicon) (b : Block) : Option (List Axis) :=
  if b.path.isEmpty then (call.inferredAxis? d b).map ([·]) else d.headerAxes? b.path

/-- What happens until the axes of a block are known. -/
def axesEvents (call : Call) (d : Lexicon) (b : Block) : List Event :=
  if b.path.isEmpty then call.inferredEvents d b else d.headerEvents b.source b.path

variable {call : Call} {d : Lexicon}

theorem headerAxes_course (pattern : String) (path : List String) :
    call.Course (call.headerAxes d pattern path) (d.headerEvents pattern path)
      (d.headerAxes? path) := by
  induction path with
  | nil => exact .pure _
  | cons name rest ih =>
    rw [headerAxes, Lexicon.headerAxes?_cons]
    cases hk : d.namedKind? name with
    | some kind =>
      have hevents : d.headerEvents pattern (name :: rest) = d.headerEvents pattern rest := by
        unfold Lexicon.headerEvents
        rw [List.find?_cons_of_neg (by rw [hk]; exact Bool.false_ne_true)]
      rw [hevents]
      exact ih.map
    | none =>
      rw [Lexicon.headerEvents, List.find?_cons_of_pos (by rw [hk]; rfl)]
      exact .report_pure _ none

theorem suppliedKind_course (kinds : List String) :
    call.Course (call.suppliedKind d kinds : StateM Memo (Option String))
      (call.inferenceEvents d kinds) (kinds.find? (call.givesToken d)) := by
  induction kinds with
  | nil => exact .pure _
  | cons name rest ih =>
    have hevents : call.inferenceEvents d (name :: rest) =
        [.lookup name] ++ if call.givesToken d name then [] else call.inferenceEvents d rest := by
      unfold inferenceEvents
      rw [List.findIdx_cons]
      cases call.givesToken d name <;> rfl
    have hkind : (name :: rest).find? (call.givesToken d) =
        if call.givesToken d name then some name else rest.find? (call.givesToken d) := by
      rw [List.find?_cons]
      cases call.givesToken d name <;> rfl
    rw [suppliedKind, liftM_bind, hevents, hkind]
    refine (Course.supplied name).bind ?_
    unfold givesToken
    cases call.given name with
    | missing => exact ih
    | nil => exact ih
    | token value =>
      dsimp only
      split
      · exact .pure _
      · exact ih

theorem inferredAxis_course (b : Block) :
    call.Course (call.inferredAxis d b) (call.inferredEvents d b) (call.inferredAxis? d b) := by
  have hkind : call.Course (call.inferredKind d b : StateM Memo (Option String))
      (if (b.specs.findSome? d.kindOfSpec?).isSome then []
        else call.inferenceEvents d d.loose.kinds.keys)
      (call.inferredKind? d b) := by
    unfold inferredKind inferredKind?
    cases b.specs.findSome? d.kindOfSpec? with
    | some name => exact .pure _
    | none => exact suppliedKind_course _
  unfold inferredAxis inferredEvents
  refine hkind.bind ?_
  unfold inferredAxis?
  cases (call.inferredKind? d b).bind fun name =>
      ((d.view .loose).kind? name).map (Axis.mk name) with
  | some axis => exact .pure _
  | none => exact .report_pure _ none

theorem axes_course (b : Block) :
    call.Course (call.axes d b) (call.axesEvents d b) (call.axes? d b) := by
  unfold axes axesEvents axes?
  split
  · exact (inferredAxis_course b).map
  · exact headerAxes_course b.source b.path

end Call

/-! ### Alternatives -/

/-- The condition that is met by the tokens of either. -/
def Condition.join (c c' : Condition) : Condition :=
  ⟨c.wildcard || c'.wildcard, c.named ++ c'.named, c.excluded ++ c'.excluded⟩

theorem Condition.join_empty (c : Condition) : ({} : Condition).join c = c := by
  simp [join]

theorem Condition.join_assoc (c c' c'' : Condition) :
    (c.join c').join c'' = c.join (c'.join c'') := by
  simp [join, Bool.or_assoc]

namespace Axis

/-- The condition that a group of specs is along an axis. -/
def condition (axis : Axis) (aliased : Bool) (group : List Spec) : Condition where
  wildcard := group.contains .wildcard
  named := group.filterMap fun
    | .name name => axis.denoted? aliased name
    | _ => none
  excluded := group.filterMap fun
    | .butNot name => axis.denoted? aliased name
    | _ => none

/-- The error of a spec that names no token or alias of an axis. -/
def specError? (axis : Axis) (d : Lexicon) (pattern : String) : Spec → Option ResolutionError
  | .wildcard => none
  | .invalid written => some (.invalidToken pattern written (some axis.name))
  | .name name | .butNot name =>
    if axis.kind.hasToken name then none else some (Call.nameError d pattern axis name)

/-- The errors of a group of specs. -/
def groupEvents (axis : Axis) (d : Lexicon) (pattern : String) (group : List Spec) : List Event :=
  (group.filterMap (axis.specError? d pattern)).map .met

/-- A name denotes something if it is a token or an alias, whether aliases are allowed or not. -/
theorem isSome_denoted? (axis : Axis) (aliased : Bool) (name : String) :
    (axis.denoted? aliased name).isSome = axis.kind.hasToken name := by
  unfold denoted?
  cases aliased with
  | true => exact axis.kind.isSome_trueToken? name
  | false => cases axis.kind.hasToken name <;> rfl

theorem condition_cons (axis : Axis) (aliased : Bool) (spec : Spec) (rest : List Spec) :
    axis.condition aliased (spec :: rest) =
      (axis.condition aliased [spec]).join (axis.condition aliased rest) := by
  cases spec <;> simp [condition, Condition.join, List.filterMap_cons] <;> split <;> simp

end Axis

namespace Alternative

/-- The row of an alternative. -/
def row (a : Alternative) (aliased : Bool) (axes : List Axis) : Row :=
  ⟨List.zipWith (fun group axis => axis.condition aliased group) a.groups axes, a.wording⟩

/-- The errors of an alternative. -/
def events (a : Alternative) (d : Lexicon) (pattern : String) (axes : List Axis) : List Event :=
  if a.isWellFormed axes.length then
    (a.groups.zip axes).flatMap fun p => p.2.groupEvents d pattern p.1
  else [.met (.invalidToken pattern "" (axes.head?.map (·.name)))]

end Alternative

namespace Block

/-- A block of several kinds with an alternative that does not match them. -/
def isMalformed (b : Block) (arity : Nat) : Bool :=
  b.isComplex && b.typed.any fun a => !a.isWellFormed arity

/-- The rows of a block; none if it is malformed. -/
def rows? (b : Block) (aliased : Bool) (axes : List Axis) : Option (List Row) :=
  if b.isMalformed axes.length then none
  else some ((b.typed.filter (·.isWellFormed axes.length)).map (·.row aliased axes))

/-- The errors of the alternatives of a block. -/
def rowsEvents (b : Block) (d : Lexicon) (axes : List Axis) : List Event :=
  if b.isMalformed axes.length then [.met (.malformed b.source)]
  else b.typed.flatMap (·.events d b.source axes)

end Block

namespace Call

variable {call : Call} {d : Lexicon} {pattern : String}

/-- A name is an error, or changes a condition by the token that it denotes. -/
theorem denoted_course (axis : Axis) (name : String) (c : Condition) (f : String → Condition) :
    call.Course
      (match axis.denoted? call.options.aliasedPatterns name with
        | some token => pure (f token)
        | none => do
          call.report (nameError d pattern axis name)
          return c)
      (if axis.kind.hasToken name then [] else [.met (nameError d pattern axis name)])
      (((axis.denoted? call.options.aliasedPatterns name).map f).getD c) := by
  rw [← axis.isSome_denoted? call.options.aliasedPatterns name]
  cases axis.denoted? call.options.aliasedPatterns name with
  | some token => exact .pure (f token)
  | none => exact .report_pure _ c

theorem addSpec_course (axis : Axis) (c : Condition) (spec : Spec) :
    call.Course (call.addSpec d pattern axis c spec) (axis.groupEvents d pattern [spec])
      (c.join (axis.condition call.options.aliasedPatterns [spec])) := by
  cases spec with
  | wildcard => exact .congr (.pure _) rfl (by simp [Condition.join, Axis.condition])
  | invalid written => exact .congr (.report_pure _ c) rfl (by simp [Condition.join, Axis.condition])
  | name name =>
    refine .congr (denoted_course axis name c fun token => { c with named := c.named ++ [token] })
      ?_ ?_
    · unfold Axis.groupEvents
      cases h : axis.kind.hasToken name <;> simp [Axis.specError?, h]
    · unfold Condition.join Axis.condition
      cases h : axis.denoted? call.options.aliasedPatterns name <;> simp [h]
  | butNot name =>
    refine .congr (denoted_course axis name c fun token =>
      { c with excluded := c.excluded ++ [token] }) ?_ ?_
    · unfold Axis.groupEvents
      cases h : axis.kind.hasToken name <;> simp [Axis.specError?, h]
    · unfold Condition.join Axis.condition
      cases h : axis.denoted? call.options.aliasedPatterns name <;> simp [h]

theorem addSpecs_course (axis : Axis) (c : Condition) (group : List Spec) :
    call.Course (call.addSpecs d pattern axis c group) (axis.groupEvents d pattern group)
      (c.join (axis.condition call.options.aliasedPatterns group)) := by
  induction group generalizing c with
  | nil =>
    have hc : c.join (axis.condition call.options.aliasedPatterns []) = c := by
      simp [Condition.join, Axis.condition]
    rw [hc]
    exact .pure c
  | cons spec rest ih =>
    have hevents : axis.groupEvents d pattern (spec :: rest) =
        axis.groupEvents d pattern [spec] ++ axis.groupEvents d pattern rest := by
      rw [Axis.groupEvents, ← List.singleton_append, List.filterMap_append, List.map_append]
      rfl
    rw [hevents, Axis.condition_cons, ← Condition.join_assoc]
    exact (addSpec_course axis c spec).bind (ih _)

theorem conditions_course (groups : List (List Spec)) (axes : List Axis) :
    call.Course (call.conditions d pattern groups axes)
      ((groups.zip axes).flatMap fun p => p.2.groupEvents d pattern p.1)
      (List.zipWith (fun group axis => axis.condition call.options.aliasedPatterns group)
        groups axes) := by
  induction groups generalizing axes with
  | nil => exact .pure _
  | cons group groups ih =>
    cases axes with
    | nil => exact .pure _
    | cons axis axes =>
      have hgroup : call.Course (call.addSpecs d pattern axis {} group)
          (axis.groupEvents d pattern group)
          (({} : Condition).join (axis.condition call.options.aliasedPatterns group)) :=
        addSpecs_course axis {} group
      rw [Condition.join_empty] at hgroup
      exact hgroup.bind (ih axes).map

theorem rowsOf_course (axes : List Axis) (alternatives : List Alternative) :
    call.Course (call.rowsOf d pattern axes alternatives)
      (alternatives.flatMap (·.events d pattern axes))
      ((alternatives.filter (·.isWellFormed axes.length)).map
        (·.row call.options.aliasedPatterns axes)) := by
  induction alternatives with
  | nil => exact .pure _
  | cons a rest ih =>
    rw [List.flatMap_cons, Alternative.events, rowsOf, List.filter_cons]
    by_cases ha : a.isWellFormed axes.length = true
    · rw [if_pos ha, if_pos ha, if_pos ha]
      exact (conditions_course a.groups axes).bind ih.map
    · rw [if_neg ha, if_neg ha, if_neg ha]
      exact (Course.report _).bind ih

theorem rows_course (b : Block) (axes : List Axis) :
    call.Course (call.rows d b axes) (b.rowsEvents d axes)
      (b.rows? call.options.aliasedPatterns axes) := by
  unfold rows Block.rowsEvents Block.rows?
  split
  · next h =>
    have hm : b.isMalformed axes.length = true := h
    rw [if_pos hm, if_pos hm]
    exact .report_pure _ none
  · next h =>
    have hm : ¬b.isMalformed axes.length = true := h
    rw [if_neg hm, if_neg hm]
    exact (rowsOf_course axes b.typed).map

end Call

/-! ### Values -/

namespace Call

/-- The token along an axis. -/
def tokenOf (call : Call) (axis : Axis) (position : Nat) (rows : List Row) : Option String :=
  match call.given axis.name with
  | .missing => if call.options.excludedDefaults then none else axis.kind.standard
  | .nil => call.unknownToken axis
  | .token value =>
    if value = Name.defaultWord then axis.kind.standard
    else match axis.kind.trueToken? value with
      | some token => call.knownToken axis position rows token
      | none => call.unknownToken axis

/-- The error of an axis without a default token. -/
def defaultError? (pattern : String) (axis : Axis) : Option ResolutionError :=
  if axis.kind.standard.isNone then some (.optionNotFound pattern axis.name) else none

/-- The error of what is given for an axis. -/
def tokenError? (call : Call) (b : Block) (axis : Axis) : Option ResolutionError :=
  match call.given axis.name with
  | .missing => if call.options.excludedDefaults then none else defaultError? b.source axis
  | .nil => some (.invalidOption b.source axis.name none)
  | .token value =>
    if value = Name.defaultWord then defaultError? b.source axis
    else if axis.kind.hasToken value then none
    else if !Name.isChoice value || !b.hasWildcard then
      some (.invalidOption b.source axis.name (some value))
    else none

/-- A value is looked up for each axis. -/
def tokensEvents (call : Call) (b : Block) (axes : List Axis) : List Event :=
  axes.flatMap fun axis => .lookup axis.name :: ((call.tokenError? b axis).map .met).toList

/-- The tokens along axes, the first of which has a position. -/
def tokensOf (call : Call) (rows : List Row) (position : Nat) (axes : List Axis) :
    List (Option String) :=
  (axes.zipIdx position).map fun p => call.tokenOf p.1 p.2 rows

variable {call : Call} {d : Lexicon}

theorem defaultToken_course (pattern : String) (axis : Axis) :
    call.Course (call.defaultToken pattern axis) ((defaultError? pattern axis).map .met).toList
      axis.kind.standard := by
  unfold defaultToken defaultError?
  split
  · exact .report_pure _ _
  · exact .pure _

theorem tokenFor_course (b : Block) (axis : Axis) (position : Nat) (rows : List Row) :
    call.Course (call.tokenFor b axis position rows (call.given axis.name))
      ((call.tokenError? b axis).map .met).toList (call.tokenOf axis position rows) := by
  unfold tokenError? tokenOf
  cases call.given axis.name with
  | missing =>
    unfold tokenFor
    dsimp only
    split
    · exact .pure _
    · exact defaultToken_course _ _
  | nil => exact .report_pure _ _
  | token value =>
    unfold tokenFor
    dsimp only
    split
    · exact defaultToken_course _ _
    · rw [← axis.kind.isSome_trueToken? value]
      cases axis.kind.trueToken? value with
      | some token => exact .pure _
      | none =>
        rw [Option.isSome_none, if_neg Bool.false_ne_true]
        dsimp only
        split
        · exact .report_pure _ _
        · exact .pure _

theorem tokens_course (b : Block) (rows : List Row) (axes : List Axis) (position : Nat) :
    call.Course (call.tokens b rows position axes) (call.tokensEvents b axes)
      (call.tokensOf rows position axes) := by
  induction axes generalizing position with
  | nil => exact .pure _
  | cons axis rest ih =>
    have htoken : call.Course (call.token b axis position rows)
        ([.lookup axis.name] ++ ((call.tokenError? b axis).map .met).toList)
        (call.tokenOf axis position rows) :=
      (Course.supplied axis.name).bind (tokenFor_course b axis position rows)
    exact htoken.bind (ih (position + 1)).map

/-! ### Blocks and templates -/

/-- The text of a block. -/
def textIn (call : Call) (d : Lexicon) (b : Block) : String :=
  match call.axes? d b with
  | none => b.freeText none
  | some axes =>
    match b.rows? call.options.aliasedPatterns axes with
    | none => b.freeText none
    | some rows => b.choose axes rows (call.tokensOf rows 0 axes)

/-- What happens while a block is resolved. -/
def eventsIn (call : Call) (d : Lexicon) (b : Block) : List Event :=
  call.axesEvents d b ++
    match call.axes? d b with
    | none => []
    | some axes =>
      b.rowsEvents d axes ++
        match b.rows? call.options.aliasedPatterns axes with
        | none => []
        | some _ => call.tokensEvents b axes

theorem blockIn_course (b : Block) :
    call.Course (call.blockIn d b) (call.eventsIn d b) (call.textIn d b) := by
  unfold blockIn eventsIn textIn
  refine (axes_course b).bind ?_
  cases call.axes? d b with
  | none => exact .pure _
  | some axes =>
    dsimp only
    refine (rows_course b axes).bind ?_
    cases b.rows? call.options.aliasedPatterns axes with
    | none => exact .pure _
    | some rows => exact (tokens_course b rows axes 0).map

/-- The text of a block, which is empty without a lexicon. -/
def textOf (call : Call) (b : Block) : String := (call.lexicon.map (call.textIn · b)).getD ""

/-- What happens while a block is resolved; nothing without a lexicon. -/
def eventsOf (call : Call) (b : Block) : List Event := (call.lexicon.map (call.eventsIn · b)).getD []

theorem block_course (b : Block) : call.Course (call.block b) (call.eventsOf b) (call.textOf b) := by
  unfold block eventsOf textOf
  cases call.lexicon with
  | some d => exact blockIn_course b
  | none => exact .pure _

/-- The text of a part of a template. -/
def segmentText (call : Call) : Segment → String
  | .literal text => text
  | .block b => call.textOf b

/-- The text of a template. -/
def templateText (call : Call) (t : Template) : String :=
  (t.segments.map call.segmentText).foldr (· ++ ·) ""

/-- What happens while a template is resolved. -/
def templateEvents (call : Call) (t : Template) : List Event := t.blocks.flatMap call.eventsOf

/-- A block and nothing else comes to what the block comes to. -/
theorem template_block (call : Call) (b : Block) : call.template ⟨[.block b]⟩ = call.block b := by
  simp [template, segments, segment]

theorem template_course (t : Template) :
    call.Course (call.template t) (call.templateEvents t) (call.templateText t) := by
  obtain ⟨segments⟩ := t
  unfold template templateEvents templateText Template.blocks
  dsimp only
  induction segments with
  | nil => exact .pure _
  | cons s rest ih =>
    cases s with
    | literal text => exact (Course.pure text).bind ih.map
    | block b => exact (block_course b).bind ih.map

end Call

/-! ### Calls that agree -/

/-- Switches that do not differ where the text of a block depends on them. -/
structure Options.Alike (o o' : Options) : Prop where
  unknownDefaults : o.unknownDefaults = o'.unknownDefaults
  excludedDefaults : o.excludedDefaults = o'.excludedDefaults
  aliasedPatterns : o.aliasedPatterns = o'.aliasedPatterns

theorem Options.Alike.of_eq {o o' : Options} (h : o = o') : o.Alike o' := h ▸ ⟨rfl, rfl, rfl⟩

namespace Call

section

variable {call call' : Call} {d d' : Lexicon} {b : Block}
  (hoptions : call.options.Alike call'.options)

include hoptions

/-- The token along an axis is told by what is given for it and by the switches. -/
theorem tokenOf_congr {axis : Axis} (hgiven : call.given axis.name = call'.given axis.name)
    (position : Nat) (rows : List Row) :
    call.tokenOf axis position rows = call'.tokenOf axis position rows := by
  unfold tokenOf unknownToken knownToken
  rw [hgiven, hoptions.unknownDefaults, hoptions.excludedDefaults]

/-- So is what is wrong with it. -/
theorem tokenError?_congr {axis : Axis} (hgiven : call.given axis.name = call'.given axis.name) :
    call.tokenError? b axis = call'.tokenError? b axis := by
  unfold tokenError?
  rw [hgiven, hoptions.excludedDefaults]

/-- The text is told by the kinds and the tokens along them. -/
theorem textIn_congr (haxes : call.axes? d b = call'.axes? d' b)
    (htoken : ∀ axes, call.axes? d b = some axes → ∀ axis ∈ axes, ∀ position rows,
      call.tokenOf axis position rows = call'.tokenOf axis position rows) :
    call.textIn d b = call'.textIn d' b := by
  unfold textIn
  rw [← haxes, ← hoptions.aliasedPatterns]
  cases ha : call.axes? d b with
  | none => rfl
  | some axes =>
    dsimp only
    cases b.rows? call.options.aliasedPatterns axes with
    | none => rfl
    | some rows =>
      have htokens : call.tokensOf rows 0 axes = call'.tokensOf rows 0 axes :=
        List.map_congr_left fun p hp => htoken axes ha p.1 (List.fst_mem_of_mem_zipIdx hp) p.2 rows
      dsimp only
      rw [htokens]

/-- What happens is told by the kinds, how they are found, and what is wrong with what is given. -/
theorem eventsIn_congr (haxes : call.axes? d b = call'.axes? d b)
    (hevents : call.axesEvents d b = call'.axesEvents d b)
    (herror : ∀ axes, call.axes? d b = some axes → ∀ axis ∈ axes,
      call.tokenError? b axis = call'.tokenError? b axis) :
    call.eventsIn d b = call'.eventsIn d b := by
  unfold eventsIn
  rw [← haxes, ← hevents, ← hoptions.aliasedPatterns]
  cases ha : call.axes? d b with
  | none => rfl
  | some axes =>
    have htokens : call.tokensEvents b axes = call'.tokensEvents b axes := by
      unfold tokensEvents
      rw [List.flatMap_def, List.flatMap_def]
      refine congrArg _ (List.map_congr_left fun axis haxis => ?_)
      rw [herror axes ha axis haxis]
    dsimp only
    rw [htokens]

end

/-- Two calls agree if they have the same lexicon, the same is given for every kind, and the switches
do not differ where it counts. -/
structure Agree (call call' : Call) : Prop where
  lexicon : call.lexicon = call'.lexicon
  given : ∀ kind, call.given kind = call'.given kind
  options : call.options.Alike call'.options

namespace Agree

variable {call call' : Call} (h : call.Agree call')

include h

/-- The kinds of a block are the same, and found in the same way. -/
theorem axes?_eq (d : Lexicon) (b : Block) :
    call.axes? d b = call'.axes? d b ∧ call.axesEvents d b = call'.axesEvents d b := by
  have hgives : call.givesToken d = call'.givesToken d := by
    funext kind
    unfold givesToken
    rw [h.given]
  unfold axes? axesEvents inferredEvents inferenceEvents inferredAxis? inferredKind?
  rw [hgives]
  exact ⟨rfl, rfl⟩

theorem textOf_eq (b : Block) : call.textOf b = call'.textOf b := by
  unfold textOf
  rw [h.lexicon]
  cases call'.lexicon with
  | none => rfl
  | some d =>
    exact textIn_congr h.options (h.axes?_eq d b).1 fun _ _ axis _ =>
      tokenOf_congr h.options (h.given axis.name)

theorem eventsOf_eq (b : Block) : call.eventsOf b = call'.eventsOf b := by
  unfold eventsOf
  rw [h.lexicon]
  cases call'.lexicon with
  | none => rfl
  | some d =>
    obtain ⟨haxes, hevents⟩ := h.axes?_eq d b
    exact eventsIn_congr h.options haxes hevents fun _ _ axis _ =>
      tokenError?_congr h.options (h.given axis.name)

theorem templateText_eq (t : Template) : call.templateText t = call'.templateText t := by
  have hsegment : call.segmentText = call'.segmentText := by
    funext s
    cases s with
    | literal text => rfl
    | block b => exact h.textOf_eq b
  unfold templateText
  rw [hsegment]

theorem templateEvents_eq (t : Template) : call.templateEvents t = call'.templateEvents t :=
  congrArg (t.blocks.flatMap ·) (funext h.eventsOf_eq)

end Agree

end Call
end Concord

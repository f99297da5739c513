/-
# Every text can be a literal

A text is *shielded* by an extra `@` before each chain in it, from the left and
going on behind the chain. What is scanned from the shielded text is the text
itself: the marks that are put in make the chains escaped ones, and no chain
comes about elsewhere. The second needs an argument, because whether a chain
starts at an `@` depends on all of the text up to the end of its first body. A
body that does not close holds no chain, so nothing is put into it and it still
does not close.

Key definitions: `Template.Shields`, `Template.shield`.
Key theorems: `Template.shield_of_unclosed`, `Template.not_opensChain_shield`,
`Template.shields_iff`, `Template.gather_of_shields`, `Template.scan_shielded`.
-/
import Concord.Proofs.Template.Cutting
import Concord.Resolution

namespace Concord
namespace Template

/-- A text, and the same with an `@` put before each of its chains. -/
inductive Shields : List Char → List Char → Prop where
  | nil : Shields [] []
  /-- A chain is shielded as a whole, with all its bodies. -/
  | chain {header rest shielded : List Char} {bodies : List (List Char)} :
      Chain header bodies → Ends rest → Shields rest shielded →
      Shields ((Piece.chain header bodies).written ++ rest)
        ('@' :: (Piece.chain header bodies).written ++ shielded)
  /-- A character that opens no chain stays as it is. -/
  | char {c : Char} {rest shielded : List Char} :
      ¬OpensChain (c :: rest) → Shields rest shielded → Shields (c :: rest) (c :: shielded)

/-! ### Where chains start -/

variable {c : Char} {text : List Char}

theorem not_opensChain_of_ne (hc : c ≠ '@') : ¬OpensChain (c :: text) :=
  fun h => hc (opensChain_cons_iff.mp h).1

/-- A text in which no body closes does not start with a chain. -/
theorem not_startsChain_of_unclosed (h : cutFirst '}' text = none) : ¬StartsChain text := by
  rintro ⟨header, bodies, rest, hchain, rfl⟩
  obtain ⟨body, more, rfl⟩ := List.exists_cons_of_ne_nil hchain.ne_nil
  have hheader : Clear '}' header := by
    refine .of_forall fun c hc => ?_
    have hchar := hchain.isHeader c hc
    simp only [isHeaderChar, Bool.and_eq_true, bne_iff_ne] at hchar
    exact ⟨hchar.2, hchar.1.1.1.2⟩
  have hclear : Clear '}' (header ++ '{' :: body) :=
    hheader.append (.plain (by decide) (by decide) (hchain.clear body List.mem_cons_self))
  have hcut : cutFirst '}' ((header ++ '{' :: body) ++ '}' :: ((more.map braced).flatten ++ rest)) =
      some (header ++ '{' :: body, (more.map braced).flatten ++ rest) :=
    cutFirst_of_clear (by decide) hclear
  have htext : chainText header (body :: more) ++ rest =
      (header ++ '{' :: body) ++ '}' :: ((more.map braced).flatten ++ rest) := by
    simp [chainText, braced]
  rw [htext, hcut] at h
  cases h

/-! ### Shielding -/

theorem length_of_readPlain {c : Char} {text rest : List Char} {p : Piece}
    (h : readPlain c text = some (p, rest)) : rest.length < text.length + 1 := by
  obtain ⟨-, -, -, -, -, heq⟩ := readPlain_eq_some_iff.mp h
  have hlength := congrArg List.length heq
  have hpos := List.length_pos_iff.mpr p.written_ne_nil
  simp only [List.length_append, List.length_cons] at hlength
  omega

/-- The text with an `@` before each of its chains, computed. -/
def shield (text : List Char) : List Char :=
  match text with
  | [] => []
  | c :: text =>
    match _h : readPlain c text with
    | some (p, rest) => '@' :: p.written ++ shield rest
    | none => c :: shield text
termination_by text.length
decreasing_by
  · exact length_of_readPlain ‹_›
  · exact Nat.lt_succ_self _

theorem shield_chain {header rest : List Char} {bodies : List (List Char)}
    (hchain : Chain header bodies) (hends : Ends rest) :
    shield ((Piece.chain header bodies).written ++ rest) =
      '@' :: (Piece.chain header bodies).written ++ shield rest := by
  have hread : readPlain '@' (chainText header bodies ++ rest) =
      some (.chain header bodies, rest) :=
    readPlain_eq_some_iff.mpr ⟨header, bodies, rfl, hchain, hends, rfl⟩
  rw [Piece.written, List.cons_append, shield]
  split
  · next p rest' h =>
    rw [hread] at h
    cases h
    rfl
  · next h =>
    rw [hread] at h
    cases h

theorem shield_char (h : ¬OpensChain (c :: text)) : shield (c :: text) = c :: shield text := by
  have hread := readPlain_eq_none_iff.mpr h
  rw [shield]
  split
  · next h' =>
    rw [hread] at h'
    cases h'
  · rfl

/-- A shielded text has a second `@` where the text opens a chain. -/
theorem shield_of_opensChain (h : OpensChain text) : ∃ rest, shield text = '@' :: '@' :: rest := by
  obtain ⟨rest, rfl, hstarts⟩ := h
  cases hr : readChain rest with
  | none => exact absurd hstarts (readChain_eq_none_iff.mp hr)
  | some r =>
    obtain ⟨hchain, hends, rfl⟩ := readChain_eq_some_iff.mp hr
    exact ⟨_, shield_chain hchain hends⟩

/-- Nothing is put into a text in which no body closes. -/
theorem shield_of_unclosed (h : cutFirst '}' text = none) : shield text = text := by
  have hchar : ∀ {c : Char} {rest : List Char}, cutFirst '}' rest = none →
      shield (c :: rest) = c :: shield rest := by
    intro c rest hrest
    refine shield_char fun hopens => ?_
    exact not_startsChain_of_unclosed hrest (opensChain_cons_iff.mp hopens).2
  fun_induction cutFirst '}' text with
  | case1 => rw [shield]
  | case2 => cases h
  | case3 => rw [shield_char (not_opensChain_of_ne (by decide)), shield]
  | case4 d rest hne ih =>
    have hrest := Option.map_eq_none_iff.mp h
    rw [shield_char (not_opensChain_of_ne (by decide)), hchar hrest, ih hrest]
  | case5 c rest hne hb ih =>
    have hrest := Option.map_eq_none_iff.mp h
    rw [hchar hrest, ih hrest]

/-- Where no body can be read, none can be read in the shielded text. -/
theorem ends_shield (h : Ends text) : Ends (shield text) := by
  by_cases hopens : OpensChain text
  · obtain ⟨rest, hrest⟩ := shield_of_opensChain hopens
    rw [hrest]
    exact ends_of_head? (by simp)
  · cases text with
    | nil => simpa [shield] using h
    | cons c rest =>
      rw [shield_char hopens]
      by_cases hc : c = '{'
      · -- the body that the brace starts does not close, so nothing is put in behind it
        have hunclosed : cutFirst '}' rest = none := by
          refine Option.eq_none_iff_forall_ne_some.mpr fun p hp => ?_
          obtain ⟨hclear, heq⟩ := (cutFirst_eq_some_iff (by decide)).mp hp
          exact h p.1 p.2 hclear (by rw [hc, heq, braced_append])
        rwa [shield_of_unclosed hunclosed]
      · exact ends_of_head? (by simpa using hc)

/-- Where no chain starts, none starts in the shielded text. -/
theorem not_startsChain_shield (h : ¬StartsChain text) : ¬StartsChain (shield text) := by
  induction text with
  | nil => simpa [shield] using h
  | cons c rest ih =>
    by_cases hopens : OpensChain (c :: rest)
    · obtain ⟨more, hmore⟩ := shield_of_opensChain hopens
      rw [hmore]
      exact not_startsChain_at
    · -- through a header the question moves on; where the header ends, a body is missing
      by_cases hc : isHeaderChar c = true
      · rw [startsChain_cons_of_header hc] at h
        rw [shield_char hopens, startsChain_cons_of_header hc]
        exact ih h
      · have hc := Bool.eq_false_iff.mpr hc
        rw [startsChain_cons_of_not_header hc, not_not] at h
        have hends := ends_shield h
        rw [shield_char hopens] at hends ⊢
        rwa [startsChain_cons_of_not_header hc, not_not]

/-- A shielded text does not open a chain. -/
theorem not_opensChain_shield (text : List Char) : ¬OpensChain (shield text) := by
  by_cases hopens : OpensChain text
  · obtain ⟨rest, hrest⟩ := shield_of_opensChain hopens
    rw [hrest, opensChain_cons_iff]
    exact fun h => not_startsChain_at h.2
  · cases text with
    | nil => simpa [shield] using hopens
    | cons c rest =>
      rw [shield_char hopens]
      rw [opensChain_cons_iff, not_and] at hopens ⊢
      exact fun hc => not_startsChain_shield (hopens hc)

/-- A text is shielded in one way. -/
theorem shields_iff {shielded : List Char} : Shields text shielded ↔ shielded = shield text := by
  constructor
  · intro h
    induction h with
    | nil => rw [shield]
    | chain hchain hends _ ih => rw [shield_chain hchain hends, ih]
    | char hopens _ ih => rw [shield_char hopens, ih]
  · rintro rfl
    fun_induction shield text with
    | case1 => exact .nil
    | case2 c text p rest h ih =>
      obtain ⟨header, bodies, rfl, hchain, hends, heq⟩ := readPlain_eq_some_iff.mp h
      rw [heq]
      exact .chain hchain hends ih
    | case3 c text h ih => exact .char (readPlain_eq_none_iff.mp h) ih

/-! ### Scanning -/

/-- What is gathered from a shielded text is the text itself, and no segments behind it. -/
theorem gather_of_shields {shielded : List Char} (h : Shields text shielded) :
    gather (pieces shielded) = (text, []) := by
  induction h with
  | nil => rw [pieces, gather]
  | @chain header rest shielded bodies hchain hends hrest ih =>
    have hends' : Ends shielded := shields_iff.mp hrest ▸ ends_shield hends
    have hcut : CutsOff ('@' :: (Piece.chain header bodies).written ++ shielded)
        (.escaped '@' header bodies) shielded :=
      .escaped (.inl rfl) hchain hends' rfl
    rw [← cut_iff.mp (.cons hcut (cut_iff.mpr rfl)), gather, ih]
    rfl
  | @char c rest shielded hopens hrest ih =>
    have hshielded : c :: shielded = shield (c :: rest) := by
      rw [shield_char hopens, shields_iff.mp hrest]
    have hcut : CutsOff (c :: shielded) (.char c) shielded := by
      refine .char ?_ (hshielded ▸ not_opensChain_shield _) rfl
      rw [opensEscaped_cons_iff, shields_iff.mp hrest]
      exact fun h => not_opensChain_shield rest h.2
    rw [← cut_iff.mp (.cons hcut (cut_iff.mpr rfl)), gather, ih]

/-! ### Main statement -/

/-- **Every text can be a literal.** A text is shielded in one way. What is scanned from the shielded
text has no blocks, and its only segment, if there is one, is the text; so in every call the template
comes to the text, and no callable is asked. -/
theorem scan_shielded (text : String) :
    ∃ shielded : String,
      (∀ other : String, Shields text.toList other.toList ↔ other = shielded) ∧
      (scan shielded).segments = (if text = "" then [] else [.literal text]) ∧
      ∀ (call : Call) (memo : Memo),
        (call.template (scan shielded)).run memo = (.ok text, memo) := by
  have hscan : (scan (String.ofList (shield text.toList))).segments =
      if text = "" then [] else [.literal text] := by
    have hgather : gather (pieces (shield text.toList)) = (text.toList, []) :=
      gather_of_shields (shields_iff.mpr rfl)
    simp [scan, hgather, literalBefore]
  refine ⟨String.ofList (shield text.toList), fun other => ?_, hscan, fun call memo => ?_⟩
  · rw [shields_iff, ← String.toList_inj, String.toList_ofList]
  · rw [Call.template, hscan]
    by_cases hempty : text = ""
    · rw [if_pos hempty, hempty]
      rfl
    · rw [if_neg hempty]
      show (Except.ok (text ++ ""), memo) = _
      rw [String.append_empty]

/-- An escaped chain is shielded once more, and what looks like a chain but does not close is left. -/
example : shield "@@a\x7b~\x7d @\x7b@b\x7b".toList = "@@@a\x7b~\x7d @\x7b@b\x7b".toList := by
  decide +kernel

end Template
end Concord

/-
# Coding configurations

A written configuration does not say which of its entries are token tables: what
reads as one is one, and any other value is kept. So reading undoes writing only as
long as no value is kept that would read as a token table. This is so for all that
was read, provided that no key is repeated and every number is finite, and no
editing spoils it: setting a name makes a token table, and a merge takes each entry
from one of its sides or joins two token tables.

Key definitions: `Json.IsTokenTable`, `Config.Entry.Holds`, `Config.Recodable`, `Config.Reachable`.
Key theorems: `Config.Entry.encode_decode`, `Config.decode?_encode_iff`, `Config.Recodable.merge`,
`Config.Reachable.recodable`, `Config.coding_kept`.
-/
import Concord.Config.Coding
import Concord.Proofs.Json.Canonical

namespace Concord

/-! ### Token tables -/

namespace Json

/-- A value that a token table has under a name. -/
inductive IsTokenValue : Json → Prop where
  | null : IsTokenValue .null
  | string (text : String) : IsTokenValue (.string text)

/-- A value that reads as a token table: an object of only strings and nulls. -/
inductive IsTokenTable : Json → Prop where
  | object {fields : List (String × Json)} :
      (∀ f ∈ fields, f.2.IsTokenValue) → IsTokenTable (.object fields)

variable {v : Json} {fields : List (String × Json)}

theorem isTokenValue_iff : v.IsTokenValue ↔ ∃ value, v = ofOption value := by
  constructor
  · rintro (_ | text)
    · exact ⟨none, rfl⟩
    · exact ⟨some text, rfl⟩
  · rintro ⟨_ | text, rfl⟩
    · exact .null
    · exact .string text

theorem ofOption_injective {a b : Option String} (h : ofOption a = ofOption b) : a = b := by
  cases a <;> cases b <;> simp_all [ofOption]

theorem isTokenTable_object_iff :
    (Json.object fields).IsTokenTable ↔ ∀ f ∈ fields, f.2.IsTokenValue :=
  ⟨fun | .object h => h, .object⟩

/-- The fields of a token table are the written forms of its names and values. -/
theorem isTokenTable_iff :
    v.IsTokenTable ↔
      ∃ values : List (String × Option String), v = .object (values.map fun f => (f.1, ofOption f.2)) := by
  constructor
  · rintro @⟨fields, h⟩
    induction fields with
    | nil => exact ⟨[], rfl⟩
    | cons f fields ih =>
      obtain ⟨hfirst, hrest⟩ := List.forall_mem_cons.mp h
      obtain ⟨value, hvalue⟩ := isTokenValue_iff.mp hfirst
      obtain ⟨values, hvalues⟩ := ih hrest
      refine ⟨(f.1, value) :: values, ?_⟩
      rw [List.map_cons, ← Json.object.inj hvalues, ← hvalue]
  · rintro ⟨values, rfl⟩
    refine .object fun f hf => ?_
    obtain ⟨f', -, rfl⟩ := List.mem_map.mp hf
    exact isTokenValue_iff.mpr ⟨f'.2, rfl⟩

theorem canonical_ofOption (value : Option String) : (ofOption value).canonical = ofOption value := by
  cases value <;> rfl

/-- Only a number that is not finite has the canonical form of a token's value without being one. -/
theorem isTokenValue_canonical_iff (h : v.IsProper) : v.canonical.IsTokenValue ↔ v.IsTokenValue := by
  cases h with
  | null => exact Iff.rfl
  | bool b => exact Iff.rfl
  | string text => exact Iff.rfl
  | number hn => simp only [canonical, hn, if_true]
  | array _ =>
    rw [canonical_array]
    exact iff_of_false (by rintro ⟨⟩) (by rintro ⟨⟩)
  | object _ _ =>
    rw [canonical_object]
    exact iff_of_false (by rintro ⟨⟩) (by rintro ⟨⟩)

/-- The canonical form of a value reads as a token table if the value does. -/
theorem isTokenTable_canonical_iff (h : v.IsProper) : v.canonical.IsTokenTable ↔ v.IsTokenTable := by
  cases h with
  | null => exact Iff.rfl
  | bool b => exact Iff.rfl
  | string text => exact Iff.rfl
  | number hn => simp only [canonical, hn, if_true]
  | array _ =>
    rw [canonical_array]
    exact iff_of_false (by rintro ⟨⟩) (by rintro ⟨⟩)
  | @object members hkeys hvalues =>
    rw [canonical_object, isTokenTable_object_iff, isTokenTable_object_iff]
    constructor
    · intro hcanonical m hm
      have hmem := (mem_canonical_iff hkeys).mpr ⟨m.2, hm, rfl⟩
      exact (isTokenValue_canonical_iff (hvalues m hm)).mp (hcanonical _ hmem)
    · rintro htable ⟨key, value⟩ hmem
      obtain ⟨v, hv, rfl⟩ := (mem_canonical_iff hkeys).mp hmem
      exact (isTokenValue_canonical_iff (hvalues _ hv)).mpr (htable _ hv)

end Json

namespace Config

open Json

variable {c d : Config} {v : Json} {members : List (String × Json)} {kind token : String}
  {value : Option String}

/-! ### Entries -/

theorem tokenValue?_eq_some_iff : tokenValue? v = some value ↔ v = ofOption value := by
  cases v <;> cases value <;> simp [tokenValue?, ofOption]

theorem tokenValues?_eq_some_iff {values : List (String × Option String)} :
    tokenValues? members = some values ↔ members = values.map fun f => (f.1, ofOption f.2) := by
  induction members generalizing values with
  | nil => cases values <;> simp [tokenValues?]
  | cons m members ih =>
    obtain ⟨name, v⟩ := m
    constructor
    · intro h
      simp only [tokenValues?] at h
      split at h
      · next value rest hvalue hrest =>
        obtain rfl := Option.some.inj h
        rw [List.map_cons, ← ih.mp hrest, ← tokenValue?_eq_some_iff.mp hvalue]
      · cases h
    · intro h
      cases values with
      | nil => cases h
      | cons f values =>
        obtain ⟨hfirst, hrest⟩ := List.cons.inj h
        obtain ⟨rfl, hvalue⟩ := Prod.mk.inj hfirst
        simp only [tokenValues?, tokenValue?_eq_some_iff.mpr hvalue, ih.mpr hrest]

namespace Entry

/-- An object of only strings and nulls reads as a token table. -/
theorem decode_fields (values : List (String × Option String)) :
    decode (.object (values.map fun f => (f.1, ofOption f.2))) = .tokens (Table.ofList values) := by
  simp only [decode, tokenValues?_eq_some_iff.mpr rfl]

/-- Any other value is kept. -/
theorem decode_of_not (h : ¬v.IsTokenTable) : decode v = .invalid v.canonical := by
  unfold decode
  split
  · next members =>
    split
    · next values hvalues =>
      exact absurd (isTokenTable_iff.mpr ⟨values, congrArg _ (tokenValues?_eq_some_iff.mp hvalues)⟩) h
    · rfl
  · rfl

/-- Writing what was read gives the canonical form of the value. -/
theorem encode_decode (v : Json) : (decode v).encode = v.canonical := by
  by_cases h : v.IsTokenTable
  · obtain ⟨values, rfl⟩ := isTokenTable_iff.mp h
    have hwritten : (Table.ofList (values.map fun f => (f.1, ofOption f.2))).map canonical =
        (Table.ofList values).map ofOption := by
      rw [← Table.map_ofList, Table.map_map]
      exact Table.map_congr fun e _ => canonical_ofOption e.2
    rw [decode_fields, canonical_object, hwritten]
    rfl
  · rw [decode_of_not h]
    rfl

/-- An entry holds what a value says: a token table holds the fields of an object of only strings and
nulls, and as data any other value is held, whatever the order of members in it. -/
inductive Holds : Entry → Json → Prop where
  | tokens {table : Table (Option String)} {fields : List (String × Json)} :
      (∀ f ∈ fields, f.2.IsTokenValue) →
      (∀ name value, table.get? name = some value ↔ (name, ofOption value) ∈ fields) →
      Holds (.tokens table) (.object fields)
  | invalid {value data : Json} : ¬value.IsTokenTable → value.Alike data → Holds (.invalid data) value

theorem holds_decode (h : v.IsProper) : (decode v).Holds v := by
  by_cases htable : v.IsTokenTable
  · obtain ⟨values, rfl⟩ := isTokenTable_iff.mp htable
    cases h with
    | object hkeys _ =>
      have hnames : (values.map (·.1)).Nodup := by simpa [Function.comp_def] using hkeys
      rw [decode_fields]
      refine .tokens (isTokenTable_object_iff.mp htable) fun name value => ?_
      rw [← Table.mem_entries_iff, Table.mem_entries_ofList_iff hnames, List.mem_map]
      constructor
      · exact fun hm => ⟨(name, value), hm, rfl⟩
      · rintro ⟨⟨name', value'⟩, hm, heq⟩
        obtain ⟨rfl, hvalue⟩ := Prod.mk.inj heq
        exact ofOption_injective hvalue ▸ hm
  · rw [decode_of_not htable]
    exact .invalid htable (alike_canonical h)

/-- An entry that is read back from what is written for it: no data that reads as a token table, nor
data that is not in canonical form. -/
def Recodable : Entry → Prop
  | .tokens _ => True
  | .invalid data => data.canonical = data ∧ ¬data.IsTokenTable

theorem decode_encode_iff {e : Entry} : decode e.encode = e ↔ e.Recodable := by
  cases e with
  | tokens table =>
    have h := decode_fields table.entries
    rw [Table.ofList_entries] at h
    exact iff_of_true h trivial
  | invalid data =>
    show decode data = .invalid data ↔ _
    by_cases h : data.IsTokenTable
    · obtain ⟨values, rfl⟩ := isTokenTable_iff.mp h
      rw [decode_fields]
      exact iff_of_false nofun fun hrecodable => hrecodable.2 h
    · rw [decode_of_not h, Entry.invalid.injEq]
      exact (and_iff_left h).symm

theorem recodable_decode (h : v.IsProper) : (decode v).Recodable := by
  by_cases htable : v.IsTokenTable
  · obtain ⟨values, rfl⟩ := isTokenTable_iff.mp htable
    rw [decode_fields]
    trivial
  · rw [decode_of_not htable]
    exact ⟨canonical_canonical v, fun hcanonical => htable ((isTokenTable_canonical_iff h).mp hcanonical)⟩

/-- In the place of an older entry stands the new one, or a token table. -/
theorem Recodable.replacing {new : Entry} (h : new.Recodable) (old : Option Entry) :
    (replacing old new).Recodable := by
  unfold Entry.replacing
  split
  · trivial
  · exact h

end Entry

/-! ### Configurations -/

/-- A configuration is written as it was read, its members in order. -/
theorem encode_ofMembers (members : List (String × Json)) :
    (ofMembers members).encode = (Json.object members).canonical := by
  have hwritten : (ofMembers members).kinds.map Entry.encode = (Table.ofList members).map canonical := by
    rw [ofMembers, ← Table.map_ofList, Table.map_map]
    exact Table.map_congr fun e _ => Entry.encode_decode e.2
  rw [canonical_object, ← hwritten]
  rfl

/-- All entries are read back from what is written for them. -/
def Recodable (c : Config) : Prop := ∀ kind entry, c.kinds.get? kind = some entry → entry.Recodable

/-- A configuration is read back from what is written for it just when each entry is. -/
theorem decode?_encode_iff : decode? c.encode = some c ↔ c.Recodable := by
  have hread : decode? c.encode = some ⟨c.kinds.map fun e => Entry.decode e.encode⟩ := by
    have htable : Table.ofList (c.kinds.entries.map fun e => (e.1, e.2.encode)) = c.kinds.map Entry.encode :=
      Table.ofList_entries (c.kinds.map Entry.encode)
    rw [encode, decode?, ofMembers, ← Table.map_ofList, htable, Table.map_map]
  rw [hread, Option.some_inj]
  constructor
  · intro h kind entry hentry
    have hget := congrArg (fun c : Config => c.kinds.get? kind) h
    simp only [Table.get?_map, hentry, Option.map_some, Option.some_inj] at hget
    exact Entry.decode_encode_iff.mp hget
  · intro h
    refine congrArg Config.mk (Table.ext_get? fun kind => ?_)
    rw [Table.get?_map]
    cases hentry : c.kinds.get? kind with
    | none => rfl
    | some entry => exact congrArg some (Entry.decode_encode_iff.mpr (h kind entry hentry))

/-! ### Editing -/

theorem recodable_empty : Config.empty.Recodable := fun _ _ h => nomatch h

theorem recodable_ofMembers (h : (Json.object members).IsProper) : (ofMembers members).Recodable := by
  intro kind entry hentry
  obtain ⟨m, hm, heq⟩ := List.mem_map.mp (Table.mem_of_get?_ofList hentry)
  obtain ⟨rfl, rfl⟩ := Prod.mk.inj heq
  exact Entry.recodable_decode ((isProper_object_iff.mp h).2 m hm)

/-- Setting an entry that is read back leaves all that are. -/
theorem Recodable.insert {entry : Entry} (h : c.Recodable) (hentry : entry.Recodable) :
    Recodable ⟨c.kinds.insert kind entry⟩ := by
  intro other e he
  simp only [Table.get?_insert] at he
  split at he
  · exact Option.some.inj he ▸ hentry
  · exact h other e he

theorem Recodable.insertToken (h : c.Recodable) : (c.insertToken kind token value).Recodable :=
  h.insert trivial

theorem Recodable.removeToken (h : c.Recodable) : (c.removeToken kind token).Recodable := by
  unfold Config.removeToken
  split
  · exact h.insert trivial
  · exact h

theorem Recodable.removeKind (h : c.Recodable) : (c.removeKind kind).Recodable := by
  intro other e he
  simp only [Config.removeKind, Table.get?_erase] at he
  split at he
  · cases he
  · exact h other e he

theorem Recodable.merge (hc : c.Recodable) (hd : d.Recodable) : (c.merge d).Recodable := by
  intro kind entry hentry
  rw [get?_merge, Option.or_eq_some_iff] at hentry
  rcases hentry with hnew | ⟨-, hold⟩
  · obtain ⟨new, hread, rfl⟩ := Option.map_eq_some_iff.mp hnew
    exact (hd kind new hread).replacing _
  · exact hc kind entry hold

/-- What editing makes of the configuration without kinds: values are set, names and kinds removed, and
configurations that were read are merged into it. -/
inductive Reachable : Config → Prop where
  | empty : Reachable .empty
  | insertToken {c : Config} (kind token : String) (value : Option String) :
      Reachable c → Reachable (c.insertToken kind token value)
  | removeToken {c : Config} (kind token : String) :
      Reachable c → Reachable (c.removeToken kind token)
  | removeKind {c : Config} (kind : String) : Reachable c → Reachable (c.removeKind kind)
  | merge {c d : Config} {members : List (String × Json)} :
      Reachable c → (Json.object members).IsProper → decode? (.object members) = some d →
      Reachable (c.merge d)

theorem Reachable.recodable (h : Reachable c) : c.Recodable := by
  induction h with
  | empty => exact recodable_empty
  | insertToken kind token value _ ih => exact ih.insertToken
  | removeToken kind token _ ih => exact ih.removeToken
  | removeKind kind _ ih => exact ih.removeKind
  | merge _ hproper hread ih =>
    obtain rfl := Option.some.inj hread
    exact ih.merge (recodable_ofMembers hproper)

/-! ### Main statement -/

/-- **Coding.** An object without repeated keys reads as a configuration with an entry for each of its
keys: a token table that holds the value where the value is an object of only strings and nulls, and
else the value as data. What is written for the configuration is the object again, but for the order
of members. And whatever editing makes of such configurations, starting without kinds, is read back
from what is written for it. -/
theorem coding_kept :
    (∀ members, (Json.object members).IsProper →
      ∃ c, decode? (.object members) = some c ∧
        (∀ key entry, c.kinds.get? key = some entry →
          ∃ value, (key, value) ∈ members ∧ entry.Holds value) ∧
        (∀ key value, (key, value) ∈ members →
          ∃ entry, c.kinds.get? key = some entry ∧ entry.Holds value) ∧
        (Json.object members).Alike c.encode) ∧
    ∀ c : Config, c.Reachable → decode? c.encode = some c := by
  refine ⟨fun members h => ⟨ofMembers members, rfl, ?_⟩, fun c h => decode?_encode_iff.mpr h.recodable⟩
  obtain ⟨hkeys, hvalues⟩ := isProper_object_iff.mp h
  have hentries : ∀ key entry, (ofMembers members).kinds.get? key = some entry ↔
      ∃ value, (key, value) ∈ members ∧ Entry.decode value = entry := by
    intro key entry
    rw [ofMembers, ← Table.map_ofList, Table.get?_map, Option.map_eq_some_iff]
    simp only [← Table.mem_entries_iff, Table.mem_entries_ofList_iff hkeys]
  refine ⟨fun key entry hentry => ?_, fun key value hmem => ?_, ?_⟩
  · obtain ⟨value, hmem, rfl⟩ := (hentries key entry).mp hentry
    exact ⟨value, hmem, Entry.holds_decode (hvalues _ hmem)⟩
  · exact ⟨_, (hentries key _).mpr ⟨value, hmem, rfl⟩, Entry.holds_decode (hvalues _ hmem)⟩
  · rw [encode_ofMembers]
    exact alike_canonical h

/-- A token table, and two values that are none. -/
def sampleMembers : List (String × Json) :=
  [("tense", .object [("past", .string "past"), ("now", .null)]),
    ("gender", .object [("m", .string "male"), ("f", .number (.integer 3))]),
    ("@aspect", .array [.object [("b", .bool true), ("a", .null)]])]

/-- What is left of them when a name is set, a name removed, and a kind removed. -/
def sampleEdited : Config :=
  (((Config.empty.merge (ofMembers sampleMembers)).insertToken "gender" "m" (some "male")).removeToken
    "tense" "now").removeKind "@aspect"

theorem coding_sample :
    (Json.object sampleMembers).IsProper ∧
      (∃ c, decode? (.object sampleMembers) = some c ∧
        (∃ entry, c.kinds.get? "gender" = some entry ∧
          entry.Holds (.object [("m", .string "male"), ("f", .number (.integer 3))])) ∧
        (Json.object sampleMembers).Alike c.encode) ∧
      sampleEdited.Reachable ∧ decode? sampleEdited.encode = some sampleEdited := by
  have hnumber : (Json.number (.integer 3)).IsProper := .number rfl
  have hproper : (Json.object sampleMembers).IsProper := by
    simp [sampleMembers, isProper_object_iff, isProper_array_iff, IsProper.null, IsProper.bool,
      IsProper.string, hnumber]
  have hreachable : sampleEdited.Reachable :=
    .removeKind _ (.removeToken _ _ (.insertToken _ _ _ (.merge .empty hproper rfl)))
  obtain ⟨hread, hedited⟩ := coding_kept
  obtain ⟨c, hc, -, hholds, halike⟩ := hread sampleMembers hproper
  exact ⟨hproper, ⟨c, hc, hholds "gender" _ (by simp [sampleMembers]), halike⟩, hreachable,
    hedited sampleEdited hreachable⟩

/-- Where a key is repeated an object may be kept as data that reads as a token table later. -/
example :
    let kept := Entry.decode (.object [("m", .bool true), ("m", .string "male")])
    kept = .invalid (.object [("m", .string "male")]) ∧
      Entry.decode kept.encode = .tokens (.ofList [("m", some "male")]) := ⟨rfl, rfl⟩

end Config
end Concord

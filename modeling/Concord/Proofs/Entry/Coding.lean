/-
# Coding entries

An entry is written without saying what it is, so reading goes by the shape of the
value: it tries texts first, then lists, then maps, and takes for other data what
is none of these, on every level. A value that was read is written as it was. An
entry that was written is read back plain: a symbol comes back as a text, other
data as the entry that it reads as, and the rest as it was. Nothing that was read
changes when it is written and read once more.

Key definitions: `Entry.Plain`, `Entry.Ordered`, `Entry.plain`, `Entry.attempts`.
Key theorems: `Entry.first_attempt_iff`, `Entry.plain_decode`, `Entry.encode_decode`,
`Entry.decode_encode`, `Entry.entries_recoded`.
-/
import Concord.Entry
import Concord.Proofs.Json.Canonical

namespace Concord
namespace Entry

/-! ### Plain entries -/

/-- An entry as it is read: without symbols, with increasing keys in its maps, and with no other data
than null, truth values and numbers. -/
inductive Plain : Entry → Prop where
  | text (content : String) : Plain (.text content)
  | list {items : List Entry} : (∀ item ∈ items, Plain item) → Plain (.list items)
  | map {fields : List (String × Entry)} :
      (fields.Pairwise fun a b => a.1 < b.1) → (∀ f ∈ fields, Plain f.2) → Plain (.map fields)
  | null : Plain (.other .null)
  | bool (b : Bool) : Plain (.other (.bool b))
  | number (n : Json.Number) : Plain (.other (.number n))

/-- The keys of every map in an entry increase. -/
inductive Ordered : Entry → Prop where
  | text (content : String) : Ordered (.text content)
  | symbol (name : String) : Ordered (.symbol name)
  | list {items : List Entry} : (∀ item ∈ items, Ordered item) → Ordered (.list items)
  | map {fields : List (String × Entry)} :
      (fields.Pairwise fun a b => a.1 < b.1) → (∀ f ∈ fields, Ordered f.2) → Ordered (.map fields)
  | other (data : Json) : Ordered (.other data)

mutual

/-- An entry with its symbols as texts, and in the place of other data the entry that it reads as. -/
def plain : Entry → Entry
  | .text content | .symbol content => .text content
  | .list items => .list (plainItems items)
  | .map fields => .map (plainFields fields)
  | .other data => decode data

/-- The items of a list, each made plain. -/
def plainItems : List Entry → List Entry
  | [] => []
  | item :: rest => plain item :: plainItems rest

/-- The fields of a map, each made plain. -/
def plainFields : List (String × Entry) → List (String × Entry)
  | [] => []
  | (key, entry) :: rest => (key, plain entry) :: plainFields rest

end

/-- What each shape of entry makes of a value, in the order in which they are tried, if items and
members are read in some way. A symbol is never tried. -/
def attempts (read : Json → Entry) (v : Json) : List (Option Entry) :=
  [match v with | .string content => some (.text content) | _ => none,
    match v with | .array items => some (.list (items.map read)) | _ => none,
    match v with
      | .object members => some (.map ((Table.ofList members).map read).entries)
      | _ => none,
    some (.other v)]

variable {e : Entry} {v : Json}

/-! ### Lists of items and fields -/

theorem decodeItems_eq (items : List Json) : decodeItems items = items.map decode :=
  eq_map_of_cons rfl (fun _ _ => rfl) items

theorem decodeMembers_eq (members : List (String × Json)) :
    decodeMembers members = members.map fun m => (m.1, decode m.2) :=
  eq_map_of_cons rfl (fun _ _ => rfl) members

theorem encodeItems_eq (items : List Entry) : encodeItems items = items.map encode :=
  eq_map_of_cons rfl (fun _ _ => rfl) items

theorem encodeFields_eq (fields : List (String × Entry)) :
    encodeFields fields = fields.map fun f => (f.1, encode f.2) :=
  eq_map_of_cons rfl (fun _ _ => rfl) fields

theorem plainItems_eq (items : List Entry) : plainItems items = items.map plain :=
  eq_map_of_cons rfl (fun _ _ => rfl) items

theorem plainFields_eq (fields : List (String × Entry)) :
    plainFields fields = fields.map fun f => (f.1, plain f.2) :=
  eq_map_of_cons rfl (fun _ _ => rfl) fields

theorem decode_array (items : List Json) : decode (.array items) = .list (items.map decode) := by
  rw [decode, decodeItems_eq]

theorem decode_object (members : List (String × Json)) :
    decode (.object members) = .map ((Table.ofList members).map decode).entries := by
  rw [decode, decodeMembers_eq, Table.map_ofList]

theorem encode_list (items : List Entry) : (Entry.list items).encode = .array (items.map encode) := by
  rw [encode, encodeItems_eq]

theorem encode_map (fields : List (String × Entry)) :
    (Entry.map fields).encode = .object (fields.map fun f => (f.1, encode f.2)) := by
  rw [encode, encodeFields_eq]

/-! ### Reading -/

/-- Reading is the only way to take, on every level, the first shape that fits. -/
theorem first_attempt_iff {read : Json → Entry} :
    (∀ v, (attempts read v).findSome? id = some (read v)) ↔ read = decode := by
  constructor
  · intro h
    funext v
    induction v using Json.induct with
    | null => exact (Option.some.inj (h .null)).symm
    | bool b => exact (Option.some.inj (h (.bool b))).symm
    | number n => exact (Option.some.inj (h (.number n))).symm
    | string content => exact (Option.some.inj (h (.string content))).symm
    | array items ih =>
      have hfirst : read (.array items) = .list (items.map read) :=
        (Option.some.inj (h (.array items))).symm
      rw [hfirst, decode_array]
      exact congrArg Entry.list (List.map_congr_left ih)
    | object members ih =>
      have hfirst : read (.object members) = .map ((Table.ofList members).map read).entries :=
        (Option.some.inj (h (.object members))).symm
      rw [hfirst, decode_object, Table.map_ofList_congr ih]
  · rintro rfl v
    cases v with
    | array items => rw [decode_array]; rfl
    | object members => rw [decode_object]; rfl
    | null => rfl
    | bool b => rfl
    | number n => rfl
    | string content => rfl

/-- What is read is plain. -/
theorem plain_decode (v : Json) : (decode v).Plain := by
  induction v using Json.induct with
  | null => exact .null
  | bool b => exact .bool b
  | number n => exact .number n
  | string content => exact .text content
  | array items ih =>
    rw [decode_array]
    exact .list (List.forall_mem_map.mpr ih)
  | object members ih =>
    rw [decode_object]
    refine .map (Table.ordered _) fun f hf => ?_
    have hget : ((Table.ofList members).map decode).get? f.1 = some f.2 := Table.mem_entries_iff.mp hf
    rw [Table.get?_map, Option.map_eq_some_iff] at hget
    obtain ⟨v, hv, hdecode⟩ := hget
    rw [← hdecode]
    exact ih (f.1, v) (Table.mem_of_get?_ofList hv)

/-- Writing what was read gives the canonical form of the value. -/
theorem encode_decode (h : v.IsProper) : (decode v).encode = v.canonical := by
  induction h with
  | null => rfl
  | bool b => rfl
  | string text => rfl
  | number hn => simp [decode, encode, Json.canonical, hn]
  | array _ ih =>
    rw [decode_array, encode_list, Json.canonical_array, List.map_map]
    exact congrArg Json.array (List.map_congr_left ih)
  | @object members _ _ ih =>
    have htable : ((Table.ofList members).map decode).map encode = (Table.ofList members).map .canonical := by
      rw [Table.map_map, Table.map_ofList_congr ih]
    rw [decode_object, encode_map, Json.canonical_object, ← htable]
    rfl

/-! ### Reading what was written -/

/-- What was written is read back plain. -/
theorem decode_encode (h : e.Ordered) : decode e.encode = e.plain := by
  induction h with
  | text content => rfl
  | symbol name => rfl
  | other data => rfl
  | list _ ih =>
    rw [encode_list, decode_array, plain, plainItems_eq, List.map_map]
    exact congrArg Entry.list (List.map_congr_left ih)
  | @map fields hordered _ ih =>
    -- The fields are a table, as their keys increase.
    have htable : (Table.ofList (fields.map fun f => (f.1, encode f.2))).map decode =
        (Table.mk fields hordered).map plain := by
      show (Table.ofList ((Table.mk fields hordered).map encode).entries).map decode = _
      rw [Table.ofList_entries, Table.map_map, Table.map_congr ih]
    rw [encode_map, decode_object, htable, plain, plainFields_eq]
    rfl

theorem Plain.ordered (h : e.Plain) : e.Ordered := by
  induction h with
  | text content => exact .text content
  | list _ ih => exact .list ih
  | map hordered _ ih => exact .map hordered ih
  | null => exact .other _
  | bool b => exact .other _
  | number n => exact .other _

/-- A plain entry is plain as it is. -/
theorem Plain.plain_eq (h : e.Plain) : e.plain = e := by
  induction h with
  | text content => rfl
  | null => rfl
  | bool b => rfl
  | number n => rfl
  | list _ ih =>
    rw [plain, plainItems_eq]
    exact congrArg Entry.list ((List.map_congr_left ih).trans (List.map_id _))
  | @map fields _ _ ih =>
    have hvalues : (fields.map fun f => (f.1, f.2.plain)) = fields.map id :=
      List.map_congr_left fun f hf => by rw [ih f hf]; rfl
    rw [plain, plainFields_eq, hvalues, List.map_id]

/-! ### Main statement -/

/-- **Coding.** Reading takes on every level the first shape that fits: a text, a list, a map, or else
other data. So an entry that was read has no symbol, and no text, list or map as other data, and what
is written for it is the value that was read, but for the order of members. An entry that was written
is read with its symbols as texts, the other data in it as the entries that these read as, and nothing
else changed; so what is read does not change when it is written and read once more. -/
theorem entries_recoded :
    (∀ v, (attempts decode v).findSome? id = some (decode v) ∧ (decode v).Plain ∧
      (v.IsProper → v.Alike (decode v).encode)) ∧
    (∀ e : Entry, e.Ordered → decode e.encode = e.plain) ∧
    ∀ e : Entry, decode (decode e.encode).encode = decode e.encode := by
  refine ⟨fun v => ⟨first_attempt_iff.mpr rfl v, plain_decode v, fun h => ?_⟩,
    fun e => decode_encode, fun e => ?_⟩
  · rw [encode_decode h]
    exact Json.alike_canonical h
  · have hplain := plain_decode e.encode
    rw [decode_encode hplain.ordered, hplain.plain_eq]

/-- A value with members out of order. -/
def sampleValue : Json :=
  .object [("title", .string "Sir"), ("lines", .array [.null, .object [("b", .bool true), ("a", .null)]])]

/-- An entry with a symbol, and with a value as other data that does not read as such. -/
def sampleMixed : Entry :=
  .map [("greeting", .list [.symbol "hello", .other (.number (.integer 2))]), ("rest", .other sampleValue)]

theorem recoded_sample :
    (sampleValue.IsProper ∧ sampleValue.Alike (decode sampleValue).encode) ∧
      sampleMixed.Ordered ∧
      decode sampleMixed.encode =
        .map [("greeting", .list [.text "hello", .other (.number (.integer 2))]),
          ("rest", .map [
            ("lines", .list [.other .null, .map [("a", .other .null), ("b", .other (.bool true))]]),
            ("title", .text "Sir")])] := by
  have hproper : sampleValue.IsProper := by
    simp [sampleValue, Json.isProper_object_iff, Json.isProper_array_iff, Json.IsProper.null,
      Json.IsProper.bool, Json.IsProper.string]
  have hlist : (Entry.list [.symbol "hello", .other (.number (.integer 2))]).Ordered :=
    .list (by simp [Ordered.symbol, Ordered.other])
  have hordered : sampleMixed.Ordered := .map (by decide) (by simp [hlist, Ordered.other])
  obtain ⟨hread, hwritten, -⟩ := entries_recoded
  exact ⟨⟨hproper, (hread sampleValue).2.2 hproper⟩, hordered, hwritten sampleMixed hordered⟩

end Entry
end Concord

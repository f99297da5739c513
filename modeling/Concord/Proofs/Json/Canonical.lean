/-
# Values that differ in the order of members

The members of an object have no order, and a value that does not repeat a key is
given by what stands under its keys. The canonical form of a value puts the members
of every object in the order of their keys. It changes nothing else if no key is
repeated and every number is finite, and a canonical form is its own canonical form.

Key definitions: `Json.IsProper`, `Json.Alike`.
Key theorems: `Json.canonical_canonical`, `Json.alike_canonical`.
-/
import Mathlib.Data.List.Nodup
import Concord.Json

namespace Concord

/-! ### Lists, and tables of lists without repeated keys -/

/-- A function that treats the items of a list one by one. -/
theorem eq_map_of_cons {α β : Type} {f : List α → List β} {g : α → β} (hnil : f [] = [])
    (hcons : ∀ a l, f (a :: l) = g a :: f l) (l : List α) : f l = l.map g := by
  induction l with
  | nil => exact hnil
  | cons a l ih => rw [hcons, ih, List.map_cons]

namespace Table

variable {α : Type} {l : List (String × α)} {key : String} {value v w : α}

/-- Of a key that is not repeated a list has one value only. -/
theorem eq_of_nodup_keys (h : (l.map (·.1)).Nodup) (hv : (key, v) ∈ l) (hw : (key, w) ∈ l) : v = w :=
  congrArg Prod.snd (List.inj_on_of_nodup_map h hv hw rfl)

theorem mem_entries_ofList_iff (h : (l.map (·.1)).Nodup) :
    (key, value) ∈ (ofList l).entries ↔ (key, value) ∈ l := by
  rw [mem_entries_iff, get?_ofList_eq_some_iff fun _ _ => eq_of_nodup_keys h]

/-- The table of a list has the entries of the list, in the order of their keys. -/
theorem perm_entries_ofList (h : (l.map (·.1)).Nodup) : (ofList l).entries.Perm l :=
  (List.perm_ext_iff_of_nodup (ofList l).entries_nodup (List.Nodup.of_map _ h)).mpr fun ⟨_, _⟩ =>
    mem_entries_ofList_iff h

end Table

namespace Json

/-! ### Values -/

/-- To show something of all values, show it of an array if it holds of its items, and of an object if
it holds of the values of its members. -/
@[elab_as_elim] theorem induct {motive : Json → Prop} (null : motive .null)
    (bool : ∀ b, motive (.bool b)) (number : ∀ n, motive (.number n))
    (string : ∀ text, motive (.string text))
    (array : ∀ items, (∀ item ∈ items, motive item) → motive (.array items))
    (object : ∀ members, (∀ m ∈ members, motive m.2) → motive (.object members)) (v : Json) :
    motive v :=
  Json.rec (motive_1 := motive) (motive_2 := fun items => ∀ item ∈ items, motive item)
    (motive_3 := fun members => ∀ m ∈ members, motive m.2) (motive_4 := fun m => motive m.2)
    null bool number string array object
    (fun _ h => absurd h List.not_mem_nil)
    (fun _ _ hitem hitems => List.forall_mem_cons.mpr ⟨hitem, hitems⟩)
    (fun _ h => absurd h List.not_mem_nil)
    (fun _ _ hmember hmembers => List.forall_mem_cons.mpr ⟨hmember, hmembers⟩)
    (fun _ _ h => h) v

/-- No object of the value repeats a key, and every number is finite. -/
inductive IsProper : Json → Prop where
  | null : IsProper .null
  | bool (b : Bool) : IsProper (.bool b)
  | number {n : Number} : n.isFinite = true → IsProper (.number n)
  | string (text : String) : IsProper (.string text)
  | array {items : List Json} : (∀ item ∈ items, IsProper item) → IsProper (.array items)
  | object {members : List (String × Json)} :
      (members.map (·.1)).Nodup → (∀ m ∈ members, IsProper m.2) → IsProper (.object members)

/-- Two values are alike if they are the same but for the order of members: arrays have alike items at
the same places, and objects have the same keys with alike values. -/
inductive Alike : Json → Json → Prop where
  | same (v : Json) : Alike v v
  | array {items others : List Json} :
      items.length = others.length →
      (∀ (i : Nat) v w, items[i]? = some v → others[i]? = some w → Alike v w) →
      Alike (.array items) (.array others)
  | object {members others : List (String × Json)} :
      (members.map (·.1)).Perm (others.map (·.1)) →
      (∀ key v w, (key, v) ∈ members → (key, w) ∈ others → Alike v w) →
      Alike (.object members) (.object others)

variable {v : Json} {items : List Json} {members : List (String × Json)}

theorem isProper_array_iff : (Json.array items).IsProper ↔ ∀ item ∈ items, item.IsProper :=
  ⟨fun | .array h => h, .array⟩

theorem isProper_object_iff :
    (Json.object members).IsProper ↔ (members.map (·.1)).Nodup ∧ ∀ m ∈ members, m.2.IsProper :=
  ⟨fun | .object hkeys hvalues => ⟨hkeys, hvalues⟩, fun ⟨hkeys, hvalues⟩ => .object hkeys hvalues⟩

/-! ### Canonical forms -/

theorem canonicalItems_eq (items : List Json) : canonicalItems items = items.map canonical :=
  eq_map_of_cons rfl (fun _ _ => rfl) items

theorem canonicalMembers_eq (members : List (String × Json)) :
    canonicalMembers members = members.map fun m => (m.1, m.2.canonical) :=
  eq_map_of_cons rfl (fun _ _ => rfl) members

theorem canonical_array (items : List Json) :
    (Json.array items).canonical = .array (items.map canonical) := by
  rw [canonical, canonicalItems_eq]

theorem canonical_object (members : List (String × Json)) :
    (Json.object members).canonical = .object ((Table.ofList members).map canonical).entries := by
  rw [canonical, canonicalMembers_eq, Table.map_ofList]

/-- A canonical form is its own canonical form. -/
theorem canonical_canonical (v : Json) : v.canonical.canonical = v.canonical := by
  induction v using induct with
  | null => rfl
  | bool b => rfl
  | string text => rfl
  | number n => by_cases h : n.isFinite = true <;> simp [canonical, h]
  | array items ih =>
    rw [canonical_array, canonical_array, List.map_map]
    exact congrArg Json.array (List.map_congr_left ih)
  | object members ih =>
    rw [canonical_object, canonical_object, Table.ofList_entries, Table.map_map]
    exact congrArg (fun t : Table Json => Json.object t.entries) (Table.map_ofList_congr ih)

/-- The members of the canonical form of an object without repeated keys. -/
theorem mem_canonical_iff {key : String} {value : Json} (h : (members.map (·.1)).Nodup) :
    (key, value) ∈ ((Table.ofList members).map canonical).entries ↔
      ∃ v, (key, v) ∈ members ∧ v.canonical = value := by
  rw [Table.mem_entries_iff, Table.get?_map, Option.map_eq_some_iff]
  simp only [← Table.mem_entries_iff, Table.mem_entries_ofList_iff h]

/-- **Canonical forms.** A value without repeated keys, with finite numbers, is the same as its
canonical form but for the order of members. -/
theorem alike_canonical (h : v.IsProper) : v.Alike v.canonical := by
  induction h with
  | null => exact .same _
  | bool b => exact .same _
  | string text => exact .same _
  | number hn =>
    simp only [canonical, hn, if_true]
    exact .same _
  | @array items _ ih =>
    rw [canonical_array]
    refine .array (by simp) fun i v w hv hw => ?_
    rw [List.getElem?_map, hv] at hw
    obtain rfl := Option.some.inj hw
    exact ih v (List.mem_of_getElem? hv)
  | @object members hkeys _ ih =>
    rw [canonical_object]
    refine .object ?_ fun key v w hv hw => ?_
    · have hperm := (Table.perm_entries_ofList hkeys).symm.map (·.1)
      simpa [Table.map, Function.comp_def] using hperm
    · obtain ⟨v', hv', rfl⟩ := (mem_canonical_iff hkeys).mp hw
      obtain rfl := Table.eq_of_nodup_keys hkeys hv hv'
      exact ih (key, v) hv

end Json
end Concord

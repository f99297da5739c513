/-
# Finite maps with string keys

A `Table` holds its entries as a list with strictly increasing keys. Strings
compare by code point, so listing a table lists its keys in that order, no key
is listed twice, and two tables that answer every lookup alike are equal.

Key definitions: `Table`, `Table.get?`, `Table.insert`, `Table.erase`,
`Table.ofList`, `Table.union`.
Key theorems: `Table.get?_insert`, `Table.get?_erase`, `Table.get?_union`,
`Table.mem_entries_iff`, `Table.ext_get?`.
-/

namespace Concord

/-- A finite map from strings: entries in strictly increasing key order. -/
structure Table (α : Type) where
  entries : List (String × α)
  ordered : entries.Pairwise fun a b => a.1 < b.1

namespace Table

variable {α β : Type}

/-- Two tables with the same entries are the same table. -/
theorem ext_entries {t u : Table α} (h : t.entries = u.entries) : t = u := by
  cases t
  cases u
  cases h
  rfl

instance [DecidableEq α] : DecidableEq (Table α) := fun t u =>
  decidable_of_iff (t.entries = u.entries) ⟨ext_entries, fun h => h ▸ rfl⟩

/-- The table without entries. -/
def empty : Table α := ⟨[], .nil⟩

instance : EmptyCollection (Table α) := ⟨empty⟩

instance : Inhabited (Table α) := ⟨empty⟩

/-- The value stored under a key. -/
def get? (t : Table α) (key : String) : Option α := t.entries.lookup key

/-- Whether a key has a value. -/
def contains (t : Table α) (key : String) : Bool := (t.get? key).isSome

/-- The keys, in increasing order. -/
def keys (t : Table α) : List String := t.entries.map (·.1)

/-- The values, in the order of their keys. -/
def values (t : Table α) : List α := t.entries.map (·.2)

/-- How many keys have a value. -/
def size (t : Table α) : Nat := t.entries.length

/-- Whether no key has a value. -/
def isEmpty (t : Table α) : Bool := t.entries.isEmpty

/-! ### Inserting -/

/-- Put an entry in its place in an ordered list, over an entry of the same key. -/
def insertEntry (key : String) (value : α) : List (String × α) → List (String × α)
  | [] => [(key, value)]
  | (k, v) :: rest =>
    if key < k then (key, value) :: (k, v) :: rest
    else if key = k then (key, value) :: rest
    else (k, v) :: insertEntry key value rest

theorem mem_insertEntry {key : String} {value : α} {e : String × α} :
    ∀ {l : List (String × α)}, e ∈ insertEntry key value l → e = (key, value) ∨ e ∈ l
  | [], h => by simpa [insertEntry] using h
  | (k, v) :: rest, h => by
    unfold insertEntry at h
    split at h
    · simpa using h
    · split at h
      · rcases List.mem_cons.mp h with h | h
        · exact .inl h
        · exact .inr (List.mem_cons_of_mem _ h)
      · rcases List.mem_cons.mp h with h | h
        · exact .inr (h ▸ List.mem_cons_self)
        · rcases mem_insertEntry h with h | h
          · exact .inl h
          · exact .inr (List.mem_cons_of_mem _ h)

theorem length_insertEntry_le (key : String) (value : α) :
    ∀ l : List (String × α), (insertEntry key value l).length ≤ l.length + 1
  | [] => Nat.le_refl 1
  | (k, v) :: rest => by
    have ih := length_insertEntry_le key value rest
    unfold insertEntry
    split
    · exact Nat.le_refl _
    · split
      · exact Nat.le_succ _
      · exact Nat.succ_le_succ ih

/-- Of two strings neither of which is smaller, one is the other. -/
theorem eq_of_not_lt {a b : String} (h : ¬a < b) (h' : ¬b < a) : a = b :=
  String.le_antisymm (String.not_lt.mp h') (String.not_lt.mp h)

theorem insertEntry_ordered {key : String} {value : α} :
    ∀ {l : List (String × α)}, l.Pairwise (fun a b => a.1 < b.1) →
      (insertEntry key value l).Pairwise fun a b => a.1 < b.1
  | [], _ => by simp [insertEntry]
  | (k, v) :: rest, h => by
    have hk := (List.pairwise_cons.mp h).1
    have hr := (List.pairwise_cons.mp h).2
    unfold insertEntry
    split
    · next hlt =>
      refine List.pairwise_cons.mpr ⟨fun e he => ?_, h⟩
      rcases List.mem_cons.mp he with rfl | he
      · exact hlt
      · exact String.lt_trans hlt (hk e he)
    · next hlt =>
      split
      · next heq => exact List.pairwise_cons.mpr ⟨fun e he => heq ▸ hk e he, hr⟩
      · next hne =>
        refine List.pairwise_cons.mpr ⟨fun e he => ?_, insertEntry_ordered hr⟩
        rcases mem_insertEntry he with rfl | he
        · refine Decidable.byContradiction fun hn => hne (eq_of_not_lt hlt hn)
        · exact hk e he

/-- The table with one more entry, over an entry of the same key. -/
def insert (t : Table α) (key : String) (value : α) : Table α :=
  ⟨insertEntry key value t.entries, insertEntry_ordered t.ordered⟩

/-- The table without a key. -/
def erase (t : Table α) (key : String) : Table α :=
  ⟨t.entries.filter fun e => e.1 != key, t.ordered.filter _⟩

/-- The table of the listed entries; of two with the same key the later one counts. -/
def ofList (l : List (String × α)) : Table α :=
  l.foldl (fun t e => t.insert e.1 e.2) ∅

/-- Both tables' entries; where they share a key the second table's counts. -/
def union (t u : Table α) : Table α :=
  u.entries.foldl (fun t e => t.insert e.1 e.2) t

/-- The table with every value replaced by its image. -/
def map (f : α → β) (t : Table α) : Table β :=
  ⟨t.entries.map fun e => (e.1, f e.2), t.ordered.map _ fun _ _ h => h⟩

/-- The table with every value replaced by an image that may depend on its key. -/
def mapWithKey (f : String → α → β) (t : Table α) : Table β :=
  ⟨t.entries.map fun e => (e.1, f e.1 e.2), t.ordered.map _ fun _ _ h => h⟩

/-- The entries whose key and value pass a test. -/
def filter (p : String → α → Bool) (t : Table α) : Table α :=
  ⟨t.entries.filter fun e => p e.1 e.2, t.ordered.filter _⟩

/-! ### Lookups -/

@[simp] theorem get?_empty (key : String) : (∅ : Table α).get? key = none := rfl

@[simp] theorem entries_empty : (∅ : Table α).entries = [] := rfl

theorem lookup_cons (key k : String) (v : α) (l : List (String × α)) :
    ((k, v) :: l).lookup key = if key = k then some v else l.lookup key := by
  by_cases h : key = k
  · subst h
    rw [List.lookup_cons_self, if_pos rfl]
  · rw [if_neg h, List.lookup_cons, beq_false_of_ne h]

theorem lookup_insertEntry (key j : String) (value : α) : ∀ l : List (String × α),
    (insertEntry key value l).lookup j = if j = key then some value else l.lookup j
  | [] => by simp [insertEntry, lookup_cons]
  | (k, v) :: rest => by
    unfold insertEntry
    split
    · simp [lookup_cons]
    · split
      · next h => subst h; by_cases hj : j = key <;> simp [lookup_cons, hj]
      · next h =>
        have hk : ¬k = key := fun e => h e.symm
        rw [lookup_cons, lookup_cons, lookup_insertEntry key j value rest]
        by_cases hj : j = k
        · subst hj; simp [hk]
        · simp [hj]

/-- A table with one more entry answers that key with the new value, all others as before. -/
theorem get?_insert (t : Table α) (key j : String) (value : α) :
    (t.insert key value).get? j = if j = key then some value else t.get? j :=
  lookup_insertEntry key j value t.entries

@[simp] theorem get?_insert_self (t : Table α) (key : String) (value : α) :
    (t.insert key value).get? key = some value := by
  simp [get?_insert]

theorem contains_iff {t : Table α} {key : String} :
    t.contains key = true ↔ ∃ value, t.get? key = some value :=
  Option.isSome_iff_exists

@[simp] theorem contains_empty (key : String) : (∅ : Table α).contains key = false := rfl

theorem contains_insert_iff {t : Table α} {key j : String} {value : α} :
    (t.insert key value).contains j = true ↔ j = key ∨ t.contains j = true := by
  unfold contains
  rw [get?_insert]
  by_cases h : j = key <;> simp [h]

theorem lookup_filter_ne (key j : String) : ∀ l : List (String × α),
    (l.filter fun e => e.1 != key).lookup j = if j = key then none else l.lookup j
  | [] => by simp
  | (k, v) :: rest => by
    rw [List.filter_cons]
    by_cases hk : k = key
    · subst hk
      simp only [bne_self_eq_false, Bool.false_eq_true, if_false, lookup_filter_ne k j rest]
      by_cases hj : j = k <;> simp [lookup_cons, hj]
    · have hb : (k != key) = true := by simpa using hk
      simp only [hb, if_true, lookup_cons, lookup_filter_ne key j rest]
      by_cases hj : j = k
      · subst hj; simp [hk]
      · simp [hj]

/-- An entry more makes a table longer by at most one. -/
theorem size_insert_le (t : Table α) (key : String) (value : α) :
    (t.insert key value).size ≤ t.size + 1 :=
  length_insertEntry_le key value t.entries

/-- An erased key has no value; all others answer as before. -/
theorem get?_erase (t : Table α) (key j : String) :
    (t.erase key).get? j = if j = key then none else t.get? j :=
  lookup_filter_ne key j t.entries

theorem get?_mapWithKey (f : String → α → β) (t : Table α) (key : String) :
    (t.mapWithKey f).get? key = (t.get? key).map (f key) := by
  show (t.entries.map fun e => (e.1, f e.1 e.2)).lookup key = (t.entries.lookup key).map (f key)
  induction t.entries with
  | nil => rfl
  | cons e rest ih =>
    rw [List.map_cons, lookup_cons, ih, show e = (e.1, e.2) from rfl, lookup_cons]
    split
    · next h => subst h; rfl
    · rfl

theorem get?_map (f : α → β) (t : Table α) (key : String) :
    (t.map f).get? key = (t.get? key).map f :=
  get?_mapWithKey (fun _ => f) t key

theorem lookup_foldl_insert (j : String) : ∀ (l : List (String × α)) (t : Table α),
    (l.foldl (fun t e => t.insert e.1 e.2) t).get? j = (l.reverse.lookup j).or (t.get? j)
  | [], t => by simp
  | (k, v) :: rest, t => by
    have hap : ∀ l : List (String × α),
        (l ++ [(k, v)]).lookup j = (l.lookup j).or (if j = k then some v else none) := by
      intro l
      induction l with
      | nil => simp [lookup_cons]
      | cons e l ih =>
        rw [List.cons_append, show e = (e.1, e.2) from rfl, lookup_cons, lookup_cons, ih]
        split <;> simp
    rw [List.foldl_cons, lookup_foldl_insert j rest, List.reverse_cons, hap, get?_insert]
    cases rest.reverse.lookup j <;> by_cases hj : j = k <;> simp [hj]

/-- The last listed entry of a key counts. -/
theorem get?_ofList (l : List (String × α)) (key : String) :
    (ofList l).get? key = l.reverse.lookup key := by
  simp [ofList, lookup_foldl_insert]

/-! ### Entries and lookups -/

/-- A listed entry is what its key looks up, in any list whose keys increase. -/
theorem lookup_of_mem {key : String} {value : α} : ∀ {l : List (String × α)},
    l.Pairwise (fun a b => a.1 < b.1) → (key, value) ∈ l → l.lookup key = some value
  | (k, v) :: rest, h, hm => by
    rw [lookup_cons]
    rcases List.mem_cons.mp hm with e | hm
    · simp only [Prod.mk.injEq] at e
      simp [e]
    · have hlt : k < key := (List.pairwise_cons.mp h).1 _ hm
      have hne : ¬key = k := fun e => String.lt_irrefl k (e ▸ hlt)
      simp [hne, lookup_of_mem (List.pairwise_cons.mp h).2 hm]

theorem mem_of_lookup {key : String} {value : α} : ∀ {l : List (String × α)},
    l.lookup key = some value → (key, value) ∈ l
  | (k, v) :: rest, h => by
    rw [lookup_cons] at h
    split at h
    · next e => cases h; exact e ▸ List.mem_cons_self
    · exact List.mem_cons_of_mem _ (mem_of_lookup h)

/-- An entry is what its key looks up, in any list with no other value for the key. -/
theorem lookup_of_unique {key : String} {value : α} : ∀ {l : List (String × α)},
    (∀ other, (key, other) ∈ l → other = value) → (key, value) ∈ l → l.lookup key = some value
  | (k, v) :: rest, h, hm => by
    rw [lookup_cons]
    by_cases hk : key = k
    · rw [if_pos hk, h v (by simp [hk])]
    · have hrest : (key, value) ∈ rest := by simpa [hk] using hm
      rw [if_neg hk]
      exact lookup_of_unique (fun other ho => h other (List.mem_cons_of_mem _ ho)) hrest

theorem lookup_reverse_eq_some_iff {l : List (String × α)} {key : String} {value : α}
    (h : ∀ v w, (key, v) ∈ l → (key, w) ∈ l → v = w) :
    l.reverse.lookup key = some value ↔ (key, value) ∈ l := by
  rw [← List.mem_reverse]
  refine ⟨mem_of_lookup, fun hm => lookup_of_unique (fun other ho => ?_) hm⟩
  rw [List.mem_reverse] at ho hm
  exact h other value ho hm

/-- If no key is listed with two values, the table of a list holds every entry of it. -/
theorem get?_ofList_eq_some_iff {l : List (String × α)} {key : String} {value : α}
    (h : ∀ v w, (key, v) ∈ l → (key, w) ∈ l → v = w) :
    (ofList l).get? key = some value ↔ (key, value) ∈ l := by
  rw [get?_ofList, lookup_reverse_eq_some_iff h]

/-- What is looked up in the table of a list is listed. -/
theorem mem_of_get?_ofList {l : List (String × α)} {key : String} {value : α}
    (h : (ofList l).get? key = some value) : (key, value) ∈ l := by
  rw [get?_ofList] at h
  exact List.mem_reverse.mp (mem_of_lookup h)

/-- A table lists exactly the entries that its lookups answer. -/
theorem mem_entries_iff {t : Table α} {key : String} {value : α} :
    (key, value) ∈ t.entries ↔ t.get? key = some value :=
  ⟨lookup_of_mem t.ordered, mem_of_lookup⟩

/-- Of a key a table lists one value only. -/
theorem eq_of_mem_entries {t : Table α} {key : String} {v w : α} (hv : (key, v) ∈ t.entries)
    (hw : (key, w) ∈ t.entries) : v = w := by
  rw [mem_entries_iff] at hv hw
  exact Option.some.inj (hv.symm.trans hw)

theorem mem_keys_iff {t : Table α} {key : String} : key ∈ t.keys ↔ t.contains key = true := by
  simp only [keys, List.mem_map, contains, Option.isSome_iff_exists, ← mem_entries_iff]
  exact ⟨fun ⟨⟨k, v⟩, h, e⟩ => ⟨v, e ▸ h⟩, fun ⟨v, h⟩ => ⟨(key, v), h, rfl⟩⟩

/-- Keys are listed in strictly increasing order. -/
theorem keys_ordered (t : Table α) : t.keys.Pairwise (· < ·) :=
  t.ordered.map _ fun _ _ h => h

/-- No key is listed twice. -/
theorem keys_nodup (t : Table α) : t.keys.Nodup := by
  refine t.keys_ordered.imp ?_
  rintro a _ hlt rfl
  exact String.lt_irrefl a hlt

/-- No entry is listed twice. -/
theorem entries_nodup (t : Table α) : t.entries.Nodup := by
  refine t.ordered.imp ?_
  rintro a _ hlt rfl
  exact String.lt_irrefl a.1 hlt

theorem entries_eq_of_mem : ∀ {l m : List (String × α)},
    l.Pairwise (fun a b => a.1 < b.1) → m.Pairwise (fun a b => a.1 < b.1) →
    (∀ e, e ∈ l ↔ e ∈ m) → l = m
  | [], [], _, _, _ => rfl
  | [], b :: _, _, _, h => absurd ((h b).mpr List.mem_cons_self) List.not_mem_nil
  | a :: _, [], _, _, h => absurd ((h a).mp List.mem_cons_self) List.not_mem_nil
  | a :: l, b :: m, hl, hm, h => by
    have hl' := List.pairwise_cons.mp hl
    have hm' := List.pairwise_cons.mp hm
    have hab : a = b := by
      rcases List.mem_cons.mp ((h a).mp List.mem_cons_self) with e | ha
      · exact e
      · rcases List.mem_cons.mp ((h b).mpr List.mem_cons_self) with e | hb
        · exact e.symm
        · exact absurd (hm'.1 a ha) (String.lt_asymm (hl'.1 b hb))
    subst hab
    refine congrArg _ (entries_eq_of_mem hl'.2 hm'.2 fun e => ?_)
    have he := h e
    simp only [List.mem_cons] at he
    constructor
    · intro hel
      rcases he.mp (.inr hel) with rfl | hem
      · exact absurd (hl'.1 e hel) (String.lt_irrefl _)
      · exact hem
    · intro hem
      rcases he.mpr (.inr hem) with rfl | hel
      · exact absurd (hm'.1 e hem) (String.lt_irrefl _)
      · exact hel

/-- Two tables that answer every lookup alike are equal. -/
theorem ext_get? {t u : Table α} (h : ∀ key, t.get? key = u.get? key) : t = u :=
  ext_entries (entries_eq_of_mem t.ordered u.ordered fun ⟨k, v⟩ => by
    rw [mem_entries_iff, mem_entries_iff, h k])

/-- The table of a table's entries is the table. -/
theorem ofList_entries (t : Table α) : ofList t.entries = t := by
  apply ext_get?
  intro key
  refine Option.ext fun value => ?_
  rw [get?_ofList_eq_some_iff fun v w => eq_of_mem_entries, mem_entries_iff]

/-- Values may be replaced before or after a list is made a table. -/
theorem map_ofList (f : α → β) (l : List (String × α)) :
    (ofList l).map f = ofList (l.map fun e => (e.1, f e.2)) := by
  apply ext_get?
  intro key
  rw [get?_map, get?_ofList, get?_ofList, ← List.map_reverse]
  induction l.reverse with
  | nil => rfl
  | cons e l ih =>
    rw [List.map_cons, show e = (e.1, e.2) from rfl, lookup_cons, lookup_cons, ← ih]
    split <;> rfl

theorem map_map {γ : Type} (f : α → β) (g : β → γ) (t : Table α) :
    (t.map f).map g = t.map fun value => g (f value) :=
  ext_entries (List.map_map ..)

theorem map_congr {f g : α → β} {t : Table α} (h : ∀ e ∈ t.entries, f e.2 = g e.2) :
    t.map f = t.map g :=
  ext_entries (List.map_congr_left fun e he => congrArg (Prod.mk e.1) (h e he))

/-- Functions that agree on the values of a list agree on the table of the list. -/
theorem map_ofList_congr {f g : α → β} {l : List (String × α)} (h : ∀ e ∈ l, f e.2 = g e.2) :
    (ofList l).map f = (ofList l).map g :=
  map_congr fun e he => h e (mem_of_get?_ofList (mem_entries_iff.mp he))

theorem get?_union (t u : Table α) (key : String) :
    (t.union u).get? key = (u.get? key).or (t.get? key) := by
  unfold union
  rw [lookup_foldl_insert]
  congr 1
  refine Option.ext fun value => ?_
  rw [lookup_reverse_eq_some_iff fun v w => eq_of_mem_entries, mem_entries_iff]

end Table

end Concord

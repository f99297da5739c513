/-
# Merging configurations

To merge a configuration into another is to override it: where both have a token
table for a kind, name by name, and else entry by entry. Under each kind key this
is an operation on the two entries alone (`Config.Entry.merged`), and the laws of
merging are those of this operation: nothing is its unit, and an entry that comes
twice counts once. It is not associative. Data that is no token table, in the
middle, wipes out the table before it, unless a table behind it has already
taken its place.

Where a configuration can be stored such data cannot be, so two stores one after
the other are the same as one of both configurations merged.

Key definitions: `Config.Entry.merged`, `Config.single`, `Config.OnlyTables`.
Key theorems: `Config.merge_assoc`, `Config.get?_merge_tokens`,
`Session.replace_of_replace`, `Session.store_of_store`, `Inflector.merging_sound`.
-/
import Concord.Proofs.Catalog.Failing

namespace Concord

/-! ### Tables -/

namespace Table

variable {α : Type}

theorem union_self (t : Table α) : t.union t = t := by
  apply ext_get?
  simp [get?_union]

theorem union_assoc (t u v : Table α) : (t.union u).union v = t.union (u.union v) := by
  apply ext_get?
  simp [get?_union, Option.or_assoc]

/-- What is joined a second time changes nothing. -/
theorem union_union_self (t u : Table α) : (t.union u).union u = t.union u := by
  rw [union_assoc, union_self]

theorem insert_insert (t : Table α) (key : String) (old new : α) :
    (t.insert key old).insert key new = t.insert key new := by
  apply ext_get?
  intro other
  by_cases h : other = key <;> simp [get?_insert, h]

theorem insert_erase (t : Table α) (key : String) (value : α) :
    (t.erase key).insert key value = t.insert key value := by
  apply ext_get?
  intro other
  by_cases h : other = key <;> simp [get?_insert, get?_erase, h]

theorem erase_insert (t : Table α) (key : String) (value : α) :
    (t.insert key value).erase key = t.erase key := by
  apply ext_get?
  intro other
  by_cases h : other = key <;> simp [get?_insert, get?_erase, h]

theorem erase_erase (t : Table α) (key : String) : (t.erase key).erase key = t.erase key := by
  apply ext_get?
  intro other
  by_cases h : other = key <;> simp [get?_erase, h]

/-- A table without entries is the empty one. -/
theorem eq_empty_of_isEmpty {t : Table α} (h : t.isEmpty = true) : t = ∅ :=
  ext_entries (List.isEmpty_iff.mp h)

end Table

/-! ### Entries -/

namespace Config

namespace Entry

/-- What is held under a kind key when one configuration is merged into another: the new entry over
the old one, if there is a new one. -/
def merged (old new : Option Entry) : Option Entry := (new.map (replacing old)).or old

theorem merged_tokens (old new : Table (Option String)) :
    merged (some (.tokens old)) (some (.tokens new)) = some (.tokens (old.union new)) := rfl

theorem none_merged (new : Option Entry) : merged none new = new := by
  cases new with
  | none => rfl
  | some new => cases new <;> rfl

theorem merged_none (old : Option Entry) : merged old none = old := rfl

/-- Data that is no token table takes the place of anything. -/
theorem merged_invalid (old : Option Entry) (data : Json) :
    merged old (some (.invalid data)) = some (.invalid data) := by
  rcases old with _ | (_ | _) <;> rfl

/-- A token table takes the place of data that is none. -/
theorem invalid_merged_tokens (data : Json) (new : Table (Option String)) :
    merged (some (.invalid data)) (some (.tokens new)) = some (.tokens new) := rfl

theorem merged_self (e : Option Entry) : merged e e = e := by
  rcases e with _ | (table | data)
  · rfl
  · rw [merged_tokens, Table.union_self]
  · rfl

theorem merged_merged_self (old new : Option Entry) :
    merged (merged old new) new = merged old new := by
  rcases new with _ | (new | data)
  · rw [merged_none, merged_none]
  · rcases old with _ | (old | data)
    · rw [none_merged, merged_self]
    · rw [merged_tokens, merged_tokens, Table.union_union_self]
    · rw [invalid_merged_tokens, merged_self]
  · rw [merged_invalid, merged_invalid]

/-- Three entries may be merged in either order if the middle one is no data but a token table. -/
theorem merged_assoc (a c : Option Entry) {b : Option Entry}
    (hb : ∀ data, b ≠ some (.invalid data)) :
    merged (merged a b) c = merged a (merged b c) := by
  rcases c with _ | (c | data)
  · rw [merged_none, merged_none]
  · rcases b with _ | (b | data)
    · rw [merged_none, none_merged]
    · rcases a with _ | (a | data)
      · rw [none_merged, none_merged]
      · rw [merged_tokens, merged_tokens, merged_tokens, merged_tokens, Table.union_assoc]
      · rw [invalid_merged_tokens, merged_tokens, invalid_merged_tokens]
    · exact absurd rfl (hb data)
  · rw [merged_invalid, merged_invalid, merged_invalid]

end Entry

/-! ### Configurations -/

/-- A configuration of one name. -/
def single (kind token : String) (value : Option String) : Config :=
  ⟨.ofList [(kind, .tokens (.ofList [(token, value)]))]⟩

/-- All that a configuration holds are token tables. -/
def OnlyTables (c : Config) : Prop := ∀ kind data, c.kinds.get? kind ≠ some (.invalid data)

variable {a b c : Config}

/-- Two configurations that hold the same under every kind key are the same. -/
theorem ext_get? (h : ∀ kind, a.kinds.get? kind = b.kinds.get? kind) : a = b := by
  cases a
  cases b
  exact congrArg Config.mk (Table.ext_get? h)

theorem get?_merge_eq_merged (a b : Config) (kind : String) :
    (a.merge b).kinds.get? kind = Entry.merged (a.kinds.get? kind) (b.kinds.get? kind) :=
  get?_merge a b kind

theorem empty_merge (c : Config) : Config.empty.merge c = c := by
  apply ext_get?
  intro kind
  rw [get?_merge_eq_merged]
  exact Entry.none_merged (c.kinds.get? kind)

theorem merge_empty (c : Config) : c.merge .empty = c := by
  apply ext_get?
  intro kind
  rw [get?_merge_eq_merged]
  exact Entry.merged_none (c.kinds.get? kind)

theorem merge_self (c : Config) : c.merge c = c := by
  apply ext_get?
  intro kind
  rw [get?_merge_eq_merged, Entry.merged_self]

theorem merge_merge_self (a b : Config) : (a.merge b).merge b = a.merge b := by
  apply ext_get?
  intro kind
  rw [get?_merge_eq_merged, get?_merge_eq_merged, Entry.merged_merged_self]

theorem merge_assoc (a c : Config) (hb : b.OnlyTables) :
    (a.merge b).merge c = a.merge (b.merge c) := by
  apply ext_get?
  intro kind
  simp only [get?_merge_eq_merged]
  exact Entry.merged_assoc (a.kinds.get? kind) (c.kinds.get? kind) (hb kind)

/-- With data in the middle it matters what is merged first. -/
example :
    let table := single "gender" "m" (some "male")
    let data : Config := ⟨.ofList [("gender", .invalid .null)]⟩
    let other := single "gender" "f" (some "female")
    ((table.merge data).merge other).hasToken "gender" "m" = false ∧
      (table.merge (data.merge other)).hasToken "gender" "m" = true := by
  decide

theorem get?_single (kind token : String) (value : Option String) (other : String) :
    (single kind token value).kinds.get? other =
      if other = kind then some (.tokens (.ofList [(token, value)])) else none :=
  Table.get?_insert ∅ kind other _

/-- To set the value of a name is to merge a configuration of that name. -/
theorem insertToken_eq_merge (c : Config) (kind token : String) (value : Option String) :
    c.insertToken kind token value = c.merge (single kind token value) := by
  apply ext_get?
  intro other
  rw [get?_merge_eq_merged, get?_single, insertToken, Table.get?_insert]
  by_cases h : other = kind
  · rw [if_pos h, if_pos h, h, table?]
    rcases c.kinds.get? kind with _ | (table | data) <;> rfl
  · rw [if_neg h, if_neg h, Entry.merged_none]

/-- Of two token tables of a kind the second one counts for the names that it has. -/
theorem get?_merge_tokens {kind : String} {old new : Table (Option String)}
    (ha : a.kinds.get? kind = some (.tokens old)) (hb : b.kinds.get? kind = some (.tokens new)) :
    ∃ both, (a.merge b).kinds.get? kind = some (.tokens both) ∧ ∀ token,
      both.get? token = if new.contains token then new.get? token else old.get? token := by
  refine ⟨old.union new, ?_, fun token => ?_⟩
  · rw [get?_merge_eq_merged, ha, hb, Entry.merged_tokens]
  · rw [Table.get?_union, Table.contains]
    cases new.get? token <;> rfl

/-- What is merged into token tables alone, if that leaves nothing else, is token tables alone. -/
theorem OnlyTables.of_merge (h : (a.merge b).OnlyTables) : b.OnlyTables := by
  intro kind data hb
  apply h kind data
  rw [get?_merge_eq_merged, hb, Entry.merged_invalid]

theorem onlyTables_single (kind token : String) (value : Option String) :
    (single kind token value).OnlyTables := by
  intro other data h
  rw [get?_single] at h
  split at h <;> cases h

theorem onlyTables_of_isEmpty (h : c.isEmpty = true) : c.OnlyTables := by
  intro kind data hc
  rw [Table.eq_empty_of_isEmpty h] at hc
  cases hc

theorem onlyTables_of_ofConfig {locale : String} {d : Lexicon}
    (h : Lexicon.ofConfig locale c = .ok d) : c.OnlyTables := by
  intro kind data hc
  obtain ⟨htables, -⟩ := Lexicon.ofConfig_eq_ok_iff.mp h
  obtain ⟨table, ht⟩ := htables (kind, .invalid data) (Table.mem_entries_iff.mpr hc)
  cases ht

end Config

/-! ### Storing -/

/-- Of two configurations that are kept for a locale the first one leaves nothing behind. -/
theorem Catalog.keep_keep (g : Catalog) (locale : String) (b c : Config) :
    (g.keep locale b).keep locale c = g.keep locale c := by
  unfold keep
  cases b.isEmpty <;> cases c.isEmpty <;>
    simp [Table.insert_insert, Table.erase_insert, Table.insert_erase, Table.erase_erase]

namespace Registry

theorem add_add (r : Registry) {d d' : Lexicon} (h : d.locale = d'.locale) :
    (r.add d).add d' = r.add d' := by
  simp [add, h, Table.insert_insert]

theorem add_delete (r : Registry) (d : Lexicon) : (r.delete d.locale).add d = r.add d := by
  simp [add, delete, Table.insert_erase]

theorem delete_add (r : Registry) (d : Lexicon) :
    (r.add d).delete d.locale = r.delete d.locale := by
  simp [add, delete, Table.erase_insert]

theorem delete_delete (r : Registry) (locale : String) :
    (r.delete locale).delete locale = r.delete locale := by
  simp [delete, Table.erase_erase]

/-- Nor does a lexicon that is built again. -/
theorem rebuild_of_rebuild {r r₁ : Registry} {locale : String} {b c : Config} {d : Option Lexicon}
    (h : r.rebuild locale b = .ok (r₁, d)) : r₁.rebuild locale c = r.rebuild locale c := by
  have hlocale : ∀ {config : Config} {d : Lexicon}, Lexicon.ofConfig locale config = .ok d →
      d.locale = locale := fun hd => (Lexicon.Reachable.config hd).locale_eq
  unfold rebuild at h ⊢
  cases hb : b.isEmpty with
  | true =>
    rw [hb] at h
    cases h
    rw [delete_delete]
    cases hd : Lexicon.ofConfig locale c with
    | error e => rfl
    | ok d =>
      obtain rfl := hlocale hd
      simp only [Except.map, add_delete]
  | false =>
    rw [hb] at h
    cases hd : Lexicon.ofConfig locale b with
    | error e =>
      rw [hd] at h
      cases h
    | ok d =>
      rw [hd] at h
      cases h
      obtain rfl := hlocale hd
      rw [delete_add]
      cases hd' : Lexicon.ofConfig d.locale c with
      | error e => rfl
      | ok d' =>
        simp only [Except.map, add_add r (hlocale hd').symm]

end Registry

namespace Session

variable {s s₁ : Session} {locale : String} {b c : Config} {d : Option Lexicon}

/-- Of two configurations that replace that of a locale the first one leaves nothing behind. -/
theorem replace_of_replace (h : s.replace locale b = .ok (s₁, d)) :
    s₁.replace locale c = s.replace locale c := by
  unfold replace at h ⊢
  cases hr : s.registry.rebuild locale b with
  | error e =>
    rw [hr] at h
    cases h
  | ok r =>
    rw [hr] at h
    cases h
    rw [Registry.rebuild_of_rebuild hr, Catalog.keep_keep]

/-- What replaces the configuration of a locale is its configuration; none is one without kinds. -/
theorem config?_of_replace (h : s.replace locale c = .ok (s₁, d)) :
    (s₁.catalog.config? locale).getD .empty = c := by
  obtain ⟨-, hsets, -⟩ := sets_replace h
  rw [hsets.config locale, if_pos rfl]
  cases hc : c.isEmpty with
  | true => exact (congrArg Config.mk (Table.eq_empty_of_isEmpty hc)).symm
  | false => rfl

/-- A configuration that can be stored is one of token tables. -/
theorem onlyTables_of_replace (h : s.replace locale c = .ok (s₁, d)) : c.OnlyTables := by
  obtain ⟨hmatched, -, -⟩ := sets_replace h
  cases hc : c.isEmpty with
  | true => exact Config.onlyTables_of_isEmpty hc
  | false =>
    rw [hc] at hmatched
    obtain ⟨-, d', hd, -⟩ := hmatched.of_some
    exact Config.onlyTables_of_ofConfig hd

/-- After one configuration has been stored, another one may as well have been merged into it. -/
theorem store_of_store (h : s.store locale b = .ok (s₁, d)) :
    s₁.store locale c = s.store locale (b.merge c) := by
  have hb : b.OnlyTables := (onlyTables_of_replace h).of_merge
  calc s₁.store locale c
    _ = s₁.replace locale ((((s.catalog.config? locale).getD .empty).merge b).merge c) := by
      rw [store, config?_of_replace h]
    _ = s.replace locale ((((s.catalog.config? locale).getD .empty).merge b).merge c) :=
      replace_of_replace h
    _ = s.store locale (b.merge c) := by
      rw [Config.merge_assoc _ _ hb, store]

end Session

namespace Inflector

theorem serve_store_eq_iff {i i' : Inflector} {locale : String} {c : Config} {d : Option Lexicon} :
    i.serve (.store locale c) = (.built (.ok d), i') ↔
      ∃ s, i.session.store locale c = .ok (s, d) ∧ i' = { i with session := s } := by
  rw [serve, build, (Update.actsAs_store locale c).adapt LoadError.config i.session]
  dsimp only
  cases i.session.store locale c with
  | error e => simp [Except.mapError, Except.map]
  | ok r =>
    obtain ⟨s, d'⟩ := r
    simp [Except.mapError, Except.map, Session.resume, eq_comm]

/-! ### Main statement -/

/-- **Merging is a union in which the second configuration counts, and stores may be batched.** The
configuration without kinds is a unit of merging; a configuration merged into itself, or a second
time, changes nothing; a name is set by merging a configuration of that name alone; of two token
tables of a kind the second one counts for its names, the first one for all others; and three
configurations may be merged in either order if the middle one holds token tables only. Therefore,
whatever state an inflector is in: where one configuration is stored and then another one, storing
both merged is answered as the second store is, and leaves the same inflector behind. -/
theorem merging_sound (a b c : Config) :
    (Config.empty.merge a = a ∧ a.merge .empty = a) ∧
    a.merge a = a ∧
    (a.merge b).merge b = a.merge b ∧
    (∀ kind token value, a.insertToken kind token value =
      a.merge (.single kind token value)) ∧
    (∀ kind old new, a.kinds.get? kind = some (.tokens old) →
      b.kinds.get? kind = some (.tokens new) →
      ∃ both, (a.merge b).kinds.get? kind = some (.tokens both) ∧ ∀ token,
        both.get? token = if new.contains token then new.get? token else old.get? token) ∧
    (b.OnlyTables → (a.merge b).merge c = a.merge (b.merge c)) ∧
    ∀ (i i₁ i₂ : Inflector) locale d₁ d₂,
      i.serve (.store locale b) = (.built (.ok d₁), i₁) →
      i₁.serve (.store locale c) = (.built (.ok d₂), i₂) →
      i.serve (.store locale (b.merge c)) = (.built (.ok d₂), i₂) := by
  refine ⟨⟨Config.empty_merge a, Config.merge_empty a⟩, Config.merge_self a,
    Config.merge_merge_self a b, Config.insertToken_eq_merge a,
    fun _ _ _ => Config.get?_merge_tokens, Config.merge_assoc a c, ?_⟩
  intro i i₁ i₂ locale d₁ d₂ hb hc
  obtain ⟨s₁, hs₁, rfl⟩ := serve_store_eq_iff.mp hb
  obtain ⟨s₂, hs₂, rfl⟩ := serve_store_eq_iff.mp hc
  rw [Session.store_of_store hs₁] at hs₂
  exact serve_store_eq_iff.mpr ⟨s₂, hs₂, rfl⟩

/-- A store that does not fail is answered with a lexicon, or with none. -/
theorem exists_serve_store (i : Inflector) (locale : String) (c : Config)
    (h : (i.serve (.store locale c)).1.failed = false) :
    ∃ d, i.serve (.store locale c) = (.built (.ok d), (i.serve (.store locale c)).2) := by
  rw [serve, build] at h ⊢
  cases hr : (((Update.store locale c).adapt LoadError.config).run i.session).1 with
  | error e =>
    rw [hr] at h
    cases h
  | ok d => exact ⟨d, rfl⟩

/-- A token, and an alias that makes no sense without it. -/
def sampleBatch : Config × Config :=
  (.single "gender" "o" (some "other"), .single "gender" "x" (some "@o"))

/-- Both are stored at once; alone, the second one would be refused. -/
theorem batch_sample :
    (((sampleConfig []).merge sampleBatch.1).merge sampleBatch.2 =
      (sampleConfig []).merge (sampleBatch.1.merge sampleBatch.2)) ∧
    (∃ both, (sampleBatch.1.merge sampleBatch.2).kinds.get? "gender" = some (.tokens both) ∧
      both.get? "o" = some (some "other") ∧ both.get? "x" = some (some "@o")) ∧
    ((ofHistory {} sampleHistory).serve (.store "en" sampleBatch.2)).1.failed = true ∧
    (ofHistory {} sampleHistory).serve (.store "en" (sampleBatch.1.merge sampleBatch.2)) =
      ((ofHistory {} sampleHistory).serve (.store "en" sampleBatch.1)).2.serve
        (.store "en" sampleBatch.2) := by
  obtain ⟨-, -, -, -, hlookup, -⟩ := merging_sound sampleBatch.1 sampleBatch.2 .empty
  obtain ⟨-, -, -, -, -, hassoc, hbatch⟩ :=
    merging_sound (sampleConfig []) sampleBatch.1 sampleBatch.2
  obtain ⟨both, hboth, hget⟩ := hlookup "gender" (.ofList [("o", some "other")])
    (.ofList [("x", some "@o")]) rfl rfl
  obtain ⟨d₁, h₁⟩ := exists_serve_store (ofHistory {} sampleHistory) "en" sampleBatch.1
    (by decide +kernel)
  obtain ⟨d₂, h₂⟩ := exists_serve_store
    ((ofHistory {} sampleHistory).serve (.store "en" sampleBatch.1)).2 "en" sampleBatch.2
    (by decide +kernel)
  have hstored := (hbatch _ _ _ "en" d₁ d₂ h₁ h₂).trans h₂.symm
  have htables := Config.onlyTables_single "gender" "o" (some "other")
  exact ⟨hassoc htables, ⟨both, hboth, hget "o", hget "x"⟩, by decide +kernel, hstored⟩

end Inflector
end Concord

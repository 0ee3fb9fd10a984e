import SdlTypes.Proofs.Results
import SdlTypes.Symbols

/-!
# What is in the symbol tables

The keys and values of ordered maps, and of the tables that a run builds: every built-in and
every custom scalar has one entry in the table of scalars (`Scalars.mem_keys_table`), and an enum
in the table of enums has the identifier that its name converts to
(`Enums.identifier_of_table`).
-/

namespace SdlTypes

open Sdl

/-! ## Ordered maps -/

namespace OrderedMap

variable {α β : Type}

theorem contains_iff {m : OrderedMap α} {name : String} : m.contains name ↔ name ∈ m.keys :=
  List.contains_iff_mem

theorem mem_entries_of_find? {m : OrderedMap α} {name : String} {value : α}
    (h : m.find? name = some value) : (name, value) ∈ m.entries := by
  obtain ⟨front, back, heq, -⟩ := List.lookup_eq_some_iff.1 h
  rw [heq]
  simp

/-- A value is found if it is in the map, since no key occurs twice. -/
theorem find?_eq_some_iff {m : OrderedMap α} {key : String} {value : α} :
    m.find? key = some value ↔ (key, value) ∈ m.entries := by
  refine ⟨mem_entries_of_find?, fun h => ?_⟩
  obtain ⟨front, back, heq⟩ := List.append_of_mem h
  have hnodup := m.nodup
  rw [heq, List.map_append, List.nodup_append] at hnodup
  obtain ⟨-, -, hdisjoint⟩ := hnodup
  refine List.lookup_eq_some_iff.2 ⟨front, back, heq, fun p hp => ?_⟩
  have hne := hdisjoint p.1 (List.mem_map_of_mem hp) key List.mem_cons_self
  simpa using hne.symm

theorem mem_keys_iff {m : OrderedMap α} {key : String} :
    key ∈ m.keys ↔ (m.find? key).isSome := by
  simp only [keys, List.mem_map, Prod.exists, exists_and_right, exists_eq_right,
    Option.isSome_iff_exists, find?_eq_some_iff]

/-- A map is determined by its keys and by what they are looked up as. -/
theorem entries_eq (m : OrderedMap α) :
    m.entries = m.keys.filterMap fun key => (m.find? key).map fun value => (key, value) := by
  rw [keys, List.filterMap_map]
  refine List.filterMap_some.symm.trans (List.filterMap_congr fun p hp => ?_)
  rw [Function.comp_apply, find?_eq_some_iff.2 hp]
  rfl

theorem lookup_cons_eq (p : String × α) (l : List (String × α)) (key : String) :
    (p :: l).lookup key = if key = p.1 then some p.2 else l.lookup key := by
  rw [List.lookup_cons]
  split_ifs with h
  · simp [h]
  · simp [beq_eq_false_iff_ne.2 h]

theorem find?_insert (m : OrderedMap α) (key : String) (value : α) (k : String) :
    (m.insert key value).find? k = if k = key then some value else m.find? k := by
  change (upsert key value m.entries).lookup k = if k = key then some value else m.entries.lookup k
  induction m.entries with
  | nil => rw [upsert, lookup_cons_eq]
  | cons p l ih =>
    obtain ⟨k', v⟩ := p
    rw [upsert]
    by_cases hk : k' = key
    · rw [if_pos hk, lookup_cons_eq, lookup_cons_eq, hk]
      split_ifs <;> rfl
    · rw [if_neg hk, lookup_cons_eq, lookup_cons_eq, ih]
      split_ifs with h h'
      · exact absurd (h.symm.trans h') hk
      all_goals rfl

theorem find?_mapWithKey (f : String → α → β) (m : OrderedMap α) (key : String) :
    (m.mapWithKey f).find? key = (m.find? key).map (f key) := by
  change (m.entries.map fun p => (p.1, f p.1 p.2)).lookup key = (m.entries.lookup key).map (f key)
  induction m.entries with
  | nil => rfl
  | cons p l ih =>
    rw [List.map_cons, lookup_cons_eq, lookup_cons_eq, ih]
    split_ifs with h
    · rw [h]
      rfl
    · rfl

/-- A new key goes behind the others. -/
theorem keys_insert (m : OrderedMap α) (key : String) (value : α) :
    (m.insert key value).keys = if key ∈ m.keys then m.keys else m.keys ++ [key] := by
  change (upsert key value m.entries).map Prod.fst = if key ∈ m.entries.map Prod.fst then
    m.entries.map Prod.fst else m.entries.map Prod.fst ++ [key]
  induction m.entries with
  | nil => rfl
  | cons p l ih =>
    obtain ⟨k', v⟩ := p
    rw [upsert, List.map_cons]
    by_cases hk : k' = key
    · rw [if_pos hk, if_pos (by simp [hk])]
      rfl
    · rw [if_neg hk, List.map_cons, ih]
      simp only [List.mem_cons, Ne.symm hk, false_or]
      split_ifs <;> rfl

theorem mem_upsert {key : String} {value : α} {l : List (String × α)} {p : String × α}
    (h : p ∈ upsert key value l) : p = (key, value) ∨ p ∈ l := by
  induction l with
  | nil => exact .inl (List.mem_singleton.1 h)
  | cons q l ih =>
    unfold upsert at h
    split at h
    · next hk =>
      rcases List.mem_cons.1 h with rfl | h
      · exact .inl (by rw [hk])
      · exact .inr (List.mem_cons_of_mem _ h)
    · rcases List.mem_cons.1 h with rfl | h
      · exact .inr List.mem_cons_self
      · exact (ih h).imp_right (List.mem_cons_of_mem _)

theorem mem_keys_insert {m : OrderedMap α} {key : String} {value : α} {name : String} :
    name ∈ (m.insert key value).keys ↔ name = key ∨ name ∈ m.keys :=
  mem_keys_upsert

/-- What a list puts into a map. -/
theorem mem_keys_ofList {l : List (String × α)} {name : String} :
    name ∈ (ofList l).keys ↔ name ∈ l.map Prod.fst := by
  suffices h : ∀ m : OrderedMap α,
      name ∈ (l.foldl (fun m (key, value) => m.insert key value) m).keys ↔
        name ∈ m.keys ∨ name ∈ l.map Prod.fst by
    rw [ofList, h]
    exact or_iff_right List.not_mem_nil
  induction l with
  | nil => simp
  | cons p l ih =>
    intro m
    rw [List.foldl_cons, ih, mem_keys_insert, List.map_cons, List.mem_cons]
    rw [or_assoc, or_left_comm]

/-- The entries of a map come from the list that it is made of. -/
theorem mem_of_mem_ofList {l : List (String × α)} {p : String × α} (h : p ∈ (ofList l).entries) :
    p ∈ l := by
  suffices hm : ∀ m : OrderedMap α,
      p ∈ (l.foldl (fun m (key, value) => m.insert key value) m).entries →
        p ∈ m.entries ∨ p ∈ l from
    (hm empty h).resolve_left List.not_mem_nil
  clear h
  induction l with
  | nil => exact fun m h => .inl h
  | cons q l ih =>
    intro m h
    rcases ih _ h with h | h
    · rcases mem_upsert h with rfl | h
      · exact .inr List.mem_cons_self
      · exact .inl h
    · exact .inr (List.mem_cons_of_mem _ h)

theorem upsert_of_notMem {key : String} {l : List (String × α)} (h : key ∉ l.map Prod.fst)
    (value : α) : upsert key value l = l ++ [(key, value)] := by
  induction l with
  | nil => rfl
  | cons p l ih =>
    rw [List.map_cons, List.mem_cons, not_or] at h
    rw [upsert, if_neg (Ne.symm h.1), ih h.2]
    rfl

/-- A list in which no key occurs twice becomes a map as it is. -/
theorem entries_ofList {l : List (String × α)} (h : (l.map Prod.fst).Nodup) :
    (ofList l).entries = l := by
  suffices hm : ∀ m : OrderedMap α, (m.keys ++ l.map Prod.fst).Nodup →
      (l.foldl (fun m (key, value) => m.insert key value) m).entries = m.entries ++ l from
    hm empty h
  clear h
  induction l with
  | nil => exact fun m _ => (List.append_nil _).symm
  | cons p l ih =>
    intro m hm
    rw [List.map_cons, List.append_cons] at hm
    have hnew : p.1 ∉ m.entries.map Prod.fst := fun hmem =>
      (List.nodup_append.1 (List.nodup_append.1 hm).1).2.2 _ hmem _ (List.mem_singleton_self _) rfl
    have hinsert : (m.insert p.1 p.2).entries = m.entries ++ [p] := upsert_of_notMem hnew p.2
    rw [List.foldl_cons, ih, hinsert, List.append_assoc]
    · rfl
    · rw [keys, hinsert, List.map_append]
      exact hm

theorem mem_of_mem_mapWithKey {f : String → α → β} {m : OrderedMap α} {name : String} {value : β}
    (h : (name, value) ∈ (m.mapWithKey f).entries) :
    ∃ v, (name, v) ∈ m.entries ∧ value = f name v := by
  obtain ⟨⟨key, v⟩, hv, heq⟩ := List.mem_map.1 h
  cases heq
  exact ⟨v, hv, rfl⟩

end OrderedMap

/-! ## Tables -/

variable {s : Schema} {o : Options} {convert : String → String}

/-- The parts of the tables that are built. -/
theorem SymbolTables.eq_of_build {symbols : SymbolTables}
    (h : build s o (some convert) = .ok symbols) :
    Scalars.table s o = .ok symbols.scalars ∧ Enums.table s o convert = .ok symbols.enums ∧
      symbols.directives = directiveTable o := by
  unfold build at h
  obtain ⟨scalars, hs, h⟩ := exists_of_bind h
  obtain ⟨k, hk, h⟩ := exists_of_bind h
  cases hk
  obtain ⟨enums, he, h⟩ := exists_of_bind h
  cases h
  exact ⟨eq_ok_of_mapError hs, he, rfl⟩

/-- The tables depend on the function on names alone, wherever it comes from. -/
theorem SymbolTables.build_of_conversion {convert? : Option (String → String)}
    (h : conversion o convert? = .ok convert) : build s o convert? = build s o (some convert) := by
  rw [build, h]
  rfl

theorem Scalars.name_of_customEntry {name : String} {entry : String × MappedType}
    (h : customEntry o name = .ok entry) : entry.1 = name := by
  unfold customEntry at h
  split at h
  · cases h
    rfl
  · split_ifs at h
    cases h
    rfl

/-- No scalar has two entries. -/
theorem Scalars.nodup_names (s : Schema) : (BuiltIn.scalars ++ s.customScalars).Nodup := by
  refine List.nodup_append.2 ⟨by decide, s.nodup.sublist (List.filter_sublist.map _), ?_⟩
  rintro name hbuiltIn _ hcustom rfl
  obtain ⟨t, ht, rfl⟩ := List.mem_map.1 hcustom
  have hkept := (List.mem_filter.1 ht).2
  simp only [Bool.and_eq_true, decide_eq_true_eq] at hkept
  exact hkept.2 hbuiltIn

/-- The built-in scalars in the order in which the table has them. -/
theorem Scalars.keys_builtInEntries (o : Options) :
    (builtInEntries o).map Prod.fst = BuiltIn.scalars := by
  rw [builtInEntries, List.map_map]
  rfl

/-- Custom scalars stand under their own names. -/
theorem Scalars.keys_of_mapM_customEntry {names : List String} {custom : List (String × MappedType)}
    (h : names.mapM (customEntry o) = .ok custom) : custom.map Prod.fst = names := by
  have hpairs := (forall₂_of_mapM h).imp fun x p hx => (name_of_customEntry hx).symm
  rw [← List.forall₂_eq_eq_eq, List.forall₂_map_left_iff]
  exact hpairs.flip.imp fun p x hx => hx.symm

/-- The table of scalars has an entry for every built-in and every custom scalar, and no other. -/
theorem Scalars.mem_keys_table {table : OrderedMap MappedType} (h : Scalars.table s o = .ok table)
    (name : String) : name ∈ table.keys ↔ name ∈ BuiltIn.scalars ∨ name ∈ s.customScalars := by
  obtain ⟨custom, hc, h⟩ := exists_of_bind h
  cases h
  rw [OrderedMap.mem_keys_ofList, List.map_append, List.mem_append, keys_builtInEntries,
    keys_of_mapM_customEntry hc]

/-- No two enums of a schema have one name. -/
theorem Schema.nodup_names_enums (s : Schema) : (s.enums.map NamedType.name).Nodup :=
  s.nodup.sublist (List.filter_sublist.map _)

namespace Enums

/-- The table of enums that all come from one module has every enum, under its own name. -/
theorem entries_of_module {table : OrderedMap EnumSymbol}
    (h : Enums.table s o convert = .ok table) {source : String}
    (hmodule : o.enumValues = some (.module source)) :
    table.entries = s.enums.map fun t =>
      (t.name, ⟨identifier o convert t.name, .external source t.name t.name false⟩) := by
  unfold Enums.table at h
  rw [hmodule] at h
  cases h
  refine OrderedMap.entries_ofList ?_
  rw [List.map_map]
  exact s.nodup_names_enums

/-- The enums that are configured but unknown to the schema. -/
def unknownNames (s : Schema) (o : Options) : List String :=
  (configured o).keys.filter fun name => name ∉ s.enums.map NamedType.name

/-- The table of enums that do not all come from one module. -/
theorem table_of_each (s : Schema) (convert : String → String)
    (h : ∀ source, o.enumValues ≠ some (.module source)) :
    table s o convert =
      if unknownNames s o ≠ [] then .error (.config (.unknownEnums (unknownNames s o)))
      else (pointersOf s o).map fun pointers => pointers.mapWithKey (symbol o convert) := by
  unfold table
  split
  · next source hm => exact absurd hm (h source)
  · rfl

/-- An internal value leaves the order of the enums as it is, and may add its own. -/
theorem keys_addInternalValue (m : OrderedMap EnumPointer) (enumName valueName : String)
    (value : Constant) :
    (addInternalValue m enumName valueName value).keys =
      if enumName ∈ m.keys then m.keys else m.keys ++ [enumName] := by
  unfold addInternalValue
  split
  · next pointer h => rw [if_pos (OrderedMap.mem_keys_iff.2 (by simp [h]))]
  all_goals exact OrderedMap.keys_insert m _ _

end Enums

/-- An enum is in the table for the module that all enums come from, or for what is configured for
it or read off its values. -/
theorem Enums.exists_of_mem_table {table : OrderedMap EnumSymbol}
    (h : Enums.table s o convert = .ok table) {name : String} {e : EnumSymbol}
    (he : (name, e) ∈ table.entries) :
    (∃ t ∈ s.enums, ∃ source, name = t.name ∧
      e = ⟨identifier o convert t.name, .external source t.name t.name false⟩) ∨
    ∃ pointers pointer, pointersOf s o = .ok pointers ∧ (name, pointer) ∈ pointers.entries ∧
      e = symbol o convert name pointer := by
  unfold Enums.table at h
  split at h
  · cases h
    obtain ⟨t, ht, heq⟩ := List.mem_map.1 (OrderedMap.mem_of_mem_ofList he)
    cases heq
    exact .inl ⟨t, ht, _, rfl, rfl⟩
  · dsimp only at h
    split_ifs at h
    obtain ⟨pointers, hp, rfl⟩ := exists_of_map h
    obtain ⟨pointer, hmem, rfl⟩ := OrderedMap.mem_of_mem_mapWithKey he
    exact .inr ⟨pointers, pointer, hp, hmem, rfl⟩

/-- An enum in the table has the identifier for its name. -/
theorem Enums.identifier_of_table {table : OrderedMap EnumSymbol}
    (h : Enums.table s o convert = .ok table) {name : String} {e : EnumSymbol}
    (he : (name, e) ∈ table.entries) : e.identifier = identifier o convert name := by
  obtain ⟨t, -, source, rfl, rfl⟩ | ⟨pointers, pointer, -, -, rfl⟩ := exists_of_mem_table h he
  · rfl
  · cases pointer <;> rfl

end SdlTypes

/-!
# Ordered maps

A map from names to values that remembers the order in which its keys came. Options, symbol
tables and everything that is written from them follow this order: imports, the entries of the
containers, the names in a message.

A key occurs once; that is part of the type. `insert` gives a key a new value in its old place,
or puts it at the end, so a map built by `ofList` has each key where it first stood with the
value it got last. `insertNew` leaves a key alone that is already there.
-/

namespace SdlTypes

universe u v

/-- Pairs of names and values in the order of insertion, no name twice. -/
structure OrderedMap (α : Type u) where
  /-- The pairs, first inserted key first. -/
  entries : List (String × α)
  nodup : (entries.map Prod.fst).Nodup

namespace OrderedMap

variable {α : Type u} {β : Type v}

/-- Gives `key` the value in a list of pairs, at its old place or at the end. -/
def upsert (key : String) (value : α) : List (String × α) → List (String × α)
  | [] => [(key, value)]
  | (k, v) :: rest => if k = key then (k, value) :: rest else (k, v) :: upsert key value rest

theorem mem_keys_upsert {key k : String} {value : α} {l : List (String × α)} :
    k ∈ (upsert key value l).map Prod.fst ↔ k = key ∨ k ∈ l.map Prod.fst := by
  induction l with
  | nil => simp [upsert]
  | cons p l ih =>
    obtain ⟨k', v⟩ := p
    by_cases h : k' = key
    · subst h
      simp [upsert]
    · simp only [upsert, if_neg h, List.map_cons, List.mem_cons, ih]
      constructor
      · rintro (h | h | h) <;> simp [h]
      · rintro (h | h | h) <;> simp [h]

theorem nodup_keys_upsert {key : String} {value : α} {l : List (String × α)}
    (h : (l.map Prod.fst).Nodup) : ((upsert key value l).map Prod.fst).Nodup := by
  induction l with
  | nil => simp [upsert]
  | cons p l ih =>
    obtain ⟨k', v⟩ := p
    simp only [List.map_cons, List.nodup_cons] at h
    by_cases hk : k' = key
    · simp only [upsert, if_pos hk, List.map_cons, List.nodup_cons]
      exact h
    · simp only [upsert, if_neg hk, List.map_cons, List.nodup_cons, mem_keys_upsert]
      exact ⟨fun hm => hm.elim hk h.1, ih h.2⟩

/-- The map without keys. -/
def empty : OrderedMap α := ⟨[], List.nodup_nil⟩

instance : EmptyCollection (OrderedMap α) := ⟨empty⟩

instance : Inhabited (OrderedMap α) := ⟨empty⟩

/-- The keys in order. -/
def keys (m : OrderedMap α) : List String :=
  m.entries.map Prod.fst

/-- The values in the order of their keys. -/
def values (m : OrderedMap α) : List α :=
  m.entries.map Prod.snd

/-- Whether the map has no keys. -/
def isEmpty (m : OrderedMap α) : Bool :=
  m.entries.isEmpty

/-- The value of a key. -/
def find? (m : OrderedMap α) (key : String) : Option α :=
  m.entries.lookup key

/-- Whether the map has the key. -/
def contains (m : OrderedMap α) (key : String) : Bool :=
  m.keys.contains key

/-- Gives a key a value, at its old place or at the end. -/
def insert (m : OrderedMap α) (key : String) (value : α) : OrderedMap α :=
  ⟨upsert key value m.entries, nodup_keys_upsert m.nodup⟩

/-- Gives a key a value unless it has one. -/
def insertNew (m : OrderedMap α) (key : String) (value : α) : OrderedMap α :=
  if m.contains key then m else m.insert key value

/-- The map that the pairs build one after another. -/
def ofList (l : List (String × α)) : OrderedMap α :=
  l.foldl (fun m (key, value) => m.insert key value) empty

/-- The map with the same keys and changed values. -/
def mapWithKey (f : String → α → β) (m : OrderedMap α) : OrderedMap β :=
  ⟨m.entries.map fun (key, value) => (key, f key value), by
    have : (m.entries.map fun p => (p.1, f p.1 p.2)).map Prod.fst = m.entries.map Prod.fst := by
      simp [Function.comp_def]
    rw [this]
    exact m.nodup⟩

@[simp] theorem keys_mapWithKey (f : String → α → β) (m : OrderedMap α) :
    (m.mapWithKey f).keys = m.keys := by
  simp [keys, mapWithKey, Function.comp_def]

end OrderedMap

end SdlTypes

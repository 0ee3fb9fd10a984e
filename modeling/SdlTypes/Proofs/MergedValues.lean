import SdlTypes.Proofs.Tables

/-!
# Merged enum values

The table of enums starts from what is configured and takes up the internal values of the schema
one after another. `Enums.constant?_withInternalValues` says what is found afterwards: the
configured value of a constant, and only where there is none the internal one. What is taken up
for one enum is never found under another.

The maps of a configuration may lie where others hold on to them, and two enums may share one.
The second half of the module builds the table in place: maps have addresses, and a value is
added to a map where it lies. A `Workspace` first copies every map that is configured
(`Workspace.copied`) and from then on writes to the copies only. `Workspace.Apart` is what every
step keeps: the maps that were there are as they were, and no two enums of the table share a map.
So the result reads as the table that is built without addresses (`Workspace.read_build`).
-/

namespace SdlTypes

/-! ## Lookups -/

namespace OrderedMap

variable {α : Type}

theorem find?_insertNew (m : OrderedMap α) (key : String) (value : α) (k : String) :
    (m.insertNew key value).find? k = (m.find? k).or (if k = key then some value else none) := by
  unfold insertNew
  by_cases hc : m.contains key = true
  · rw [if_pos hc]
    split_ifs with hk
    · obtain ⟨v, hv⟩ := Option.isSome_iff_exists.1 (mem_keys_iff.1 (contains_iff.1 hc))
      rw [hk, hv, Option.some_or]
    · rw [Option.or_none]
  · rw [if_neg hc, find?_insert]
    split_ifs with hk
    · have hnone : m.find? key = none :=
        Option.not_isSome_iff_eq_none.1 fun h => hc (contains_iff.2 (mem_keys_iff.2 h))
      rw [hk, hnone, Option.none_or]
    · rw [Option.or_none]

theorem eq_of_entries {m m' : OrderedMap α} (h : m.entries = m'.entries) : m = m' := by
  cases m
  cases m'
  cases h
  rfl

/-- Maps with the same keys in the same order are alike if they are looked up alike. -/
theorem eq_of_find? {m m' : OrderedMap α} (hkeys : m.keys = m'.keys)
    (h : ∀ key, m.find? key = m'.find? key) : m = m' := by
  refine eq_of_entries ?_
  rw [entries_eq, entries_eq m', hkeys]
  simp only [h]

/-- Of two values for one key the last one stays. -/
theorem insert_insert (m : OrderedMap α) (key : String) (v w : α) :
    (m.insert key v).insert key w = m.insert key w := by
  refine eq_of_find? ?_ fun k => ?_
  · rw [keys_insert, if_pos (mem_keys_insert.2 (.inl rfl)), keys_insert, keys_insert]
  · rw [find?_insert, find?_insert, find?_insert]
    split_ifs <;> rfl

end OrderedMap

/-- The value that a pointer gives for a constant, if it gives values. -/
def EnumPointer.constant? : EnumPointer → String → Option Constant
  | .type _, _ => none
  | .constants values, name => values.find? name

namespace Enums

/-- The value that the pointers of some enums give for a constant. -/
def constant? (pointers : OrderedMap EnumPointer) (enumName name : String) : Option Constant :=
  (pointers.find? enumName).bind fun pointer => pointer.constant? name

/-- Whether an enum may be given values: no text is configured for it. -/
def IsOpen (pointers : OrderedMap EnumPointer) (enumName : String) : Prop :=
  ∀ text, pointers.find? enumName ≠ some (.type text)

/-! ## Taking up internal values -/

section Merge

variable {m : OrderedMap EnumPointer} {enumName : String}

/-- An internal value only changes what is found for its own enum. -/
theorem find?_addInternalValue_of_ne {other : String} (h : enumName ≠ other) (valueName : String)
    (value : Constant) :
    (addInternalValue m other valueName value).find? enumName = m.find? enumName := by
  unfold addInternalValue
  split
  · rfl
  all_goals rw [OrderedMap.find?_insert, if_neg h]

theorem find?_addInternalValue_of_type {text : String}
    (h : m.find? enumName = some (.type text)) (other valueName : String) (value : Constant) :
    (addInternalValue m other valueName value).find? enumName = some (.type text) := by
  by_cases hother : enumName = other
  · rw [addInternalValue, ← hother, h]
    exact h
  · rw [find?_addInternalValue_of_ne hother, h]

/-- An internal value becomes part of the values of its enum, unless a text is configured. -/
theorem exists_find?_addInternalValue (h : IsOpen m enumName) (valueName : String)
    (value : Constant) :
    ∃ values, (addInternalValue m enumName valueName value).find? enumName =
        some (.constants values) ∧
      ∀ name, values.find? name =
        (constant? m enumName name).or (if name = valueName then some value else none) := by
  unfold addInternalValue
  split
  · next text hm => exact absurd hm (h text)
  · next values hm =>
    refine ⟨_, by rw [OrderedMap.find?_insert, if_pos rfl], fun name => ?_⟩
    rw [OrderedMap.find?_insertNew, constant?, hm]
    rfl
  · next hm =>
    refine ⟨_, by rw [OrderedMap.find?_insert, if_pos rfl], fun name => ?_⟩
    rw [constant?, hm]
    exact OrderedMap.lookup_cons_eq (valueName, value) [] name

theorem isOpen_addInternalValue (h : IsOpen m enumName) (other valueName : String)
    (value : Constant) : IsOpen (addInternalValue m other valueName value) enumName := by
  intro text htext
  by_cases hother : enumName = other
  · subst hother
    obtain ⟨values, hvalues, -⟩ := exists_find?_addInternalValue h valueName value
    rw [hvalues] at htext
    cases htext
  · rw [find?_addInternalValue_of_ne hother] at htext
    exact h text htext

theorem constant?_addInternalValue (h : IsOpen m enumName) (other valueName : String)
    (value : Constant) (name : String) :
    constant? (addInternalValue m other valueName value) enumName name =
      (constant? m enumName name).or
        (if (enumName, name) = (other, valueName) then some value else none) := by
  by_cases hother : enumName = other
  · subst hother
    obtain ⟨values, hvalues, hfind⟩ := exists_find?_addInternalValue h valueName value
    rw [constant?, hvalues, Option.bind_some, EnumPointer.constant?, hfind]
    simp only [Prod.mk.injEq, true_and]
  · have hkey : (enumName, name) ≠ (other, valueName) := fun heq => hother (congrArg Prod.fst heq)
    rw [constant?, find?_addInternalValue_of_ne hother, if_neg hkey, Option.or_none, constant?]

/-- The internal values of some enums in the order in which they are taken up, each with the names
of its enum and its constant. -/
def internalEntries (enums : List NamedType) : List ((String × String) × Constant) :=
  enums.flatMap fun t => (internalValues t).map fun p => ((t.name, p.1), p.2)

/-- A configuration with some internal values taken up. -/
def addEntries (m : OrderedMap EnumPointer) (entries : List ((String × String) × Constant)) :
    OrderedMap EnumPointer :=
  entries.foldl (fun m e => addInternalValue m e.1.1 e.1.2 e.2) m

theorem withInternalValues_eq (enums : List NamedType) (m : OrderedMap EnumPointer) :
    withInternalValues enums m = addEntries m (internalEntries enums) := by
  rw [addEntries, internalEntries, List.foldl_flatMap]
  simp only [List.foldl_map]
  rfl

/-- An enum for which a text is configured keeps the text. -/
theorem find?_addEntries_of_type {text : String} (h : m.find? enumName = some (.type text))
    (entries : List ((String × String) × Constant)) :
    (addEntries m entries).find? enumName = some (.type text) := by
  induction entries generalizing m with
  | nil => exact h
  | cons e entries ih => exact ih (find?_addInternalValue_of_type h _ _ _)

/-- After a walk through internal values an enum has what was configured for it, and besides that
the first internal value of each constant. -/
theorem constant?_addEntries (entries : List ((String × String) × Constant))
    (h : IsOpen m enumName) (name : String) :
    IsOpen (addEntries m entries) enumName ∧
      constant? (addEntries m entries) enumName name =
        (constant? m enumName name).or (entries.lookup (enumName, name)) := by
  induction entries generalizing m with
  | nil => exact ⟨h, Option.or_none.symm⟩
  | cons e entries ih =>
    obtain ⟨⟨other, valueName⟩, value⟩ := e
    obtain ⟨hopen, heq⟩ := ih (isOpen_addInternalValue h other valueName value)
    refine ⟨hopen, heq.trans ?_⟩
    rw [constant?_addInternalValue h, Option.or_assoc, List.lookup_cons]
    congr 1
    split_ifs with hkey
    · rw [hkey, beq_self_eq_true, Option.some_or]
    · rw [beq_false_of_ne hkey, Option.none_or]

/-- The internal values of an enum are found under its name. -/
theorem lookup_internalEntries {enums : List NamedType} (h : (enums.map NamedType.name).Nodup)
    (enumName name : String) :
    (internalEntries enums).lookup (enumName, name) =
      (enums.find? fun t => t.name == enumName).bind fun t => (internalValues t).lookup name := by
  have hother (t : NamedType) (ht : t.name ≠ enumName) :
      ((internalValues t).map fun p => ((t.name, p.1), p.2)).lookup (enumName, name) = none := by
    rw [List.lookup_eq_none_iff]
    intro p hp
    obtain ⟨q, -, rfl⟩ := List.mem_map.1 hp
    exact bne_iff_ne.2 fun heq => ht (congrArg Prod.fst heq).symm
  have hown (t : NamedType) (l : List (String × Constant)) :
      (l.map fun p => ((t.name, p.1), p.2)).lookup (t.name, name) = l.lookup name := by
    induction l with
    | nil => rfl
    | cons p l ih =>
      have hkey : ((t.name, name) == (t.name, p.1)) = (name == p.1) := by
        rw [Bool.eq_iff_iff, beq_iff_eq, beq_iff_eq, Prod.mk.injEq, and_iff_right rfl]
      rw [List.map_cons, List.lookup_cons, List.lookup_cons, ih, hkey]
  induction enums with
  | nil => rfl
  | cons t enums ih =>
    rw [List.map_cons, List.nodup_cons] at h
    have hcons : internalEntries (t :: enums) =
        ((internalValues t).map fun p => ((t.name, p.1), p.2)) ++ internalEntries enums :=
      List.flatMap_cons
    rw [hcons, List.lookup_append, List.find?_cons, ih h.2]
    by_cases ht : t.name = enumName
    · subst ht
      have hrest : (enums.find? fun u => u.name == t.name) = none :=
        List.find?_eq_none.2 fun u hu hn => h.1 (List.mem_map.2 ⟨u, hu, by simpa using hn⟩)
      rw [hown, hrest, Option.bind_none, Option.or_none, beq_self_eq_true, Option.bind_some]
    · rw [hother t ht, Option.none_or, beq_false_of_ne ht]

/-- What is found for an enum once all internal values are taken up. -/
theorem constant?_withInternalValues {enums : List NamedType}
    (hnodup : (enums.map NamedType.name).Nodup) (h : IsOpen m enumName) (name : String) :
    IsOpen (withInternalValues enums m) enumName ∧
      constant? (withInternalValues enums m) enumName name =
        (constant? m enumName name).or
          ((enums.find? fun t => t.name == enumName).bind fun t =>
            (internalValues t).lookup name) := by
  rw [withInternalValues_eq, ← lookup_internalEntries hnodup]
  exact constant?_addEntries _ h name

/-- An enum for which a text is configured is in the table for that text. -/
theorem find?_table_of_type {s : Schema} {o : Options} {convert : String → String}
    {table : OrderedMap EnumSymbol} (h : Enums.table s o convert = .ok table)
    (heach : ∀ source, o.enumValues ≠ some (.module source)) {text : String}
    (htext : (configured o).find? enumName = some (.type text)) :
    table.find? enumName = some (symbol o convert enumName (.type text)) := by
  rw [table_of_each s convert heach] at h
  split_ifs at h
  obtain ⟨pointers, hp, rfl⟩ := exists_of_map h
  have hpointer : pointers.find? enumName = some (.type text) := by
    unfold pointersOf at hp
    split_ifs at hp
    · cases hp
      exact htext
    · split at hp
      · cases hp
      · cases hp
        rw [withInternalValues_eq]
        exact find?_addEntries_of_type htext _
  rw [OrderedMap.find?_mapWithKey, hpointer]
  rfl

end Merge

end Enums

/-! ## Maps with addresses -/

/-- What a table has for an enum if its maps lie elsewhere: a text, or the address of a map. -/
inductive EnumHandle where
  | type (pointer : String)
  | map (address : Nat)

/-- What a handle stands for, given the maps that lie at the addresses. -/
def EnumHandle.read (maps : List (OrderedMap Constant)) : EnumHandle → EnumPointer
  | .type pointer => .type pointer
  | .map address => .constants (maps[address]?.getD ∅)

/-- A table of enums while it is built: all maps that lie somewhere, and the handles. -/
structure Workspace where
  maps : List (OrderedMap Constant)
  handles : OrderedMap EnumHandle

namespace Workspace

/-- The table as it reads at this moment. -/
def read (w : Workspace) : OrderedMap EnumPointer :=
  w.handles.mapWithKey fun _ handle => handle.read w.maps

/-- Gives an enum a map at a new address. -/
def place (w : Workspace) (enumName : String) (values : OrderedMap Constant) : Workspace :=
  ⟨w.maps ++ [values], w.handles.insert enumName (.map w.maps.length)⟩

/-- Takes up what is configured for an enum: a text as it is, of a map a copy. -/
def take (w : Workspace) (enumName : String) : EnumHandle → Workspace
  | .type pointer => { w with handles := w.handles.insert enumName (.type pointer) }
  | .map address => w.place enumName (w.maps[address]?.getD ∅)

/-- The table that has been copied from a configuration. -/
def copied (maps : List (OrderedMap Constant)) (configuration : OrderedMap EnumHandle) :
    Workspace :=
  configuration.entries.foldl (fun w p => w.take p.1 p.2) ⟨maps, ∅⟩

/-- Gives an enum an empty map unless the table has something for it. -/
def provide (w : Workspace) (enumName : String) : Workspace :=
  if w.handles.contains enumName then w else w.place enumName ∅

/-- Adds a value to the map of an enum where it lies, if the enum has a map. -/
def store (w : Workspace) (enumName valueName : String) (value : Constant) : Workspace :=
  match w.handles.find? enumName with
  | some (.map address) =>
    { w with maps := w.maps.modify address fun values => values.insertNew valueName value }
  | _ => w

/-- Takes up an internal value. -/
def add (w : Workspace) (enumName valueName : String) (value : Constant) : Workspace :=
  (w.provide enumName).store enumName valueName value

/-- The table for a configuration, built in place. -/
def build (enums : List NamedType) (maps : List (OrderedMap Constant))
    (configuration : OrderedMap EnumHandle) : Workspace :=
  (Enums.internalEntries enums).foldl (fun w e => w.add e.1.1 e.1.2 e.2)
    (copied maps configuration)

/-- The maps of a table are none of the old ones, which are as they were, and no two enums share
one. -/
structure Apart (old : List (OrderedMap Constant)) (w : Workspace) : Prop where
  /-- The old maps lie where they lay. -/
  kept : old <+: w.maps
  /-- The table uses new addresses only. -/
  bound {enumName : String} {address : Nat} :
    w.handles.find? enumName = some (.map address) →
      old.length ≤ address ∧ address < w.maps.length
  /-- An address belongs to one enum. -/
  own {enumName other : String} {address : Nat} :
    w.handles.find? enumName = some (.map address) →
      w.handles.find? other = some (.map address) → enumName = other

section Steps

variable {old : List (OrderedMap Constant)} {w : Workspace} {enumName : String}

theorem find?_read (w : Workspace) (enumName : String) :
    w.read.find? enumName = (w.handles.find? enumName).map (EnumHandle.read w.maps) :=
  OrderedMap.find?_mapWithKey _ _ _

/-- Two tables read alike if they have the same enums and each of them reads alike. -/
theorem read_eq_insert {w' : Workspace} {pointer : EnumPointer}
    (hkeys : w'.handles.keys = if enumName ∈ w.handles.keys then w.handles.keys
      else w.handles.keys ++ [enumName])
    (hown : (w'.handles.find? enumName).map (EnumHandle.read w'.maps) = some pointer)
    (hother : ∀ other ≠ enumName, (w'.handles.find? other).map (EnumHandle.read w'.maps) =
      (w.handles.find? other).map (EnumHandle.read w.maps)) :
    w'.read = w.read.insert enumName pointer := by
  refine OrderedMap.eq_of_find? ?_ fun other => ?_
  · rw [OrderedMap.keys_insert, read, read, OrderedMap.keys_mapWithKey,
      OrderedMap.keys_mapWithKey, hkeys]
  · rw [OrderedMap.find?_insert, find?_read, find?_read]
    by_cases h : other = enumName
    · rw [if_pos h, h, hown]
    · rw [if_neg h, hother other h]

/-- A map at a new address does not change what the others read. -/
theorem Apart.map_read_append (h : Apart old w) (values : OrderedMap Constant)
    (enumName : String) :
    (w.handles.find? enumName).map (EnumHandle.read (w.maps ++ [values])) =
      (w.handles.find? enumName).map (EnumHandle.read w.maps) := by
  refine Option.map_congr fun handle hhandle => ?_
  cases handle with
  | type pointer => rfl
  | map address =>
    rw [EnumHandle.read, EnumHandle.read, List.getElem?_append_left (h.bound hhandle).2]

theorem Apart.read_place (h : Apart old w) (enumName : String) (values : OrderedMap Constant) :
    (w.place enumName values).read = w.read.insert enumName (.constants values) := by
  refine read_eq_insert (OrderedMap.keys_insert _ _ _) ?_ fun other hne => ?_
  · rw [place, OrderedMap.find?_insert, if_pos rfl, Option.map_some, EnumHandle.read,
      List.getElem?_concat_length, Option.getD_some]
  · rw [place, OrderedMap.find?_insert, if_neg hne, h.map_read_append]

theorem Apart.place (h : Apart old w) (enumName : String) (values : OrderedMap Constant) :
    Apart old (w.place enumName values) := by
  have hhandle {name : String} {address : Nat}
      (hn : (w.place enumName values).handles.find? name = some (.map address)) :
      (name = enumName ∧ address = w.maps.length) ∨
        (w.handles.find? name = some (.map address) ∧ address < w.maps.length) := by
    rw [Workspace.place, OrderedMap.find?_insert] at hn
    split_ifs at hn with hname
    · cases hn
      exact .inl ⟨hname, rfl⟩
    · exact .inr ⟨hn, (h.bound hn).2⟩
  have hlength : (w.place enumName values).maps.length = w.maps.length + 1 :=
    List.length_append
  refine ⟨h.kept.trans (List.prefix_append _ _), fun hn => ?_, fun hn hn' => ?_⟩
  · rw [hlength]
    rcases hhandle hn with ⟨-, rfl⟩ | ⟨hn, hlt⟩
    · exact ⟨h.kept.length_le, Nat.lt_succ_self _⟩
    · exact ⟨(h.bound hn).1, Nat.lt_succ_of_lt hlt⟩
  · -- a new address is not an old one
    rcases hhandle hn with ⟨rfl, rfl⟩ | ⟨hn, hlt⟩ <;>
      rcases hhandle hn' with ⟨rfl, heq⟩ | ⟨hn', hlt'⟩
    · rfl
    · exact absurd hlt' (Nat.lt_irrefl _)
    · exact absurd hlt (heq ▸ Nat.lt_irrefl _)
    · exact h.own hn hn'

/-- A table takes up what is configured for an enum, as it reads among the old maps. -/
theorem Apart.take (h : Apart old w) (enumName : String) {handle : EnumHandle}
    (hhandle : ∀ address, handle = .map address → address < old.length) :
    Apart old (w.take enumName handle) ∧
      (w.take enumName handle).read = w.read.insert enumName (handle.read old) := by
  cases handle with
  | map address =>
    have hold : w.maps[address]? = old[address]? := by
      obtain ⟨rest, hrest⟩ := h.kept
      rw [← hrest, List.getElem?_append_left (hhandle address rfl)]
    rw [Workspace.take, EnumHandle.read, ← hold]
    exact ⟨h.place enumName _, h.read_place enumName _⟩
  | type pointer =>
    have hother {name : String} {address : Nat} (hn : (w.handles.insert enumName
        (.type pointer)).find? name = some (.map address)) :
        w.handles.find? name = some (.map address) := by
      rw [OrderedMap.find?_insert] at hn
      split_ifs at hn
      · cases hn
      · exact hn
    refine ⟨⟨h.kept, fun hn => h.bound (hother hn), fun hn hn' => h.own (hother hn) (hother hn')⟩,
      read_eq_insert (OrderedMap.keys_insert _ _ _) ?_ fun other hne => ?_⟩
    · rw [Workspace.take, OrderedMap.find?_insert, if_pos rfl]
      rfl
    · rw [Workspace.take, OrderedMap.find?_insert, if_neg hne]

theorem Apart.provide (h : Apart old w) (enumName : String) : Apart old (w.provide enumName) := by
  unfold Workspace.provide
  split_ifs
  · exact h
  · exact h.place enumName ∅

/-- A value is written to the map of its enum, and to no other. -/
theorem Apart.store (h : Apart old w) (enumName valueName : String) (value : Constant) :
    Apart old (w.store enumName valueName value) := by
  unfold Workspace.store
  split
  · next address hhandle =>
    refine ⟨?_, fun hn => ?_, h.own⟩
    · rw [List.prefix_iff_getElem?]
      intro i hi
      have hne : address ≠ i := by
        have := (h.bound hhandle).1
        omega
      rw [List.getElem?_modify_ne _ _ hne]
      exact List.prefix_iff_getElem?.1 h.kept i hi
    · rw [List.length_modify]
      exact h.bound hn
  · exact h

theorem Apart.read_store (h : Apart old w) {address : Nat}
    (hhandle : w.handles.find? enumName = some (.map address)) (valueName : String)
    (value : Constant) :
    (w.store enumName valueName value).read = w.read.insert enumName
      (.constants ((w.maps[address]?.getD ∅).insertNew valueName value)) := by
  have hstore : w.store enumName valueName value =
      { w with maps := w.maps.modify address fun values => values.insertNew valueName value } := by
    rw [Workspace.store, hhandle]
  have hlt := (h.bound hhandle).2
  rw [hstore]
  refine read_eq_insert ?_ ?_ fun other hne => Option.map_congr fun handle hother => ?_
  · rw [if_pos (OrderedMap.mem_keys_iff.2 (by rw [hhandle]; rfl))]
  · rw [hhandle, Option.map_some, EnumHandle.read, List.getElem?_modify_eq,
      List.getElem?_eq_getElem hlt]
    rfl
  · cases handle with
    | type pointer => rfl
    | map address' =>
      have hne' : address ≠ address' := fun heq => hne (h.own hother (heq ▸ hhandle))
      rw [EnumHandle.read, EnumHandle.read, List.getElem?_modify_ne _ _ hne']

/-- Taking up a value in place reads as taking it up. -/
theorem Apart.read_add (h : Apart old w) (enumName valueName : String) (value : Constant) :
    (w.add enumName valueName value).read =
      Enums.addInternalValue w.read enumName valueName value := by
  unfold Workspace.add
  cases hhandle : w.handles.find? enumName with
  | none =>
    have hnew : w.handles.contains enumName = false := by
      rw [← Bool.not_eq_true, OrderedMap.contains_iff, OrderedMap.mem_keys_iff, hhandle]
      exact Bool.false_ne_true
    have hplaced : (w.place enumName ∅).handles.find? enumName = some (.map w.maps.length) := by
      rw [Workspace.place, OrderedMap.find?_insert, if_pos rfl]
    have hempty : (w.place enumName ∅).maps[w.maps.length]? = some ∅ :=
      List.getElem?_concat_length
    rw [Workspace.provide, hnew, if_neg Bool.false_ne_true,
      (h.place enumName ∅).read_store hplaced, h.read_place, OrderedMap.insert_insert, hempty,
      Enums.addInternalValue, find?_read, hhandle]
    rfl
  | some handle =>
    have hold : w.handles.contains enumName = true := by
      rw [OrderedMap.contains_iff, OrderedMap.mem_keys_iff, hhandle]
      rfl
    rw [Workspace.provide, if_pos hold, Enums.addInternalValue, find?_read, hhandle]
    cases handle with
    | type pointer => rw [Workspace.store, hhandle]; rfl
    | map address => exact h.read_store hhandle valueName value

theorem Apart.add (h : Apart old w) (enumName valueName : String) (value : Constant) :
    Apart old (w.add enumName valueName value) :=
  (h.provide enumName).store enumName valueName value

/-! ### Runs -/

/-- A table takes up what is configured, as it reads among the old maps. -/
theorem Apart.takeAll {handles : List (String × EnumHandle)}
    (hhandles : ∀ enumName address, (enumName, .map address) ∈ handles → address < old.length)
    (h : Apart old w) :
    Apart old (handles.foldl (fun w p => w.take p.1 p.2) w) ∧
      (handles.foldl (fun w p => w.take p.1 p.2) w).read =
        (handles.map fun p => (p.1, p.2.read old)).foldl (fun m p => m.insert p.1 p.2) w.read := by
  induction handles generalizing w with
  | nil => exact ⟨h, rfl⟩
  | cons p handles ih =>
    obtain ⟨enumName, handle⟩ := p
    obtain ⟨htake, hread⟩ := h.take enumName fun address heq =>
      hhandles enumName address (heq ▸ List.mem_cons_self)
    rw [List.map_cons, List.foldl_cons, List.foldl_cons, ← hread]
    exact ih (fun name address hmem => hhandles name address (List.mem_cons_of_mem _ hmem)) htake

/-- Taking up values in place reads as taking them up. -/
theorem Apart.addAll (h : Apart old w) (entries : List ((String × String) × Constant)) :
    Apart old (entries.foldl (fun w e => w.add e.1.1 e.1.2 e.2) w) ∧
      (entries.foldl (fun w e => w.add e.1.1 e.1.2 e.2) w).read =
        Enums.addEntries w.read entries := by
  induction entries generalizing w with
  | nil => exact ⟨h, rfl⟩
  | cons e entries ih =>
    rw [Enums.addEntries, List.foldl_cons, List.foldl_cons, ← h.read_add]
    exact ih (h.add _ _ _)

variable {configuration : OrderedMap EnumHandle}

/-- What a table copies reads as the configuration. -/
theorem read_copied (hc : ∀ enumName address, (enumName, .map address) ∈ configuration.entries →
      address < old.length) :
    Apart old (copied old configuration) ∧ (copied old configuration).read =
      configuration.mapWithKey fun _ handle => handle.read old := by
  have hempty : Apart old ⟨old, ∅⟩ := ⟨List.prefix_refl _, nofun, nofun⟩
  obtain ⟨hapart, hread⟩ := hempty.takeAll hc
  exact ⟨hapart, hread.trans (OrderedMap.eq_of_entries (OrderedMap.entries_ofList
    (configuration.mapWithKey fun _ handle => EnumHandle.read old handle).nodup))⟩

/-- Building in place leaves the maps of the configuration as they are, also those that several
enums share, and gives the table that is built without addresses. -/
theorem read_build (hc : ∀ enumName address, (enumName, .map address) ∈ configuration.entries →
      address < old.length) (enums : List NamedType) :
    Apart old (build enums old configuration) ∧ (build enums old configuration).read =
      Enums.withInternalValues enums
        (configuration.mapWithKey fun _ handle => handle.read old) := by
  obtain ⟨hapart, hread⟩ := read_copied hc
  rw [Enums.withInternalValues_eq, ← hread]
  exact hapart.addAll _

end Steps

end Workspace

end SdlTypes

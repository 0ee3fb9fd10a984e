import Mathlib.Data.List.Nodup
import SdlTypes.Schema.Arrangement

/-!
# The order of an arranged document

`Schema.arrange` walks through a document, then through the types of a schema, and keeps the
names it has `seen` so far. What comes out is said here without that state, for any schema and
any document, related or not (`IsArrangement`): every type once, those of the document first, and
the directive and schema definitions where they stood.

Both walks are described for any list of names seen before (`names_arrangeDefinitions`,
`mem_seen_arrangeDefinitions`, `names_arrangeTypes`); `arrangeDefinitions_append` cuts the walk
through a document at a definition, which tells what stands in front of it.
-/

namespace SdlTypes

open Sdl

/-! ## First occurrences -/

/-- Leaving elements out and keeping first occurrences may change places. -/
theorem eraseDups_filter {α : Type*} [BEq α] [LawfulBEq α] (p : α → Bool) (l : List α) :
    (l.filter p).eraseDups = l.eraseDups.filter p := by
  induction hn : l.length using Nat.strongRecOn generalizing l with
  | _ n ih =>
    cases l with
    | nil => rfl
    | cons a l =>
      have hlen (q : α → Bool) : (l.filter q).length < n := by
        have := List.length_filter_le q l
        simp only [List.length_cons] at hn
        omega
      have swap : ((l.filter p).filter fun b => !b == a).eraseDups =
          (l.filter fun b => !b == a).eraseDups.filter p := by
        rw [← ih _ (hlen _) _ rfl, List.filter_filter, List.filter_filter]
        simp only [Bool.and_comm]
      cases hp : p a with
      | true =>
        rw [List.filter_cons_of_pos hp, List.eraseDups_cons, List.eraseDups_cons,
          List.filter_cons_of_pos hp, swap]
      | false =>
        have hne : (l.filter p).filter (fun b => !b == a) = l.filter p := by
          rw [List.filter_eq_self]
          rintro b hb
          have hpb : p b = true := (List.mem_filter.1 hb).2
          simp only [Bool.not_eq_true', beq_eq_false_iff_ne]
          rintro rfl
          rw [hp] at hpb
          cases hpb
        rw [List.filter_cons_of_neg (by simp [hp]), List.eraseDups_cons,
          List.filter_cons_of_neg (by simp [hp]), ← swap, hne]

theorem nodup_eraseDups {α : Type*} [BEq α] [LawfulBEq α] (l : List α) : l.eraseDups.Nodup := by
  induction hn : l.length using Nat.strongRecOn generalizing l with
  | _ n ih =>
    cases l with
    | nil => simp
    | cons a l =>
      have := List.length_filter_le (fun b => !b == a) l
      simp only [List.length_cons] at hn
      rw [List.eraseDups_cons, List.nodup_cons, List.mem_eraseDups]
      exact ⟨by simp, ih _ (by omega) _ rfl⟩

/-- The first occurrence of the first element is at the front. -/
theorem eraseDups_cons_filter {α : Type*} [BEq α] [LawfulBEq α] (p : α → Bool) (a : α)
    (l : List α) : (a :: l).eraseDups.filter p =
      if p a then a :: l.eraseDups.filter fun b => p b && !b == a
      else l.eraseDups.filter p := by
  rw [List.eraseDups_cons, eraseDups_filter]
  split_ifs with hp
  · rw [List.filter_cons_of_pos hp, List.filter_filter]
  · rw [List.filter_cons_of_neg hp, List.filter_filter]
    congr 1
    funext b
    by_cases hb : b = a
    · subst hb
      simp [hp]
    · simp [hb]

/-! ## Merged definitions -/

namespace Sdl.TypeDef

/-- What merging keeps of a definition, it keeps at each extension. -/
theorem merge_preserves {α : Type*} (f : TypeDef → α) (h : ∀ d a, f (TypeDef.extend d a) = f d)
    (d : TypeDef) (extensions : List TypeDef) : f (d.merge extensions) = f d := by
  induction extensions generalizing d with
  | nil => rfl
  | cons e rest ih => exact (ih _).trans (h _ _)

@[simp] theorem name_merge (d : TypeDef) (extensions : List TypeDef) :
    (d.merge extensions).name = d.name :=
  merge_preserves TypeDef.name (fun _ _ => rfl) d extensions

@[simp] theorem description_merge (d : TypeDef) (extensions : List TypeDef) :
    (d.merge extensions).description = d.description :=
  merge_preserves TypeDef.description (fun _ _ => rfl) d extensions

@[simp] theorem kind_merge (d : TypeDef) (extensions : List TypeDef) :
    (d.merge extensions).kind = d.kind := by
  refine merge_preserves TypeDef.kind (fun d a => ?_) d extensions
  cases hb : d.body <;> simp [TypeDef.kind, TypeDef.extend, TypeBody.extend, TypeBody.kind, hb]

end Sdl.TypeDef

/-! ## Names and places -/

/-- The names of the type definitions among some definitions. -/
def typeNamesOf (ds : List Definition) : List String :=
  (ds.filterMap Definition.typeDef?).map TypeDef.name

/-- Whether a definition keeps its place whatever stands before it. -/
def Sdl.Definition.isPlaced : Definition → Bool
  | .directive _ => true
  | .schema _ => true
  | _ => false

/-- Whether a schema has a type of some name. -/
def Schema.knows (s : Schema) (name : String) : Bool :=
  (s.find? name).isSome

/-- The names of the types that definitions define and a schema knows, in the order in which they
are first defined. -/
def Schema.firstNames (s : Schema) (ds : List Definition) : List String :=
  (typeNamesOf ds).eraseDups.filter s.knows

/-- The names of the types of a schema that an arrangement adds to those with the names `given`. -/
def Schema.furtherNames (s : Schema) (given : List String) : List String :=
  (s.types.map NamedType.name).filter fun name =>
    name ∉ given ∧ ¬Schema.isReserved name ∧ name ∉ BuiltIn.scalars

/-- What it means that a document arranges the definitions `written` for a schema. -/
structure IsArrangement (s : Schema) (written : List Definition) (arranged : Document) : Prop where
  /-- No type stands twice. -/
  nodup : (arranged.types.map TypeDef.name).Nodup
  /-- The types are those that are written and known, as they are first defined, followed by all
  others of the schema that have to be declared. -/
  names : arranged.types.map TypeDef.name =
    s.firstNames written ++ s.furtherNames (typeNamesOf written)
  /-- Besides types there are only directive and schema definitions. -/
  kinds : ∀ d ∈ arranged.definitions, d.isPlaced ∨ d.typeDef?.isSome
  /-- All directive and schema definitions are there, in their order. -/
  placed : arranged.definitions.filter Definition.isPlaced = written.filter Definition.isPlaced
  /-- A directive or schema definition stands behind the types that are first defined before it,
  and in front of all others. -/
  place : ∀ before d behind, written = before ++ d :: behind → d.isPlaced →
    ∃ front back, arranged.definitions = front ++ d :: back ∧
      typeNamesOf front = s.firstNames before ∧
      front.filter Definition.isPlaced = before.filter Definition.isPlaced

namespace Schema

variable (s : Schema)

/-! ## The walk through a document -/

/-- What the walk makes of one definition: what it arranges, and the names seen afterwards. -/
theorem arrangeDefinitions_cons (seen : List String) (d : Definition) (rest : List Definition) :
    s.arrangeDefinitions seen (d :: rest) =
      ((s.arrangeDefinitions seen [d]).1 ++
          (s.arrangeDefinitions (s.arrangeDefinitions seen [d]).2 rest).1,
        (s.arrangeDefinitions (s.arrangeDefinitions seen [d]).2 rest).2) := by
  cases d with
  | type d =>
    simp only [arrangeDefinitions]
    cases s.find? d.name with
    | none => rfl
    | some t => by_cases h : d.name ∈ seen <;> simp [h]
  | _ => rfl

/-- The walk through two documents is the walk through the first, then the second with what has
been seen by then. -/
theorem arrangeDefinitions_append (seen : List String) (front back : List Definition) :
    s.arrangeDefinitions seen (front ++ back) =
      ((s.arrangeDefinitions seen front).1 ++
          (s.arrangeDefinitions (s.arrangeDefinitions seen front).2 back).1,
        (s.arrangeDefinitions (s.arrangeDefinitions seen front).2 back).2) := by
  induction front generalizing seen with
  | nil => rfl
  | cons d front ih =>
    rw [List.cons_append, arrangeDefinitions_cons, ih, arrangeDefinitions_cons s seen d front]
    simp only [List.append_assoc]

/-- Seen are, after the walk, the names from before and those of all types that are written and
known. -/
theorem mem_seen_arrangeDefinitions (seen : List String) (ds : List Definition) (name : String) :
    name ∈ (s.arrangeDefinitions seen ds).2 ↔
      name ∈ seen ∨ (name ∈ typeNamesOf ds ∧ s.knows name) := by
  induction ds generalizing seen with
  | nil => simp [arrangeDefinitions, typeNamesOf]
  | cons d rest ih =>
    cases d with
    | type d =>
      have hnames : typeNamesOf (.type d :: rest) = d.name :: typeNamesOf rest := rfl
      rw [hnames, List.mem_cons]
      cases hfind : s.find? d.name with
      | none =>
        have hd : s.knows d.name = false := by simp [knows, hfind]
        simp only [arrangeDefinitions, hfind, ih]
        grind
      | some t =>
        have hd : s.knows d.name = true := by simp [knows, hfind]
        by_cases hseen : d.name ∈ seen
        · simp only [arrangeDefinitions, hfind, if_pos hseen, ih]
          grind
        · simp only [arrangeDefinitions, hfind, if_neg hseen, ih, List.mem_cons]
          grind
    | _ => exact ih seen

/-- The types that the walk arranges: those that are written and known and not yet seen, in the
order of their first definitions. -/
theorem names_arrangeDefinitions (seen : List String) (ds : List Definition) :
    typeNamesOf (s.arrangeDefinitions seen ds).1 =
      (typeNamesOf ds).eraseDups.filter fun name => s.knows name && name ∉ seen := by
  induction ds generalizing seen with
  | nil => rfl
  | cons d rest ih =>
    cases d with
    | type d =>
      have hnames (ds : List Definition) :
          typeNamesOf (.type d :: ds) = d.name :: typeNamesOf ds := rfl
      rw [hnames, eraseDups_cons_filter]
      cases hfind : s.find? d.name with
      | none =>
        have hd : s.knows d.name = false := by simp [knows, hfind]
        simp only [arrangeDefinitions, hfind, ih, hd, Bool.false_and, Bool.false_eq_true, if_false]
      | some t =>
        have hd : s.knows d.name = true := by simp [knows, hfind]
        by_cases hseen : d.name ∈ seen
        · simp [arrangeDefinitions, hfind, hseen, ih]
        · simp only [arrangeDefinitions, hfind, if_neg hseen]
          have hname : typeNamesOf (.type (d.merge t.extensions) ::
              (s.arrangeDefinitions (d.name :: seen) rest).1) =
                (d.merge t.extensions).name ::
                  typeNamesOf (s.arrangeDefinitions (d.name :: seen) rest).1 := rfl
          rw [hname, ih, TypeDef.name_merge, if_pos (by simp [hd, hseen])]
          congr 2
          funext name
          by_cases h : name = d.name <;> simp [h]
    | _ => exact ih seen

/-- The walk keeps all directive and schema definitions in their order. -/
theorem placed_arrangeDefinitions (seen : List String) (ds : List Definition) :
    (s.arrangeDefinitions seen ds).1.filter Definition.isPlaced =
      ds.filter Definition.isPlaced := by
  induction ds generalizing seen with
  | nil => rfl
  | cons d rest ih =>
    cases d with
    | type d =>
      have hd (d : TypeDef) (ds : List Definition) :
          (Definition.type d :: ds).filter Definition.isPlaced = ds.filter Definition.isPlaced :=
        rfl
      rw [hd]
      cases hfind : s.find? d.name with
      | none => simp only [arrangeDefinitions, hfind, ih]
      | some t =>
        by_cases hseen : d.name ∈ seen
        · simp only [arrangeDefinitions, hfind, if_pos hseen, ih]
        · simp only [arrangeDefinitions, hfind, if_neg hseen, hd, ih]
    | directive d => exact congrArg (Definition.directive d :: ·) (ih seen)
    | schema d => exact congrArg (Definition.schema d :: ·) (ih seen)
    | _ => exact ih seen

/-- The walk arranges only types, directives and schema definitions. -/
theorem kinds_arrangeDefinitions (seen : List String) (ds : List Definition) :
    ∀ d ∈ (s.arrangeDefinitions seen ds).1, d.isPlaced ∨ d.typeDef?.isSome := by
  induction ds generalizing seen with
  | nil => simp [arrangeDefinitions]
  | cons d rest ih =>
    cases d with
    | type d =>
      cases hfind : s.find? d.name with
      | none => simpa only [arrangeDefinitions, hfind] using ih seen
      | some t =>
        by_cases hseen : d.name ∈ seen
        · simpa only [arrangeDefinitions, hfind, if_pos hseen] using ih seen
        · simp only [arrangeDefinitions, hfind, if_neg hseen, List.forall_mem_cons]
          exact ⟨.inr rfl, ih _⟩
    | directive d => exact List.forall_mem_cons.2 ⟨.inl rfl, ih seen⟩
    | schema d => exact List.forall_mem_cons.2 ⟨.inl rfl, ih seen⟩
    | _ => exact ih seen

/-! ## The walk through the types of a schema -/

/-- The walk through types is a filter, since no two of them have one name. -/
theorem arrangeTypes_eq_filter (seen : List String) (ts : List NamedType)
    (h : (ts.map NamedType.name).Nodup) :
    arrangeTypes seen ts =
      (ts.filter fun t => t.name ∉ seen ∧ ¬isReserved t.name ∧ t.name ∉ BuiltIn.scalars).map
        fun t => .type t.merged := by
  induction ts generalizing seen with
  | nil => rfl
  | cons t rest ih =>
    rw [List.map_cons, List.nodup_cons] at h
    unfold arrangeTypes
    split_ifs with hskip
    · rw [ih seen h.2, List.filter_cons_of_neg (by rw [decide_eq_true_eq]; tauto)]
    · rw [ih _ h.2, List.filter_cons_of_pos (by rw [decide_eq_true_eq]; tauto), List.map_cons]
      congr 2
      apply List.filter_congr
      intro u hu
      have hne : u.name ≠ t.name := fun he => h.1 (he ▸ List.mem_map_of_mem hu)
      simp [hne]

/-- The definitions of an arrangement: those of both walks. -/
theorem definitions_arrange (document : Option Document) :
    (s.arrange document).definitions =
      (s.arrangeDefinitions [] ((document.map Document.definitions).getD [])).1 ++
        arrangeTypes (s.arrangeDefinitions [] ((document.map Document.definitions).getD [])).2
          s.types :=
  rfl

/-- The names that the walk through the types adds to a document. -/
theorem names_arrangeTypes (written : List Definition) :
    typeNamesOf (arrangeTypes (s.arrangeDefinitions [] written).2 s.types) =
      s.furtherNames (typeNamesOf written) := by
  have hname : (fun d => Option.map TypeDef.name (Definition.typeDef? d)) ∘
      (fun t => .type t.merged) = fun t => some (NamedType.name t) := by
    funext t
    exact congrArg some (TypeDef.name_merge _ _)
  rw [arrangeTypes_eq_filter _ _ s.nodup, typeNamesOf, furtherNames, List.map_filterMap,
    List.filterMap_map, hname, List.filterMap_eq_map', List.filter_map]
  congr 1
  apply List.filter_congr
  intro t ht
  have hknown : s.knows t.name := by
    rw [knows, find?, List.find?_isSome]
    exact ⟨t, ht, beq_self_eq_true _⟩
  simp [mem_seen_arrangeDefinitions, hknown]

/-- What the walk through the types adds are types of the schema with their extensions. -/
theorem exists_merged_of_mem_arrangeTypes {seen : List String} {d : Definition}
    (h : d ∈ arrangeTypes seen s.types) : ∃ t ∈ s.types, d = .type t.merged := by
  rw [arrangeTypes_eq_filter _ _ s.nodup] at h
  obtain ⟨t, ht, rfl⟩ := List.mem_map.1 h
  exact ⟨t, (List.mem_filter.1 ht).1, rfl⟩

/-- From the start the walk arranges the types that are written and known. -/
theorem names_arrangeDefinitions_nil (ds : List Definition) :
    typeNamesOf (s.arrangeDefinitions [] ds).1 = s.firstNames ds := by
  rw [names_arrangeDefinitions, firstNames]
  congr 1
  funext name
  simp

/-- The walk passes a directive or schema definition on behind all that it has arranged. -/
theorem arrangeDefinitions_cut (seen : List String) (before behind : List Definition)
    {d : Definition} (hd : d.isPlaced) :
    ∃ back, (s.arrangeDefinitions seen (before ++ d :: behind)).1 =
      (s.arrangeDefinitions seen before).1 ++ d :: back := by
  have hself (seen : List String) : (s.arrangeDefinitions seen [d]).1 = [d] := by
    cases d with
    | directive | schema => rfl
    | _ => exact absurd hd Bool.false_ne_true
  rw [arrangeDefinitions_append, arrangeDefinitions_cons, hself, List.singleton_append]
  exact ⟨_, rfl⟩

/-- The arrangement of a document has every type once and in order, whatever the schema: no type
is lost, repeated or moved, and what is no type, directive or schema definition is gone. -/
theorem isArrangement_arrange (document : Option Document) :
    IsArrangement s ((document.map Document.definitions).getD []) (s.arrange document) := by
  have hdefs := s.definitions_arrange document
  generalize (document.map Document.definitions).getD [] = written at hdefs ⊢
  have hnames : (s.arrange document).types.map TypeDef.name =
      s.firstNames written ++ s.furtherNames (typeNamesOf written) := by
    rw [Document.types, hdefs, List.filterMap_append, List.map_append]
    exact congrArg₂ (· ++ ·) (s.names_arrangeDefinitions_nil written) (s.names_arrangeTypes written)
  refine ⟨?_, hnames, ?_, ?_, ?_⟩
  · rw [hnames]
    refine List.Nodup.append ((nodup_eraseDups _).filter _) (s.nodup.filter _) ?_
    intro name hf hr
    have hwritten := List.mem_eraseDups.1 (List.mem_filter.1 hf).1
    have hnew := of_decide_eq_true (List.mem_filter.1 hr).2
    exact hnew.1 hwritten
  · rw [hdefs]
    intro d hd
    rcases List.mem_append.1 hd with hd | hd
    · exact s.kinds_arrangeDefinitions [] written d hd
    · obtain ⟨t, -, rfl⟩ := s.exists_merged_of_mem_arrangeTypes hd
      exact .inr rfl
  · have hnone : (arrangeTypes (s.arrangeDefinitions [] written).2 s.types).filter
        Definition.isPlaced = [] := by
      rw [List.filter_eq_nil_iff]
      intro d hd
      obtain ⟨t, -, rfl⟩ := s.exists_merged_of_mem_arrangeTypes hd
      exact Bool.false_ne_true
    rw [hdefs, List.filter_append, placed_arrangeDefinitions, hnone, List.append_nil]
  · rintro before d behind rfl hd
    obtain ⟨back, hback⟩ := s.arrangeDefinitions_cut [] before behind hd
    exact ⟨_, _, by rw [hdefs, hback, List.append_assoc, List.cons_append],
      s.names_arrangeDefinitions_nil before, s.placed_arrangeDefinitions [] before⟩

end Schema

end SdlTypes

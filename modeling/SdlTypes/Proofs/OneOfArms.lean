import Mathlib.Data.List.Nodup
import Mathlib.Data.Set.Insert
import SdlTypes.Declaration.OneOf
import SdlTypes.Proofs.ImportedEnums
import SdlTypes.Proofs.Pieces
import SdlTypes.Proofs.ReadonlyProperties

/-!
# What the arms of a union accept

`Line.read?` and `readObject?` read the properties of an object type back from its text. What they
read from an arm is the chosen property first, required and with its own type, and then all others,
which can only be absent (`OneOf.readObject?_arm`).

An object has an object type if it has a value of the right type for each required property, and for
each optional one that it sets. So an object that sets some of the members fits the union if and
only if it sets exactly one, and then it fits the arm of this member alone (`OneOf.arms_exclusive`).
-/

namespace SdlTypes

open Text

/-! ## Reading properties -/

/-- The characters that stand between the parts of a property. -/
def propertyMarks : List Char :=
  [' ', '?', ':', ';']

/-- The names of a schema leave the marks alone. -/
theorem Sdl.IsName.marksFree {name : String} (h : IsName name) :
    ∀ c ∈ propertyMarks, c ∉ name.toList := by
  obtain ⟨first, rest, hs, hfirst, hrest⟩ := h
  have hmarks : ∀ c ∈ propertyMarks, ¬Sdl.Token.isNameStart c ∧ ¬Sdl.Token.isNamePart c := by
    simp only [propertyMarks, List.forall_mem_cons, List.not_mem_nil, false_implies, implies_true,
      and_true]
    decide
  intro c hc hmem
  rcases List.mem_cons.1 (hs ▸ hmem) with rfl | hmem
  · exact (hmarks c hc).1 hfirst
  · exact (hmarks c hc).2 (hrest c hmem)

namespace Line

/-- A property as it stands in an object type on one line. -/
def piece (l : Line) : String :=
  modifier l.readonly ++ l.name ++ (if l.optional then "?" else "") ++ ": " ++ l.type

/-- Reads a property with its name and type. -/
def readKey? (readonly : Bool) (s : String) : Option Line :=
  (cut? ": " s).map fun (key, type) =>
    if endsWith key "?" then
      { readonly, name := String.ofList key.toList.dropLast, optional := true, type }
    else { readonly, name := key, optional := false, type }

/-- Reads a property as it stands in an object type on one line. -/
def read? (s : String) : Option Line :=
  if startsWith s "readonly " then readKey? true (String.ofList (s.toList.drop "readonly ".length))
  else readKey? false s

/-- Whether a property can be read back from an object type: its name and its type leave the marks
alone that structure it, and it has no comment. -/
structure IsReadable (l : Line) : Prop where
  comment : l.comment = ""
  name : ∀ c ∈ propertyMarks, c ∉ l.name.toList
  type : ';' ∉ l.type.toList

variable {l : Line}

theorem readKey?_piece (h : l.IsReadable) (readonly : Bool) :
    readKey? readonly (l.name ++ (if l.optional then "?" else "") ++ ": " ++ l.type) =
      some { l with readonly } := by
  obtain ⟨comment, r, name, optional, type⟩ := l
  obtain ⟨rfl, hname, -⟩ := h
  have hcolon : ':' ∉ name.toList := hname ':' (by decide)
  have hmark : '?' ∉ name.toList := hname '?' (by decide)
  cases optional with
  | false =>
    have hends : endsWith name "?" = false := endsWith_eq_false List.mem_cons_self hmark
    have hkey : name ++ (if false = true then "?" else "") = name := String.append_empty
    dsimp only
    rw [hkey, readKey?, cut?_append (by decide) hcolon, Option.map_some]
    simp only [hends, Bool.false_eq_true, if_false]
  | true =>
    have hkey : ':' ∉ (name ++ "?").toList := by
      rw [String.toList_append]
      exact fun hmem => (List.mem_append.1 hmem).elim hcolon (by decide)
    have hends : endsWith (name ++ "?") "?" = true := endsWith_append _ _
    have hchars : (name ++ "?").toList.dropLast = name.toList := by
      rw [String.toList_append]
      exact List.dropLast_concat
    rw [if_pos rfl, readKey?, cut?_append (by decide) hkey, Option.map_some]
    simp only [hends, if_true, hchars, String.ofList_toList]

/-- Without a modifier a property does not begin like one that has it. -/
theorem startsWith_readonly (h : l.IsReadable) :
    startsWith (l.name ++ (if l.optional then "?" else "") ++ ": " ++ l.type) "readonly " =
      false := by
  rw [startsWith, ← Bool.not_eq_true, List.isPrefixOf_iff_prefix]
  intro hstarts
  have hkey : (l.name ++ (if l.optional then "?" else "") ++ ":").toList <+:
      (l.name ++ (if l.optional then "?" else "") ++ ": " ++ l.type).toList := by
    have hsplit (key : String) : key ++ ": " ++ l.type = key ++ ":" ++ (" " ++ l.type) := by
      rw [show ": " = ":" ++ " " from rfl]
      simp only [String.append_assoc]
    rw [hsplit]
    generalize l.name ++ (if l.optional then "?" else "") ++ ":" = key
    rw [String.toList_append]
    exact List.prefix_append ..
  rcases List.prefix_or_prefix_of_prefix hstarts hkey with hprefix | hprefix
  · -- there is a blank in the modifier, and none before the colon
    have hblank : ' ' ∈ (l.name ++ (if l.optional then "?" else "") ++ ":").toList :=
      hprefix.subset (by decide)
    rw [String.toList_append, String.toList_append] at hblank
    rcases List.mem_append.1 hblank with hblank | hblank
    · rcases List.mem_append.1 hblank with hblank | hblank
      · exact h.name ' ' (by decide) hblank
      · cases hoptional : l.optional <;> simp [hoptional] at hblank
    · exact absurd hblank (by decide)
  · have hcolon : ':' ∈ "readonly ".toList :=
      hprefix.subset (by rw [String.toList_append]; exact List.mem_append_right _ (by decide))
    exact absurd hcolon (by decide)

/-- A property is read from its piece. -/
theorem read?_piece (h : l.IsReadable) : read? l.piece = some l := by
  have hkey : readKey? l.readonly _ = some l := readKey?_piece h l.readonly
  have hstarts := startsWith_readonly h
  have hpiece : l.piece = modifier l.readonly ++
      (l.name ++ (if l.optional then "?" else "") ++ ": " ++ l.type) := by
    simp only [piece, String.append_assoc]
  rw [read?, hpiece]
  generalize l.name ++ (if l.optional then "?" else "") ++ ": " ++ l.type = behind at hkey hstarts
  cases hreadonly : l.readonly with
  | true =>
    have hmodifier : startsWith (modifier true ++ behind) "readonly " = true :=
      startsWith_append _ _
    have hdrop : (modifier true ++ behind).toList.drop "readonly ".length = behind.toList := by
      rw [String.toList_append]
      exact List.drop_left
    rw [hreadonly] at hkey
    rw [if_pos hmodifier, hdrop, String.ofList_toList, hkey]
  | false =>
    have hmodifier : modifier false ++ behind = behind := String.empty_append
    rw [hreadonly] at hkey
    rw [hmodifier, hstarts, if_neg Bool.false_ne_true, hkey]

end Line

/-! ## Reading object types -/

/-- Reads a property behind a brace or a semicolon. -/
def readPiece? (s : String) : Option Line :=
  match s.toList with
  | ' ' :: rest => Line.read? (String.ofList rest)
  | _ => none

/-- Reads the properties of an object type on one line. -/
def readObject? (s : String) : Option (List Line) :=
  match s.toList with
  | '\x7b' :: rest =>
    if " \x7d".toList.isSuffixOf rest then
      (split ';' (String.ofList (rest.take (rest.length - 2)))).mapM readPiece?
    else none
  | _ => none

theorem readPiece?_piece {l : Line} (h : l.IsReadable) : readPiece? (" " ++ l.piece) = some l := by
  have hchars : (" " ++ l.piece).toList = ' ' :: l.piece.toList := String.toList_append
  rw [readPiece?, hchars]
  change Line.read? (String.ofList l.piece.toList) = some l
  rw [String.ofList_toList, Line.read?_piece h]

theorem not_mem_piece {l : Line} (h : l.IsReadable) : ';' ∉ (" " ++ l.piece).toList := by
  have hname := h.name ';' (by decide)
  have htype := h.type
  have hmodifier : ';' ∉ (Line.modifier l.readonly).toList := by cases l.readonly <;> decide
  have hmark : ';' ∉ (if l.optional then "?" else "").toList := by cases l.optional <;> decide
  have hblank : ';' ∉ " ".toList := by decide
  have hcolon : ';' ∉ ": ".toList := by decide
  simp only [Line.piece, String.toList_append, List.mem_append, not_or]
  exact ⟨hblank, ⟨⟨⟨hmodifier, hname⟩, hmark⟩, hcolon⟩, htype⟩

/-- An object type is read from the text of its properties. -/
theorem readObject?_join {lines : List Line} (hne : lines ≠ []) (h : ∀ l ∈ lines, l.IsReadable) :
    readObject? ("\x7b " ++ join "; " (lines.map Line.piece) ++ " \x7d") = some lines := by
  obtain ⟨first, rest, rfl⟩ := List.exists_cons_of_ne_nil hne
  let pieces := (first :: rest).map fun l => " " ++ l.piece
  have htext : "\x7b " ++ join "; " ((first :: rest).map Line.piece) ++ " \x7d" =
      "\x7b" ++ (join ";" pieces ++ " \x7d") := by
    have hjoin : " " ++ join "; " ((first :: rest).map Line.piece) = join ";" pieces := by
      rw [List.map_cons, OneOf.Arm.join_semicolon, ← List.map_cons, List.map_map]
      rfl
    rw [← hjoin, show "\x7b " = "\x7b" ++ " " from rfl]
    simp only [String.append_assoc]
  have hchars : ("\x7b" ++ (join ";" pieces ++ " \x7d")).toList =
      '\x7b' :: ((join ";" pieces).toList ++ [' ', '\x7d']) := by
    rw [String.toList_append, String.toList_append]
    rfl
  have hsplit : split ';' (join ";" pieces) = pieces := by
    refine split_join rfl (by simp [pieces]) fun piece hpiece => ?_
    obtain ⟨l, hl, rfl⟩ := List.mem_map.1 hpiece
    exact not_mem_piece (h l hl)
  have hread : pieces.mapM readPiece? = some (first :: rest) := by
    simp only [pieces]
    generalize first :: rest = lines at h
    induction lines with
    | nil => rfl
    | cons l lines ih =>
      obtain ⟨hl, hlines⟩ := List.forall_mem_cons.1 h
      rw [List.map_cons, List.mapM_cons, readPiece?_piece hl, ih hlines]
      rfl
  rw [htext, readObject?, hchars]
  change (if [' ', '\x7d'].isSuffixOf ((join ";" pieces).toList ++ [' ', '\x7d']) then _ else _) = _
  rw [if_pos (List.isSuffixOf_iff_suffix.2 (List.suffix_append ..)), List.length_append]
  have htake : ((join ";" pieces).toList ++ [' ', '\x7d']).take
      ((join ";" pieces).toList.length + [' ', '\x7d'].length - 2) = (join ";" pieces).toList := by
    rw [List.length_cons, List.length_singleton, Nat.add_sub_cancel]
    exact List.take_left
  rw [htake, String.ofList_toList, hsplit, hread]

/-! ## Objects -/

section

variable {V : Type} (has : V → String → Prop)

/-- Whether a value has a type. None has the type `never`. -/
def HasType (v : V) (type : String) : Prop :=
  type ≠ "never" ∧ has v type

/-- Whether a property admits what an object sets under its name. -/
def Line.Admits (l : Line) : Option V → Prop
  | none => l.optional = true
  | some v => HasType has v l.type

/-- Whether an object, given by what it sets, has an object type. -/
def Accepts (type : String) (o : String → Option V) : Prop :=
  ∃ lines, readObject? type = some lines ∧ ∀ l ∈ lines, l.Admits has (o l.name)

end

namespace OneOf

/-! ## Reading arms -/

/-- The type of a member where it is chosen: its override, or its type without the wrapper. -/
def chosenType (p : Property) : String :=
  p.override.getD p.type.unwrapped.render

theorem typeText_exact (p : Property) : p.typeText true = chosenType p := by
  rw [Property.typeText, chosenType]
  cases p.override <;> rfl

/-- The properties in the arm of a member: first the member itself, which is required, and then all
others in their order, which can only be absent. -/
def armLines (p : Property) (members : List Property) (readonly : Bool) : List Line :=
  { readonly, name := p.name, optional := false, type := chosenType p } ::
    (members.filter (·.name ≠ p.name)).map fun q =>
      { readonly, name := q.name, optional := true, type := "never" }

/-- Members that a union can be made of, so that it can be read. -/
structure AreChoices (members : List Property) : Prop where
  nonempty : members ≠ []
  nodup : (members.map Property.name).Nodup
  nullable : ∀ p ∈ members, p.required = false
  names : ∀ p ∈ members, ∀ c ∈ propertyMarks, c ∉ p.name.toList
  types : ∀ p ∈ members, ';' ∉ (chosenType p).toList

/-- Whether an object sets exactly the members with the given names, each to a value of its type. -/
structure SetsExactly {V : Type} (has : V → String → Prop) (members : List Property)
    (S : Set String) (o : String → Option V) : Prop where
  isSome_iff : ∀ name, (o name).isSome ↔ name ∈ S
  hasType : ∀ p ∈ members, ∀ v, o p.name = some v → HasType has v (chosenType p)

section

variable {p : Property} {members : List Property} {readonly : Bool}

theorem object_arm (htype : ';' ∉ (chosenType p).toList) :
    (arm p members readonly).object =
      "\x7b " ++ join "; " ((armLines p members readonly).map Line.piece) ++ " \x7d" := by
  have htrimmed : dropEndWhile (· = ';') (chosenType p ++ ";").toList = (chosenType p).toList := by
    rw [String.toList_append]
    exact dropEndWhile_append (by simp) fun c hc => decide_eq_false fun heq => htype (heq ▸ hc)
  have hchosen : String.ofList (dropEndWhile (· = ';')
      (arm p members readonly).chosen.signature.toList) =
        Line.piece { readonly, name := p.name, optional := false, type := chosenType p } := by
    have htype : (arm p members readonly).chosen.type = chosenType p := typeText_exact p
    have hrequired : (arm p members readonly).chosen.optional = false := Bool.and_false _
    rw [Arm.trimmed_signature, htype, htrimmed, hrequired, String.ofList_toList, Line.piece,
      propertyStart]
    simp only [String.append_assoc]
    rfl
  have hexcluded (name : String) : Line.modifier readonly ++ name ++ "?: never" =
      Line.piece { readonly, name, optional := true, type := "never" } := by
    rw [Line.piece, show "?: never" = "?" ++ (": " ++ "never") from rfl]
    simp only [String.append_assoc, if_true]
  have hproperties : (arm p members readonly).properties =
      (armLines p members readonly).map Line.piece := by
    rw [Arm.properties, hchosen, armLines, List.map_cons, List.map_map, arm, List.filter_map,
      List.map_map]
    exact congrArg (_ :: ·) (List.map_congr_left fun q _ => hexcluded q.name)
  rw [Arm.object, hproperties]

theorem readObject?_arm (h : AreChoices members) (hp : p ∈ members) :
    readObject? (arm p members readonly).object = some (armLines p members readonly) := by
  rw [object_arm (h.types p hp)]
  refine readObject?_join (List.cons_ne_nil _ _) fun l hl => ?_
  rcases List.mem_cons.1 hl with rfl | hl
  · exact ⟨rfl, h.names p hp, h.types p hp⟩
  · obtain ⟨q, hq, rfl⟩ := List.mem_map.1 hl
    have hnever : ';' ∉ "never".toList := by decide
    exact ⟨rfl, h.names q (List.mem_of_mem_filter hq), hnever⟩

/-- An arm names every member once. -/
theorem perm_names_armLines (h : AreChoices members) (hp : p ∈ members) :
    ((armLines p members readonly).map Line.name).Perm (members.map Property.name) := by
  have hnames : (armLines p members readonly).map Line.name =
      p.name :: (members.map Property.name).filter (· ≠ p.name) := by
    rw [armLines, List.map_cons, List.map_map, List.filter_map]
    rfl
  have herase : (members.map Property.name).filter (· ≠ p.name) =
      (members.map Property.name).erase p.name := by
    rw [h.nodup.erase_eq_filter]
    exact List.filter_congr fun name _ => by rw [bne, beq_eq_decide, decide_not]
  rw [hnames, herase]
  exact (List.perm_cons_erase (List.mem_map_of_mem hp)).symm

/-- Objects of the members that an arm accepts are those that set its member alone. -/
theorem accepts_arm_iff {V : Type} {has : V → String → Prop} {S : Set String}
    {o : String → Option V} (h : AreChoices members) (hp : p ∈ members)
    (hS : ∀ name ∈ S, name ∈ members.map Property.name) (ho : SetsExactly has members S o) :
    Accepts has (arm p members readonly).object o ↔ S = {p.name} := by
  have hlines : Accepts has (arm p members readonly).object o ↔
      ∀ l ∈ armLines p members readonly, l.Admits has (o l.name) := by
    rw [Accepts, readObject?_arm h hp]
    simp only [Option.some.injEq, exists_eq_left']
  rw [hlines]
  constructor
  · intro hadmits
    obtain ⟨hchosen, hothers⟩ := List.forall_mem_cons.1 hadmits
    refine Set.eq_singleton_iff_unique_mem.2 ⟨(ho.isSome_iff p.name).1 ?_, fun name hname => ?_⟩
    · cases hset : o p.name with
      | some v => rfl
      | none => simp [Line.Admits, hset] at hchosen
    · -- another member that is set would have to have a value of the type `never`
      by_contra hne
      obtain ⟨q, hq, rfl⟩ := List.mem_map.1 (hS name hname)
      obtain ⟨v, hv⟩ := Option.isSome_iff_exists.1 ((ho.isSome_iff q.name).2 hname)
      have hother := hothers _ (List.mem_map_of_mem (List.mem_filter.2 ⟨hq, decide_eq_true hne⟩))
      simp [Line.Admits, HasType, hv] at hother
  · rintro rfl l hl
    rcases List.mem_cons.1 hl with rfl | hl
    · obtain ⟨v, hv⟩ := Option.isSome_iff_exists.1 ((ho.isSome_iff p.name).2 rfl)
      rw [hv]
      exact ho.hasType p hp v hv
    · obtain ⟨q, hq, rfl⟩ := List.mem_map.1 hl
      have hne : q.name ≠ p.name := of_decide_eq_true (List.mem_filter.1 hq).2
      cases hset : o q.name with
      | none => rfl
      | some v => exact absurd ((ho.isSome_iff q.name).1 (hset ▸ rfl)) hne

/-- Members that may be null have arms. -/
theorem arms_eq (h : ∀ p ∈ members, p.required = false) (typeName : String) :
    arms typeName members readonly = .ok (members.map fun p => arm p members readonly) := by
  have hchecked : members.forM (checkNullable typeName) = .ok () := by
    generalize members = ps at h
    induction ps with
    | nil => rfl
    | cons p ps ih =>
      obtain ⟨hp, hps⟩ := List.forall_mem_cons.1 h
      change (checkNullable typeName p >>= fun _ => ps.forM (checkNullable typeName)) = _
      rw [checkNullable, hp, ih hps]
      rfl
  rw [arms, hchecked]
  rfl

theorem Arm.text_eq (a : Arm) : a.text = a.comment ++ "  | " ++ a.object := by
  rw [text, indent, show "  | " = "  " ++ "| " from rfl]
  simp only [String.append_assoc]
  rfl

/-- Some member alone is set if and only if just one arm accepts the object. -/
theorem existsUnique_accepts {V : Type} {has : V → String → Prop} {S : Set String}
    {o : String → Option V} (h : AreChoices members) (hp : p ∈ members)
    (hS : ∀ name ∈ S, name ∈ members.map Property.name) (ho : SetsExactly has members S o)
    (hset : S = {p.name}) :
    ∃! i : Nat, ∃ a, (members.map fun q => arm q members readonly)[i]? = some a ∧
      Accepts has a.object o := by
  obtain ⟨i, hi⟩ := List.mem_iff_getElem?.1 hp
  refine ⟨i, ⟨_, by rw [List.getElem?_map, hi]; rfl, (accepts_arm_iff h hp hS ho).2 hset⟩, ?_⟩
  rintro j ⟨a, ha, haccepts⟩
  rw [List.getElem?_map] at ha
  obtain ⟨q, hj, rfl⟩ := Option.map_eq_some_iff.1 ha
  have hq := List.mem_of_getElem? hj
  have hname : q.name = p.name := by
    rw [(accepts_arm_iff h hq hS ho).1 haccepts] at hset
    exact Set.singleton_injective hset
  -- the names are distinct, so the places of the two are the same
  have hnames (k : Nat) : (members.map Property.name)[k]? = members[k]?.map Property.name :=
    List.getElem?_map
  have hlt : j < (members.map Property.name).length := by
    rw [List.length_map]
    exact (List.getElem?_eq_some_iff.1 hj).1
  refine (List.getElem?_inj hlt h.nodup).1 ?_
  rw [hnames, hnames, hi, hj, Option.map_some, Option.map_some, hname]

/-- The union of members has one arm for each of them, in their order, below its comment. In an arm
each member is named once: first its own, which is required, and then all others, which can only be
absent. So what sets some of the members fits the union if and only if it sets exactly one of them,
and then it fits exactly one arm. -/
theorem arms_exclusive (h : AreChoices members) (typeName : String) (readonly : Bool) :
    ∃ as, arms typeName members readonly = .ok as ∧
      unionText as = "\n" ++ join "\n" (as.map fun a => a.comment ++ "  | " ++ a.object) ∧
      as.map Arm.comment = members.map Property.comment ∧
      (as.map fun a => readObject? a.object) =
        members.map (fun p => some (armLines p members readonly)) ∧
      (∀ p ∈ members,
        ((armLines p members readonly).map Line.name).Perm (members.map Property.name)) ∧
      ∀ (V : Type) (has : V → String → Prop) (S : Set String) (o : String → Option V),
        (∀ name ∈ S, name ∈ members.map Property.name) → SetsExactly has members S o →
        ((∃ a ∈ as, Accepts has a.object o) ↔ ∃! name, name ∈ S) ∧
        ((∃! name, name ∈ S) → ∃! i : Nat, ∃ a, as[i]? = some a ∧ Accepts has a.object o) := by
  refine ⟨_, arms_eq h.nullable typeName, ?_, ?_, ?_, fun p hp => perm_names_armLines h hp, ?_⟩
  · have hne : (members.map fun p => arm p members readonly).isEmpty = false := by
      rw [List.isEmpty_map]
      exact List.isEmpty_eq_false_iff.2 h.nonempty
    rw [unionText, if_neg (by simp [hne])]
    exact congrArg (fun texts => "\n" ++ join "\n" texts) (List.map_congr_left fun a _ => a.text_eq)
  · rw [List.map_map]
    rfl
  · rw [List.map_map]
    exact List.map_congr_left fun p hp => readObject?_arm h hp
  · intro V has S o hS ho
    have hunique : (∃! name, name ∈ S) ↔ ∃ p ∈ members, S = {p.name} := by
      constructor
      · rintro ⟨name, hname, honly⟩
        obtain ⟨p, hp, rfl⟩ := List.mem_map.1 (hS name hname)
        exact ⟨p, hp, Set.eq_singleton_iff_unique_mem.2 ⟨hname, honly⟩⟩
      · rintro ⟨p, -, rfl⟩
        exact ⟨p.name, rfl, fun _ => id⟩
    rw [hunique]
    constructor
    · simp only [List.mem_map, exists_exists_and_eq_and]
      exact exists_congr fun p => and_congr_right fun hp => accepts_arm_iff h hp hS ho
    · rintro ⟨p, hp, hset⟩
      exact existsUnique_accepts h hp hS ho hset

end

/-- The members of an input object for pets. -/
def pets : List Property :=
  [⟨"cat", .nullable "CatInput" true, true, false, "", none⟩,
    ⟨"dog", .nullable "DogInput" true, true, false, "", some "Hound | Terrier"⟩]

theorem arms_exclusive_pets :
    ∃ as, arms "Pet" pets true = .ok as ∧
      (as.map fun a => readObject? a.object) =
        [some [⟨"", true, "cat", false, "CatInput"⟩, ⟨"", true, "dog", true, "never"⟩],
          some [⟨"", true, "dog", false, "Hound | Terrier"⟩, ⟨"", true, "cat", true, "never"⟩]] ∧
      ∃! i : Nat, ∃ a, as[i]? = some a ∧ Accepts (fun (_ : String) _ => True) a.object
        fun name => if name = "dog" then some "Rex" else none := by
  have hpets : AreChoices pets := by
    refine ⟨by decide, by decide, by decide, ?_, by decide⟩
    simp only [propertyMarks, List.forall_mem_cons, List.not_mem_nil, false_implies, implies_true,
      and_true]
    decide
  obtain ⟨as, has, -, -, hread, -, hobjects⟩ := arms_exclusive hpets "Pet" true
  refine ⟨as, has, hread.trans (by decide), ?_⟩
  have hset : SetsExactly (fun (_ : String) _ => True) pets {"dog"}
      fun name => if name = "dog" then some "Rex" else none := by
    have htypes : ∀ p ∈ pets, chosenType p ≠ "never" := by decide
    refine ⟨fun name => ?_, fun p hp v _ => ⟨htypes p hp, trivial⟩⟩
    by_cases hname : name = "dog" <;> simp [hname]
  have hmember : ∀ name ∈ ({"dog"} : Set String), name ∈ pets.map Property.name := by
    rintro name rfl
    decide
  exact (hobjects String (fun _ _ => True) {"dog"} _ hmember hset).2 ⟨"dog", rfl, fun _ => id⟩

end OneOf

end SdlTypes

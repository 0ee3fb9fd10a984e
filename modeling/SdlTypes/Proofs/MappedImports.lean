import SdlTypes.Proofs.EnumBindings
import SdlTypes.Proofs.NameCharacters
import SdlTypes.Proofs.Pieces
import SdlTypes.Proofs.TypeTexts

/-!
# The imports of mapped types

A configured text without a number sign is written as it is and needs no import. One that points
into a module is written with a name of that module, and the statement that imports the name has to
bind just what the type begins with.

`ImportStatement.read?` reads the text of a statement: the module that it imports from, and each
identifier that it binds, with what this stands for. `MappedType.refers_to_import` says that the
statement for a mapped type, as it is written, binds the part of the type before its first dot and
nothing else, and binds it to the export that the configured text names.
-/

namespace SdlTypes

open Sdl Text

/-! ## Reading import statements -/

namespace Text

theorem IsWord.blankFree {s : String} (h : IsWord s) : BlankFree s where
  nonempty := h.nonempty
  isBlank c hc := isBlank_of_isIdentifierPart (h.parts c hc)

theorem IsWord.append {s t : String} (h : IsWord s) (ht : AreIdentifierParts t.toList) :
    IsWord (s ++ t) where
  nonempty heq := h.nonempty (String.append_eq_empty_iff.1 heq).1
  parts := by
    rw [String.toList_append, areIdentifierParts_append]
    exact ⟨h.parts, ht⟩

/-- The part of a text before its first dot. -/
def rootOf (s : String) : String :=
  String.ofList (s.toList.takeWhile (· ≠ '.'))

theorem rootOf_of_notMem {s : String} (h : '.' ∉ s.toList) : rootOf s = s := by
  have hall : s.toList.takeWhile (· ≠ '.') = s.toList :=
    List.takeWhile_eq_self_iff.2 fun c hc => decide_eq_true fun heq => h (heq ▸ hc)
  rw [rootOf, hall, String.ofList_toList]

theorem rootOf_word {s : String} (h : IsWord s) : rootOf s = s :=
  rootOf_of_notMem (h.parts.notMem (by decide))

theorem rootOf_append {root : String} (h : '.' ∉ root.toList) (path : String) :
    rootOf (root ++ "." ++ path) = root := by
  have hall : ∀ c ∈ root.toList, decide (c ≠ '.') = true :=
    fun c hc => decide_eq_true fun heq => h (heq ▸ hc)
  have hchars : (root ++ "." ++ path).toList = root.toList ++ '.' :: path.toList := by
    simp [String.toList_append]
  have htake : (root.toList ++ '.' :: path.toList).takeWhile (· ≠ '.') = root.toList := by
    rw [List.takeWhile_append_of_pos hall, List.takeWhile_cons_of_neg (by simp), List.append_nil]
  rw [rootOf, hchars, htake, String.ofList_toList]

/-- What stands behind a front of a known length. -/
theorem ofList_drop_append {n : Nat} {s t : String} (h : s.toList.length = n) :
    String.ofList ((s ++ t).toList.drop n) = t := by
  rw [String.toList_append, ← h, List.drop_left, String.ofList_toList]

/-- What stands before an end of a known length. -/
theorem ofList_take_append {n : Nat} {s t : String} (h : t.toList.length = n) :
    String.ofList ((s ++ t).toList.take ((s ++ t).toList.length - n)) = s := by
  have hlength : (s ++ t).toList.length - n = s.toList.length := by
    rw [String.toList_append, List.length_append, h, Nat.add_sub_cancel]
  rw [hlength, String.toList_append, List.take_left, String.ofList_toList]

end Text

/-- The export of a module with some name, which is the default one under the name `default`. -/
def Entity.ofExport (source name : String) : Entity :=
  if name = "default" then .default source else .export source name

theorem Entity.ofExport_default (source : String) : ofExport source "default" = .default source :=
  if_pos rfl

namespace ImportStatement

/-- Reads one name between the braces of an import, which may get another name behind `as`. -/
def readSpecifier (source s : String) : String × Entity :=
  match cut? " as " s with
  | some (name, other) => (other, .ofExport source name)
  | none => (s, .ofExport source s)

/-- Reads the names that stand between braces, or the one name without them. -/
def readNames (source s : String) : List (String × Entity) :=
  if startsWith s "\x7b " && endsWith s " \x7d" then
    (split ',' (String.ofList ((s.toList.drop 2).take (s.toList.length - 4)))).map fun piece =>
      readSpecifier source (trim piece)
  else [(s, .default source)]

/-- Reads what stands between `import` and `from`. -/
def readClause (source s : String) : List (String × Entity) :=
  if startsWith s "type " then readNames source (String.ofList (s.toList.drop 5))
  else readNames source s

/-- Reads an import statement: the module and what is bound, in the order of the names. -/
def read? (s : String) : Option (String × List (String × Entity)) :=
  if startsWith s "import " && endsWith s "';" then
    (cut? " from '" (String.ofList (s.toList.drop 7))).map fun (clause, behind) =>
      let source := String.ofList (behind.toList.take (behind.toList.length - 2))
      (source, readClause source clause)
  else none

/-- A statement is read in two parts. -/
theorem read?_text {clause : String} (h : '\'' ∉ clause.toList) (source : String) :
    read? ("import " ++ clause ++ " from '" ++ source ++ "';") =
      some (source, readClause source clause) := by
  have hends : endsWith ("import " ++ clause ++ " from '" ++ source ++ "';") "';" = true :=
    endsWith_append _ _
  have htext : "import " ++ clause ++ " from '" ++ source ++ "';" =
      "import " ++ (clause ++ " from '" ++ (source ++ "';")) := by
    simp only [String.append_assoc]
  have hquote : '\'' ∉ clause.toList ++ " from ".toList := by
    rw [List.mem_append, not_or]
    exact ⟨h, by decide⟩
  have hcut : cut? " from '" (clause ++ " from '" ++ (source ++ "';")) =
      some (clause, source ++ "';") := cut?_append_of_last rfl hquote _
  have hdrop :
      String.ofList (("import " ++ (clause ++ " from '" ++ (source ++ "';"))).toList.drop 7) =
        clause ++ " from '" ++ (source ++ "';") := ofList_drop_append rfl
  have htake : String.ofList ((source ++ "';").toList.take ((source ++ "';").toList.length - 2)) =
      source := ofList_take_append rfl
  rw [read?, hends, htext, startsWith_append, Bool.true_and, if_pos rfl, hdrop, hcut,
    Option.map_some]
  dsimp only
  rw [htake]

/-- Between braces there is one name, or one name with another. -/
theorem readNames_braces {names : String} (hcomma : ',' ∉ names.toList) (htrim : trim names = names)
    (source : String) :
    readNames source ("\x7b " ++ names ++ " \x7d") = [readSpecifier source names] := by
  have hstarts : startsWith ("\x7b " ++ names ++ " \x7d") "\x7b " = true := by
    rw [String.append_assoc]
    exact startsWith_append _ _
  have hmiddle : String.ofList ((("\x7b " ++ names ++ " \x7d").toList.drop 2).take
      (("\x7b " ++ names ++ " \x7d").toList.length - 4)) = names := by
    refine String.toList_injective ?_
    simp [String.toList_append]
  have hsplit : split ',' (join "," [names]) = [names] :=
    split_join rfl (List.cons_ne_nil names []) (List.forall_mem_singleton.2 hcomma)
  rw [join_singleton] at hsplit
  rw [readNames, hstarts, endsWith_append, Bool.true_and, if_pos rfl, hmiddle, hsplit,
    List.map_singleton, htrim]

/-- Without braces there is the name of the default export. -/
theorem readNames_word {name : String} (h : IsWord name) (source : String) :
    readNames source name = [(name, .default source)] := by
  have hblank : ' ' ∉ name.toList := h.parts.notMem (by decide)
  have hstarts : startsWith name "\x7b " = false := startsWith_eq_false (by decide) hblank
  rw [readNames, hstarts, Bool.false_and, if_neg Bool.false_ne_true]

/-- The mark for types alone does not count. -/
theorem readClause_type (source s : String) :
    readClause source ("type " ++ s) = readNames source s := by
  have hdrop : String.ofList (("type " ++ s).toList.drop 5) = s := ofList_drop_append rfl
  rw [readClause, startsWith_append, if_pos rfl, hdrop]

theorem readClause_of_notMem {s : String} (h : startsWith s "type " = false) (source : String) :
    readClause source s = readNames source s := by
  rw [readClause, h, if_neg Bool.false_ne_true]

/-- A name, or a name with another, as it stands between the braces of an import. -/
structure IsSpecifier (s : String) : Prop where
  quote : '\'' ∉ s.toList
  comma : ',' ∉ s.toList
  trim : trim s = s

/-- An import with braces binds what the specifier between them says. -/
theorem read?_braces {s : String} (h : IsSpecifier s) (source : String) (typesOnly : Bool) :
    read? ("import " ++ ((if typesOnly then "type " else "") ++ ("\x7b " ++ s ++ " \x7d")) ++
      " from '" ++ source ++ "';") = some (source, [readSpecifier source s]) := by
  have hquote :
      '\'' ∉ ((if typesOnly then "type " else "") ++ ("\x7b " ++ s ++ " \x7d")).toList := by
    cases typesOnly <;> simp [String.toList_append, h.quote]
  have hstarts : startsWith ("\x7b " ++ s ++ " \x7d") "type " = false := by
    rw [startsWith, String.toList_append, String.toList_append]
    rfl
  rw [read?_text hquote]
  cases typesOnly with
  | true => rw [if_pos rfl, readClause_type, readNames_braces h.comma h.trim]
  | false =>
    rw [if_neg Bool.false_ne_true, String.empty_append, readClause_of_notMem hstarts,
      readNames_braces h.comma h.trim]

/-- An import of a name alone binds the default export. -/
theorem read?_word {name : String} (h : IsWord name) (source : String) :
    read? ("import " ++ name ++ " from '" ++ source ++ "';") =
      some (source, [(name, .default source)]) := by
  have hblank : ' ' ∉ name.toList := h.parts.notMem (by decide)
  have hstarts : startsWith name "type " = false := startsWith_eq_false (by decide) hblank
  rw [read?_text (h.parts.notMem (by decide)), readClause_of_notMem hstarts, readNames_word h]

theorem isSpecifier_word {name : String} (h : IsWord name) : IsSpecifier name where
  quote := h.parts.notMem (by decide)
  comma := h.parts.notMem (by decide)
  trim := h.blankFree.trim

theorem isSpecifier_renamed {name other : String} (h : IsWord name) (hother : IsWord other) :
    IsSpecifier (name ++ " as " ++ other) where
  quote := by
    simp [String.toList_append, h.parts.notMem (c := '\'') (by decide),
      hother.parts.notMem (c := '\'') (by decide)]
  comma := by
    simp [String.toList_append, h.parts.notMem (c := ',') (by decide),
      hother.parts.notMem (c := ',') (by decide)]
  trim := h.blankFree.trim_append hother.blankFree _

theorem readSpecifier_word {name : String} (h : IsWord name) (source : String) :
    readSpecifier source name = (name, .ofExport source name) := by
  rw [readSpecifier, h.blankFree.spaceFree.cut?_as]

theorem readSpecifier_renamed {name : String} (h : IsWord name) (source other : String) :
    readSpecifier source (name ++ " as " ++ other) = (other, .ofExport source name) := by
  rw [readSpecifier, h.blankFree.spaceFree.cut?_append_as]

/-- The statement for a named export, as it is written. -/
theorem read?_named {s : String} (h : IsSpecifier s) (source : String) (typesOnly : Bool) :
    read? (named s source typesOnly).text = some (source, [readSpecifier source s]) := by
  have htext : (named s source typesOnly).text =
      "import" ++ (if typesOnly then " type" else "") ++ " \x7b " ++ s ++ " \x7d from '" ++
        source ++ "';" := rfl
  have hfront : "import" ++ (if typesOnly then " type" else "") ++ " \x7b " =
      "import " ++ (if typesOnly then "type " else "") ++ "\x7b " := by
    cases typesOnly <;> decide
  have hbehind : " \x7d from '" = " \x7d" ++ " from '" := by decide
  rw [← read?_braces h source typesOnly, htext, hfront, hbehind]
  simp only [String.append_assoc]

/-- The statement for the default export, as it is written. -/
theorem read?_default {name : String} (h : IsWord name) (source : String) (typesOnly : Bool) :
    read? (default name source typesOnly).text = some (source, [(name, .default source)]) := by
  cases typesOnly with
  | false => exact read?_word h source
  | true =>
    -- with types alone the default export is a named one with a name of one's own
    have hdefault : IsWord "default" := by decide
    have htext : (default name source true).text =
        "import type \x7b default as " ++ name ++ " \x7d from '" ++ source ++ "';" := rfl
    have hfront : "import type \x7b default as " =
        "import " ++ (if true then "type " else "") ++ "\x7b " ++ "default" ++ " as " := by decide
    have hbehind : " \x7d from '" = " \x7d" ++ " from '" := by decide
    have hread := read?_braces (isSpecifier_renamed hdefault h) source true
    rw [readSpecifier_renamed hdefault, Entity.ofExport_default] at hread
    rw [← hread, htext, hfront, hbehind]
    simp only [String.append_assoc]

end ImportStatement

/-! ## Mapped types -/

namespace Export

/-- The names in the text for an export. -/
def names : Export → List String
  | .default => []
  | .named name => [name]
  | .renamed name other => [name, other]
  | .member root _ => [root]

/-- What the text for an export refers to in a module: the default export, the named one, or the
root of a path. -/
def entity (source : String) : Export → Entity
  | .default => .default source
  | .named name => .ofExport source name
  | .renamed name _ => .ofExport source name
  | .member root _ => .ofExport source root

/-- What is imported as it is gets the ending. -/
theorem endsWith_localName {x : Export} (h : x = .default ∨ ∃ exported, x = .named exported)
    (name ending : String) : endsWith (x.localName name ending) ending = true := by
  obtain rfl | ⟨exported, rfl⟩ := h
  · exact endsWith_append _ _
  · exact endsWith_append _ _

end Export

theorem Sdl.IsName.isWord {name : String} (h : IsName name) : IsWord name :=
  ⟨h.ne_empty, h.areNameParts.areIdentifierParts⟩

namespace MappedType

open ImportStatement

variable {name ending source : String} {x : Export}

/-- The type starts with the name for the export. -/
theorem rootOf_imported (hname : IsName name) (hending : AreIdentifierParts ending.toList)
    (hx : x.IsSound) (hwords : ∀ word ∈ x.names, IsWord word) :
    rootOf (imported source x.text name ending).type = x.localName name ending := by
  rw [imported_eq hx]
  cases x with
  | default => exact rootOf_word (hname.isWord.append hending)
  | named exported =>
    have hexported := hwords exported List.mem_cons_self
    dsimp only
    split_ifs with hempty
    · subst hempty
      exact (rootOf_word hexported).trans String.append_empty.symm
    · exact rootOf_word (hexported.append hending)
  | renamed exported other =>
    exact rootOf_word (hwords other (List.mem_cons_of_mem _ List.mem_cons_self))
  | member root path =>
    exact rootOf_append ((hwords root List.mem_cons_self).parts.notMem (by decide)) path

/-- The import binds the name for the export, and nothing else. -/
theorem read?_importStatement (hname : IsName name) (hending : AreIdentifierParts ending.toList)
    (hx : x.IsSound) (hwords : ∀ word ∈ x.names, IsWord word) (typesOnly : Bool) :
    ∃ i, (imported source x.text name ending).importStatement? typesOnly = some i ∧
      read? i.text = some (source, [(x.localName name ending, x.entity source)]) := by
  rw [imported_eq hx]
  cases x with
  | default => exact ⟨_, rfl, read?_default (hname.isWord.append hending) source typesOnly⟩
  | named exported =>
    have hexported := hwords exported List.mem_cons_self
    dsimp only
    split_ifs with hempty
    · subst hempty
      refine ⟨_, rfl, (read?_named (isSpecifier_word hexported) source typesOnly).trans ?_⟩
      rw [readSpecifier_word hexported, Export.localName, String.append_empty]
      rfl
    · have hspecifier := isSpecifier_renamed hexported (hexported.append hending)
      refine ⟨_, rfl, (read?_named hspecifier source typesOnly).trans ?_⟩
      rw [readSpecifier_renamed hexported]
      rfl
  | renamed exported other =>
    have hexported := hwords exported List.mem_cons_self
    have hother := hwords other (List.mem_cons_of_mem _ List.mem_cons_self)
    refine ⟨_, rfl, (read?_named (isSpecifier_renamed hexported hother) source typesOnly).trans ?_⟩
    rw [readSpecifier_renamed hexported]
    rfl
  | member root path =>
    have hroot := hwords root List.mem_cons_self
    refine ⟨_, rfl, (read?_named (isSpecifier_word hroot) source typesOnly).trans ?_⟩
    rw [readSpecifier_word hroot]
    rfl

/-- A mapped type refers to what its import binds. A text without a number sign is written as it is
and imports nothing. A text that denotes an export of a module, from words and with words around
`as`, has one import, be it of types alone or not; as it is written, the statement is from the text
in front of the first number sign, and it binds one identifier, the part of the type before its
first dot, to what the text refers to. An ending is behind names that are imported as they are. -/
theorem refers_to_import {name ending : String} (hname : IsName name)
    (hending : AreIdentifierParts ending.toList) :
    (∀ pointer : String, '#' ∉ pointer.toList →
      (parse pointer name ending).type = pointer ∧
      ∀ typesOnly, (parse pointer name ending).importStatement? typesOnly = none) ∧
    ∀ (source text : String) (x : Export), '#' ∉ source.toList → x.Denotes (trim text) →
      (∀ word ∈ x.names, IsWord word) →
      let m := parse (source ++ "#" ++ text) name ending
      (∀ typesOnly, ∃ i, m.importStatement? typesOnly = some i ∧
        read? i.text = some (source, [(rootOf m.type, x.entity source)])) ∧
      rootOf m.type = x.localName name ending ∧
      (x = .default ∨ (∃ exported, x = .named exported) → endsWith (rootOf m.type) ending) := by
  refine ⟨fun pointer h => ?_, fun source text x hsource hx hwords => ?_⟩
  · rw [parse_of_inline h]
    exact ⟨rfl, fun _ => rfl⟩
  · have hcut : cut? "#" (source ++ "#" ++ text) = some (source, text) :=
      cut?_append (by decide) hsource text
    have hparse :
        parse (source ++ "#" ++ text) name ending = imported source x.text name ending := by
      rw [parse, hcut]
      exact hx.imported_eq source name ending
    dsimp only
    rw [hparse, rootOf_imported hname hending hx.isSound hwords]
    exact ⟨read?_importStatement hname hending hx.isSound hwords, rfl,
      fun h => Export.endsWith_localName h name ending⟩

theorem refers_to_import_money :
    (parse "string | number" "Money" "Type").importStatement? true = none ∧
    (∃ i, (parse "./m#default" "Money" "Type").importStatement? true = some i ∧
      read? i.text = some ("./m", [("MoneyType", .default "./m")])) ∧
    (∃ i, (parse "./m#Sum" "Money" "Type").importStatement? true = some i ∧
      read? i.text = some ("./m", [("SumType", .export "./m" "Sum")])) ∧
    (∃ i, (parse "./m# Sum  as   Cash " "Money" "Type").importStatement? false = some i ∧
      read? i.text = some ("./m", [("Cash", .export "./m" "Sum")])) ∧
    ∃ i, (parse "./m#Bank.Sum" "Money" "Type").importStatement? false = some i ∧
      read? i.text = some ("./m", [("Bank", .export "./m" "Bank")]) := by
  have hname : IsName "Money" :=
    ⟨'M', "oney".toList, rfl, by decide, areNameParts_of_all (by decide)⟩
  have hending : AreIdentifierParts "Type".toList := by decide
  obtain ⟨hinline, himported⟩ := refers_to_import hname hending
  have hdefault : Export.default.Denotes (trim "default") := by
    rw [show trim "default" = "default" by decide]
    exact .default
  have hnamed : (Export.named "Sum").Denotes (trim "Sum") := by
    rw [show trim "Sum" = "Sum" by decide]
    exact .named (by decide) (by decide)
  have hrenamed : (Export.renamed "Sum" "Cash").Denotes (trim " Sum  as   Cash ") := by
    rw [show trim " Sum  as   Cash " = "Sum" ++ spaces 2 ++ "as" ++ spaces 3 ++ "Cash" by decide]
    exact .renamed (by decide) (by decide) 1 2
  have hmember : (Export.member "Bank" "Sum").Denotes (trim "Bank.Sum") := by
    rw [show trim "Bank.Sum" = "Bank" ++ "." ++ "Sum" by decide]
    exact .member (by decide) (by decide)
  have hbinds (pointer text : String) (x : Export) (hpointer : pointer = "./m" ++ "#" ++ text)
      (hx : x.Denotes (trim text)) (hwords : ∀ word ∈ x.names, IsWord word) (typesOnly : Bool) :
      ∃ i, (parse pointer "Money" "Type").importStatement? typesOnly = some i ∧
        read? i.text = some ("./m", [(x.localName "Money" "Type", x.entity "./m")]) := by
    obtain ⟨himport, hroot, -⟩ := himported "./m" text x (by decide) hx hwords
    rw [hpointer, ← hroot]
    exact himport typesOnly
  exact ⟨(hinline _ (by decide)).2 true, hbinds _ _ _ rfl hdefault (by decide) true,
    hbinds _ _ _ rfl hnamed (by decide) true, hbinds _ _ _ rfl hrenamed (by decide) false,
    hbinds _ _ _ rfl hmember (by decide) false⟩

end MappedType

end SdlTypes

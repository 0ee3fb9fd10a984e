import SdlTypes.Proofs.Descriptions
import SdlTypes.Proofs.EnumConstants
import SdlTypes.Proofs.Rejection

/-!
# The shape of objects and interfaces

What an object or interface is folded to is written down here a second time, as text and without
going through blocks: its own declaration (`FoldContext.ownText`), then one for each field that has
arguments (`FoldContext.argumentsText`). The rows between braces are those of
`FoldContext.ownRows`, and what a type is equal to is `rightSide` of the identifiers of interfaces
and the block, if there is one.

`FoldContext.withoutComments_object_iff` says that this is what is left of the text without its
comments, and that the right side reads as the intersection of its operands just if no interface
has an empty identifier. Under the conventions that join the words of a name, a name of underscores
alone has.
-/

namespace SdlTypes

open Sdl Text

/-! ## Texts of declarations -/

/-- The row of a property. -/
def row (readonly : Bool) (name : String) (optional : Bool) (type : String) : String :=
  "  " ++ (if readonly then "readonly " else "") ++ name ++ (if optional then "?" else "") ++
    ": " ++ type ++ ";"

/-- The block of some rows, if there are any. -/
def blockOf (rows : List String) : List String :=
  if rows = [] then [] else ["\x7b\n" ++ join "\n" rows ++ "\n\x7d"]

/-- What stands on the right side for some operands: empty braces if that would be nothing. -/
def rightSide (operands : List String) : String :=
  if join " & " operands = "" then "\x7b\x7d" else join " & " operands

/-- The name of a declaration in front of what follows it. -/
def labelOf (name : String) : String :=
  if name = "" then "" else name ++ " "

/-- The intersection of some operands as it is meant to be written: no operand is empty, so there is
no separator before the first or behind the last one, and empty braces stand for none at all. -/
def IsIntersection (operands : List String) (text : String) : Prop :=
  (∀ s ∈ operands, s ≠ "") ∧ text = if operands = [] then "\x7b\x7d" else join " & " operands

theorem blockOf_ne_empty {rows : List String} : ∀ s ∈ blockOf rows, s ≠ "" := by
  intro s hs
  unfold blockOf at hs
  split_ifs at hs
  · cases hs
  · rw [List.mem_singleton.1 hs]
    exact append_ne_empty (by decide)

/-- The right side is an intersection of its operands if none of them is empty. -/
theorem isIntersection_rightSide_iff {names rows : List String} :
    IsIntersection (names ++ blockOf rows) (rightSide (names ++ blockOf rows)) ↔
      ∀ name ∈ names, name ≠ "" := by
  refine ⟨fun h name hname => h.1 name (List.mem_append_left _ hname), fun h => ?_⟩
  have hall : ∀ s ∈ names ++ blockOf rows, s ≠ "" :=
    List.forall_mem_append.2 ⟨h, blockOf_ne_empty⟩
  refine ⟨hall, ?_⟩
  unfold rightSide
  cases hoperands : names ++ blockOf rows with
  | nil => rfl
  | cons s rest =>
    have hs : s ≠ "" := hall s (hoperands ▸ List.mem_cons_self)
    rw [if_neg (join_cons_ne_empty hs rest), if_neg (List.cons_ne_nil _ _)]

namespace Line

/-- A property without a comment is its row. -/
theorem text_bare (l : Line) : l.bare.text = row l.readonly l.name l.optional l.type := by
  have hindent : indent 1 l.signature = "  " ++ l.signature := rfl
  rw [text, bare, String.empty_append]
  change indent 1 l.signature = _
  rw [hindent, signature, modifier, row]
  simp only [String.append_assoc]

end Line

namespace Block

/-- The body of interfaces and rows is their right side. -/
theorem body_withBody {b : Block} (hkeyword : b.keyword ≠ "") (interfaces : List String)
    {rows : List String} (hrows : ∀ r ∈ rows, r ≠ "") :
    (b.withBody interfaces rows).body = rightSide (interfaces ++ blockOf rows) := by
  have hinner : (b.withBody interfaces rows).inner = join "\n" rows := rfl
  have hcontent : (b.withBody interfaces rows).content =
      mergeInterfaces interfaces (!rows.isEmpty) := rfl
  rw [body, hinner, hcontent, mergeInterfaces]
  cases rows with
  | nil =>
    have hsame : (b.withBody interfaces []).keyword = b.keyword := rfl
    rw [if_neg (by simp [join]), blockOf, if_pos rfl, List.append_nil, rightSide, hsame,
      if_pos hkeyword]
    simp only [List.isEmpty_nil, Bool.not_true, Bool.and_false, Bool.false_eq_true, if_false,
      String.append_empty, ne_eq, ite_not]
  | cons r rows =>
    have hne : join "\n" (r :: rows) ≠ "" :=
      join_cons_ne_empty (hrows r List.mem_cons_self) rows
    have hblock : "\x7b\n" ++ join "\n" (r :: rows) ++ "\n\x7d" ≠ "" :=
      append_ne_empty (by decide)
    rw [if_pos hne, blockOf, if_neg (List.cons_ne_nil _ _), rightSide]
    cases interfaces with
    | nil =>
      rw [List.nil_append, join_singleton, if_neg hblock]
      simp only [List.isEmpty_nil, Bool.not_true, Bool.false_and, Bool.false_eq_true, if_false,
        join, String.append_empty, String.empty_append, String.append_assoc]
    | cons i interfaces =>
      have hjoin := join_append " & " (List.cons_ne_nil i interfaces)
        (List.cons_ne_nil ("\x7b\n" ++ join "\n" (r :: rows) ++ "\n\x7d") [])
      rw [hjoin, join_singleton, if_neg (append_ne_empty hblock)]
      simp only [List.isEmpty_cons, Bool.not_false, Bool.and_true, if_true, String.append_assoc]

end Block

namespace Declaration

/-- A declaration of properties without comments, none of whose interfaces begins with a line
break. -/
theorem text_bare_of_properties {d : Declaration} {interfaces : List String} {lines : List Line}
    (hbody : d.body = .properties interfaces lines) (hline : ∀ i ∈ interfaces, '\n' ∉ i.toList)
    (hkeyword : d.keyword = .type ∨ d.keyword = .interface) :
    d.bare.text = (if d.exported then "export " else "") ++
      (let rhs := rightSide (interfaces ++
        blockOf (lines.map fun l => row l.readonly l.name l.optional l.type))
      if d.keyword = .interface then "interface " ++ labelOf d.name ++ rhs ++ "\n"
      else "type " ++ labelOf d.name ++ "= " ++ rhs ++ ";\n") := by
  have hrows : (lines.map Line.bare).map Line.text =
      lines.map fun l => row l.readonly l.name l.optional l.type := by
    rw [List.map_map]
    exact List.map_congr_left fun l _ => l.text_bare
  have hblock : d.bare.block = d.bare.frame.withBody interfaces
      (lines.map fun l => row l.readonly l.name l.optional l.type) := by
    have hbare : d.bare.body = .properties interfaces (lines.map Line.bare) := by
      rw [bare, hbody]
      rfl
    rw [block, hbare, ← hrows]
  have hne : ∀ r ∈ lines.map (fun l => row l.readonly l.name l.optional l.type), r ≠ "" := by
    rw [← hrows]
    exact List.forall_mem_map.2 fun l _ => l.text_ne_empty
  have hstarts : startsWith d.bare.block.content "\n" = false := by
    refine startsWith_eq_false List.mem_cons_self ?_
    rw [hblock]
    change '\n' ∉ (Block.mergeInterfaces interfaces _).toList
    rw [Block.mergeInterfaces, String.toList_append, List.mem_append, not_or]
    refine ⟨not_mem_join (by decide) hline, ?_⟩
    split_ifs <;> decide
  have hcomment : d.bare.block.comment = "" := by
    rw [comment_block]
    rfl
  have hword : d.bare.block.keyword = d.keyword.text := keyword_block _
  have hexported : d.bare.block.exported = d.exported := by rw [hblock]; rfl
  have hlabel : d.bare.block.label = labelOf d.name := by rw [hblock]; rfl
  have hkey : d.bare.frame.keyword ≠ "" := by
    change d.keyword.text ≠ ""
    rcases hkeyword with h | h <;> rw [h] <;> decide
  have hright := Block.body_withBody (b := d.bare.frame) hkey interfaces hne
  rw [← hblock] at hright
  dsimp only
  rw [← hright]
  rcases hkeyword with hk | hk
  · rw [hk] at hword
    rw [text, Block.text_of_type hword, hcomment, hexported, hlabel, Block.gap, hstarts, hk,
      if_neg Bool.false_ne_true, if_neg (by decide : ¬Keyword.type = .interface)]
    have hequals : "= " = "=" ++ " " := rfl
    simp only [hequals, String.append_assoc, String.empty_append]
  · rw [hk] at hword
    rw [text, Block.text_of_braces (by rw [hword]; decide) (by rw [hword]; decide)
      (by rw [hword]; decide) hstarts, hcomment, hexported, hlabel, hk, if_pos rfl, hword]
    have hinterface : "interface " = "interface" ++ " " := rfl
    simp only [hinterface, Keyword.text, String.append_assoc, String.empty_append]

end Declaration

/-! ## Objects and interfaces -/

namespace FoldContext

variable (c : FoldContext) (d : TypeDef) (fs : List FieldDef)

/-- The rows in the block of an object or interface: the name of an object type, unless it is
skipped, and then one row for each field. -/
def ownRows : List String :=
  (if d.kind = .object ∧ c.options.skipTypename = false then
    [row c.options.immutableTypes "__typename" (!c.options.nonOptionalTypename)
      ("'" ++ d.name ++ "'")]
  else []) ++
    fs.map fun f => row c.options.immutableTypes f.name
      (!c.options.avoidOptionals.field && !f.type.required) ((c.fieldProperty f).typeText false)

/-- What the type of an object or interface is an intersection of: the interfaces that it
implements, and its block if it has rows. -/
def ownOperands : List String :=
  d.body.interfaces.map (fun name => c.resolver.convertName name) ++ blockOf (c.ownRows d fs)

/-- The declaration of an object or interface. It is an interface only if it is one that implements
nothing. -/
def ownText : String :=
  let name := labelOf (c.resolver.convertName d.name)
  let rhs := rightSide (c.ownOperands d fs)
  (if c.options.noExport then "" else "export ") ++
    if d.kind = .interface ∧ d.body.interfaces = [] then "interface " ++ name ++ rhs ++ "\n"
    else "type " ++ name ++ "= " ++ rhs ++ ";\n"

/-- The rows for the arguments of a field. -/
def argumentRows (f : FieldDef) : List String :=
  f.arguments.map fun v => row c.options.immutableTypes v.name
    (Fold.isOptional c.options.avoidOptionals v) ((c.inputProperty false v).typeText false)

/-- The declaration for the arguments of a field. -/
def argumentsText (f : FieldDef) : String :=
  (if c.options.noExport then "" else "export ") ++
    ("type " ++ labelOf (c.resolver.argumentsTypeName d.name f.name) ++ "= \x7b\n" ++
      join "\n" (c.argumentRows f) ++ "\n\x7d;\n")

variable {c d fs}

theorem exportWord (c : FoldContext) : (if (!c.options.noExport) = true then "export " else "") =
    if c.options.noExport then "" else "export " := by
  cases c.options.noExport <;> rfl

theorem newline_notMem_row (readonly : Bool) {name : String} (optional : Bool) {type : String}
    (hname : '\n' ∉ name.toList) (htype : '\n' ∉ type.toList) :
    '\n' ∉ (row readonly name optional type).toList := by
  cases readonly <;> cases optional <;> simp [row, hname, htype]

theorem newline_notMem_of_areNameParts {s : List Char} (h : AreNameParts s) : '\n' ∉ s :=
  h.areIdentifierParts.notMem (by decide)

/-- Converted names are on one line if what is put around them is. -/
theorem writesNames_newline
    (hconvert : ∀ s : String, AreNameParts s.toList → AreNameParts (c.resolver.convert s).toList)
    (hbefore : '\n' ∉ c.options.typesPrefix.toList) (hafter : '\n' ∉ c.options.typesSuffix.toList) :
    c.WritesNames fun s => '\n' ∉ s.toList :=
  fun name _ hn before after => Resolver.notMem_convertName hbefore hafter
    (newline_notMem_of_areNameParts (hconvert name hn)) before after

section

variable (hc : c.WritesNames fun s => '\n' ∉ s.toList)

include hc

/-- A row is one line. -/
theorem newline_notMem_ownRows (hname : IsName d.name) (hfs : ∀ f ∈ fs, f.WellFormed) :
    ∀ r ∈ c.ownRows d fs, '\n' ∉ r.toList := by
  have hP := typeProperty_notMem '\n' (by decide) (by decide)
  refine List.forall_mem_append.2 ⟨fun r hr => ?_, List.forall_mem_map.2 fun f hf => ?_⟩
  · split_ifs at hr
    · rw [List.mem_singleton.1 hr]
      have htype : '\n' ∉ ("'" ++ d.name ++ "'").toList := by
        simpa [String.toList_append] using newline_notMem_of_areNameParts hname.areNameParts
      exact newline_notMem_row _ _ (by decide) htype
    · cases hr
  · exact newline_notMem_row _ _ (newline_notMem_of_areNameParts (hfs f hf).name.areNameParts)
      (hc.typeText_fieldProperty hP (hfs f hf) false)

theorem newline_notMem_argumentRows {f : FieldDef} (hf : f.WellFormed) :
    ∀ r ∈ c.argumentRows f, '\n' ∉ r.toList := by
  have hP := typeProperty_notMem '\n' (by decide) (by decide)
  refine List.forall_mem_map.2 fun v hv => ?_
  have hwell := hf.arguments v hv
  exact newline_notMem_row _ _ (newline_notMem_of_areNameParts hwell.name.areNameParts)
    (hc.typeText_inputProperty hP hwell false false)

end

/-- The declaration of an object or interface without its comments. -/
theorem text_bare_own (keyword : Keyword) (lines : List Line)
    (hkeyword : keyword =
      if d.kind = .interface ∧ d.body.interfaces = [] then .interface else .type)
    (hlines : lines = if d.kind = .object then Fold.typenameLine c.options d.name else [])
    (hline : ∀ i ∈ d.body.interfaces, '\n' ∉ (c.resolver.convertName i).toList) :
    (Fold.declaration c d keyword (c.resolver.convertName d.name)
      (.properties (d.body.interfaces.map fun name => c.resolver.convertName name)
        (lines ++ (fs.map c.fieldProperty).map fun f =>
          Fold.memberLine c f.toProperty))).bare.text =
      c.ownText d fs := by
  have hrows : (lines ++ (fs.map c.fieldProperty).map fun f => Fold.memberLine c f.toProperty).map
      (fun l => row l.readonly l.name l.optional l.type) = c.ownRows d fs := by
    rw [List.map_append, ownRows, List.map_map, List.map_map]
    refine congrArg₂ (· ++ ·) ?_ (List.map_congr_left fun f _ => ?_)
    · rw [hlines, Fold.typenameLine]
      by_cases hk : d.kind = .object <;> cases hskip : c.options.skipTypename <;> simp [hk]
    · change row _ _ (_ && !false) _ = _
      rw [Bool.not_false, Bool.and_true]
      rfl
  have htype : keyword = .type ∨ keyword = .interface := by
    rw [hkeyword]
    split_ifs
    · exact .inr rfl
    · exact .inl rfl
  rw [Declaration.text_bare_of_properties rfl (List.forall_mem_map.2 hline) htype, hrows]
  have hbranch : ∀ s t : String, (if keyword = .interface then s else t) =
      if d.kind = .interface ∧ d.body.interfaces = [] then s else t := by
    intro s t
    rw [hkeyword]
    split_ifs <;> simp_all
  change (if (!c.options.noExport) = true then "export " else "") ++
    (if keyword = .interface then _ else _) = _
  rw [exportWord, hbranch]
  rfl

/-- The declaration for the arguments of a field without its comments. -/
theorem text_bare_arguments {f : FieldDef} (hf : f.arguments ≠ []) :
    (Arguments.declaration c.resolver d.name (c.fieldProperty f)).bare.text =
      c.argumentsText d f := by
  have hrows : ((c.fieldProperty f).arguments.map fun a =>
      a.line c.resolver.options.immutableTypes false).map
        (fun l => row l.readonly l.name l.optional l.type) = c.argumentRows f := by
    rw [argumentRows, fieldProperty, List.map_map, List.map_map]
    refine List.map_congr_left fun v _ => ?_
    change row _ _ (_ && !false) _ = _
    rw [Bool.not_false, Bool.and_true]
    rfl
  have hne : c.argumentRows f ≠ [] := by
    rw [argumentRows, Ne, List.map_eq_nil_iff]
    exact hf
  rw [Declaration.text_bare_of_properties rfl (List.forall_mem_nil _) (.inl rfl), hrows]
  have hright : rightSide ([] ++ blockOf (c.argumentRows f)) =
      "\x7b\n" ++ join "\n" (c.argumentRows f) ++ "\n\x7d" := by
    rw [List.nil_append, blockOf, if_neg hne, rightSide, join_singleton,
      if_neg (append_ne_empty (by decide))]
  have hopen : "= \x7b\n" = "= " ++ "\x7b\n" := rfl
  have hclose : "\n\x7d;\n" = "\n\x7d" ++ ";\n" := rfl
  change (if (!c.options.noExport) = true then "export " else "") ++
    ("type " ++ labelOf (c.resolver.argumentsTypeName d.name f.name) ++ "= " ++ _ ++ ";\n") = _
  rw [exportWord, hright, argumentsText, hopen, hclose]
  simp only [String.append_assoc]

/-- What an object or interface becomes does not depend on enums. -/
def withoutEnums (c : FoldContext) : FoldContext :=
  { c with symbols := { c.symbols with enums := .empty } }

theorem tidy_withoutEnums
    (hconvert : ∀ s : String, AreNameParts s.toList → AreNameParts (c.resolver.convert s).toList)
    (hbefore : SlashFree c.options.typesPrefix) (hafter : SlashFree c.options.typesSuffix) :
    c.withoutEnums.Tidy :=
  ⟨hconvert, hbefore, hafter, nofun, nofun⟩

/-- What is left of an object or interface without its comments: its own declaration, and one for
each field with arguments. -/
theorem withoutComments_withArguments
    (hconvert : ∀ s : String, AreNameParts s.toList → AreNameParts (c.resolver.convert s).toList)
    (hbefore : SlashFree c.options.typesPrefix) (hafter : SlashFree c.options.typesSuffix)
    (honly : c.options.onlyEnums = false) (hd : d.Spelled)
    (hfs : d.body.members = fs.map Member.field) (keyword : Keyword) (lines : List Line)
    (hkeyword : keyword =
      if d.kind = .interface ∧ d.body.interfaces = [] then .interface else .type)
    (hlines : lines = if d.kind = .object then Fold.typenameLine c.options d.name else [])
    (hline : ∀ i ∈ d.body.interfaces, '\n' ∉ (c.resolver.convertName i).toList) :
    withoutComments
        (statementsText (Fold.withArguments c d keyword lines (fs.map c.fieldProperty))) =
      join "\n" (c.ownText d fs ::
        (fs.filter fun f => !f.arguments.isEmpty).map (c.argumentsText d)) := by
  have htidy := tidy_withoutEnums hconvert hbefore hafter
  have hfields : ∀ f ∈ fs.map c.fieldProperty, f.Tidy := List.forall_mem_map.2 fun f hf =>
    htidy.fieldProperty (hd.members (.field f) (hfs ▸ List.mem_map_of_mem hf))
  have htypename : ∀ l ∈ lines, l.Tidy := by
    rw [hlines]
    split_ifs
    · exact tidy_typenameLine hd c.options
    · exact List.forall_mem_nil _
  have hstatements : ∀ x ∈ Fold.withArguments c d keyword lines (fs.map c.fieldProperty), x.Tidy :=
    htidy.withArguments hd keyword htypename hfields
  have hfilter : (fs.map c.fieldProperty).filter (fun f => !f.arguments.isEmpty) =
      (fs.filter fun f => !f.arguments.isEmpty).map c.fieldProperty := by
    have hsame : (fun p : FieldProperty => !p.arguments.isEmpty) ∘ c.fieldProperty =
        fun f => !f.arguments.isEmpty := by
      funext f
      simp [fieldProperty]
    rw [List.filter_map, hsame]
  have harguments : (fs.filter fun f => !f.arguments.isEmpty).map
      (fun f => (Arguments.declaration c.resolver d.name (c.fieldProperty f)).bare.text) =
        (fs.filter fun f => !f.arguments.isEmpty).map (c.argumentsText d) := by
    refine List.map_congr_left fun f hf => text_bare_arguments ?_
    simpa using (List.mem_filter.1 hf).2
  have honly' : c.resolver.options.onlyEnums = false := honly
  rw [withoutComments_statementsText hstatements, statementsText, Fold.withArguments,
    Arguments.declarations, honly', if_neg Bool.false_ne_true, hfilter, ← harguments,
    ← text_bare_own keyword lines hkeyword hlines hline]
  simp only [List.map_cons, List.map_map]
  rfl

/-- What an object or interface becomes that is not left out. -/
theorem exists_withArguments_of_typeResult (hshown : c.options.suppressesOutput = false)
    (hk : d.kind = .object ∨ d.kind = .interface) {statements : List Statement}
    (h : c.typeResult d = .ok statements) :
    ∃ (fs : List FieldDef) (keyword : Keyword) (lines : List Line),
      d.body.members = fs.map Member.field ∧
      keyword = (if d.kind = .interface ∧ d.body.interfaces = [] then .interface else .type) ∧
      lines = (if d.kind = .object then Fold.typenameLine c.options d.name else []) ∧
      statements = Fold.withArguments c d keyword lines (fs.map c.fieldProperty) := by
  cases becomes_of_typeResult h with
  | @object fs hobject hfs =>
    refine ⟨fs, .type, Fold.typenameLine c.options d.name, hfs, ?_, ?_, ?_⟩
    · rw [if_neg fun h => by simp [hobject] at h]
    · rw [if_pos hobject]
    · rw [objectStatements, hshown, if_neg Bool.false_ne_true]
  | @interface fs hinterface hfs =>
    refine ⟨fs, if d.body.interfaces.isEmpty then .interface else .type, [], hfs, ?_, ?_, ?_⟩
    · simp only [hinterface, true_and, List.isEmpty_iff]
    · rw [if_neg (by simp [hinterface])]
    · rw [interfaceStatements, hshown, if_neg Bool.false_ne_true]
  | union hother => simp [hother] at hk
  | enum hother => simp [hother] at hk
  | input hother => simp [hother] at hk
  | hidden hother => rcases hother with hother | ⟨hother, -⟩ <;> simp [hother] at hk

/-- The shape of objects and interfaces. Where prefix and suffix have neither slashes nor line
breaks, an object or interface that is not left out becomes, without comments, its own declaration
and then one for each field that has arguments, in the order of the fields and with one line for
each field and each argument. It fails only if a member is of the wrong kind. The right side of its
own declaration reads as the intersection of interfaces and block if and only if no interface that
it implements has the empty text as its identifier. -/
theorem withoutComments_object_iff
    (hconvert : SymbolTables.conversion c.options none = .ok c.resolver.convert)
    (hbefore : SlashFree c.options.typesPrefix ∧ '\n' ∉ c.options.typesPrefix.toList)
    (hafter : SlashFree c.options.typesSuffix ∧ '\n' ∉ c.options.typesSuffix.toList)
    (hshown : c.options.suppressesOutput = false) (hd : d.Spelled)
    (hk : d.kind = .object ∨ d.kind = .interface) :
    (∀ e, Fold.outcome (Fold.definition c (.type d)) {} = .error e → d.FailsWith c.schema e) ∧
    ∀ statements, Fold.outcome (Fold.definition c (.type d)) {} = .ok statements →
      ∃ fs : List FieldDef, d.body.members = fs.map Member.field ∧
        withoutComments (statementsText statements) =
          join "\n" (c.ownText d fs ::
            (fs.filter fun f => !f.arguments.isEmpty).map (c.argumentsText d)) ∧
        (∀ r ∈ c.ownRows d fs, '\n' ∉ r.toList) ∧
        (∀ f ∈ fs, ∀ r ∈ c.argumentRows f, '\n' ∉ r.toList) ∧
        (IsIntersection (c.ownOperands d fs) (rightSide (c.ownOperands d fs)) ↔
          ∀ name ∈ d.body.interfaces, c.resolver.convertName name ≠ "") := by
  have hnames : ∀ s : String,
      AreNameParts s.toList → AreNameParts (c.resolver.convert s).toList := by
    obtain ⟨convention, -, heq⟩ := exists_of_map hconvert
    rw [← heq]
    exact fun s => convention.areNameParts_apply
  have hlines := writesNames_newline hnames hbefore.2 hafter.2
  have hline : ∀ i ∈ d.body.interfaces, '\n' ∉ (c.resolver.convertName i).toList := fun i hi =>
    hlines.convertName (hd.interfaces i hi) true true
  have honly : c.options.onlyEnums = false := (Bool.or_eq_false_iff.1 hshown).2
  rw [Fold.outcome_definition c Ancestors.outsideInput_empty]
  refine ⟨fun e he => ?_, fun statements h => ?_⟩
  · obtain ⟨d', heq, hfails⟩ := failsWith_of_result he
    cases heq
    exact hfails
  · obtain ⟨fs, keyword, lines, hfs, hkeyword, htypename, rfl⟩ :=
      exists_withArguments_of_typeResult hshown hk h
    have hfields : ∀ f ∈ fs, f.WellFormed := fun f hf =>
      hd.members (.field f) (hfs ▸ List.mem_map_of_mem hf)
    refine ⟨fs, hfs, ?_, newline_notMem_ownRows hlines hd.name hfields,
      fun f hf => newline_notMem_argumentRows hlines (hfields f hf), ?_⟩
    · exact withoutComments_withArguments hnames hbefore.1 hafter.1 honly hd hfs keyword lines
        hkeyword htypename hline
    · rw [ownOperands, isIntersection_rightSide_iff]
      exact List.forall_mem_map

/-- An object with one field, which has an argument, that implements an interface. -/
def implementing (interface : String) : TypeDef :=
  ⟨none, "User", [], .object [interface]
    [.field ⟨none, "id", [⟨none, "raw", .named "Boolean" false, none, []⟩], .named "ID" true, []⟩]⟩

theorem spelled_implementing {interface : String} (h : IsName interface) :
    (implementing interface).Spelled := by
  have hname (c : Char) (rest : List Char) (hc : Token.isNameStart c)
      (hrest : rest.all Token.isNamePart = true) : IsName (String.ofList (c :: rest)) :=
    ⟨c, rest, String.toList_ofList, hc, areNameParts_of_all hrest⟩
  have hargument : InputValueDef.WellFormed ⟨none, "raw", .named "Boolean" false, none, []⟩ :=
    ⟨hname 'r' ['a', 'w'] (by decide) (by decide),
      hname 'B' "oolean".toList (by decide) (by decide), List.forall_mem_nil _⟩
  exact ⟨hname 'U' ['s', 'e', 'r'] (by decide) (by decide),
    List.forall_mem_singleton.2 h, List.forall_mem_singleton.2
      ⟨hname 'i' ['d'] (by decide) (by decide),
        List.forall_mem_singleton.2 hargument,
        hname 'I' ['D'] (by decide) (by decide)⟩,
    List.forall_mem_nil _, List.forall_mem_nil _⟩

/-- The options for the convention that joins the words of a name. -/
def joiningOptions : Options where
  namingConvention := "pascalCase"

theorem withoutComments_object_iff_implementing :
    ∃ symbols, SymbolTables.build Enums.palette joiningOptions (some Convention.pascal.apply) =
        .ok symbols ∧
      let c := FoldContext.ofTables Enums.palette joiningOptions symbols Convention.pascal.apply
      let d := implementing "base_node"
      ∃ statements fs, Fold.outcome (Fold.definition c (.type d)) {} = .ok statements ∧
        withoutComments (statementsText statements) =
          "export type User = BaseNode & \x7b\n" ++
            "  __typename?: 'User';\n  id: Scalars['ID'];\n\x7d;\n" ++
            "\nexport type UserIdArgs = \x7b\n  raw?: Maybe<Scalars['Boolean']>;\n\x7d;\n" ∧
        IsIntersection (c.ownOperands d fs) (rightSide (c.ownOperands d fs)) := by
  have hinterface : IsName "base_node" :=
    ⟨'b', "ase_node".toList, rfl, by decide, areNameParts_of_all (by decide)⟩
  have hconvention :
      SymbolTables.conversion joiningOptions none = .ok Convention.pascal.apply := rfl
  refine ⟨_, rfl, ?_⟩
  intro c d
  obtain ⟨-, hshape⟩ := withoutComments_object_iff (c := c) (d := d) hconvention (by decide)
    (by decide) rfl (spelled_implementing hinterface) (.inl rfl)
  have houtcome : Fold.outcome (Fold.definition c (.type d)) {} = .ok
      (c.objectStatements d ([⟨none, "id", [⟨none, "raw", .named "Boolean" false, none, []⟩],
        .named "ID" true, []⟩].map c.fieldProperty)) := rfl
  obtain ⟨fs, -, -, -, -, hright⟩ := hshape _ houtcome
  refine ⟨_, fs, houtcome, by decide +kernel, hright.2 ?_⟩
  exact List.forall_mem_singleton.2 (by decide +kernel)

/-- A name of underscores alone has no words, and a separator is left before the block. -/
theorem not_isIntersection_underscore :
    ∃ symbols, SymbolTables.build Enums.palette joiningOptions (some Convention.pascal.apply) =
        .ok symbols ∧
      let c := FoldContext.ofTables Enums.palette joiningOptions symbols Convention.pascal.apply
      let d := implementing "_"
      ∃ statements, Fold.outcome (Fold.definition c (.type d)) {} = .ok statements ∧
        withoutComments (statementsText statements) =
          "export type User =  & \x7b\n  __typename?: 'User';\n  id: Scalars['ID'];\n\x7d;\n" ++
            "\nexport type UserIdArgs = \x7b\n  raw?: Maybe<Scalars['Boolean']>;\n\x7d;\n" ∧
        ∀ fs, ¬IsIntersection (c.ownOperands d fs) (rightSide (c.ownOperands d fs)) := by
  refine ⟨_, rfl, ?_⟩
  intro c d
  refine ⟨_, rfl, by decide +kernel, fun fs h => ?_⟩
  have hempty : c.resolver.convertName "_" = "" := by decide +kernel
  exact isIntersection_rightSide_iff.1 h _ (List.mem_map_of_mem List.mem_cons_self) hempty

end FoldContext

end SdlTypes

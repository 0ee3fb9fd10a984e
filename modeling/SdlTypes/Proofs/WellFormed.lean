import Mathlib.Data.List.TakeWhile
import Mathlib.Tactic.SplitIfs
import SdlTypes.Sdl.Grammar

/-!
# Well-formed documents

What the grammar promises about the type definitions and extensions of a document, before any
rule is checked: what stands for a name is spelled like one, and the members of a type are of its
kind, fields in objects and interfaces and input values in input objects
(`Document.WellFormed`).

`Document.wellFormed_of_parse?` is the promise. It rests on `Reader.Yields`: a reader yields
something of a property whenever the tokens in front of it are those of a text, and what it
leaves behind is the end of these tokens, so the readers behind it may count on the same.
-/

namespace SdlTypes.Sdl

/-! ## What is promised -/

/-- How names are spelled: a letter or underscore, then letters, digits and underscores. -/
def IsName (s : String) : Prop :=
  ∃ c rest, s.toList = c :: rest ∧ Token.isNameStart c ∧ ∀ x ∈ rest, Token.isNamePart x

/-- What a well-formed argument or input field consists of. -/
structure InputValueDef.WellFormed (v : InputValueDef) : Prop where
  name : IsName v.name
  type : IsName v.type.baseName
  directives : ∀ use ∈ v.directives, IsName use.name

/-- What a well-formed field consists of. -/
structure FieldDef.WellFormed (f : FieldDef) : Prop where
  name : IsName f.name
  arguments : ∀ v ∈ f.arguments, v.WellFormed
  type : IsName f.type.baseName

/-- Members that are well-formed fields. -/
def AreFields (ms : List Member) : Prop :=
  ∀ m ∈ ms, ∃ f : FieldDef, m = .field f ∧ f.WellFormed

/-- Members that are well-formed input fields. -/
def AreInputs (ms : List Member) : Prop :=
  ∀ m ∈ ms, ∃ v : InputValueDef, m = .input v ∧ v.WellFormed

theorem AreInputs.exists_eq_map {ms : List Member} (h : AreInputs ms) :
    ∃ vs : List InputValueDef, ms = vs.map Member.input := by
  induction ms with
  | nil => exact ⟨[], rfl⟩
  | cons m ms ih =>
    obtain ⟨⟨v, rfl, -⟩, hms⟩ := List.forall_mem_cons.1 h
    obtain ⟨vs, rfl⟩ := ih hms
    exact ⟨v :: vs, rfl⟩

theorem AreFields.exists_eq_map {ms : List Member} (h : AreFields ms) :
    ∃ fs : List FieldDef, ms = fs.map Member.field := by
  induction ms with
  | nil => exact ⟨[], rfl⟩
  | cons m ms ih =>
    obtain ⟨⟨f, rfl, -⟩, hms⟩ := List.forall_mem_cons.1 h
    obtain ⟨fs, rfl⟩ := ih hms
    exact ⟨f :: fs, rfl⟩

/-- A body whose names are names, with the members that its kind has. -/
def TypeBody.WellFormed : TypeBody → Prop
  | .scalar => True
  | .object is ms => (∀ n ∈ is, IsName n) ∧ AreFields ms
  | .interface is ms => (∀ n ∈ is, IsName n) ∧ AreFields ms
  | .union ts => ∀ n ∈ ts, IsName n
  | .enum vs => ∀ v ∈ vs, IsName v.name
  | .input ms => AreInputs ms

/-- A type definition or extension with a name and a well-formed body. -/
structure TypeDef.WellFormed (d : TypeDef) : Prop where
  name : IsName d.name
  body : d.body.WellFormed

/-- A member whose names are names. -/
def Member.WellFormed : Member → Prop
  | .field f => f.WellFormed
  | .input v => v.WellFormed

/-- A definition in which names are spelled as names. Its members may be of any kind, as they may
after extensions of another kind have been merged. -/
structure TypeDef.Spelled (d : TypeDef) : Prop where
  name : IsName d.name
  interfaces : ∀ n ∈ d.body.interfaces, IsName n
  members : ∀ m ∈ d.body.members, m.WellFormed
  types : ∀ n ∈ d.body.types, IsName n
  values : ∀ v ∈ d.body.values, IsName v.name

theorem TypeDef.WellFormed.spelled {d : TypeDef} (h : d.WellFormed) : d.Spelled := by
  obtain ⟨description, name, directives, body⟩ := d
  have hname := h.name
  have hbody := h.body
  cases body with
  | scalar => exact ⟨hname, by simp [TypeBody.interfaces], by simp [TypeBody.members],
      by simp [TypeBody.types], by simp [TypeBody.values]⟩
  | object | interface =>
    refine ⟨hname, hbody.1, fun m hm => ?_, by simp [TypeBody.types], by simp [TypeBody.values]⟩
    obtain ⟨f, rfl, hf⟩ := hbody.2 m hm
    exact hf
  | union => exact ⟨hname, by simp [TypeBody.interfaces], by simp [TypeBody.members], hbody,
      by simp [TypeBody.values]⟩
  | enum => exact ⟨hname, by simp [TypeBody.interfaces], by simp [TypeBody.members],
      by simp [TypeBody.types], hbody⟩
  | input =>
    refine ⟨hname, by simp [TypeBody.interfaces], fun m hm => ?_, by simp [TypeBody.types],
      by simp [TypeBody.values]⟩
    obtain ⟨v, rfl, hv⟩ := hbody m hm
    exact hv

/-- Members are of the kind that the kind of the definition asks for. -/
theorem TypeDef.WellFormed.areInputs {d : TypeDef} (hd : d.WellFormed) (hk : d.kind = .input) :
    AreInputs d.body.members := by
  have hbody := hd.body
  unfold TypeDef.kind at hk
  cases h : d.body with
  | input ms =>
    rw [h] at hbody
    exact hbody
  | _ =>
    rw [h] at hk
    cases hk

theorem TypeDef.WellFormed.areFields {d : TypeDef} (hd : d.WellFormed)
    (hk : d.kind = .object ∨ d.kind = .interface) : AreFields d.body.members := by
  have hbody := hd.body
  unfold TypeDef.kind at hk
  cases h : d.body with
  | object is ms | interface is ms =>
    rw [h] at hbody
    exact hbody.2
  | _ =>
    rw [h] at hk
    simp [TypeBody.kind] at hk

/-- A document all of whose type definitions and extensions are well-formed. -/
structure Document.WellFormed (d : Document) : Prop where
  types : ∀ t ∈ d.types, t.WellFormed
  extensions : ∀ e ∈ d.extensions, e.WellFormed

/-! ## Tokens -/

/-- Tokens among which the names are names. -/
def Token.Spelled (ts : List Token) : Prop :=
  ∀ n, Token.name n ∈ ts → IsName n

namespace Token

theorem ne_name_of_number? {s left : List Char} {token : Token}
    (h : number? s = some (token, left)) (n : String) : token ≠ .name n := by
  simp only [number?, Option.bind_eq_bind, Option.bind_eq_some_iff, Prod.exists] at h
  obtain ⟨_, _, -, _, _, -, _, _, -, h⟩ := h
  split_ifs at h <;>
    (simp only [pure, Option.some.injEq, Prod.mk.injEq] at h; rw [← h.1]; simp)

/-- A name that is read from characters is a name. -/
theorem isName_of_next? {s left : List Char} {n : String} (h : next? s = some (.name n, left)) :
    IsName n := by
  unfold next? at h
  split at h
  · simp at h
  · simp at h
  · simp [Option.map_eq_some_iff] at h
  · simp [Option.map_eq_some_iff] at h
  · next c rest _ _ _ =>
    split_ifs at h with hmark hstart hnumber
    · simp at h
    · simp only [Option.some.injEq, Prod.mk.injEq, Token.name.injEq] at h
      refine ⟨c, rest.takeWhile isNamePart, ?_, hstart, fun x hx => ?_⟩
      · rw [← h.1, String.toList_ofList]
      · exact List.mem_takeWhile_imp hx
    · exact absurd rfl (ne_name_of_number? h n)

theorem spelled_tokens? {s : List Char} {ts : List Token} (h : tokens? s = some ts) :
    Spelled ts := by
  fun_induction tokens? s generalizing ts with
  | case1 => simp_all [Spelled]
  | case2 => cases h
  | case3 s hs token rest hnext ih =>
    obtain ⟨us, hus, rfl⟩ := Option.map_eq_some_iff.1 h
    intro n hn
    rcases List.mem_cons.1 hn with rfl | hn
    · exact isName_of_next? hnext
    · exact ih hus n hn

theorem spelled_scan? {text : String} {ts : List Token} (h : scan? text = some ts) : Spelled ts :=
  spelled_tokens? h

theorem Spelled.of_suffix {ts us : List Token} (h : Spelled ts) (hs : us <:+ ts) : Spelled us :=
  fun n hn => h n (hs.subset hn)

end Token

/-! ## Readers -/

/-- A reader that, from the tokens of a text, only reads what has the property. -/
def Reader.Yields {α : Type} (r : Reader α) (P : α → Prop) : Prop :=
  ∀ ⦃ts : List Token⦄ ⦃a : α⦄ ⦃left : Rest ts⦄, Token.Spelled ts → r ts = some (a, left) → P a

namespace Reader

variable {α β : Type} {P : α → Prop} {Q : β → Prop}

theorem yields_pure {a : α} (h : P a) : Yields (pure a) P := fun ts b left _ hr => by
  cases hr
  exact h

/-- A sequence yields what its second part yields of anything that its first part yields. -/
theorem Yields.bind {r : Reader α} {f : α → Reader β} (hr : Yields r P)
    (hf : ∀ a, P a → Yields (f a) Q) : Yields (r >>= f) Q := fun ts b left hts h => by
  obtain ⟨a, middle, behind, hra, hfa, -⟩ := eq_of_andThen h
  exact hf a (hr hts hra) (hts.of_suffix middle.property) hfa

theorem yields_true (r : Reader α) : Yields r fun _ => True := fun _ _ _ _ _ => trivial

/-- A sequence yields what its second part yields in any case. -/
theorem yields_second {r : Reader α} {f : α → Reader β} (hf : ∀ a, Yields (f a) Q) :
    Yields (r >>= f) Q :=
  (yields_true r).bind fun a _ => hf a

theorem yields_fail : Yields (fail : Reader α) P := fun _ _ _ _ h => by cases h

theorem yields_ite {c : Prop} [Decidable c] {r s : Reader α} (hr : Yields r P)
    (hs : Yields s P) : Yields (if c then r else s) P := by
  split_ifs
  · exact hr
  · exact hs

theorem yields_name : Yields name IsName := fun ts n left hts h => by
  cases ts with
  | nil => cases h
  | cons t rest =>
    obtain ⟨m, hm, heq⟩ := Option.map_eq_some_iff.1 h
    cases heq
    unfold nameOf? at hm
    split at hm
    · cases hm
      exact hts _ List.mem_cons_self
    · cases hm

theorem Yields.ifAt {r : Reader α} (hr : Yields r P) (c : Char) {otherwise : α}
    (ho : P otherwise) : Yields (ifAt c r otherwise) P := fun ts a left hts h => by
  unfold Reader.ifAt at h
  split_ifs at h
  · exact hr hts h
  · cases h
    exact ho

end Reader

open Reader

namespace Part

variable {α β : Type} {P : α → Prop} {Q : β → Prop} {p : Part α}

theorem yields_map {f : α → β} (h : Yields p.read P) (hf : ∀ a, P a → Q (f a)) :
    Yields (p.map f).read Q :=
  h.bind fun a ha => yields_pure (hf a ha)

theorem yields_choose {p q : Part α} (hp : Yields p.read P) (hq : Yields q.read P) (t : Token) :
    Yields (choose t p q).read P := fun ts a left hts h => by
  simp only [choose] at h
  split_ifs at h
  · exact hp hts h
  · exact hq hts h

/-- Items that are repeated up to a mark all have the property of one item. -/
theorem yields_untilMark (h : Yields p.read P) (close : Char) :
    Yields (untilMark close p) fun as => ∀ a ∈ as, P a := by
  intro ts as left hts hr
  fun_induction untilMark close p ts generalizing as with
  | case1 =>
    cases hr
    simp
  | case2 => cases hr
  | case3 => cases hr
  | case4 ts hat a left' hread as' behind hrest ih =>
    cases hr
    rw [List.forall_mem_cons]
    exact ⟨h hts hread, ih (hts.of_suffix left'.property) hrest⟩

theorem yields_whileMark (h : Yields p.read P) (opening : Char) :
    Yields (whileMark opening p) fun as => ∀ a ∈ as, P a := by
  intro ts as left hts hr
  fun_induction whileMark opening p ts generalizing as with
  | case1 => cases hr
  | case2 => cases hr
  | case3 ts hat a left' hread as' behind hrest ih =>
    cases hr
    rw [List.forall_mem_cons]
    exact ⟨h hts hread, ih (hts.of_suffix left'.property) hrest⟩
  | case4 =>
    cases hr
    simp

theorem yields_optionalEnclosed (h : Yields p.read P) (opening closing : Char) :
    Yields (optionalEnclosed opening closing p) fun as => ∀ a ∈ as, P a := by
  refine Yields.ifAt ?_ _ (by simp)
  exact yields_second fun _ => h.bind fun _ ha => (yields_untilMark h closing).bind fun _ has =>
    yields_pure (List.forall_mem_cons.2 ⟨ha, has⟩)

theorem yields_delimited (h : Yields p.read P) (between : Char) :
    Yields (delimited between p) fun as => ∀ a ∈ as, P a :=
  yields_second fun _ => h.bind fun _ ha =>
    (yields_whileMark (p := p.behind between) (yields_second fun _ => h) between).bind
      fun _ has => yields_pure (List.forall_mem_cons.2 ⟨ha, has⟩)

theorem mem_untilEnd (h : Yields p.read P) {ts : List Token} (hts : Token.Spelled ts)
    {as : List α} (hr : p.untilEnd ts = some as) : ∀ a ∈ as, P a := by
  fun_induction untilEnd p ts generalizing as with
  | case1 =>
    cases hr
    simp
  | case2 => cases hr
  | case3 ts hne a left hread ih =>
    obtain ⟨bs, hbs, rfl⟩ := Option.map_eq_some_iff.1 hr
    rw [List.forall_mem_cons]
    exact ⟨h hts hread, ih (hts.of_suffix left.property) hbs⟩

end Part

/-! ## The grammar -/

namespace Grammar

open SdlTypes.Sdl.Part

theorem baseName_marked (t : TypeRef) : t.marked.baseName = t.baseName := by
  cases t <;> rfl

theorem yields_withMark {t : TypeRef} (h : IsName t.baseName) :
    Yields (withMark t) fun r => IsName r.baseName :=
  yields_second fun _ => yields_ite (yields_pure (by rwa [baseName_marked])) (yields_pure h)

theorem yields_typeRefWithin (room : Nat) :
    Yields (typeRefWithin room) fun r => IsName r.baseName := by
  induction room with
  | zero =>
    unfold typeRefWithin
    exact yields_second fun _ => yields_ite yields_fail
      (yields_name.bind fun _ hn => yields_withMark hn)
  | succ inside ih =>
    unfold typeRefWithin
    exact yields_second fun _ => yields_ite
      (ih.bind fun _ ht => yields_second fun _ => yields_withMark ht)
      (yields_name.bind fun _ hn => yields_withMark hn)

theorem yields_typeRef : Yields typeRef fun r => IsName r.baseName :=
  yields_typeRefWithin _

theorem yields_directives (const : Bool) :
    Yields (directives const) fun ds => ∀ use ∈ ds, IsName use.name :=
  yields_whileMark (p := directive nestingLimit const)
    (yields_second fun _ => yields_name.bind fun _ hn => yields_second fun _ => yields_pure hn) _

theorem yields_inputValueDef : Yields inputValueDef.read InputValueDef.WellFormed :=
  yields_second fun _ => yields_name.bind fun _ hn => yields_second fun _ =>
    yields_typeRef.bind fun _ ht => yields_second fun _ =>
      (yields_directives true).bind fun _ hds => yields_pure ⟨hn, ht, hds⟩

theorem yields_fieldDef : Yields fieldDef.read FieldDef.WellFormed :=
  yields_second fun _ => yields_name.bind fun _ hn =>
    (yields_optionalEnclosed yields_inputValueDef _ _).bind fun _ hargs => yields_second fun _ =>
      yields_typeRef.bind fun _ ht => yields_second fun _ => yields_pure ⟨hn, hargs, ht⟩

theorem yields_enumValueDef : Yields enumValueDef.read fun v => IsName v.name :=
  yields_second fun _ => yields_name.bind fun _ hn =>
    yields_ite (yields_second fun _ => yields_second fun _ => yields_pure hn)
      (yields_second fun _ => yields_pure hn)

theorem yields_implementedInterfaces :
    Yields implementedInterfaces fun is => ∀ n ∈ is, IsName n :=
  yields_second fun _ => yields_ite (yields_delimited (p := typeName) yields_name _)
    (yields_pure (by simp))

theorem yields_unionTypes : Yields unionTypes fun ts => ∀ n ∈ ts, IsName n :=
  yields_second fun _ => yields_ite (yields_delimited (p := typeName) yields_name _)
    (yields_pure (by simp))

theorem yields_fieldDefs : Yields fieldDefs AreFields :=
  yields_optionalEnclosed (yields_map yields_fieldDef fun f hf => ⟨f, rfl, hf⟩) _ _

/-- What is read as a type definition is well-formed, whatever the keyword. -/
theorem yields_typeDef (description : Option String) (word : String) :
    Yields (typeDef description word) TypeDef.WellFormed := by
  refine yields_name.bind fun n hn => ?_
  split
  · exact yields_second fun _ => yields_pure ⟨hn, trivial⟩
  · exact yields_implementedInterfaces.bind fun _ his => yields_second fun _ =>
      yields_fieldDefs.bind fun _ hms => yields_pure ⟨hn, his, hms⟩
  · exact yields_implementedInterfaces.bind fun _ his => yields_second fun _ =>
      yields_fieldDefs.bind fun _ hms => yields_pure ⟨hn, his, hms⟩
  · exact yields_second fun _ => yields_unionTypes.bind fun _ hts => yields_pure ⟨hn, hts⟩
  · exact yields_second fun _ =>
      (yields_optionalEnclosed yields_enumValueDef _ _).bind fun _ hvs => yields_pure ⟨hn, hvs⟩
  · exact yields_second fun _ =>
      (yields_optionalEnclosed (yields_map yields_inputValueDef fun v hv => ⟨v, rfl, hv⟩) _ _).bind
        fun _ hms => yields_pure ⟨hn, hms⟩
  · exact yields_fail

/-- A definition that is well-formed if it is a type definition or an extension of one. -/
def Kept (d : Definition) : Prop :=
  (∀ t ∈ d.typeDef?, t.WellFormed) ∧ ∀ e ∈ d.extension?, e.WellFormed

theorem kept_of_no_type {d : Definition} (ht : d.typeDef? = none) (he : d.extension? = none) :
    Kept d := by
  simp [Kept, ht, he]

theorem yields_extension : Yields extension.read Kept := by
  refine yields_second fun _ => yields_second fun word => ?_
  split
  · exact yields_second fun _ => yields_pure (kept_of_no_type rfl rfl)
  · refine yields_second fun _ => yields_second fun _ => yields_second fun _ => ?_
    exact yields_ite (yields_second fun _ => yields_pure (kept_of_no_type rfl rfl))
      (yields_pure (kept_of_no_type rfl rfl))
  · refine (yields_typeDef none _).bind fun d hd => yields_ite (yields_pure ?_) yields_fail
    simpa [Kept, Definition.typeDef?, Definition.extension?] using hd

theorem yields_described : Yields described.read Kept := by
  refine yields_second fun description => yields_second fun word => ?_
  split
  iterate 6 exact yields_second fun _ => yields_pure (kept_of_no_type rfl rfl)
  refine (yields_typeDef description _).bind fun d hd => yields_pure ?_
  simpa [Kept, Definition.typeDef?, Definition.extension?] using hd

theorem yields_definition : Yields definition.read Kept :=
  yields_choose (yields_map (P := fun _ => True) (yields_true _) fun _ _ => kept_of_no_type rfl rfl)
    (yields_choose yields_extension yields_described _) _

end Grammar

/-- What the grammar promises: a document that is read from a text is well-formed. -/
theorem Document.wellFormed_of_parse? {text : String} {d : Document}
    (h : Document.parse? text = some d) : d.WellFormed := by
  unfold Document.parse? at h
  split_ifs at h with hplain
  · cases h
  · simp only [Option.bind_eq_bind, Option.bind_eq_some_iff] at h
    obtain ⟨ts, hscan, ds, hds, h⟩ := h
    split_ifs at h
    cases h
    have hkept := Part.mem_untilEnd Grammar.yields_definition (Token.spelled_scan? hscan) hds
    constructor
    · intro t ht
      obtain ⟨definition, hd, ht⟩ := List.mem_filterMap.1 ht
      exact (hkept definition hd).1 t ht
    · intro e he
      obtain ⟨definition, hd, he⟩ := List.mem_filterMap.1 he
      exact (hkept definition hd).2 e he

end SdlTypes.Sdl

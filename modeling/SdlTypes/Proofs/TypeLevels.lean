import SdlTypes.Proofs.Pieces
import SdlTypes.Proofs.WrittenTypes

/-!
# The levels of types

A reference has one level for each of its lists and one for the name inside, and at every level it
is marked as never null or is not (`Sdl.TypeRef.marks`). What is written shows the levels: it is the
text of the name inside helper types (`Sdl.TypeRef.written_eq_enclosed`), one for every list and one
for every missing mark. These can be told from the outside in, even where the text of the name looks
like helper types itself (`Text.enclosed_inj`).

So no two structures of lists and marks are written alike. `Fold.render_eq_iff_marks` says so of
what the fold gives at any place, whatever text a name is written as.
-/

namespace SdlTypes

open Sdl

/-! ## Helper types around a text -/

namespace Text

/-- A text inside helper types, the first of which is the outermost. -/
def enclosed (helpers : List String) (s : String) : String :=
  helpers.foldr (fun helper inside => helper ++ "<" ++ inside ++ ">") s

theorem enclosed_nil (s : String) : enclosed [] s = s := rfl

theorem enclosed_cons (helper : String) (helpers : List String) (s : String) :
    enclosed (helper :: helpers) s = helper ++ "<" ++ enclosed helpers s ++ ">" := rfl

theorem enclosed_append (outer inner : List String) (s : String) :
    enclosed (outer ++ inner) s = enclosed outer (enclosed inner s) :=
  List.foldr_append

/-- Every helper type makes a text longer. -/
theorem length_le_enclosed (helpers : List String) (s : String) :
    s.length + helpers.length ≤ (enclosed helpers s).length := by
  induction helpers with
  | nil => exact Nat.le_refl _
  | cons helper helpers ih =>
    have hopen : "<".length = 1 := rfl
    rw [enclosed_cons]
    simp only [String.length_append, List.length_cons]
    omega

/-- The name of a helper type ends at the first angle bracket. -/
theorem generic_inj {helper helper' s t : String} (h : '<' ∉ helper.toList)
    (h' : '<' ∉ helper'.toList)
    (heq : helper ++ "<" ++ s ++ ">" = helper' ++ "<" ++ t ++ ">") : helper = helper' ∧ s = t := by
  have hcut := congrArg (cut? "<") ((String.append_left_inj _).1 heq)
  rw [cut?_append rfl h, cut?_append rfl h'] at hcut
  exact Prod.mk.inj (Option.some.inj hcut)

/-- The helper types around a text can be told from the whole, whatever the text looks like. -/
theorem enclosed_inj {helpers helpers' : List String} (h : ∀ helper ∈ helpers, '<' ∉ helper.toList)
    (h' : ∀ helper ∈ helpers', '<' ∉ helper.toList) {s : String}
    (heq : enclosed helpers s = enclosed helpers' s) : helpers = helpers' := by
  induction helpers generalizing helpers' with
  | nil =>
    -- what is around a text makes it longer, even if it looks like a part of it
    have hlength := length_le_enclosed helpers' s
    rw [← heq, enclosed_nil] at hlength
    exact (List.length_eq_zero_iff.1 (by omega)).symm
  | cons helper helpers ih =>
    cases helpers' with
    | nil =>
      have hlength := length_le_enclosed (helper :: helpers) s
      rw [heq, enclosed_nil, List.length_cons] at hlength
      omega
    | cons helper' helpers' =>
      rw [List.forall_mem_cons] at h h'
      obtain ⟨rfl, hinside⟩ := generic_inj h.1 h'.1 heq
      rw [ih h.2 h'.2 hinside]

end Text

open Text

/-! ## Marks -/

namespace Wrapper

/-- The helper types that a position is written inside. -/
def helpers (w : Wrapper) (required : Bool) : List String :=
  if required then [] else [w.name]

theorem position_eq_enclosed (w : Wrapper) (required : Bool) (s : String) :
    w.position required s = enclosed (w.helpers required) s := by
  cases required <;> rfl

theorem name_ne_array (w : Wrapper) : w.name ≠ "Array" := by
  cases w <;> decide

theorem helpers_inj {w : Wrapper} {required required' : Bool} :
    w.helpers required = w.helpers required' ↔ required = required' := by
  cases required <;> cases required' <;> simp [helpers]

/-- In front of a list there is the wrapper or there is none, since no wrapper is an `Array`. -/
theorem helpers_append_inj {w : Wrapper} {required required' : Bool} {inner inner' : List String} :
    w.helpers required ++ "Array" :: inner = w.helpers required' ++ "Array" :: inner' ↔
      required = required' ∧ inner = inner' := by
  cases required <;> cases required' <;> simp [helpers, w.name_ne_array, w.name_ne_array.symm]

/-- A position that is no list is not written inside the helper types of one. -/
theorem helpers_ne_append {w : Wrapper} {required required' : Bool} {inner : List String} :
    w.helpers required ≠ w.helpers required' ++ "Array" :: inner := by
  cases required <;> cases required' <;> simp [helpers, w.name_ne_array]

end Wrapper

namespace Sdl.TypeRef

/-- Whether the reference is marked as never null, level by level from the outside in. -/
def marks : TypeRef → List Bool
  | named _ required => [required]
  | list element required => required :: element.marks

theorem marks_ne_nil (r : TypeRef) : r.marks ≠ [] := by
  cases r <;> exact List.cons_ne_nil _ _

/-- A reference is given by its marks and the name inside. -/
theorem eq_iff_marks {r s : TypeRef} : r = s ↔ r.marks = s.marks ∧ r.baseName = s.baseName := by
  induction r generalizing s with
  | named name required =>
    cases s with
    | named => simp [marks, baseName, and_comm]
    | list element => simp [marks, element.marks_ne_nil.symm]
  | list element required ih =>
    cases s with
    | named => simp [marks, element.marks_ne_nil]
    | list => simp [marks, baseName, ih, and_comm, and_left_comm]

/-- The helper types that the name of a reference is written inside. -/
def helpers (w : Wrapper) : TypeRef → List String
  | named _ required => w.helpers required
  | list element required => w.helpers required ++ "Array" :: element.helpers w

theorem written_eq_enclosed (w : Wrapper) (leaf : String → String) (r : TypeRef) :
    r.written w leaf = enclosed (r.helpers w) (leaf r.baseName) := by
  induction r with
  | named name required => exact w.position_eq_enclosed required (leaf name)
  | list element required ih =>
    rw [written, w.position_eq_enclosed, ih, helpers, enclosed_append, enclosed_cons]
    rfl

theorem notMem_of_mem_helpers (w : Wrapper) (r : TypeRef) :
    ∀ helper ∈ r.helpers w, '<' ∉ helper.toList := by
  have hposition (required : Bool) : ∀ helper ∈ w.helpers required, '<' ∉ helper.toList := by
    cases w <;> cases required <;> decide
  induction r with
  | named name required => exact hposition required
  | list element required ih =>
    rw [helpers, List.forall_mem_append, List.forall_mem_cons]
    exact ⟨hposition required, by decide, ih⟩

/-- The marks can be told from the helper types. -/
theorem helpers_eq_iff_marks {w : Wrapper} {r s : TypeRef} :
    r.helpers w = s.helpers w ↔ r.marks = s.marks := by
  induction r generalizing s with
  | named name required =>
    cases s with
    | named => simp [helpers, marks, Wrapper.helpers_inj]
    | list element => simp [helpers, marks, Wrapper.helpers_ne_append, element.marks_ne_nil.symm]
  | list element required ih =>
    cases s with
    | named => simp [helpers, marks, Wrapper.helpers_ne_append.symm, element.marks_ne_nil]
    | list => simp [helpers, marks, Wrapper.helpers_append_inj, ih]

/-- References to names with the same text are written alike just if they have the same marks. -/
theorem written_eq_iff_marks {w : Wrapper} {leaf : String → String} {r s : TypeRef}
    (h : leaf r.baseName = leaf s.baseName) :
    r.written w leaf = s.written w leaf ↔ r.marks = s.marks := by
  rw [written_eq_enclosed, written_eq_enclosed, h, ← helpers_eq_iff_marks (w := w)]
  constructor
  · exact enclosed_inj (r.notMem_of_mem_helpers w) (s.notMem_of_mem_helpers w)
  · intro heq
    rw [heq]

end Sdl.TypeRef

/-! ## Folded references -/

/-- A context in which every name is converted to the same text, and nothing else is known of it. -/
def FoldContext.uniform (leaf : String) : FoldContext :=
  ⟨⟨∅, ∅, ∅⟩, ⟨⟨[], [], List.nodup_nil⟩, ∅, fun _ => leaf, {}⟩⟩

theorem FoldContext.resolve_uniform (leaf name : String) :
    (uniform leaf).resolver.resolve name = leaf := by
  have hresolve : (uniform leaf).resolver.resolve name = "" ++ leaf ++ "" := rfl
  rw [hresolve, String.empty_append, String.append_empty]

namespace Fold

/-- At every place there is a text for each name. -/
theorem exists_leaf (c : FoldContext) (a : Ancestors) :
    ∃ leaf : String → String, ∀ name, outcome (namedType c name) a = .ok (leaf name) := by
  have htext (name : String) : ∃ text, outcome (namedType c name) a = .ok text := by
    simp only [namedType, outcome_bind (balanced_ask _), outcome_ask, Except.bind]
    split_ifs <;> exact ⟨_, rfl⟩
  choose leaf hleaf using htext
  exact ⟨leaf, hleaf⟩

/-- Any text may be what names are written as, inside an input object and elsewhere. And whatever
text two names are written as, at whatever place, references to them are folded to the same text if
and only if they are the same but for these names: their lists and marks are never mistaken for
others, nor for a part of that text. -/
theorem render_eq_iff_marks :
    (∀ (input : Bool) (leaf : String), ∃ (c : FoldContext) (a : Ancestors), a.inInput = input ∧
      ∀ name, outcome (namedType c name) a = .ok leaf) ∧
    ∀ (c : FoldContext) (a : Ancestors) (leaf : String) (r s : TypeRef),
      outcome (namedType c r.baseName) a = .ok leaf →
      outcome (namedType c s.baseName) a = .ok leaf →
      ∃ f g, (typeRef c r).run.run a = (.ok f, a) ∧ (typeRef c s).run.run a = (.ok g, a) ∧
        (f.render = g.render ↔ r.marks = s.marks) ∧
        (r.baseName = s.baseName → (f.render = g.render ↔ r = s)) := by
  constructor
  · intro input leaf
    refine ⟨.uniform leaf,
      ⟨⟨.inputValue, "a"⟩ :: if input then [⟨.inputObject, "A"⟩] else []⟩, ?_, fun name => ?_⟩
    · cases input <;> rfl
    · rw [outcome_namedType_of_has _ rfl, FoldContext.resolve_uniform]
  · intro c a leaf r s hr hs
    obtain ⟨texts, htexts⟩ := exists_leaf c a
    have hsame : texts r.baseName = texts s.baseName :=
      Except.ok.inj (((htexts _).symm.trans hr).trans (hs.symm.trans (htexts _)))
    have hrun (t : TypeRef) : (typeRef c t).run.run a = (.ok (t.fragment a.inInput texts), a) := by
      rw [(balanced_typeRef c t).run_eq, outcome_typeRef c htexts]
    have hmarks : (r.fragment a.inInput texts).render = (s.fragment a.inInput texts).render ↔
        r.marks = s.marks := by
      rw [TypeRef.render_fragment, TypeRef.render_fragment, TypeRef.written_eq_iff_marks hsame]
    refine ⟨_, _, hrun r, hrun s, hmarks, fun hname => ?_⟩
    rw [hmarks, TypeRef.eq_iff_marks, and_iff_left hname]

/-- With a text for `A` that looks like a list, `A!` and `[A]!` are written one inside the other and
still apart. -/
theorem render_eq_iff_marks_imitation :
    outcome (namedType (.uniform "Array<Maybe<A>>") "A") {} = .ok "Array<Maybe<A>>" ∧ ∃ f g,
      (typeRef (.uniform "Array<Maybe<A>>") (.named "A" true)).run.run {} = (.ok f, {}) ∧
      (typeRef (.uniform "Array<Maybe<A>>") (.list (.named "A" false) true)).run.run {} =
        (.ok g, {}) ∧
      f.render = "Array<Maybe<A>>" ∧ g.render = "Array<Maybe<Array<Maybe<A>>>>" ∧
      f.render ≠ g.render := by
  obtain ⟨f, g, hf, hg, -, hsame⟩ := render_eq_iff_marks.2 (.uniform "Array<Maybe<A>>") {}
    "Array<Maybe<A>>" (.named "A" true) (.list (.named "A" false) true) rfl rfl
  refine ⟨rfl, f, g, hf, hg, ?_, ?_, mt (hsame rfl).1 (by decide)⟩
  · cases hf
    decide
  · cases hg
    decide

end Fold

end SdlTypes

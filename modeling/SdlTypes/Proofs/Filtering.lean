import SdlTypes.Proofs.FoldOutcome
import SdlTypes.Rendering

/-!
# Filtered types

A type filter takes definitions out of the document that is folded and leaves the schema as it is.
What a definition becomes depends on the schema, the options and the tables, none of which come
from the document, and not on the definitions that are folded before it. So a run with filters
gives the module of a run without them, less the statements of the definitions that some filter
does not accept (`Rendering.module_filtered`). Which definitions these are depends on the filters
as a set (`Sdl.Document.definitions_filtered`), not on their order.
-/

namespace SdlTypes

open Sdl

namespace Sdl

/-- Whether a definition passes all filters of a list. -/
def Definition.passesAll (filters : List TypeFilter) (x : Definition) : Bool :=
  filters.all fun f => x.passes f

theorem Definition.passesAll_congr {filters filters' : List TypeFilter}
    (h : ∀ f, f ∈ filters' ↔ f ∈ filters) (x : Definition) :
    x.passesAll filters' = x.passesAll filters := by
  rw [passesAll, passesAll, Bool.eq_iff_iff, List.all_eq_true, List.all_eq_true]
  exact ⟨fun hall f hf => hall f ((h f).2 hf), fun hall f hf => hall f ((h f).1 hf)⟩

/-- Filters one after another leave the definitions that pass all of them. -/
theorem Document.definitions_filtered (filters : List TypeFilter) (d : Document) :
    (d.filtered filters).definitions =
      d.definitions.filter (Definition.passesAll filters) := by
  induction filters generalizing d with
  | nil => exact (List.filter_eq_self.2 fun _ _ => rfl).symm
  | cons f filters ih =>
    have hstep : d.filtered (f :: filters) =
        Document.filtered filters ⟨d.definitions.filter (Definition.passes f)⟩ := rfl
    rw [hstep, ih, List.filter_filter]
    refine List.filter_congr fun x _ => ?_
    rw [Definition.passesAll, Definition.passesAll, List.all_cons, Bool.and_comm]

end Sdl

/-- The statements of the definitions that pass all filters, where `statements` are those of the
definitions `ds` one by one. -/
def passingStatements (filters : List TypeFilter) (ds : List Definition)
    (statements : List (List Statement)) : List (List Statement) :=
  ((ds.zip statements).filter fun (x, _) => x.passesAll filters).map Prod.snd

namespace Module

/-- What becomes of the module `m` of a schema if the types among the definitions `ds` are
filtered. -/
structure Filtered (s : Schema) (o : Options) (filters : List TypeFilter) (ds : List Definition)
    (m m' : Module) : Prop where
  preamble : m'.preamble = m.preamble
  scalars : m'.scalars = m.scalars
  directives : m'.directives = m.directives
  /-- Each definition stands beside its own statements, those that it becomes when it is folded
  alone. -/
  alone : ∃ symbols convert, List.Forall₂
    (fun x ys => Fold.outcome (Fold.definition (.ofTables s o symbols convert) x) {} = .ok ys)
    ds m.definitions
  definitions : m'.definitions = passingStatements filters ds m.definitions
  further : m'.further = m.further

/-- A run succeeds with filters if it does without. -/
theorem generate_filtered {s : Schema} {o : Options} {d : Document}
    {convert : Option (String → String)} {further : List String} {m : Module}
    (h : generate s o (some d) convert further = .ok m) (filters : List TypeFilter) :
    ∃ m', generate s o (some (d.filtered filters)) convert further = .ok m' ∧
      Filtered s o filters d.definitions m m' := by
  obtain ⟨f, symbols, definitions, hf, hsymbols, hdefinitions, rfl⟩ := generate_eq_ok_iff.1 h
  rw [Option.getD_some] at hdefinitions
  refine ⟨assemble s o symbols (passingStatements filters d.definitions definitions) further, ?_,
    rfl, rfl, rfl, ⟨symbols, f, ?_⟩, rfl, rfl⟩
  · refine generate_eq_ok_iff.2 ⟨f, symbols, _, hf, hsymbols, ?_, rfl⟩
    rw [Option.getD_some, d.definitions_filtered]
    exact mapM_filter_of_ok hdefinitions
  · refine (forall₂_of_mapM hdefinitions).imp fun x ys hx => ?_
    rw [Fold.outcome_definition _ Ancestors.outsideInput_empty]
    exact hx

end Module

namespace Rendering

/-- Filtering types removes their declarations and touches nothing else. A run that succeeds
without filters succeeds with them, and gives the same module but for the statements of the types
that some filter does not accept. The order of the filters and their repetition make no
difference. -/
theorem module_filtered (l : LoadedSchema) (r : Rendering) :
    (∀ m, { r with filters := [] }.module l = .ok m →
      ∃ m', r.module l = .ok m' ∧
        Module.Filtered l.schema r.options r.filters l.arranged.definitions m m') ∧
    ∀ filters, (∀ f, f ∈ filters ↔ f ∈ r.filters) →
      { r with filters := filters }.module l = r.module l := by
  constructor
  · intro m hm
    exact Module.generate_filtered hm r.filters
  · intro filters hsame
    have hdocument : l.arranged.filtered filters = l.arranged.filtered r.filters := by
      have hdefinitions : (l.arranged.filtered filters).definitions =
          (l.arranged.filtered r.filters).definitions := by
        rw [Document.definitions_filtered, Document.definitions_filtered]
        exact List.filter_congr fun x _ => x.passesAll_congr hsame
      exact congrArg Document.mk hdefinitions
    rw [module, module, hdocument]

/-- Filters that leave out types by how their names begin, and by how they end. -/
def internalFilters : List TypeFilter :=
  [{ excludedStart := "Internal" }, { excludedEnd := "Payload" }]

/-- A type that is left refers to two that are filtered away. -/
theorem module_filtered_internal :
    ∃ l m m', LoadedSchema.ofText
        "type User \x7b i: Internal p: Payload \x7d type Internal \x7b a: Int \x7d scalar Payload" =
          .ok l ∧
      Rendering.module {} l = .ok m ∧
      Rendering.module { filters := internalFilters } l = .ok m' ∧
      Module.Filtered l.schema {} internalFilters l.arranged.definitions m m' ∧
      Rendering.module { filters := internalFilters ++ internalFilters.reverse } l = .ok m' := by
  have hloads : (LoadedSchema.ofText
      "type User \x7b i: Internal p: Payload \x7d type Internal \x7b a: Int \x7d scalar Payload"
        ).toOption.any fun l => (Rendering.module {} l).toOption.any fun _ => true := by
    decide +kernel
  simp only [Option.any_eq_true] at hloads
  obtain ⟨l, hl, m, hm, -⟩ := hloads
  obtain ⟨hfilters, hany⟩ := module_filtered l { filters := internalFilters }
  obtain ⟨m', hm', hfiltered⟩ := hfilters m (eq_ok_of_toOption hm)
  refine ⟨l, m, m', eq_ok_of_toOption hl, eq_ok_of_toOption hm, hm', hfiltered, ?_⟩
  rw [← hm']
  exact hany _ fun f => by simp

end Rendering

end SdlTypes

import Mathlib.Tactic.SplitIfs
import SdlTypes.FileTree.Path
import SdlTypes.Proofs.Pieces

/-!
# Paths and their texts

`Path.text` writes a place and `Path.names` takes a written path apart. They are inverse on places
of which the names can be names in a directory (`Path.names_text`), and every written path that is
followed from such a place leads to such a place (`Path.IsProper.resolve`).

The places that a path leads through are its `Path.way`.
-/

namespace SdlTypes

namespace Path

/-! ## Places that can be written -/

/-- Whether all names of a place can be names in a directory. -/
def IsProper (p : Path) : Prop :=
  ∀ name ∈ p, name ≠ "" ∧ name ≠ "." ∧ name ≠ ".." ∧ '/' ∉ name.toList

instance (p : Path) : Decidable (IsProper p) :=
  inferInstanceAs (Decidable (∀ name ∈ p, _))

namespace IsProper

variable {p : Path}

theorem step (hp : IsProper p) {name : String} (hne : name ≠ "") (hslash : '/' ∉ name.toList) :
    IsProper (p.step name) := by
  rw [Path.step]
  split_ifs with hdot hdots
  · exact hp
  · exact fun other hother => hp other (List.dropLast_subset p hother)
  · intro other hother
    rcases List.mem_append.1 hother with hother | hother
    · exact hp other hother
    · exact List.mem_singleton.1 hother ▸ ⟨hne, hdot, hdots, hslash⟩

theorem foldl_step (hp : IsProper p) {names : List String}
    (h : ∀ name ∈ names, name ≠ "" ∧ '/' ∉ name.toList) : IsProper (names.foldl Path.step p) := by
  induction names generalizing p with
  | nil => exact hp
  | cons name names ih =>
    obtain ⟨⟨hne, hslash⟩, hrest⟩ := List.forall_mem_cons.1 h
    exact ih (hp.step hne hslash) hrest

/-- A written path leads from a proper place to a proper place. -/
theorem resolve (hp : IsProper p) (written : String) : IsProper (Path.resolve p written) := by
  have hstart : IsProper (start p written) := by
    rw [start]
    split
    · exact fun name hname => nomatch hname
    · exact hp
  refine hstart.foldl_step fun name hname => ?_
  rcases List.mem_append.1 hname with hname | hname
  · obtain ⟨hpiece, hne⟩ := List.mem_filter.1 hname
    exact ⟨of_decide_eq_true hne, Text.not_mem_of_mem_split hpiece⟩
  · split at hname
    · exact List.mem_singleton.1 hname ▸ by decide
    · cases hname

end IsProper

/-- The text of a proper place does not end in a slash. -/
theorem endsWith_text {p : Path} (hp : IsProper p) (hne : p ≠ []) :
    Text.endsWith p.text "/" = false := by
  obtain ⟨hlast, -, -, hslash⟩ := hp _ (List.getLast_mem hne)
  have hsuffix : (p.getLast hne).toList <:+ p.text.toList := by
    rw [text, String.toList_append]
    exact (Text.suffix_join hne).trans (List.suffix_append ..)
  have hchars : (p.getLast hne).toList ≠ [] := fun h => hlast (String.toList_eq_nil_iff.1 h)
  rw [Text.endsWith, ← Bool.not_eq_true, List.isSuffixOf_iff_suffix]
  intro hends
  -- of two ends of the same text the shorter one is the end of the other
  rcases List.suffix_or_suffix_of_suffix hends hsuffix with h | h
  · exact hslash (h.subset List.mem_cons_self)
  · obtain ⟨c, hc⟩ := List.exists_mem_of_ne_nil _ hchars
    have hc' : c = '/' := List.mem_singleton.1 (h.subset hc)
    exact hslash (hc' ▸ hc)

/-- The names in the text of a place are those that lead to it. -/
theorem names_text {p : Path} (hp : IsProper p) (hne : p ≠ []) : names p.text = p := by
  have htext : p.text = Text.join "/" ("" :: p) := by
    obtain ⟨name, rest, rfl⟩ := List.exists_cons_of_ne_nil hne
    rw [Text.join_cons_cons, String.empty_append, text]
  have hsplit : Text.split '/' p.text = "" :: p := by
    rw [htext]
    refine Text.split_join rfl (List.cons_ne_nil "" p) fun name hname => ?_
    rcases List.mem_cons.1 hname with rfl | hname
    · exact List.not_mem_nil
    · exact (hp name hname).2.2.2
  rw [names, hsplit, endsWith_text hp hne, List.filter_cons_of_neg (by decide),
    List.filter_eq_self.2 fun name hname => decide_eq_true (hp name hname).1]
  exact List.append_nil p

/-! ## Ways -/

/-- The places that names lead through from a place, the last one at the end. -/
def way (p : Path) : List String → List Path
  | [] => []
  | name :: rest => p.step name :: way (p.step name) rest

theorem way_append (p : Path) (front back : List String) :
    way p (front ++ back) = way p front ++ way (front.foldl step p) back := by
  induction front generalizing p with
  | nil => rfl
  | cons name front ih => rw [List.cons_append, way, way, ih, List.foldl_cons, List.cons_append]

theorem way_prefix (p : Path) {front names : List String} (h : front <+: names) :
    way p front <+: way p names := by
  obtain ⟨back, rfl⟩ := h
  exact way_append p front back ▸ List.prefix_append ..

/-- Names lead to the end of their way. -/
theorem foldl_step_mem (p : Path) (names : List String) :
    names.foldl step p ∈ p :: way p names := by
  induction names generalizing p with
  | nil => exact List.mem_cons_self
  | cons name rest ih => exact List.mem_cons_of_mem _ (ih (p.step name))

theorem step_eq {p : Path} {name : String} (h : name ≠ "." ∧ name ≠ "..") :
    p.step name = p ++ [name] := by
  rw [step, if_neg h.1, if_neg h.2]

/-- Names other than dots only lead down. -/
theorem exists_of_mem_way {p q : Path} {names : List String}
    (hdots : ∀ name ∈ names, name ≠ "." ∧ name ≠ "..") (h : q ∈ way p names) :
    ∃ front, front <+: names ∧ q = p ++ front := by
  induction names generalizing p with
  | nil => cases h
  | cons name rest ih =>
    obtain ⟨hname, hrest⟩ := List.forall_mem_cons.1 hdots
    rw [way, step_eq hname] at h
    rcases List.mem_cons.1 h with rfl | h
    · exact ⟨[name], ⟨rest, rfl⟩, rfl⟩
    · obtain ⟨front, hfront, rfl⟩ := ih hrest h
      exact ⟨name :: front, List.prefix_cons_inj name |>.2 hfront, by simp⟩

theorem foldl_step_eq {p : Path} {names : List String}
    (hdots : ∀ name ∈ names, name ≠ "." ∧ name ≠ "..") : names.foldl step p = p ++ names := by
  induction names generalizing p with
  | nil => exact (List.append_nil p).symm
  | cons name rest ih =>
    obtain ⟨hname, hrest⟩ := List.forall_mem_cons.1 hdots
    rw [List.foldl_cons, step_eq hname, ih hrest, List.append_assoc]
    rfl

theorem append_splitAtLimit (size : Nat) (names : List String) :
    (splitAtLimit size names).1 ++ (splitAtLimit size names).2 = names := by
  induction names generalizing size with
  | nil => rfl
  | cons name rest ih =>
    rw [splitAtLimit]
    split_ifs
    · rfl
    · exact congrArg (name :: ·) (ih _)

end Path

end SdlTypes

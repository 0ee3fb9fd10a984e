import Mathlib.Data.List.Forall2

/-!
# Results

Computations that give a result or an error, one after another for the elements of a list:
`mapM` collects the results, `forM` only checks, and both stop at the first error. What a list
gives stands beside it element by element (`forall₂_of_mapM`); which error it gives, if any, is the
first one among its elements (`failure?_mapM`).

Two computations are `Alike` if they give related results or fail with the same error. For two
that go through the same list this may be shown element by element (`Alike.mapM`); their results
then stand `Abreast` with the elements. Where the errors are only related as well the two are
`Parallel`.
-/

namespace SdlTypes

variable {ε ε' α β : Type}

theorem eq_ok_of_toOption {x : Except ε α} {v : α} (h : x.toOption = some v) : x = .ok v := by
  cases x with
  | error e => cases h
  | ok w => exact congrArg Except.ok (Option.some.inj h)

/-- What gives a result after a change of results has given one before. -/
theorem exists_of_map {x : Except ε α} {f : α → β} {y : β} (h : x.map f = .ok y) :
    ∃ v, x = .ok v ∧ f v = y := by
  cases x with
  | error e => cases h
  | ok v => exact ⟨v, rfl, Except.ok.inj h⟩

/-- Of two computations in a row that give a result both do. -/
theorem exists_of_bind {x : Except ε α} {f : α → Except ε β} {y : β} (h : x.bind f = .ok y) :
    ∃ v, x = .ok v ∧ f v = .ok y := by
  cases x with
  | error e => cases h
  | ok v => exact ⟨v, rfl, h⟩

/-- Of two computations in a row that fail one does. -/
theorem error_of_bind {x : Except ε α} {f : α → Except ε β} {e : ε} (h : x.bind f = .error e) :
    x = .error e ∨ ∃ v, x = .ok v ∧ f v = .error e := by
  cases x with
  | error e => exact .inl (congrArg Except.error (Except.error.inj h))
  | ok v => exact .inr ⟨v, rfl, h⟩

theorem eq_ok_of_mapError {x : Except ε α} {f : ε → ε'} {y : α} (h : x.mapError f = .ok y) :
    x = .ok y := by
  cases x with
  | error e => cases h
  | ok v => exact congrArg Except.ok (Except.ok.inj h)

/-- An error that has been changed was one before. -/
theorem error_of_mapError {x : Except ε α} {f : ε → ε'} {e' : ε'} (h : x.mapError f = .error e') :
    ∃ e, x = .error e ∧ f e = e' := by
  cases x with
  | error e => exact ⟨e, rfl, Except.error.inj h⟩
  | ok v => cases h

theorem mapM_congr_of_mem {f g : α → Except ε β} {l : List α} (h : ∀ x ∈ l, f x = g x) :
    l.mapM f = l.mapM g := by
  induction l with
  | nil => rfl
  | cons x l ih =>
    rw [List.forall_mem_cons] at h
    rw [List.mapM_cons, List.mapM_cons, h.1, ih h.2]

theorem forM_cons_eq_bind (f : α → Except ε Unit) (x : α) (l : List α) :
    (x :: l).forM f = (f x).bind fun _ => l.forM f := rfl

/-- Checks of which each passes all pass. -/
theorem forM_ok (l : List α) : (l.forM fun _ => (.ok () : Except ε Unit)) = .ok () := by
  induction l with
  | nil => rfl
  | cons x l ih => exact ih

/-- The error of the first check that fails may be changed before or after the others. -/
theorem forM_mapError (e : ε → ε') (f : α → Except ε Unit) (l : List α) :
    (l.forM fun x => (f x).mapError e) = (l.forM f).mapError e := by
  induction l with
  | nil => rfl
  | cons x l ih =>
    rw [forM_cons_eq_bind, forM_cons_eq_bind, ih]
    cases f x <;> rfl

/-- A change of all results may as well be made one by one. -/
theorem map_mapM (f : α → Except ε β) {γ : Type} (k : β → γ) (l : List α) :
    (l.mapM f).map (List.map k) = l.mapM fun x => (f x).map k := by
  induction l with
  | nil => rfl
  | cons x l ih =>
    rw [List.mapM_cons, List.mapM_cons, ← ih]
    cases f x with
    | error e => rfl
    | ok y => cases l.mapM f <;> rfl

/-- If all elements have results these stand in the order of the elements. -/
theorem forall₂_of_mapM {f : α → Except ε β} {l : List α} {ys : List β} (h : l.mapM f = .ok ys) :
    List.Forall₂ (fun x y => f x = .ok y) l ys := by
  induction l generalizing ys with
  | nil =>
    cases h
    exact .nil
  | cons x l ih =>
    rw [List.mapM_cons] at h
    obtain ⟨y, hx, h⟩ := exists_of_bind h
    obtain ⟨zs, hl, h⟩ := exists_of_bind h
    cases h
    exact .cons hx (ih hl)

/-- Every result is that of an element. -/
theorem exists_of_mem_mapM {f : α → Except ε β} {l : List α} {ys : List β} (h : l.mapM f = .ok ys)
    {y : β} (hy : y ∈ ys) : ∃ x ∈ l, f x = .ok y := by
  have hpairs := forall₂_of_mapM h
  clear h
  induction hpairs with
  | nil => cases hy
  | cons hx _ ih =>
    rcases List.mem_cons.1 hy with rfl | hy
    · exact ⟨_, List.mem_cons_self, hx⟩
    · obtain ⟨x, hmem, hx⟩ := ih hy
      exact ⟨x, List.mem_cons_of_mem _ hmem, hx⟩

/-- If all elements have results each of them has one. -/
theorem exists_of_mapM {f : α → Except ε β} {l : List α} {ys : List β} (h : l.mapM f = .ok ys) :
    ∀ x ∈ l, ∃ y, f x = .ok y := by
  have hpairs := forall₂_of_mapM h
  clear h
  induction hpairs with
  | nil => exact List.forall_mem_nil _
  | cons hx _ ih => exact List.forall_mem_cons.2 ⟨⟨_, hx⟩, ih⟩

/-! ## Leaving elements out -/

section

variable {f g : α → Except ε β} {p : α → Bool} {l : List α}

/-- Elements whose results do not count may be left out. -/
theorem mapM_filter {q : β → Bool} (hkept : ∀ x ∈ l, p x = true → g x = f x)
    (hleft : ∀ x ∈ l, p x = false → ∃ y, f x = .ok y ∧ q y = false) :
    ((l.filter p).mapM g).map (List.filter q) = (l.mapM f).map (List.filter q) := by
  induction l with
  | nil => rfl
  | cons x l ih =>
    obtain ⟨hkept, hkeptl⟩ := List.forall_mem_cons.1 hkept
    obtain ⟨hleft, hleftl⟩ := List.forall_mem_cons.1 hleft
    have hrest := ih hkeptl hleftl
    rw [List.mapM_cons]
    cases hp : p x with
    | false =>
      obtain ⟨y, hy, hq⟩ := hleft hp
      rw [List.filter_cons_of_neg (by simp [hp]), hrest, hy]
      cases l.mapM f with
      | error e => rfl
      | ok ys => exact congrArg Except.ok (List.filter_cons_of_neg (by simp [hq])).symm
    | true =>
      rw [List.filter_cons_of_pos hp, List.mapM_cons, hkept hp]
      generalize (l.filter p).mapM g = left, l.mapM f = all at hrest
      cases f x with
      | error e => rfl
      | ok y =>
        rcases left with e | ys <;> rcases all with e' | zs
        · cases hrest
          rfl
        · cases hrest
        · cases hrest
        · have htails : ys.filter q = zs.filter q := Except.ok.inj hrest
          exact congrArg Except.ok (by simp only [List.filter_cons, htails])

/-- An error stays that of the elements that are not left out, unless it is one of the others. -/
theorem mapM_filter_of_error {e : ε} (hkept : ∀ x ∈ l, p x = true → g x = f x)
    (h : l.mapM f = .error e) :
    (l.filter p).mapM g = .error e ∨ ∃ x ∈ l, p x = false ∧ f x = .error e := by
  induction l with
  | nil => cases h
  | cons x l ih =>
    obtain ⟨hkept, hkeptl⟩ := List.forall_mem_cons.1 hkept
    rw [List.mapM_cons] at h
    rw [List.filter_cons]
    rcases error_of_bind h with hf | ⟨y, hf, h⟩
    · cases hp : p x with
      | false => exact .inr ⟨x, List.mem_cons_self, hp, hf⟩
      | true =>
        rw [if_pos rfl, List.mapM_cons, hkept hp, hf]
        exact .inl rfl
    · rcases error_of_bind h with hl | ⟨ys, -, h⟩
      · rcases ih hkeptl hl with hg | ⟨z, hz, hout⟩
        · refine .inl ?_
          split_ifs with hp
          · rw [List.mapM_cons, hkept hp, hf, hg]
            rfl
          · exact hg
        · exact .inr ⟨z, List.mem_cons_of_mem _ hz, hout⟩
      · cases h

/-- Of the results of all elements those of some are the results of these alone. -/
theorem mapM_filter_of_ok {ys : List β} (h : l.mapM f = .ok ys) :
    (l.filter p).mapM f = .ok (((l.zip ys).filter fun r => p r.1).map Prod.snd) := by
  have hpairs := forall₂_of_mapM h
  clear h
  induction hpairs with
  | nil => rfl
  | @cons x y l ys hx _ ih =>
    simp only [List.zip_cons_cons, List.filter_cons]
    split_ifs
    · rw [List.mapM_cons, hx, ih]
      rfl
    · exact ih

end

/-! ## Errors -/

/-- The error of a computation that fails. -/
def failure? : Except ε α → Option ε
  | .error e => some e
  | .ok _ => none

theorem failure?_eq_some_iff {x : Except ε α} {e : ε} : failure? x = some e ↔ x = .error e := by
  cases x with
  | error e' =>
    exact ⟨fun h => congrArg _ (Option.some.inj h), fun h => congrArg _ (Except.error.inj h)⟩
  | ok v => exact ⟨nofun, nofun⟩

theorem failure?_map (x : Except ε α) (f : α → β) : failure? (x.map f) = failure? x := by
  cases x <;> rfl

theorem failure?_mapError (x : Except ε α) (f : ε → ε') :
    failure? (x.mapError f) = (failure? x).map f := by
  cases x <;> rfl

/-- Of two computations in a row the first one that fails gives the error. -/
theorem failure?_bind (x : Except ε α) (f : α → Except ε β) :
    failure? (x.bind f) = (failure? x).or (x.toOption.bind fun v => failure? (f v)) := by
  cases x <;> rfl

/-- The error among the elements of a list is that of the first one that fails. -/
theorem failure?_mapM (f : α → Except ε β) (l : List α) :
    failure? (l.mapM f) = l.findSome? fun x => failure? (f x) := by
  induction l with
  | nil => rfl
  | cons x l ih =>
    rw [List.mapM_cons, List.findSome?_cons, ← ih]
    cases f x with
    | error e => rfl
    | ok y => cases l.mapM f <;> rfl

/-- If a list fails it is with the error of an element. -/
theorem exists_error_of_mapM {f : α → Except ε β} {l : List α} {e : ε}
    (h : l.mapM f = .error e) : ∃ x ∈ l, f x = .error e := by
  rw [← failure?_eq_some_iff, failure?_mapM] at h
  obtain ⟨x, hx, h⟩ := List.exists_of_findSome?_eq_some h
  exact ⟨x, hx, failure?_eq_some_iff.1 h⟩

theorem findSome?_congr_of_mem {f g : α → Option β} {l : List α} (h : ∀ x ∈ l, f x = g x) :
    l.findSome? f = l.findSome? g := by
  induction l with
  | nil => rfl
  | cons x l ih =>
    rw [List.forall_mem_cons] at h
    rw [List.findSome?_cons, List.findSome?_cons, h.1, ih h.2]

/-! ## Lists side by side -/

section

variable {γ : Type} {R : β → γ → Prop}

theorem forall₂_map_map {l : List α} {f : α → β} {g : α → γ} (h : ∀ x ∈ l, R (f x) (g x)) :
    List.Forall₂ R (l.map f) (l.map g) := by
  rw [List.forall₂_map_left_iff, List.forall₂_map_right_iff, List.forall₂_same]
  exact h

theorem forall₂_flatMap {l : List α} {f : α → List β} {g : α → List γ}
    (h : ∀ x ∈ l, List.Forall₂ R (f x) (g x)) : List.Forall₂ R (l.flatMap f) (l.flatMap g) := by
  induction l with
  | nil => exact .nil
  | cons x l ih =>
    obtain ⟨hx, hl⟩ := List.forall_mem_cons.1 h
    exact List.rel_append hx (ih hl)

/-- Lists are filtered alike if their elements are. -/
theorem filterMap_eq_of_forall₂ {f : β → Option α} {g : γ → Option α} {l : List β} {u : List γ}
    (h : List.Forall₂ (fun x y => f x = g y) l u) : l.filterMap f = u.filterMap g := by
  induction h with
  | nil => rfl
  | cons hx _ ih => rw [List.filterMap_cons, List.filterMap_cons, hx, ih]

/-- An element on the left stands beside one on the right. -/
theorem exists_mem_zip {l : List β} {u : List γ} (h : List.Forall₂ R l u) {x : β} (hx : x ∈ l) :
    ∃ y, (x, y) ∈ l.zip u ∧ R x y := by
  induction h with
  | nil => cases hx
  | cons hr _ ih =>
    rcases List.mem_cons.1 hx with rfl | hx
    · exact ⟨_, List.mem_cons_self, hr⟩
    · obtain ⟨y, hy, hr⟩ := ih hx
      exact ⟨y, List.mem_cons_of_mem _ hy, hr⟩

/-- Three lists side by side, element by element. -/
inductive Abreast (R : α → β → γ → Prop) : List α → List β → List γ → Prop
  | nil : Abreast R [] [] []
  | cons {x : α} {y : β} {z : γ} {l : List α} {ys : List β} {zs : List γ} (h : R x y z)
    (rest : Abreast R l ys zs) : Abreast R (x :: l) (y :: ys) (z :: zs)

namespace Abreast

variable {R : α → β → γ → Prop}

theorem append {l l' : List α} {ys ys' : List β} {zs zs' : List γ} (h : Abreast R l ys zs)
    (h' : Abreast R l' ys' zs') : Abreast R (l ++ l') (ys ++ ys') (zs ++ zs') := by
  induction h with
  | nil => exact h'
  | cons hx _ ih => exact .cons hx ih

theorem map {α' β' γ' : Type} {R' : α' → β' → γ' → Prop} {f : α → α'} {g : β → β'} {k : γ → γ'}
    {l : List α} {ys : List β} {zs : List γ} (h : Abreast R l ys zs)
    (hR : ∀ x y z, R x y z → R' (f x) (g y) (k z)) :
    Abreast R' (l.map f) (ys.map g) (zs.map k) := by
  induction h with
  | nil => exact .nil
  | cons hx _ ih => exact .cons (hR _ _ _ hx) ih

/-- Three changes of the elements of one list. -/
theorem of_forall {δ : Type} {f : δ → α} {g : δ → β} {k : δ → γ} {l : List δ}
    (h : ∀ x ∈ l, R (f x) (g x) (k x)) : Abreast R (l.map f) (l.map g) (l.map k) := by
  induction l with
  | nil => exact .nil
  | cons x l ih =>
    rw [List.forall_mem_cons] at h
    exact .cons h.1 (ih h.2)

end Abreast

end

/-! ## Two computations -/

section

variable {γ : Type}

/-- Two computations that give related results, or fail with the same error. -/
inductive Alike (R : α → β → Prop) : Except ε α → Except ε β → Prop
  | ok {x : α} {y : β} (h : R x y) : Alike R (.ok x) (.ok y)
  | error (e : ε) : Alike R (.error e) (.error e)

namespace Alike

/-- Two changes of one result. -/
theorem of_map {R : β → γ → Prop} {x : Except ε α} {f : α → β} {g : α → γ}
    (h : ∀ v, x = .ok v → R (f v) (g v)) : Alike R (x.map f) (x.map g) := by
  cases x with
  | error e => exact .error e
  | ok v => exact .ok (h v rfl)

/-- One computation before two that are alike. -/
theorem of_bind {R : β → γ → Prop} {x : Except ε α} {f : α → Except ε β} {g : α → Except ε γ}
    (h : ∀ v, x = .ok v → Alike R (f v) (g v)) : Alike R (x.bind f) (x.bind g) := by
  cases x with
  | error e => exact .error e
  | ok v => exact h v rfl

/-- Two computations that a change of their results makes equal. -/
theorem of_map_eq {x : Except ε α} {y : Except ε β} {f : α → γ} {g : β → γ}
    (h : x.map f = y.map g) : Alike (fun v w => f v = g w) x y := by
  cases x with
  | error e =>
    cases y with
    | error e' =>
      cases h
      exact .error e
    | ok w => cases h
  | ok v =>
    cases y with
    | error e' => cases h
    | ok w => exact .ok (Except.ok.inj h)

/-- Two computations that are alike after two that are. -/
theorem bind {δ : Type} {R : α → β → Prop} {S : γ → δ → Prop} {x : Except ε α} {y : Except ε β}
    (h : Alike R x y) {f : α → Except ε γ} {g : β → Except ε δ}
    (hf : ∀ v w, R v w → Alike S (f v) (g w)) : Alike S (x.bind f) (y.bind g) := by
  cases h with
  | error e => exact .error e
  | ok h => exact hf _ _ h

/-- If one of two computations that are alike gives a result so does the other. -/
theorem exists_of_ok {R : α → β → Prop} {v : α} {y : Except ε β} (h : Alike R (.ok v) y) :
    ∃ w, y = .ok w ∧ R v w := by
  cases h with
  | ok h => exact ⟨_, rfl, h⟩

theorem imp {R S : α → β → Prop} {x : Except ε α} {y : Except ε β} (h : Alike R x y)
    (hS : ∀ {v w}, R v w → S v w) : Alike S x y := by
  cases h with
  | error e => exact .error e
  | ok h => exact .ok (hS h)

theorem mapError {R : α → β → Prop} {x : Except ε α} {y : Except ε β} (h : Alike R x y)
    (f : ε → ε') : Alike R (x.mapError f) (y.mapError f) := by
  cases h with
  | error e => exact .error (f e)
  | ok h => exact .ok h

/-- What is alike for every element of a list is alike for the list. -/
theorem mapM {R : α → β → γ → Prop} {f : α → Except ε β} {g : α → Except ε γ} {l : List α}
    (h : ∀ x ∈ l, Alike (R x) (f x) (g x)) : Alike (Abreast R l) (l.mapM f) (l.mapM g) := by
  induction l with
  | nil => exact .ok .nil
  | cons x l ih =>
    obtain ⟨hx, hl⟩ := List.forall_mem_cons.1 h
    have hrest := ih hl
    rw [List.mapM_cons, List.mapM_cons]
    generalize f x = first, g x = first' at hx
    generalize l.mapM f = rest, l.mapM g = rest' at hrest
    cases hx with
    | error e => exact .error e
    | ok hx =>
      cases hrest with
      | error e => exact .error e
      | ok hl => exact .ok (.cons hx hl)

end Alike

/-- Two computations that give related results, or fail with related errors. -/
inductive Parallel (E : ε → ε → Prop) (R : α → β → Prop) : Except ε α → Except ε β → Prop
  | ok {x : α} {y : β} (h : R x y) : Parallel E R (.ok x) (.ok y)
  | error {e e' : ε} (h : E e e') : Parallel E R (.error e) (.error e')

namespace Parallel

variable {δ : Type} {E : ε → ε → Prop} {R : α → β → Prop} {S : γ → δ → Prop}

/-- One computation before two that are parallel. -/
theorem of_bind (hE : ∀ e, E e e) {x : Except ε α} {f : α → Except ε γ} {g : α → Except ε δ}
    (h : ∀ v, x = .ok v → Parallel E S (f v) (g v)) : Parallel E S (x.bind f) (x.bind g) := by
  cases x with
  | error e => exact .error (hE e)
  | ok v => exact h v rfl

/-- Two computations that are parallel after two that are. -/
theorem bind {x : Except ε α} {y : Except ε β} (h : Parallel E R x y) {f : α → Except ε γ}
    {g : β → Except ε δ}
    (hf : ∀ v w, x = .ok v → y = .ok w → R v w → Parallel E S (f v) (g w)) :
    Parallel E S (x.bind f) (y.bind g) := by
  cases h with
  | error h => exact .error h
  | ok h => exact hf _ _ rfl rfl h

theorem map {x : Except ε α} {y : Except ε β} (h : Parallel E R x y) {f : α → γ} {g : β → δ}
    (hf : ∀ v w, R v w → S (f v) (g w)) : Parallel E S (x.map f) (y.map g) := by
  cases h with
  | error h => exact .error h
  | ok h => exact .ok (hf _ _ h)

theorem mapError {E' : ε' → ε' → Prop} {x : Except ε α} {y : Except ε β} (h : Parallel E R x y)
    {f : ε → ε'} (hf : ∀ e e', E e e' → E' (f e) (f e')) :
    Parallel E' R (x.mapError f) (y.mapError f) := by
  cases h with
  | error h => exact .error (hf _ _ h)
  | ok h => exact .ok h

/-- Where related results are equal, and related errors too, so are the computations. -/
theorem eq {R : α → α → Prop} {x y : Except ε α} (h : Parallel E R x y)
    (hE : ∀ e e', E e e' → e = e') (hR : ∀ v w, R v w → v = w) : x = y := by
  cases h with
  | error h => exact congrArg Except.error (hE _ _ h)
  | ok h => exact congrArg Except.ok (hR _ _ h)

end Parallel

end

end SdlTypes

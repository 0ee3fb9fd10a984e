import Mathlib.Order.Defs.Unbundled
import Mathlib.Tactic.SplitIfs

/-!
# Steps with a state

A step may fail half-way, and what it has changed until then stays. So what it leaves alone is said
of all its runs: `Moves R x` says that the states before and after `x` are in the relation `R`,
whatever `x` ends with. For a preorder this follows from the parts of a step, one by one.
-/

namespace SdlTypes

variable {σ ε ε' α β : Type}

/-! ## Running steps -/

/-- A sequence stops with the error of its first part, or goes on with its result. -/
theorem run_bind (x : ExceptT ε (StateM σ) α) (f : α → ExceptT ε (StateM σ) β) (s : σ) :
    (x >>= f).run.run s =
      match x.run.run s with
      | (.ok v, t) => (f v).run.run t
      | (.error e, t) => (.error e, t) := by
  change (ExceptT.bind x f).run.run s = _
  simp only [ExceptT.bind, ExceptT.run_mk]
  change (StateT.bind x.run (ExceptT.bindCont f)).run s = _
  simp only [StateT.bind, StateT.run]
  cases h : x.run s with
  | mk r t => cases r <;> rfl

/-- A step with a handler runs the handler where the step has stopped. -/
theorem run_tryCatch (x : ExceptT ε (StateM σ) α) (f : ε → ExceptT ε (StateM σ) α) (s : σ) :
    (tryCatch x f).run.run s =
      match x.run.run s with
      | (.ok v, t) => (.ok v, t)
      | (.error e, t) => (f e).run.run t := by
  change (ExceptT.tryCatch x f).run.run s = _
  simp only [ExceptT.tryCatch, ExceptT.run_mk]
  change (StateT.bind x.run _).run s = _
  simp only [StateT.bind, StateT.run]
  cases h : x.run s with
  | mk r t => cases r <;> rfl

/-- If a sequence succeeds so do its parts, one after the other. -/
theorem exists_of_run_bind {x : ExceptT ε (StateM σ) α} {f : α → ExceptT ε (StateM σ) β} {s t : σ}
    {w : β} (h : (x >>= f).run.run s = (.ok w, t)) :
    ∃ v u, x.run.run s = (.ok v, u) ∧ (f v).run.run u = (.ok w, t) := by
  rw [run_bind] at h
  rcases hx : x.run.run s with ⟨r, u⟩
  rw [hx] at h
  cases r with
  | error e => cases h
  | ok v => exact ⟨v, u, rfl, h⟩

section

variable (s : σ)

@[simp] theorem run_get : (get : ExceptT ε (StateM σ) σ).run.run s = (.ok s, s) := rfl

@[simp] theorem run_lift (result : Except ε α) :
    (liftExcept result : ExceptT ε (StateM σ) α).run.run s = (result, s) := by
  cases result <;> rfl

end

/-! ## Results -/

/-- A step that gives only results with a property. -/
def Returns (P : α → Prop) (x : ExceptT ε (StateM σ) α) : Prop :=
  ∀ s v, (x.run.run s).1 = .ok v → P v

namespace Returns

variable {P : α → Prop}

theorem of_run {x : ExceptT ε (StateM σ) α} {s t : σ} {v : α} (h : x.run.run s = (.ok v, t))
    (hx : Returns P x) : P v :=
  hx s v (congrArg Prod.fst h)

theorem pure {v : α} (hv : P v) : Returns P (Pure.pure v : ExceptT ε (StateM σ) α) :=
  fun _ _ h => Except.ok.inj h ▸ hv

theorem bind {x : ExceptT ε (StateM σ) β} {f : β → ExceptT ε (StateM σ) α}
    (hf : ∀ v, Returns P (f v)) : Returns P (x >>= f) := by
  intro s w h
  rw [run_bind] at h
  rcases hrun : x.run.run s with ⟨r, t⟩
  rw [hrun] at h
  cases r with
  | error e => cases h
  | ok v => exact hf v t w h

theorem ite {p : Prop} [Decidable p] {x y : ExceptT ε (StateM σ) α} (hx : Returns P x)
    (hy : Returns P y) : Returns P (if p then x else y) := by
  split_ifs
  · exact hx
  · exact hy

theorem adapt {x : ExceptT ε (StateM σ) α} (hx : Returns P x) (f : ε → ε') :
    Returns P (x.adapt f) := by
  intro s v h
  change Except.mapError f (x.run.run s).1 = .ok v at h
  have hs := hx s
  generalize (x.run.run s).1 = r at h hs
  cases r with
  | error e => cases h
  | ok w => exact hs v (congrArg Except.ok (Except.ok.inj h))

end Returns

/-! ## Errors -/

/-- A step that fails only with errors that have a property. -/
def Fails (P : ε → Prop) (x : ExceptT ε (StateM σ) α) : Prop :=
  ∀ s e, (x.run.run s).1 = .error e → P e

namespace Fails

variable {P : ε → Prop}

theorem pure (v : α) : Fails P (Pure.pure v : ExceptT ε (StateM σ) α) := nofun

theorem throw {e : ε} (he : P e) : Fails P (MonadExcept.throw e : ExceptT ε (StateM σ) α) :=
  fun _ _ h => Except.error.inj h ▸ he

theorem modify (f : σ → σ) : Fails P (modify f : ExceptT ε (StateM σ) PUnit) := nofun

theorem bind {x : ExceptT ε (StateM σ) β} (hx : Fails P x) {f : β → ExceptT ε (StateM σ) α}
    (hf : ∀ v, Fails P (f v)) : Fails P (x >>= f) := by
  intro s e h
  rw [run_bind] at h
  have hs := hx s
  rcases hrun : x.run.run s with ⟨r, t⟩
  rw [hrun] at h hs
  cases r with
  | error e' => exact hs e (congrArg Except.error (Except.error.inj h))
  | ok v => exact hf v t e h

theorem ite {p : Prop} [Decidable p] {x y : ExceptT ε (StateM σ) α} (hx : Fails P x)
    (hy : Fails P y) : Fails P (if p then x else y) := by
  split_ifs
  · exact hx
  · exact hy

end Fails

/-! ## Moves -/

/-- A step that takes every state to a related one, also when it fails. -/
def Moves (R : σ → σ → Prop) (x : ExceptT ε (StateM σ) α) : Prop :=
  ∀ s, R s (x.run.run s).2

namespace Moves

variable {R S : σ → σ → Prop} {x : ExceptT ε (StateM σ) α}

theorem of_run {s t : σ} {r : Except ε α} (h : x.run.run s = (r, t)) (hx : Moves R x) : R s t := by
  simpa only [h] using hx s

theorem imp (hx : Moves R x) (h : ∀ s t, R s t → S s t) : Moves S x :=
  fun s => h s _ (hx s)

theorem adapt (hx : Moves R x) (f : ε → ε') : Moves R (x.adapt f) := hx

theorem ite {p : Prop} [Decidable p] {y : ExceptT ε (StateM σ) α} (hx : p → Moves R x)
    (hy : ¬p → Moves R y) : Moves R (if p then x else y) := by
  split_ifs with h
  · exact hx h
  · exact hy h

variable [IsPreorder σ R]

theorem pure (v : α) : Moves R (Pure.pure v : ExceptT ε (StateM σ) α) := fun s => refl_of R s

theorem throw (e : ε) : Moves R (MonadExcept.throw e : ExceptT ε (StateM σ) α) :=
  fun s => refl_of R s

/-- Nothing comes after a failure. -/
theorem throw_bind (e : ε) (f : α → ExceptT ε (StateM σ) β) :
    Moves R (MonadExcept.throw e >>= f) := fun s => refl_of R s

theorem get : Moves R (MonadState.get : ExceptT ε (StateM σ) σ) := fun s => refl_of R s

theorem lift (result : Except ε α) : Moves R (liftExcept result : ExceptT ε (StateM σ) α) := by
  cases result <;> exact fun s => refl_of R s

/-- What comes second may rely on what the first step gives. -/
theorem bindReturns {P : α → Prop} (hx : Moves R x) (hP : Returns P x)
    {f : α → ExceptT ε (StateM σ) β} (hf : ∀ v, P v → Moves R (f v)) : Moves R (x >>= f) := by
  intro s
  rw [run_bind]
  have hs := hx s
  rcases hrun : x.run.run s with ⟨r, t⟩
  rw [hrun] at hs
  cases r with
  | error e => exact hs
  | ok v => exact trans_of R hs (hf v (hP s v (congrArg Prod.fst hrun)) t)

theorem bind (hx : Moves R x) {f : α → ExceptT ε (StateM σ) β} (hf : ∀ v, Moves R (f v)) :
    Moves R (x >>= f) :=
  hx.bindReturns (fun _ _ _ => trivial) fun v _ => hf v

theorem tryCatch (hx : Moves R x) {f : ε → ExceptT ε (StateM σ) α} (hf : ∀ e, Moves R (f e)) :
    Moves R (MonadExcept.tryCatch x f) := fun s => by
  have hrun := run_tryCatch x f s
  have hs := hx s
  rcases hr : x.run.run s with ⟨r, t⟩
  rw [hr] at hrun hs
  cases r with
  | ok v => exact hrun ▸ hs
  | error e => exact hrun ▸ trans_of R hs (hf e t)

/-- Steps of which each goes to a related state do so one after another. -/
theorem forM {f : α → ExceptT ε (StateM σ) Unit} {l : List α} (h : ∀ v ∈ l, Moves R (f v)) :
    Moves R (l.forM f) := by
  induction l with
  | nil => exact Moves.pure ()
  | cons v l ih =>
    obtain ⟨hv, hl⟩ := List.forall_mem_cons.1 h
    exact hv.bind fun _ => ih hl

end Moves

end SdlTypes

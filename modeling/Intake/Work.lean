/-!
# Work that may fail

Work on a state that may end in an error, as disks and archives are worked on: what was done to the
state before the error stays done. The lemmas here say what each of its steps gives and leaves.
-/

namespace Intake

namespace Work

variable {ε σ α β : Type}

@[simp]
theorem run_pure (a : α) (s : σ) : (pure a : ExceptT ε (StateM σ) α).run s = (.ok a, s) := rfl

@[simp]
theorem run_throw (e : ε) (s : σ) : (throw e : ExceptT ε (StateM σ) α).run s = (.error e, s) := rfl

@[simp]
theorem run_get (s : σ) : (get : ExceptT ε (StateM σ) σ).run s = (.ok s, s) := rfl

@[simp]
theorem run_set (t s : σ) : (set t : ExceptT ε (StateM σ) PUnit).run s = (.ok (), t) := rfl

@[simp]
theorem run_modify (f : σ → σ) (s : σ) :
    (modify f : ExceptT ε (StateM σ) PUnit).run s = (.ok (), f s) := rfl

@[simp]
theorem run_liftM (r : Except ε α) (s : σ) :
    (liftM r : ExceptT ε (StateM σ) α).run s = (r, s) := rfl

@[simp]
theorem run_bind (x : ExceptT ε (StateM σ) α) (f : α → ExceptT ε (StateM σ) β) (s : σ) :
    (x >>= f).run s = match x.run s with
      | (.ok a, s') => (f a).run s'
      | (.error e, s') => (.error e, s') := by
  have hbind : (x >>= f).run s = ExceptT.bindCont f (x.run s).1 (x.run s).2 := rfl
  rw [hbind]
  rcases x.run s with ⟨e | a, s'⟩ <;> rfl

@[simp]
theorem run_tryCatch (x : ExceptT ε (StateM σ) α) (handle : ε → ExceptT ε (StateM σ) α) (s : σ) :
    (tryCatch x handle).run s = match x.run s with
      | (.ok a, s') => (.ok a, s')
      | (.error e, s') => (handle e).run s' := by
  have htry : (tryCatch x handle).run s = StateT.run (tryCatch x handle).run s := rfl
  rw [htry, ExceptT.run_tryCatch, StateT.run_bind]
  show bind (m := Id) (x.run s) _ = _
  rcases x.run s with ⟨e | a, s'⟩ <;> rfl

/-! ## Other errors -/

@[simp]
theorem mapError_ok {ε' : Type} (f : ε → ε') (a : α) :
    (Except.ok a : Except ε α).mapError f = .ok a := rfl

@[simp]
theorem mapError_error {ε' : Type} (f : ε → ε') (e : ε) :
    (Except.error e : Except ε α).mapError f = .error (f e) := rfl

end Work

end Intake

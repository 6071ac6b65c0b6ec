import Intake.Backend.Basic

/-!
# The backends of a worker

Backends are looked up by name. Of two that are registered under one name the later one stays.
-/

namespace Intake

/-- The backends that a worker can run. -/
structure BackendRegistry where
  backends : Keyed Backend := .empty

namespace BackendRegistry

/-- The registry with one more backend, in the place of one of the same name. -/
def register (r : BackendRegistry) (b : Backend) : BackendRegistry :=
  ⟨r.backends.insert b.name b⟩

/-- The registry in which some backends were registered one after the other. -/
def ofList (backends : List Backend) : BackendRegistry := backends.foldl register {}

/-- The backend with a name. -/
def resolve (r : BackendRegistry) (name : String) : Except JobError Backend :=
  (r.backends.get? name).elim (.error (.notFound name)) .ok

/-- Whether there is a backend with a name. -/
def contains (r : BackendRegistry) (name : String) : Bool := r.backends.contains name

/-- The names of the backends in ascending order. -/
def names (r : BackendRegistry) : List String := r.backends.keys

/-! ## Names -/

/-- Every backend stands under its own name. -/
def Named (r : BackendRegistry) : Prop := ∀ name b, r.backends.get? name = some b → b.name = name

theorem Named.register {r : BackendRegistry} (h : r.Named) (b : Backend) :
    (r.register b).Named := by
  intro name b' hget
  rw [BackendRegistry.register, Keyed.get?_insert] at hget
  split at hget
  · rename_i hname
    rw [hname, ← Option.some.inj hget]
  · exact h name b' hget

theorem named_ofList (backends : List Backend) : (ofList backends).Named := by
  have hfold : ∀ r : BackendRegistry, r.Named →
      (backends.foldl BackendRegistry.register r).Named := by
    induction backends with
    | nil => exact fun r h => h
    | cons b rest ih => exact fun r h => ih (r.register b) (h.register b)
  refine hfold {} ?_
  intro name b hget
  simp at hget

/-- A backend is found if there is one with the name. -/
theorem resolve_eq (r : BackendRegistry) (name : String) :
    r.resolve name = match r.backends.get? name with
      | none => .error (.notFound name)
      | some b => .ok b := by
  unfold resolve
  cases r.backends.get? name <;> rfl

/-- A backend that is found has the name that was looked for. -/
theorem Named.name_of_resolve {r : BackendRegistry} (h : r.Named) {name : String} {b : Backend}
    (hresolve : r.resolve name = .ok b) : b.name = name := by
  rw [resolve_eq] at hresolve
  cases hget : r.backends.get? name with
  | none =>
    rw [hget] at hresolve
    cases hresolve
  | some found =>
    rw [hget] at hresolve
    cases hresolve
    exact h name b hget

/-- A name is resolved if there is a backend with it, and else the answer says which one is missing.
-/
theorem resolve_cases (r : BackendRegistry) (name : String) :
    r.contains name = false ∧ r.resolve name = .error (.notFound name)
      ∨ r.contains name = true ∧ ∃ b, r.resolve name = .ok b := by
  rw [resolve_eq, contains, Keyed.contains]
  cases r.backends.get? name with
  | none => exact .inl ⟨rfl, rfl⟩
  | some b => exact .inr ⟨rfl, b, rfl⟩

end BackendRegistry

end Intake

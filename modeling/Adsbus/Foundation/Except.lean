import Mathlib.Data.List.Basic

/-! # Sequences that can fail

How a sequence of fallible steps ends, from how its steps do.
-/

namespace Except

variable {ε α β : Type}

@[simp] theorem ok_bind (value : α) (next : α → Except ε β) :
    (Except.ok value >>= next) = next value := rfl

@[simp] theorem error_bind (failure : ε) (next : α → Except ε β) :
    ((Except.error failure : Except ε α) >>= next) = .error failure := rfl

@[simp] theorem pure_eq_ok (value : α) : (pure value : Except ε α) = .ok value := rfl

/-- What is said of a result can be decided where it can be for its value. -/
instance decidableForallOk {result : Except ε α} {holds : α → Prop} [DecidablePred holds] :
    Decidable (∀ value, result = .ok value → holds value) :=
  match result with
  | .error _ => .isTrue fun _ same => by cases same
  | .ok value => decidable_of_iff (holds value)
      ⟨fun here _ same => Except.ok.inj same ▸ here, fun all => all value rfl⟩

/-- A sequence ends well exactly when its first step does and then the rest. -/
theorem bind_eq_ok {first : Except ε α} {next : α → Except ε β} {result : β} :
    (first >>= next) = .ok result ↔ ∃ value, first = .ok value ∧ next value = .ok result := by
  cases first with
  | error failure => simp only [error_bind, reduceCtorEq, false_and, exists_false]
  | ok value => simp only [ok_bind, Except.ok.injEq, exists_eq_left']

/-- A sequence fails where one of its steps does. -/
theorem bind_eq_error {first : Except ε α} {next : α → Except ε β} {failure : ε} :
    (first >>= next) = .error failure ↔
      first = .error failure ∨ ∃ value, first = .ok value ∧ next value = .error failure := by
  cases first with
  | error other => simp only [error_bind, Except.error.injEq, reduceCtorEq, false_and,
      exists_false, or_false]
  | ok value => simp only [ok_bind, reduceCtorEq, false_or, Except.ok.injEq, exists_eq_left']

/-- Steps that all end well give the list of their results. -/
theorem mapM_eq_ok {items : List α} {step : α → Except ε β} {result : α → β}
    (ok : ∀ item ∈ items, step item = .ok (result item)) :
    items.mapM step = .ok (items.map result) := by
  induction items with
  | nil => rfl
  | cons item items ih =>
      obtain ⟨here, later⟩ := List.forall_mem_cons.mp ok
      rw [List.mapM_cons, here, ok_bind, ih later, ok_bind, pure_eq_ok, List.map_cons]

/-- Steps that end well from states of a kind, and keep to this kind, do so one after another. -/
theorem exists_foldlM {holds : β → Prop} {step : β → α → Except ε β}
    (ok : ∀ {state} item, holds state → ∃ next, step state item = .ok next ∧ holds next)
    (items : List α) {state : β} (starts : holds state) :
    ∃ last, items.foldlM step state = .ok last ∧ holds last := by
  induction items generalizing state with
  | nil => exact ⟨state, rfl, starts⟩
  | cons item items ih =>
      obtain ⟨next, here, kept⟩ := ok item starts
      rw [List.foldlM_cons, here, ok_bind]
      exact ih kept

/-- What every step that ends well keeps, steps that end well keep one after another. -/
theorem foldlM_keeps {holds : β → Prop} {step : β → α → Except ε β}
    (keeps : ∀ {state item next}, step state item = .ok next → holds state → holds next)
    {items : List α} {state last : β} (ran : items.foldlM step state = .ok last)
    (starts : holds state) : holds last := by
  induction items generalizing state with
  | nil =>
      cases ran
      exact starts
  | cons item items ih =>
      rw [List.foldlM_cons] at ran
      obtain ⟨next, here, later⟩ := bind_eq_ok.mp ran
      exact ih later (keeps here starts)

/-- The step does not fail in this way. -/
def Avoids (result : Except ε α) (failure : ε) : Prop := result ≠ .error failure

theorem avoids_ok (value : α) (failure : ε) : (Except.ok value : Except ε α).Avoids failure :=
  nofun

/-- A sequence avoids a failure that each of its steps avoids. -/
theorem Avoids.bind {first : Except ε α} {next : α → Except ε β} {failure : ε}
    (start : first.Avoids failure)
    (rest : ∀ value, first = .ok value → (next value).Avoids failure) :
    (first >>= next).Avoids failure := by
  cases first with
  | error other => exact fun same => start (congrArg Except.error (Except.error.inj same))
  | ok value => exact rest value rfl

/-- The sequence ends in a result that is as said, or fails in one of the ways allowed. -/
def Ends (result : Except ε α) (allowed : ε → Prop) (post : α → Prop) : Prop :=
  match result with
  | .ok value => post value
  | .error failure => allowed failure

variable {allowed : ε → Prop}

/-- The rest of a sequence starts from what is said of its first step. -/
theorem Ends.bind {first : Except ε α} {next : α → Except ε β} {middle : α → Prop} {post : β → Prop}
    (start : first.Ends allowed middle)
    (rest : ∀ value, middle value → (next value).Ends allowed post) :
    (first >>= next).Ends allowed post := by
  cases first with
  | error failure => exact start
  | ok value => exact rest value start

theorem Ends.bind_eq {first : Except ε α} {next : α → Except ε β} {middle : α → Prop}
    {post : β → Prop} (start : first.Ends allowed middle)
    (rest : ∀ value, first = .ok value → middle value → (next value).Ends allowed post) :
    (first >>= next).Ends allowed post := by
  cases first with
  | error failure => exact start
  | ok value => exact rest value rfl start

theorem Ends.mono {result : Except ε α} {post weaker : α → Prop} (ends : result.Ends allowed post)
    (weakens : ∀ value, post value → weaker value) : result.Ends allowed weaker := by
  cases result with
  | error failure => exact ends
  | ok value => exact weakens value ends

end Except

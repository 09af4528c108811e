import Mathlib.Data.List.Basic

/-! # Scanners

A scanner reads an input value by value until it has read a whole item. Whether
and where it has read one depends on the values up to there only. -/

/-- A scanner with states `σ` over input values `β`, reading items `φ`: each value rejects the
input, leads to a state or completes an item. -/
structure Scanner (σ β φ : Type) where
  step : σ → β → Option (σ ⊕ φ)

namespace Scanner

variable {σ β φ : Type}

/-- Scan for an item from a state on: the item, and how many values it takes. -/
def scan (scanner : Scanner σ β φ) : σ → List β → Option (φ × Nat)
  | _, [] => none
  | state, value :: input =>
      match scanner.step state value with
      | none => none
      | some (.inr item) => some (item, 1)
      | some (.inl next) => (scanner.scan next input).map fun result => (result.1, result.2 + 1)

/-- The state behind some values that complete no item. -/
def walk (scanner : Scanner σ β φ) : σ → List β → Option σ
  | state, [] => some state
  | state, value :: input =>
      match scanner.step state value with
      | some (.inl next) => scanner.walk next input
      | _ => none

variable {scanner : Scanner σ β φ}

theorem scan_bounds {state : σ} {input : List β} {item : φ} {count : Nat}
    (found : scanner.scan state input = some (item, count)) :
    0 < count ∧ count ≤ input.length := by
  induction input generalizing state count with
  | nil => cases found
  | cons value input ih =>
      simp only [scan] at found
      split at found
      · cases found
      · cases found
        exact ⟨Nat.zero_lt_one, Nat.succ_le_succ (Nat.zero_le _)⟩
      · obtain ⟨⟨item', count'⟩, rest, same⟩ := Option.map_eq_some_iff.mp found
        cases same
        have := ih rest
        rw [List.length_cons]
        omega

theorem scan_determined {state : σ} {input other : List β} {item : φ} {count : Nat}
    (found : scanner.scan state input = some (item, count))
    (common : input.take count <+: other) : scanner.scan state other = some (item, count) := by
  induction input generalizing state count other with
  | nil => cases found
  | cons value input ih =>
      simp only [scan] at found
      split at found
      · cases found
      · rename_i item' step
        cases found
        obtain ⟨rest, rfl⟩ := common
        simp only [List.take_succ_cons, List.cons_append, scan, step]
      · rename_i next step
        obtain ⟨⟨item', count'⟩, tail, same⟩ := Option.map_eq_some_iff.mp found
        cases same
        obtain ⟨rest, rfl⟩ := common
        simp only [List.take_succ_cons, List.cons_append, scan, step]
        rw [ih tail (List.prefix_append _ _)]
        rfl

/-- Values that complete no item lead to scanning from another state. -/
theorem scan_append {state next : σ} {first : List β}
    (walked : scanner.walk state first = some next) (second : List β) :
    scanner.scan state (first ++ second) =
      (scanner.scan next second).map fun result => (result.1, first.length + result.2) := by
  induction first generalizing state with
  | nil =>
      cases walked
      rw [List.nil_append]
      cases scanner.scan next second with
      | none => rfl
      | some result => simp only [Option.map_some, List.length_nil, Nat.zero_add]
  | cons value first ih =>
      simp only [walk] at walked
      split at walked
      · rename_i next' step
        simp only [List.cons_append, scan, step, ih walked, Option.map_map]
        cases scanner.scan next second with
        | none => rfl
        | some result =>
            simp only [Option.map_some, Function.comp_apply, List.length_cons, Option.some.injEq,
              Prod.mk.injEq, true_and]
            omega
      · cases walked

theorem walk_append {state middle next : σ} {first second : List β}
    (walked : scanner.walk state first = some middle)
    (walked' : scanner.walk middle second = some next) :
    scanner.walk state (first ++ second) = some next := by
  induction first generalizing state with
  | nil =>
      cases walked
      exact walked'
  | cons value first ih =>
      simp only [walk] at walked
      split at walked
      · rename_i next' step
        simp only [List.cons_append, walk, step, ih walked]
      · cases walked

theorem walk_cons {state middle next : σ} {value : β} {rest : List β}
    (step : scanner.step state value = some (.inl middle))
    (walked : scanner.walk middle rest = some next) :
    scanner.walk state (value :: rest) = some next := by
  simp only [walk, step, walked]

end Scanner

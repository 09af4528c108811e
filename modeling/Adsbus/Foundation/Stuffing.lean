import Mathlib.Data.List.Basic
import Mathlib.Data.List.Infix

/-! # Doubling a marker

A marker inside some data is escaped by doubling it, so that a single one tells
the start of something else. Undoing this reads a given number of values from
the front of an input. -/

namespace Stuffing

variable {β : Type} [DecidableEq β]

/-- Double every marker. -/
def stuff (marker : β) (values : List β) : List β :=
  values.flatMap fun value => if value = marker then [value, marker] else [value]

/-- Read a number of values from the front of an input, undoing the doubling: how much was read,
and the values. -/
def unstuff (marker : β) : Nat → List β → Option (Nat × List β)
  | 0, _ => some (0, [])
  | _ + 1, [] => none
  | left + 1, [value] =>
      if value = marker then none
      else (unstuff marker left []).map fun result => (result.1 + 1, value :: result.2)
  | left + 1, value :: next :: rest =>
      if value = marker then
        if next = marker then
          (unstuff marker left rest).map fun result => (result.1 + 2, next :: result.2)
        else none
      else
        (unstuff marker left (next :: rest)).map fun result => (result.1 + 1, value :: result.2)

variable {marker : β}

theorem unstuff_of_ne {value : β} (plain : value ≠ marker) (left : Nat) (rest : List β) :
    unstuff marker (left + 1) (value :: rest) =
      (unstuff marker left rest).map fun result => (result.1 + 1, value :: result.2) := by
  cases rest <;> simp only [unstuff, if_neg plain]

theorem unstuff_marker (left : Nat) (rest : List β) :
    unstuff marker (left + 1) (marker :: marker :: rest) =
      (unstuff marker left rest).map fun result => (result.1 + 2, marker :: result.2) := by
  simp only [unstuff, ↓reduceIte]

/-- Every value takes one or two places. -/
theorem unstuff_bounds {count stop : Nat} {input values : List β}
    (read : unstuff marker count input = some (stop, values)) :
    values.length = count ∧ count ≤ stop ∧ stop ≤ 2 * count ∧ stop ≤ input.length := by
  induction count, input using unstuff.induct marker generalizing stop values with
  | case1 _ =>
      cases read
      exact ⟨rfl, Nat.le_refl _, Nat.le_refl _, Nat.zero_le _⟩
  | case2 _ => cases read
  | case3 left => simp only [unstuff, ↓reduceIte, reduceCtorEq] at read
  | case4 left value plain ih =>
      simp only [unstuff, plain, ↓reduceIte, Option.map_eq_some_iff, Prod.mk.injEq] at read
      obtain ⟨⟨stop', values'⟩, read, rfl, rfl⟩ := read
      have := ih read
      simp only [List.length_cons, List.length_nil] at *
      omega
  | case5 left rest ih =>
      simp only [unstuff, ↓reduceIte, Option.map_eq_some_iff, Prod.mk.injEq] at read
      obtain ⟨⟨stop', values'⟩, read, rfl, rfl⟩ := read
      have := ih read
      simp only [List.length_cons] at *
      omega
  | case6 left next rest single =>
      simp only [unstuff, single, ↓reduceIte, reduceCtorEq] at read
  | case7 left value next rest plain ih =>
      simp only [unstuff, plain, ↓reduceIte, Option.map_eq_some_iff, Prod.mk.injEq] at read
      obtain ⟨⟨stop', values'⟩, read, rfl, rfl⟩ := read
      have := ih read
      simp only [List.length_cons] at *
      omega

/-- What is read does not depend on what is behind it. -/
theorem unstuff_determined {count stop : Nat} {input other values : List β}
    (read : unstuff marker count input = some (stop, values))
    (common : input.take stop <+: other) :
    unstuff marker count other = some (stop, values) := by
  induction count, input using unstuff.induct marker generalizing stop values other with
  | case1 _ =>
      cases read
      cases other <;> rfl
  | case2 _ => cases read
  | case3 left => simp only [unstuff, ↓reduceIte, reduceCtorEq] at read
  | case4 left value plain ih =>
      simp only [unstuff, plain, ↓reduceIte, Option.map_eq_some_iff, Prod.mk.injEq] at read
      obtain ⟨⟨stop', values'⟩, read, rfl, rfl⟩ := read
      rw [List.take_succ_cons] at common
      obtain ⟨rest', rfl⟩ := common
      rw [List.cons_append, unstuff_of_ne plain, ih read (List.prefix_append _ _)]
      rfl
  | case5 left rest ih =>
      simp only [unstuff, ↓reduceIte, Option.map_eq_some_iff, Prod.mk.injEq] at read
      obtain ⟨⟨stop', values'⟩, read, rfl, rfl⟩ := read
      rw [List.take_succ_cons, List.take_succ_cons] at common
      obtain ⟨rest', rfl⟩ := common
      rw [List.cons_append, List.cons_append, unstuff_marker, ih read (List.prefix_append _ _)]
      rfl
  | case6 left next rest single =>
      simp only [unstuff, single, ↓reduceIte, reduceCtorEq] at read
  | case7 left value next rest plain ih =>
      simp only [unstuff, plain, ↓reduceIte, Option.map_eq_some_iff, Prod.mk.injEq] at read
      obtain ⟨⟨stop', values'⟩, read, rfl, rfl⟩ := read
      rw [List.take_succ_cons] at common
      obtain ⟨rest', rfl⟩ := common
      rw [List.cons_append, unstuff_of_ne plain, ih read (List.prefix_append _ _)]
      rfl

/-- **Undoing the doubling.** Doubled values are read back, whatever follows them. -/
theorem unstuff_stuff (marker : β) (values more : List β) :
    unstuff marker values.length (stuff marker values ++ more) =
      some ((stuff marker values).length, values) := by
  induction values with
  | nil => cases more <;> rfl
  | cons value values ih =>
      simp only [stuff, List.flatMap_cons] at ih ⊢
      by_cases isMarker : value = marker
      · subst isMarker
        simp only [↓reduceIte, List.cons_append, List.nil_append, List.length_cons]
        rw [unstuff_marker, ih]
        rfl
      · simp only [isMarker, ↓reduceIte, List.cons_append, List.nil_append, List.length_cons]
        rw [unstuff_of_ne isMarker, ih]
        rfl

/-- Doubling what was read gives back the part of the input that it was read from. -/
theorem stuff_unstuff {count stop : Nat} {input values : List β}
    (read : unstuff marker count input = some (stop, values)) :
    stuff marker values = input.take stop := by
  induction count, input using unstuff.induct marker generalizing stop values with
  | case1 _ =>
      cases read
      rfl
  | case2 _ => cases read
  | case3 left => simp only [unstuff, ↓reduceIte, reduceCtorEq] at read
  | case4 left value plain ih =>
      simp only [unstuff, plain, ↓reduceIte, Option.map_eq_some_iff, Prod.mk.injEq] at read
      obtain ⟨⟨stop', values'⟩, read, rfl, rfl⟩ := read
      rw [stuff, List.flatMap_cons, if_neg plain, ← stuff, ih read]
      rfl
  | case5 left rest ih =>
      simp only [unstuff, ↓reduceIte, Option.map_eq_some_iff, Prod.mk.injEq] at read
      obtain ⟨⟨stop', values'⟩, read, rfl, rfl⟩ := read
      rw [stuff, List.flatMap_cons, if_pos rfl, ← stuff, ih read]
      rfl
  | case6 left next rest single =>
      simp only [unstuff, single, ↓reduceIte, reduceCtorEq] at read
  | case7 left value next rest plain ih =>
      simp only [unstuff, plain, ↓reduceIte, Option.map_eq_some_iff, Prod.mk.injEq] at read
      obtain ⟨⟨stop', values'⟩, read, rfl, rfl⟩ := read
      rw [stuff, List.flatMap_cons, if_neg plain, ← stuff, ih read]
      rfl

theorem stuff_length_le (marker : β) (values : List β) :
    (stuff marker values).length ≤ 2 * values.length := by
  induction values with
  | nil => exact Nat.zero_le _
  | cons value values ih =>
      rw [stuff, List.flatMap_cons, List.length_append, List.length_cons, ← stuff]
      have : (if value = marker then [value, marker] else [value]).length ≤ 2 := by
        split
        · exact Nat.le_refl 2
        · exact Nat.le_succ 1
      omega

/-! ## Doubled texts -/

/-- A text in which every marker is doubled, and the values it stands for. -/
inductive Doubled (marker : β) : List β → List β → Prop
  | nil : Doubled marker [] []
  | plain {value : β} {values text : List β} (differs : value ≠ marker)
      (doubled : Doubled marker values text) : Doubled marker (value :: values) (value :: text)
  | twice {values text : List β} (doubled : Doubled marker values text) :
      Doubled marker (marker :: values) (marker :: marker :: text)

theorem doubled_iff {values text : List β} :
    Doubled marker values text ↔ stuff marker values = text := by
  constructor
  · intro doubled
    induction doubled with
    | nil => rfl
    | plain differs _ ih => rw [stuff, List.flatMap_cons, if_neg differs, ← stuff, ih]; rfl
    | twice _ ih => rw [stuff, List.flatMap_cons, if_pos rfl, ← stuff, ih]; rfl
  · rintro rfl
    induction values with
    | nil => exact .nil
    | cons value values ih =>
        rw [stuff, List.flatMap_cons, ← stuff]
        by_cases isMarker : value = marker
        · rw [if_pos isMarker, isMarker]
          exact .twice ih
        · rw [if_neg isMarker]
          exact .plain isMarker ih

/-- What is read at the front of an input is the doubled text there. -/
theorem unstuff_eq_some {count stop : Nat} {input values : List β} :
    unstuff marker count input = some (stop, values) ↔
      ∃ text, Doubled marker values text ∧ text <+: input ∧ values.length = count ∧
        text.length = stop := by
  constructor
  · intro read
    obtain ⟨length, _, _, inside⟩ := unstuff_bounds read
    exact ⟨input.take stop, doubled_iff.mpr (stuff_unstuff read), List.take_prefix _ _, length,
      List.length_take_of_le inside⟩
  · rintro ⟨text, doubled, ⟨more, rfl⟩, rfl, rfl⟩
    rw [← doubled_iff.mp doubled, unstuff_stuff]

end Stuffing

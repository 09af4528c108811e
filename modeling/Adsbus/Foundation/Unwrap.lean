import Mathlib.Data.List.Chain
import Mathlib.Data.Nat.Basic

/-! # Counting the wraps of a counter

A counter with a bounded range is read now and then. A reading below the one
before tells that the counter has wrapped in between. For a counter that moves
by less than its period between two readings, this count is exact.
-/

namespace Unwrap

/-- The wraps up to a reading, with those up to the last one. -/
def seen (last wraps next : Nat) : Nat := if next < last then wraps + 1 else wraps

variable {ι : Type} (reading : ι → Nat)

/-- Each item with the number of wraps up to its reading. -/
def count : (last wraps : Nat) → List ι → List (ι × Nat)
  | _, _, [] => []
  | last, wraps, item :: items =>
      (item, seen last wraps (reading item)) ::
        count (reading item) (seen last wraps (reading item)) items

@[simp] theorem count_fst (last wraps : Nat) (items : List ι) :
    (count reading last wraps items).map Prod.fst = items := by
  induction items generalizing last wraps with
  | nil => rfl
  | cons item items ih => rw [count, List.map_cons, ih]

@[simp] theorem seen_zero (wraps next : Nat) : seen 0 wraps next = wraps :=
  if_neg (Nat.not_lt_zero next)

theorem seen_le (last wraps next : Nat) : seen last wraps next ≤ wraps + 1 := by
  rw [seen]
  split
  · exact Nat.le_refl _
  · exact Nat.le_succ wraps

/-- The count depends on the readings only. -/
theorem count_congr {reading reading' : ι → Nat} {items : List ι}
    (same : ∀ item ∈ items, reading item = reading' item) (last wraps : Nat) :
    count reading last wraps items = count reading' last wraps items := by
  induction items generalizing last wraps with
  | nil => rfl
  | cons item items ih =>
      obtain ⟨here, later⟩ := List.forall_mem_cons.mp same
      rw [count, count, here, ih later]

/-! ## Zeros -/

/-- Zeros in front of all other readings are not counted. -/
theorem count_zeros_first {items : List ι}
    (first : items.Pairwise fun item later => reading later = 0 → reading item = 0) :
    (∀ counted ∈ count reading 0 0 items, reading counted.1 = 0 → counted.2 = 0) ∧
      (count reading 0 0 items).filter (fun counted => reading counted.1 ≠ 0) =
        count reading 0 0 (items.filter fun item => reading item ≠ 0) := by
  induction items with
  | nil => exact ⟨fun _ member => absurd member List.not_mem_nil, rfl⟩
  | cons item items ih =>
      obtain ⟨before, rest⟩ := List.pairwise_cons.mp first
      by_cases zero : reading item = 0
      · obtain ⟨none, same⟩ := ih rest
        have counted : count reading 0 0 (item :: items) = (item, 0) :: count reading 0 0 items := by
          rw [count, zero, seen_zero]
        rw [counted, List.filter_cons_of_neg (by simpa only [decide_not, Bool.not_eq_true',
          decide_eq_false_iff_not, not_not] using zero), List.filter_cons_of_neg (by
          simpa only [decide_not, Bool.not_eq_true', decide_eq_false_iff_not, not_not] using zero)]
        refine ⟨fun counted member => ?_, same⟩
        rcases List.mem_cons.mp member with rfl | later
        · exact fun _ => rfl
        · exact none counted later
      · have nonzero : ∀ later ∈ item :: items, reading later ≠ 0 := by
          intro later member
          rcases List.mem_cons.mp member with rfl | member
          · exact zero
          · exact fun last => zero (before later member last)
        have counted : ∀ counted ∈ count reading 0 0 (item :: items), reading counted.1 ≠ 0 := by
          intro counted member
          refine nonzero _ ?_
          rw [← count_fst reading 0 0 (item :: items)]
          exact List.mem_map_of_mem member
        refine ⟨fun pair member last => absurd last (counted pair member), ?_⟩
        rw [List.filter_eq_self.mpr fun pair member => decide_eq_true (counted pair member),
          List.filter_eq_self.mpr fun later member => decide_eq_true (nonzero later member)]

/-- A zero after another reading is counted. -/
theorem count_zero_after {last : Nat} (positive : last ≠ 0) (wraps : Nat) {items : List ι} {item : ι}
    (member : item ∈ items) (zero : reading item = 0) :
    ∃ counted ∈ count reading last wraps items, reading counted.1 = 0 ∧ counted.2 ≠ 0 := by
  induction items generalizing last wraps with
  | nil => cases member
  | cons first items ih =>
      by_cases here : reading first = 0
      · refine ⟨_, List.mem_cons_self, here, ?_⟩
        rw [here, seen, if_pos (Nat.pos_of_ne_zero positive)]
        exact Nat.succ_ne_zero wraps
      · rcases List.mem_cons.mp member with rfl | later
        · exact absurd zero here
        · obtain ⟨counted, found, both⟩ := ih here (seen last wraps (reading first)) later
          exact ⟨counted, List.mem_cons_of_mem _ found, both⟩

/-- Zeros that are not counted come first. -/
theorem zeros_first_of_count {last wraps : Nat} {items : List ι}
    (none : ∀ counted ∈ count reading last wraps items, reading counted.1 = 0 → counted.2 = 0) :
    items.Pairwise fun item later => reading later = 0 → reading item = 0 := by
  induction items generalizing last wraps with
  | nil => exact List.Pairwise.nil
  | cons item items ih =>
      obtain ⟨_, rest⟩ := List.forall_mem_cons.mp none
      refine List.pairwise_cons.mpr ⟨fun later member zero => ?_, ih rest⟩
      by_contra positive
      obtain ⟨counted, found, last', counts⟩ :=
        count_zero_after reading positive (seen last wraps (reading item)) member zero
      exact counts (rest counted found last')

/-! ## Free-running counters -/

/-- A counter that moves by less than its period. -/
def Moves (period : Nat) (before after : Nat) : Prop :=
  before ≤ after ∧ after - before < period

/-- A counter of a given period that moves by less than it wraps when its reading decreases. -/
theorem seen_mod {period n m : Nat} (moves : Moves period n m) (wraps : Nat) :
    seen (n % period) wraps (m % period) = wraps + (m / period - n / period) := by
  obtain ⟨forward, short⟩ := moves
  have positive : 0 < period := by omega
  have below := Nat.mod_lt n positive
  have below' := Nat.mod_lt m positive
  have whole := Nat.div_add_mod n period
  have whole' := Nat.div_add_mod m period
  have quotients : n / period ≤ m / period := Nat.div_le_div_right forward
  obtain ⟨ahead, same⟩ := Nat.exists_eq_add_of_le quotients
  rw [same, Nat.mul_add] at whole'
  rw [same, Nat.add_sub_cancel_left, seen]
  rcases ahead with _ | _ | ahead
  · rw [if_neg (by omega)]
    rfl
  · rw [if_pos (by omega)]
  · -- two wraps would take more than a period
    have : period * 2 ≤ period * (ahead + 1 + 1) := Nat.mul_le_mul_left _ (by omega)
    omega

variable {counter : ι → Nat} {period : Nat}

/-- A free-running counter does not go back. -/
theorem le_of_moves {first : ι} {items : List ι}
    (moves : (first :: items).IsChain fun item next => Moves period (counter item) (counter next)) :
    ∀ item ∈ first :: items, counter first ≤ counter item := by
  have ordered := (List.isChain_map counter).mpr (moves.imp fun _ _ moved => moved.1)
  intro item member
  rcases List.mem_cons.mp member with rfl | later
  · exact Nat.le_refl _
  · exact (List.pairwise_cons.mp (List.isChain_iff_pairwise.mp ordered)).1 _
      (List.mem_map_of_mem later)

/-- The wraps since a first reading and the reading together are the counter's progress. -/
theorem wraps_add_reading {n m : Nat} (forward : n ≤ m) :
    (m / period - n / period) * period + m % period = m - period * (n / period) := by
  have quotients : n / period ≤ m / period := Nat.div_le_div_right forward
  have whole := Nat.div_add_mod m period
  have whole' := Nat.div_add_mod n period
  obtain ⟨ahead, same⟩ := Nat.exists_eq_add_of_le quotients
  rw [same, Nat.mul_add] at whole
  rw [same, Nat.add_sub_cancel_left, Nat.mul_comm ahead]
  omega

/-- **Counting is exact.** Readings of a free-running counter are counted with its wraps. -/
theorem count_mod {first : ι} {items : List ι}
    (moves : (first :: items).IsChain fun item next => Moves period (counter item) (counter next))
    (wraps : Nat) :
    count (fun item => counter item % period) (counter first % period) wraps items =
      items.map fun item => (item, wraps + (counter item / period - counter first / period)) := by
  induction items generalizing first wraps with
  | nil => rfl
  | cons second items ih =>
      obtain ⟨step, rest⟩ := List.isChain_cons_cons.mp moves
      rw [count, seen_mod step, ih rest, List.map_cons]
      refine congrArg _ (List.map_congr_left fun later member => ?_)
      have forward := le_of_moves rest later (List.mem_cons_of_mem _ member)
      have near : counter first / period ≤ counter second / period := Nat.div_le_div_right step.1
      have far : counter second / period ≤ counter later / period := Nat.div_le_div_right forward
      rw [Nat.add_assoc, Nat.add_comm (counter second / period - _),
        Nat.sub_add_sub_cancel far near]

/-- From its first reading on, a free-running counter is known up to the wraps before. -/
theorem count_mod_fresh {first : ι} {items : List ι}
    (moves : (first :: items).IsChain fun item next =>
      Moves period (counter item) (counter next)) :
    count (fun item => counter item % period) 0 0 (first :: items) =
      (first :: items).map fun item =>
        (item, counter item / period - counter first / period) := by
  rw [count, seen_zero, count_mod moves, List.map_cons, Nat.sub_self]
  simp only [Nat.zero_add]

/-! ## Items without a reading -/

/-- The last reading and the wraps behind an item that may have no reading. -/
def advance (counted : Nat × Nat) : Option Nat → Nat × Nat
  | none => counted
  | some next => (next, seen counted.1 counted.2 next)

variable (reading : ι → Option Nat)

/-- The last reading and the wraps behind some items. -/
def behind (counted : Nat × Nat) (items : List ι) : Nat × Nat :=
  items.foldl (fun counted item => advance counted (reading item)) counted

theorem advance_le (counted : Nat × Nat) (next : Option Nat) :
    (advance counted next).2 ≤ counted.2 + 1 := by
  cases next with
  | none => exact Nat.le_succ _
  | some next => exact seen_le _ _ _

/-- There are no more wraps than items. -/
theorem behind_le (counted : Nat × Nat) (items : List ι) :
    (behind reading counted items).2 ≤ counted.2 + items.length := by
  induction items generalizing counted with
  | nil => exact Nat.le_refl _
  | cons item items ih =>
      have step := advance_le counted (reading item)
      have rest := ih (advance counted (reading item))
      rw [List.length_cons]
      change (behind reading (advance counted (reading item)) items).2 ≤ _
      omega

/-- Each item with the number of wraps up to it. -/
def countSome : Nat × Nat → List ι → List (ι × Nat)
  | _, [] => []
  | counted, item :: items =>
      (item, (advance counted (reading item)).2) ::
        countSome (advance counted (reading item)) items

theorem countSome_append (counted : Nat × Nat) (items more : List ι) :
    countSome reading counted (items ++ more) =
      countSome reading counted items ++ countSome reading (behind reading counted items) more := by
  induction items generalizing counted with
  | nil => rfl
  | cons item items ih =>
      rw [List.cons_append, countSome, countSome, ih]
      rfl

@[simp] theorem countSome_length (counted : Nat × Nat) (items : List ι) :
    (countSome reading counted items).length = items.length := by
  induction items generalizing counted with
  | nil => rfl
  | cons item items ih => rw [countSome, List.length_cons, List.length_cons, ih]

/-- An item is counted with the wraps behind those before it. -/
theorem getElem?_countSome (counted : Nat × Nat) (items : List ι) (item : ι) (more : List ι) :
    (countSome reading counted (items ++ item :: more))[items.length]? =
      some (item, (advance (behind reading counted items) (reading item)).2) := by
  rw [countSome_append, List.getElem?_append_right (by rw [countSome_length]), countSome_length,
    Nat.sub_self]
  rfl

end Unwrap

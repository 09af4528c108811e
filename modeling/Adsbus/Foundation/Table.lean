import Mathlib.Algebra.BigOperators.Group.Finset.Basic
import Mathlib.Algebra.BigOperators.Ring.Finset
import Mathlib.Algebra.Order.BigOperators.Group.Finset

/-! # Numbered tables

A table holds an item at each of finitely many numbers. What its items are charged
adds up to a total, which an item put in or taken out changes by its own charge, so
that a quantity spread over the items can be kept as the balance of an account.
-/

namespace Adsbus

variable {α : Type}

/-- Items by number; beyond the bound there is none. -/
structure Table (α : Type) where
  get : Nat → Option α
  bound : Nat
  beyond : ∀ number, bound ≤ number → get number = none

namespace Table

/-- No item. -/
def empty : Table α where
  get := fun _ => none
  bound := 0
  beyond := fun _ _ => rfl

/-- The table with the item at a number. -/
def put (table : Table α) (number : Nat) (item : α) : Table α where
  get := fun other => if other = number then some item else table.get other
  bound := max table.bound (number + 1)
  beyond := fun other past => by
    rw [if_neg (by omega)]
    exact table.beyond other (by omega)

/-- The table without what it has at a number. -/
def remove (table : Table α) (number : Nat) : Table α where
  get := fun other => if other = number then none else table.get other
  bound := table.bound
  beyond := fun other past => by
    split
    · rfl
    · exact table.beyond other past

/-- The items that meet a test. -/
def keep (table : Table α) (test : α → Bool) : Table α where
  get := fun number => (table.get number).filter test
  bound := table.bound
  beyond := fun number past => by rw [table.beyond number past, Option.filter_none]

/-- The lowest number without an item. -/
def lowestFree (table : Table α) : Nat :=
  ((List.range table.bound).find? fun number => (table.get number).isNone).getD table.bound

/-- The first item, in the order of the numbers, that meets a test. -/
def find? (table : Table α) (test : α → Bool) : Option (Nat × α) :=
  (List.range table.bound).findSome? fun number =>
    (table.get number).bind fun item => if test item then some (number, item) else none

/-- What the items are charged altogether. -/
def total (table : Table α) (charge : Nat → α → Int) : Int :=
  ∑ number ∈ Finset.range table.bound, (table.get number).elim 0 (charge number)

/-- The number of items that meet a test. -/
def count (table : Table α) (test : Nat → α → Bool) : Nat :=
  (Finset.range table.bound).sum fun number => ((table.get number).any (test number)).toNat

variable (table : Table α) (charge other : Nat → α → Int) (number : Nat) (item : α)

theorem get_put (at' : Nat) :
    (table.put number item).get at' = if at' = number then some item else table.get at' := rfl

@[simp] theorem get_put_self : (table.put number item).get number = some item := if_pos rfl

theorem get_put_of_ne {at' : Nat} (differ : at' ≠ number) :
    (table.put number item).get at' = table.get at' := if_neg differ

theorem get_remove (at' : Nat) :
    (table.remove number).get at' = if at' = number then none else table.get at' := rfl

@[simp] theorem get_remove_self : (table.remove number).get number = none := if_pos rfl

theorem get_remove_of_ne {at' : Nat} (differ : at' ≠ number) :
    (table.remove number).get at' = table.get at' := if_neg differ

theorem get_put_eq_some {table : Table α} {number at' : Nat} {item held : α} :
    (table.put number item).get at' = some held ↔
      at' = number ∧ item = held ∨ at' ≠ number ∧ table.get at' = some held := by
  rw [get_put]
  split
  · next here => simp only [Option.some.injEq, here, true_and, ne_eq, not_true, false_and, or_false]
  · next differ => simp only [differ, false_and, ne_eq, not_false_eq_true, true_and, false_or]

theorem get_remove_eq_some {table : Table α} {number at' : Nat} {held : α} :
    (table.remove number).get at' = some held ↔ at' ≠ number ∧ table.get at' = some held := by
  rw [get_remove]
  split
  · next here => simp only [reduceCtorEq, here, ne_eq, not_true, false_and]
  · next differ => simp only [ne_eq, differ, not_false_eq_true, true_and]

@[simp] theorem get_bound : table.get table.bound = none := table.beyond _ (Nat.le_refl _)

theorem lt_bound {table : Table α} {number : Nat} {item : α} (held : table.get number = some item) :
    number < table.bound := by
  by_contra past
  rw [table.beyond number (by omega)] at held
  cases held

/-- What is put at a number takes the place of what was there. -/
theorem put_remove : (table.remove number).put number item = table.put number item := by
  simp only [put, remove]
  congr 1
  funext at'
  split <;> rfl

/-- Below the bound nothing is left of what was put there and removed again. -/
theorem remove_put (inside : number < table.bound) :
    (table.put number item).remove number = table.remove number := by
  simp only [put, remove, mk.injEq]
  refine ⟨funext fun at' => ?_, max_eq_left inside⟩
  split <;> rfl

theorem get_lowestFree : table.get table.lowestFree = none := by
  rw [lowestFree]
  cases found : (List.range table.bound).find? fun number => (table.get number).isNone with
  | none => exact table.get_bound
  | some free =>
      have isFree := List.find?_some found
      exact Option.isNone_iff_eq_none.mp isFree

/-- The numbers below the lowest free one are taken. -/
theorem lowestFree_le {table : Table α} {number : Nat} (free : table.get number = none) :
    table.lowestFree ≤ number := by
  rw [lowestFree]
  cases found : (List.range table.bound).find? fun number => (table.get number).isNone with
  | none =>
      rw [List.find?_eq_none] at found
      by_contra above
      have inside : number < table.bound := Nat.not_le.mp above
      exact found number (List.mem_range.mpr inside) (by rw [free]; rfl)
  | some first =>
      rw [List.find?_range_eq_some] at found
      by_contra above
      have earlier := found.2.2 number (Nat.not_le.mp above)
      rw [free] at earlier
      cases earlier

/-- What is found stands in the table and meets the test. -/
theorem of_find? {table : Table α} {test : α → Bool} {number : Nat} {item : α}
    (found : table.find? test = some (number, item)) :
    table.get number = some item ∧ test item = true := by
  obtain ⟨at', _, here⟩ := List.exists_of_findSome?_eq_some found
  obtain ⟨held, reads, passed⟩ := Option.bind_eq_some_iff.mp here
  split at passed
  · next passes =>
      cases passed
      exact ⟨reads, passes⟩
  · cases passed

/-- Beyond the bound there is nothing to charge. -/
theorem total_of_le {past : Nat} (covers : table.bound ≤ past) :
    table.total charge = ∑ number ∈ Finset.range past, (table.get number).elim 0 (charge number) := by
  refine Finset.sum_subset (Finset.range_mono covers) fun at' _ outside => ?_
  rw [table.beyond at' (by simpa only [Finset.mem_range, not_lt] using outside)]
  rfl

/-- The charges of a table that differs from another at one number only. -/
theorem total_change {table changed : Table α} (charge : Nat → α → Int) {number : Nat}
    (same : ∀ at', at' ≠ number → changed.get at' = table.get at') :
    changed.total charge = table.total charge - (table.get number).elim 0 (charge number)
      + (changed.get number).elim 0 (charge number) := by
  have inside : number ∈ Finset.range (max (max table.bound changed.bound) (number + 1)) :=
    Finset.mem_range.mpr (by omega)
  rw [table.total_of_le charge (le_trans (le_max_left _ changed.bound) (le_max_left _ (number + 1))),
    changed.total_of_le charge (le_trans (le_max_right table.bound _) (le_max_left _ (number + 1))),
    ← Finset.add_sum_erase _ _ inside, ← Finset.add_sum_erase _ _ inside]
  have rest : ∀ at' ∈ (Finset.range (max (max table.bound changed.bound) (number + 1))).erase number,
      (changed.get at').elim 0 (charge at') = (table.get at').elim 0 (charge at') :=
    fun at' member => by rw [same at' (Finset.ne_of_mem_erase member)]
  rw [Finset.sum_congr rfl rest]
  omega

theorem total_put : (table.put number item).total charge =
    table.total charge - (table.get number).elim 0 (charge number) + charge number item := by
  rw [total_change charge fun at' differ => table.get_put_of_ne number item differ, get_put_self]
  rfl

theorem total_remove : (table.remove number).total charge =
    table.total charge - (table.get number).elim 0 (charge number) := by
  rw [total_change charge fun at' differ => table.get_remove_of_ne number differ, get_remove_self]
  exact add_zero _

@[simp] theorem total_empty : (empty : Table α).total charge = 0 := rfl

variable {table charge other}

/-- Charges that are never negative add up to no less than each of them. -/
theorem le_total (natural : ∀ number item, table.get number = some item → 0 ≤ charge number item)
    {number : Nat} {item : α} (held : table.get number = some item) :
    charge number item ≤ table.total charge := by
  have one : charge number item = (table.get number).elim 0 (charge number) := by
    rw [held]
    rfl
  rw [one]
  refine Finset.single_le_sum (f := fun at' => (table.get at').elim 0 (charge at')) (fun at' _ => ?_)
    (Finset.mem_range.mpr (lt_bound held))
  cases reads : table.get at' with
  | none => exact le_refl 0
  | some held => exact natural at' held reads

variable (table charge) in
theorem total_nonneg
    (natural : ∀ number item, table.get number = some item → 0 ≤ charge number item) :
    0 ≤ table.total charge :=
  Finset.sum_nonneg fun at' _ => by
    cases reads : table.get at' with
    | none => exact le_refl 0
    | some held => exact natural at' held reads

/-- Two items are charged no more than all. -/
theorem pair_le_total (natural : ∀ number item, table.get number = some item → 0 ≤ charge number item)
    {first second : Nat} {one two : α} (differ : first ≠ second)
    (holdsFirst : table.get first = some one) (holdsSecond : table.get second = some two) :
    charge first one + charge second two ≤ table.total charge := by
  have rest : charge second two ≤ (table.remove first).total charge := by
    refine le_total (fun at' held reads => ?_) ?_
    · by_cases here : at' = first
      · rw [here, get_remove_self] at reads
        cases reads
      · exact natural at' held (by rwa [get_remove_of_ne table first here] at reads)
    · rwa [get_remove_of_ne table first (Ne.symm differ)]
  rw [total_remove, holdsFirst] at rest
  change _ ≤ _ - charge first one at rest
  omega

/-- A positive total has an item that is charged. -/
theorem exists_of_total_pos (positive : 0 < table.total charge) :
    ∃ number item, table.get number = some item ∧ 0 < charge number item := by
  by_contra none
  push Not at none
  refine absurd positive (not_lt.mpr (Finset.sum_nonpos fun at' _ => ?_))
  cases reads : table.get at' with
  | none => exact le_refl 0
  | some held => exact none at' held reads

/-- Charges of zero add up to zero. -/
theorem total_eq_zero (zero : ∀ number item, table.get number = some item → charge number item = 0) :
    table.total charge = 0 :=
  Finset.sum_eq_zero fun at' _ => by
    cases reads : table.get at' with
    | none => rfl
    | some held => exact zero at' held reads

theorem total_congr
    (same : ∀ number item, table.get number = some item → charge number item = other number item) :
    table.total charge = table.total other :=
  Finset.sum_congr rfl fun at' _ => by
    cases reads : table.get at' with
    | none => rfl
    | some held => exact same at' held reads

variable (table charge other)

theorem total_add : table.total (fun number item => charge number item + other number item) =
    table.total charge + table.total other := by
  rw [total, total, total, ← Finset.sum_add_distrib]
  refine Finset.sum_congr rfl fun at' _ => ?_
  cases table.get at' <;> rfl

theorem total_sub : table.total (fun number item => charge number item - other number item) =
    table.total charge - table.total other := by
  rw [total, total, total, ← Finset.sum_sub_distrib]
  refine Finset.sum_congr rfl fun at' _ => ?_
  cases table.get at' <;> rfl

/-- Charges that are sums add up to the sum of the totals. -/
theorem total_sum {ι : Type} (accounts : Finset ι) (charge : ι → Nat → α → Int) :
    (table.total fun number item => ∑ account ∈ accounts, charge account number item) =
      ∑ account ∈ accounts, table.total (charge account) := by
  simp only [total]
  rw [Finset.sum_comm]
  refine Finset.sum_congr rfl fun at' _ => ?_
  cases table.get at' with
  | none => exact Finset.sum_const_zero.symm
  | some item => rfl

theorem total_mono {table : Table α} {charge other : Nat → α → Int}
    (below : ∀ number item, table.get number = some item → charge number item ≤ other number item) :
    table.total charge ≤ table.total other :=
  Finset.sum_le_sum fun at' _ => by
    cases reads : table.get at' with
    | none => exact le_refl 0
    | some held => exact below at' held reads

/-- The number of items that meet a test is what they are charged at one each. -/
theorem count_eq_total (test : Nat → α → Bool) :
    (table.count test : Int) = table.total fun number item => (test number item).toNat := by
  rw [count, Nat.cast_sum]
  refine Finset.sum_congr rfl fun at' _ => ?_
  cases table.get at' <;> rfl

variable {table}

/-- One item alone meets the test. -/
theorem count_eq_one {test : Nat → α → Bool} {number : Nat} {item : α}
    (held : table.get number = some item) (passes : test number item = true)
    (only : ∀ other item, table.get other = some item → test other item = true → other = number) :
    table.count test = 1 := by
  rw [count, Finset.sum_eq_single_of_mem number (Finset.mem_range.mpr (lt_bound held)), held,
    Option.any_some, passes, Bool.toNat_true]
  intro other _ differ
  cases reads : table.get other with
  | none => rfl
  | some item =>
      cases met : test other item with
      | false => simp only [Option.any_some, met, Bool.toNat_false]
      | true => exact absurd (only other item reads met) differ

theorem count_eq_zero {test : Nat → α → Bool}
    (none : ∀ number item, table.get number = some item → test number item = false) :
    table.count test = 0 :=
  Finset.sum_eq_zero fun at' _ => by
    cases reads : table.get at' with
    | none => rfl
    | some item => simp only [Option.any_some, none at' item reads, Bool.toNat_false]

theorem exists_of_count_pos {test : Nat → α → Bool} (positive : 0 < table.count test) :
    ∃ number item, table.get number = some item ∧ test number item = true := by
  have total := table.count_eq_total test
  have charged : 0 < table.total fun number item => ((test number item).toNat : Int) := by
    omega
  obtain ⟨number, item, reads, counted⟩ := exists_of_total_pos charged
  refine ⟨number, item, reads, ?_⟩
  cases met : test number item with
  | true => rfl
  | false =>
      simp only [met, Bool.toNat_false] at counted
      omega

/-- What is charged at one number only. -/
theorem total_at (number : Nat) (charge : α → Int) :
    (table.total fun at' item => if number = at' then charge item else 0) =
      (table.get number).elim 0 charge := by
  have rest : ((table.remove number).total fun at' item => if number = at' then charge item else 0) =
      0 := total_eq_zero fun at' item reads => if_neg fun here =>
    (get_remove_eq_some.mp reads).1 here.symm
  rw [total_remove] at rest
  cases reads : table.get number with
  | none =>
      rw [reads] at rest
      change _ = 0
      exact (sub_zero _).symm.trans rest
  | some item =>
      rw [reads] at rest
      change _ - (if number = number then charge item else 0) = 0 at rest
      rw [if_pos rfl] at rest
      change _ = charge item
      omega

end Table

end Adsbus

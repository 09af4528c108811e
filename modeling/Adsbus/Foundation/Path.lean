import Mathlib.Data.List.Nodup
import Mathlib.Logic.Function.Basic

/-! # Paths along a link

A link leads from some of the cells to another one. A path follows it from a cell through a list
of cells to a last one; changing the link at a cell changes the paths that leave this cell.
-/

namespace Adsbus

variable {α : Type} {link link' : α → Option α} {start finish : α} {cells : List α}

/-- Following the link from the start leads through the cells and then to the finish. -/
def Path (link : α → Option α) : α → List α → α → Prop
  | start, [], finish => link start = some finish
  | start, cell :: cells, finish => link start = some cell ∧ Path link cell cells finish

/-- There is a first cell before a last one. -/
theorem exists_head? (cells : List α) (last : α) : ∃ cell, (cells ++ [last]).head? = some cell := by
  cases cells <;> exact ⟨_, rfl⟩

namespace Path

@[simp] theorem nil_iff : Path link start [] finish ↔ link start = some finish := Iff.rfl

@[simp] theorem cons_iff {cell : α} :
    Path link start (cell :: cells) finish ↔ link start = some cell ∧ Path link cell cells finish :=
  Iff.rfl

/-- The first cell that a path leads to. -/
theorem first (path : Path link start cells finish) : link start = (cells ++ [finish]).head? := by
  cases cells with
  | nil => exact path
  | cons cell cells => exact path.1

/-- A path may be cut at any of its cells. -/
theorem append_iff {before after : List α} {cell : α} :
    Path link start (before ++ cell :: after) finish ↔
      Path link start before cell ∧ Path link cell after finish := by
  induction before generalizing start with
  | nil => exact Iff.rfl
  | cons first before ih => simp only [List.cons_append, cons_iff, ih, and_assoc]

/-- A path may be taken up by another cell that leads where its start leads. -/
theorem congr_from {start' : α} (path : Path link start cells finish)
    (leads : link' start' = link start) (same : ∀ cell ∈ cells, link' cell = link cell) :
    Path link' start' cells finish := by
  induction cells generalizing start start' with
  | nil => exact leads.trans path
  | cons cell cells ih =>
      obtain ⟨here, rest⟩ := path
      obtain ⟨sameHere, sameRest⟩ := List.forall_mem_cons.mp same
      exact ⟨leads.trans here, ih rest sameHere sameRest⟩

theorem congr (path : Path link start cells finish)
    (same : ∀ cell ∈ start :: cells, link' cell = link cell) : Path link' start cells finish :=
  path.congr_from (same start List.mem_cons_self) fun cell member =>
    same cell (List.mem_cons_of_mem _ member)

/-- Changing the link at the last cell changes where the path ends. -/
theorem redirect {last finish' : α} (path : Path link start cells finish)
    (distinct : (start :: cells).Nodup) (isLast : (start :: cells).getLast? = some last)
    (same : ∀ cell ∈ start :: cells, cell ≠ last → link' cell = link cell)
    (leads : link' last = some finish') : Path link' start cells finish' := by
  induction cells generalizing start with
  | nil =>
      cases isLast
      exact leads
  | cons cell cells ih =>
      rw [List.getLast?_cons_cons] at isLast
      obtain ⟨fresh, distinct⟩ := List.nodup_cons.mp distinct
      obtain ⟨sameHere, sameRest⟩ := List.forall_mem_cons.mp same
      have inside : last ∈ cell :: cells := List.mem_of_getLast? isLast
      refine ⟨(sameHere fun equal => fresh (equal ▸ inside)).trans path.1, ?_⟩
      exact ih path.2 distinct isLast sameRest

/-- Changing the link at the cell before another one to where that leads leaves it out. -/
theorem bypass {before after : List α} {cell last : α} (path : Path link start before cell)
    (rest : Path link cell after finish) (distinct : (start :: before).Nodup)
    (isLast : (start :: before).getLast? = some last)
    (same : ∀ cell ∈ start :: before, cell ≠ last → link' cell = link cell)
    (sameRest : ∀ cell ∈ after, link' cell = link cell) (leads : link' last = link cell) :
    Path link' start (before ++ after) finish := by
  induction before generalizing start with
  | nil =>
      cases isLast
      exact rest.congr_from leads sameRest
  | cons first before ih =>
      rw [List.getLast?_cons_cons] at isLast
      obtain ⟨fresh, distinct⟩ := List.nodup_cons.mp distinct
      obtain ⟨sameHere, sameBehind⟩ := List.forall_mem_cons.mp same
      have inside : last ∈ first :: before := List.mem_of_getLast? isLast
      refine ⟨(sameHere fun equal => fresh (equal ▸ inside)).trans path.1, ?_⟩
      exact ih path.2 distinct isLast sameBehind

/-- In a circle without repetitions, changing the link at the cell before another one to where that
leads leaves it out. -/
theorem leaveOut {before after : List α} {cell last : α}
    (path : Path link start (before ++ cell :: after) finish)
    (distinct : (start :: (before ++ cell :: after)).Nodup)
    (isLast : (start :: before).getLast? = some last)
    (same : ∀ other ∈ start :: (before ++ after), other ≠ last → link' other = link other)
    (leads : link' last = link cell) : Path link' start (before ++ after) finish := by
  rw [← List.cons_append] at distinct same
  obtain ⟨distinctBefore, distinctAfter, apart⟩ := List.nodup_append.mp distinct
  have inside : last ∈ start :: before := List.mem_of_getLast? isLast
  obtain ⟨front, back⟩ := append_iff.mp path
  refine front.bypass back distinctBefore isLast (fun other there => ?_) (fun other there => ?_) leads
  · exact same other (List.mem_append_left _ there)
  · exact same other (List.mem_append_right _ there)
      (apart last inside other (List.mem_cons_of_mem _ there)).symm

end Path

/-! ## Traversals -/

/-- The cells met from a cell on, one after another, until the finish is met. -/
inductive Traversal (link : α → Option α) (finish : α) : α → List α → Prop
  | done : Traversal link finish finish []
  | visit {cell next : α} {rest : List α} (going : cell ≠ finish) (leads : link cell = some next)
      (behind : Traversal link finish next rest) : Traversal link finish cell (cell :: rest)

/-- A traversal is determined by where it starts. -/
theorem Traversal.unique {cell : α} {visited visited' : List α}
    (traversal : Traversal link finish cell visited)
    (traversal' : Traversal link finish cell visited') : visited = visited' := by
  induction traversal generalizing visited' with
  | done =>
      cases traversal' with
      | done => rfl
      | visit going _ _ => exact absurd rfl going
  | visit going leads _ ih =>
      cases traversal' with
      | done => exact absurd rfl going
      | visit _ leads' behind' =>
          rw [leads, Option.some.injEq] at leads'
          subst leads'
          rw [ih behind']

/-- Along a path that does not meet the finish before its end, just its cells are visited. -/
theorem Path.traversal (path : Path link start cells finish) (away : finish ∉ cells) :
    ∃ cell, link start = some cell ∧
      ∀ visited, Traversal link finish cell visited ↔ visited = cells := by
  suffices there : ∃ cell, link start = some cell ∧ Traversal link finish cell cells by
    obtain ⟨cell, leads, traversal⟩ := there
    exact ⟨cell, leads, fun visited => ⟨fun other => other.unique traversal, (· ▸ traversal)⟩⟩
  induction cells generalizing start with
  | nil => exact ⟨finish, path, .done⟩
  | cons cell cells ih =>
      obtain ⟨here, rest⟩ := path
      rw [List.mem_cons, not_or] at away
      obtain ⟨next, leads, traversal⟩ := ih rest away.2
      exact ⟨cell, here, .visit (Ne.symm away.1) leads traversal⟩

end Adsbus

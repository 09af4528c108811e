import Adsbus.Core.ListHead

/-! # Histories of lists

Any number of lists are made of the same kind of cells. Whatever is initialized, added and deleted,
each head stands for the sequence of the nodes that were added to it and not deleted, in the order
in which they were added, and an operation on one list does not touch the cells of another.
-/

namespace Adsbus

variable {α : Type} [DecidableEq α]

/-- An operation on a list. -/
inductive ListOp (α : Type)
  | init (head : α)
  | add (new head : α)
  | del (entry : α)

/-- What it does to the heap. -/
def ListOp.run (heap : Heap α) : ListOp α → Option (Heap α)
  | .init head => some (listHeadInit heap head)
  | .add new head => listAdd heap new head
  | .del entry => listDel heap entry

/-- The sequences that the heads stand for. -/
abbrev Lists (α : Type) := α → Option (List α)

namespace Lists

/-- The lists that a cell is not in. A cell that is made part of another list takes its own one
apart. -/
def without (lists : Lists α) (cell : α) : Lists α := fun head =>
  (lists head).filter fun nodes => cell ∉ head :: nodes

/-- **Sequences.** A head is initialized, a node that is not in a list is added to it, a node of a
list is deleted. -/
inductive Step : Lists α → ListOp α → Lists α → Prop
  | init (lists : Lists α) (head : α) :
      Step lists (.init head) (Function.update (lists.without head) head (some []))
  | add {lists : Lists α} {new head : α} {nodes : List α} (here : lists head = some nodes)
      (fresh : new ∉ head :: nodes) : Step lists (.add new head)
        (Function.update (lists.without new) head (some (nodes ++ [new])))
  | del {lists : Lists α} {entry head : α} {nodes : List α} (here : lists head = some nodes)
      (member : entry ∈ nodes) :
      Step lists (.del entry) (Function.update lists head (some (nodes.erase entry)))

/-- A heap that holds these lists, apart from each other. -/
structure HeldBy (lists : Lists α) (heap : Heap α) : Prop where
  represents : ∀ {head nodes}, lists head = some nodes → Represents heap head nodes
  apart : ∀ {head other nodes nodes'}, lists head = some nodes → lists other = some nodes' →
    head ≠ other → ∀ cell ∈ head :: nodes, cell ∉ other :: nodes'

variable {lists lists' : Lists α} {heap heap' : Heap α} {head : α} {nodes : List α}

theorem without_eq_some {cell : α} :
    lists.without cell head = some nodes ↔ lists head = some nodes ∧ cell ∉ head :: nodes := by
  rw [without, Option.filter_eq_some_iff, decide_eq_true_eq]

/-- One list is another one now; the others are as they were. -/
theorem HeldBy.update (held : lists.HeldBy heap) (represents : Represents heap' head nodes)
    {kept : Lists α}
    (keeps : ∀ {other nodes'}, other ≠ head → kept other = some nodes' →
      lists other = some nodes' ∧
        ∀ cell ∈ other :: nodes', cell ∉ head :: nodes ∧ heap' cell = heap cell) :
    HeldBy (Function.update kept head (some nodes)) heap' where
  represents := by
    intro other nodes' here
    by_cases same : other = head
    · subst same
      rw [Function.update_self, Option.some.injEq] at here
      rwa [← here]
    · rw [Function.update_of_ne same] at here
      obtain ⟨before, cells⟩ := keeps same here
      exact (held.represents before).congr fun cell member => (cells cell member).2
  apart := by
    intro first second nodes₁ nodes₂ here there ne cell member
    by_cases isFirst : first = head
    · subst isFirst
      rw [Function.update_self, Option.some.injEq] at here
      rw [Function.update_of_ne ne.symm] at there
      subst here
      exact fun member' => ((keeps ne.symm there).2 cell member').1 member
    · rw [Function.update_of_ne isFirst] at here
      obtain ⟨before, cells⟩ := keeps isFirst here
      by_cases isSecond : second = head
      · subst isSecond
        rw [Function.update_self, Option.some.injEq] at there
        rw [← there]
        exact (cells cell member).1
      · rw [Function.update_of_ne isSecond] at there
        exact held.apart before (keeps isSecond there).1 ne cell member

/-- Initializing a head of an empty list changes nothing. -/
theorem listHeadInit_self (represents : Represents heap head []) :
    listHeadInit heap head = heap := by
  have next : heap.next head = some head := represents.next
  have prev : heap.prev head = some head := represents.prev
  funext cell
  refine Heap.cell_ext ?_ ?_
  · rw [next_listHeadInit]
    split
    · rename_i same
      rw [same, next]
    · rfl
  · rw [prev_listHeadInit]
    split
    · rename_i same
      rw [same, prev]
    · rfl

/-- **One operation.** It does not follow a null pointer, and the heap holds the lists that it
makes; the cells of those that it leaves as they are do not change. -/
theorem Step.run {op : ListOp α} (step : Step lists op lists') (held : lists.HeldBy heap) :
    ∃ heap', op.run heap = some heap' ∧ lists'.HeldBy heap' ∧
      ∀ other nodes, lists other = some nodes → lists' other = some nodes →
        ∀ cell ∈ other :: nodes, heap' cell = heap cell := by
  cases step with
  | init head =>
      have keeps : ∀ {other nodes'}, other ≠ head → lists.without head other = some nodes' →
          lists other = some nodes' ∧ ∀ cell ∈ other :: nodes',
            cell ∉ [head] ∧ listHeadInit heap head cell = heap cell := by
        intro other nodes' ne here
        obtain ⟨here, outside⟩ := without_eq_some.mp here
        refine ⟨here, fun cell member => ?_⟩
        have apart := ne_of_mem_of_not_mem member outside
        refine ⟨List.mem_singleton.not.mpr apart, Heap.cell_ext ?_ ?_⟩
        · rw [next_listHeadInit, if_neg apart]
        · rw [prev_listHeadInit, if_neg apart]
      refine ⟨_, rfl, held.update (Represents.init heap head) keeps, ?_⟩
      intro other nodes before after cell member
      by_cases same : other = head
      · subst same
        rw [Function.update_self, Option.some.injEq] at after
        subst after
        rw [listHeadInit_self (held.represents before)]
      · rw [Function.update_of_ne same] at after
        exact ((keeps same after).2 cell member).2
  | @add new head nodes here fresh =>
      obtain ⟨heap', added, represents, frame⟩ := (held.represents here).add fresh
      have keeps : ∀ {other nodes'}, other ≠ head → lists.without new other = some nodes' →
          lists other = some nodes' ∧ ∀ cell ∈ other :: nodes',
            cell ∉ head :: (nodes ++ [new]) ∧ heap' cell = heap cell := by
        intro other nodes' ne there
        obtain ⟨there, outside⟩ := without_eq_some.mp there
        refine ⟨there, fun cell member => ?_⟩
        have other' := ne_of_mem_of_not_mem member outside
        have apart := held.apart there here ne cell member
        refine ⟨?_, frame cell other' apart⟩
        rw [← List.cons_append, List.mem_append, List.mem_singleton, not_or]
        exact ⟨apart, other'⟩
      refine ⟨heap', added, held.update represents keeps, ?_⟩
      intro other nodes' before after cell member
      by_cases same : other = head
      · subst same
        rw [here, Option.some.injEq] at before
        rw [Function.update_self, Option.some.injEq, before] at after
        exact absurd (congrArg List.length after) (by simp)
      · rw [Function.update_of_ne same] at after
        exact ((keeps same after).2 cell member).2
  | @del entry head nodes here member =>
      obtain ⟨heap', deleted, represents, frame⟩ := (held.represents here).del member
      have keeps : ∀ {other nodes'}, other ≠ head → lists other = some nodes' →
          lists other = some nodes' ∧ ∀ cell ∈ other :: nodes',
            cell ∉ head :: nodes.erase entry ∧ heap' cell = heap cell := by
        intro other nodes' ne there
        refine ⟨there, fun cell member' => ?_⟩
        have apart := held.apart there here ne cell member'
        refine ⟨fun inside => apart ?_, frame cell apart⟩
        exact List.cons_subset_cons head List.erase_subset inside
      refine ⟨heap', deleted, held.update represents keeps, ?_⟩
      intro other nodes' before after cell member'
      by_cases same : other = head
      · subst same
        rw [here, Option.some.injEq] at before
        rw [Function.update_self, Option.some.injEq, before] at after
        have shorter := List.length_erase_of_mem (before ▸ member)
        rw [after] at shorter
        have := List.length_pos_of_mem (before ▸ member)
        omega
      · rw [Function.update_of_ne same] at after
        exact ((keeps same after).2 cell member').2

end Lists

/-! ## Histories -/

/-- An operation on the lists, and what it does to the heap. -/
def listStep (state : Heap α × Lists α) (op : ListOp α) (next : Heap α × Lists α) : Prop :=
  op.run state.1 = some next.1 ∧ Lists.Step state.2 op next.2

variable {before : Heap α} {trace : List ((Heap α × Lists α) × ListOp α)} {heap : Heap α}
  {lists : Lists α}

/-- **Every history.** Whatever memory held before, the heap holds the lists that the operations
make. -/
theorem Lists.heldBy_of_run (run : Run listStep (before, fun _ => none) trace (heap, lists)) :
    lists.HeldBy heap := by
  have empty : Lists.HeldBy (fun _ => none) before :=
    { represents := fun here => absurd here (Option.some_ne_none _).symm
      apart := fun here => absurd here (Option.some_ne_none _).symm }
  refine @Run.invariant _ _ _ _ _ (fun state => Lists.HeldBy state.2 state.1) empty ?_ _ run
  rintro ⟨heap, lists⟩ op ⟨next, lists'⟩ held ⟨ran, step⟩
  obtain ⟨heap', ran', held', _⟩ := step.run held
  rw [ran, Option.some.injEq] at ran'
  rwa [← ran'] at held'

/-! ## Lists under several heads -/

/-- The lists under these heads, apart from each other. -/
structure Threads {ι : Type} (heap : Heap α) (head : ι → α) (nodes : ι → List α) : Prop where
  represents : ∀ i, Represents heap (head i) (nodes i)
  apart : ∀ i j, i ≠ j → ∀ cell ∈ head i :: nodes i, cell ∉ head j :: nodes j

namespace Threads

variable {ι : Type} [DecidableEq ι] {head : ι → α} {nodes : ι → List α}

omit [DecidableEq α] in
/-- One list is another one now. Cells that came to it were in no list, and only cells of the list
changed. -/
theorem replace (threads : Threads heap head nodes) {i : ι} {news : List α} {heap' : Heap α}
    (represents : Represents heap' (head i) news)
    (came : ∀ cell ∈ news, cell ∉ nodes i → ∀ j, cell ∉ head j :: nodes j)
    (frame : ∀ cell, cell ∉ head i :: nodes i → cell ∉ news → heap' cell = heap cell) :
    Threads heap' head (Function.update nodes i news) := by
  have outside : ∀ j, j ≠ i → ∀ cell ∈ head j :: nodes j,
      cell ∉ head i :: nodes i ∧ cell ∉ news := by
    intro j ne cell member
    have apart := threads.apart j i ne cell member
    rw [List.mem_cons, not_or] at apart
    exact ⟨List.mem_cons.not.mpr (not_or.mpr apart), fun inside =>
      came cell inside apart.2 j member⟩
  refine ⟨fun j => ?_, fun j k different cell => ?_⟩
  · by_cases same : j = i
    · subst same
      rwa [Function.update_self]
    · rw [Function.update_of_ne same]
      exact (threads.represents j).congr fun cell member =>
        frame cell (outside j same cell member).1 (outside j same cell member).2
  · have split : ∀ j, ∀ cell ∈ head j :: Function.update nodes i news j,
        j = i ∧ cell ∈ head i :: news ∨ j ≠ i ∧ cell ∈ head j :: nodes j := by
      intro j cell member
      by_cases same : j = i
      · subst same
        rw [Function.update_self] at member
        exact .inl ⟨rfl, member⟩
      · rw [Function.update_of_ne same] at member
        exact .inr ⟨same, member⟩
    have clash : ∀ j, j ≠ i → ∀ cell ∈ head j :: nodes j, cell ∉ head i :: news := by
      intro j ne cell member
      obtain ⟨first, second⟩ := outside j ne cell member
      rw [List.mem_cons, not_or] at first ⊢
      exact ⟨first.1, second⟩
    intro member member'
    rcases split j cell member with ⟨rfl, inside⟩ | ⟨ne, inside⟩
    · rcases split k cell member' with ⟨rfl, _⟩ | ⟨ne', inside'⟩
      · exact different rfl
      · exact clash k ne' cell inside' inside
    · rcases split k cell member' with ⟨rfl, inside'⟩ | ⟨_, inside'⟩
      · exact clash j ne cell inside inside'
      · exact threads.apart j k different cell inside inside'

/-- **Adding** to one of the lists. -/
theorem add (threads : Threads heap head nodes) (i : ι) {new : α}
    (fresh : ∀ j, new ∉ head j :: nodes j) :
    ∃ heap', listAdd heap new (head i) = some heap' ∧
      Threads heap' head (Function.update nodes i (nodes i ++ [new])) := by
  obtain ⟨heap', added, represents, frame⟩ := (threads.represents i).add (fresh i)
  refine ⟨heap', added, threads.replace represents ?_ fun cell outside outside' => ?_⟩
  · intro cell inside absent
    rcases List.mem_append.mp inside with before | here
    · exact absurd before absent
    · rw [List.mem_singleton.mp here]
      exact fresh
  · refine frame cell ?_ outside
    rintro rfl
    exact outside' (List.mem_append_right _ List.mem_cons_self)

/-- **Deleting** from one of the lists. -/
theorem del (threads : Threads heap head nodes) {i : ι} {entry : α} (member : entry ∈ nodes i) :
    ∃ heap', listDel heap entry = some heap' ∧
      Threads heap' head (Function.update nodes i ((nodes i).erase entry)) := by
  obtain ⟨heap', deleted, represents, frame⟩ := (threads.represents i).del member
  exact ⟨heap', deleted, threads.replace represents
    (fun cell inside absent => absurd (List.mem_of_mem_erase inside) absent)
    fun cell outside _ => frame cell outside⟩

end Threads

end Adsbus

import Adsbus.Foundation.Path
import Adsbus.Foundation.Runs

/-! # Intrusive lists

The lists of connections, peers and transports are circles of `struct list_head`, each of them
inside the structure that it lists; the head of a list is one more of them. The heap maps every
address to the two pointers there, whatever it held before. A circle represents the sequence of
its nodes (`Adsbus.Represents`).
-/

namespace Adsbus

/-- `struct list_head`; nothing is the null pointer. -/
structure ListHead (α : Type) where
  next : Option α
  prev : Option α
  deriving DecidableEq

/-- What is stored at each address. -/
abbrev Heap (α : Type) := α → ListHead α

namespace Heap

variable {α : Type}

/-- The link of the `next` pointers. -/
def next (heap : Heap α) (address : α) : Option α := (heap address).next

/-- The link of the `prev` pointers. -/
def prev (heap : Heap α) (address : α) : Option α := (heap address).prev

/-- A cell is its two pointers. -/
theorem cell_ext {heap heap' : Heap α} {cell : α} (next : heap'.next cell = heap.next cell)
    (prev : heap'.prev cell = heap.prev cell) : heap' cell = heap cell := by
  rw [show heap' cell = ⟨heap'.next cell, heap'.prev cell⟩ from rfl, next, prev]
  rfl

variable [DecidableEq α]

/-- `address->next = value`. -/
def setNext (heap : Heap α) (address : α) (value : Option α) : Heap α :=
  Function.update heap address { heap address with next := value }

/-- `address->prev = value`. -/
def setPrev (heap : Heap α) (address : α) (value : Option α) : Heap α :=
  Function.update heap address { heap address with prev := value }

variable (heap : Heap α) (address : α) (value : Option α)

@[simp] theorem next_setNext (cell : α) :
    (heap.setNext address value).next cell = if cell = address then value else heap.next cell := by
  simp only [next, setNext, Function.update_apply]
  split <;> rfl

@[simp] theorem prev_setNext : (heap.setNext address value).prev = heap.prev := by
  funext cell
  simp only [prev, setNext, Function.update_apply]
  split
  · rename_i same
    rw [same]
  · rfl

@[simp] theorem next_setPrev : (heap.setPrev address value).next = heap.next := by
  funext cell
  simp only [next, setPrev, Function.update_apply]
  split
  · rename_i same
    rw [same]
  · rfl

@[simp] theorem prev_setPrev (cell : α) :
    (heap.setPrev address value).prev cell = if cell = address then value else heap.prev cell := by
  simp only [prev, setPrev, Function.update_apply]
  split <;> rfl

end Heap

variable {α : Type}

section Operations

variable [DecidableEq α]

/-! ## list.c

Where a null pointer would be followed there is no result. -/

/-- `list_head_init`, and `LIST_HEAD_INIT`. -/
def listHeadInit (heap : Heap α) (head : α) : Heap α :=
  (heap.setPrev head (some head)).setNext head (some head)

/-- `list_is_empty`. -/
def listIsEmpty (heap : Heap α) (head : α) : Bool :=
  heap.next head = some head

/-- `list_add`. The predecessor is read back from the new node. -/
def listAdd (heap : Heap α) (new head : α) : Option (Heap α) := do
  let heap := heap.setNext new (some head)
  let heap := heap.setPrev new (heap.prev head)
  let before ← heap.prev new
  let heap := heap.setNext before (some new)
  return heap.setPrev head (some new)

/-- `list_del`. -/
def listDel (heap : Heap α) (entry : α) : Option (Heap α) := do
  let after ← heap.next entry
  let heap := heap.setPrev after (heap.prev entry)
  let before ← heap.prev entry
  let heap := heap.setNext before (heap.next entry)
  let heap := heap.setNext entry none
  return heap.setPrev entry none

end Operations

/-! ## Sequences -/

/-- The circle of the head is the sequence of these nodes, both ways round. -/
structure Represents (heap : Heap α) (head : α) (nodes : List α) : Prop where
  distinct : (head :: nodes).Nodup
  next : Path heap.next head nodes head
  prev : Path heap.prev head nodes.reverse head

variable {heap heap' : Heap α} {head : α} {nodes : List α}

namespace Represents

/-- Only the cells of the circle matter. -/
theorem congr (represents : Represents heap head nodes)
    (same : ∀ cell ∈ head :: nodes, heap' cell = heap cell) : Represents heap' head nodes where
  distinct := represents.distinct
  next := represents.next.congr fun cell member => congrArg ListHead.next (same cell member)
  prev := represents.prev.congr fun cell member =>
    congrArg ListHead.prev (same cell (by simpa only [List.mem_cons, List.mem_reverse] using member))

/-- The node behind the head. -/
theorem first (represents : Represents heap head nodes) :
    heap.next head = (nodes ++ [head]).head? := represents.next.first

/-- The node before the head. -/
theorem last (represents : Represents heap head nodes) :
    heap.prev head = (head :: nodes).getLast? := by
  have first := represents.prev.first
  rwa [← List.reverse_cons, List.head?_reverse] at first

end Represents

section Effects

variable [DecidableEq α]

/-! ## Effects -/

theorem next_listHeadInit (heap : Heap α) (head cell : α) :
    (listHeadInit heap head).next cell = if cell = head then some head else heap.next cell := by
  rw [listHeadInit, Heap.next_setNext, Heap.next_setPrev]

theorem prev_listHeadInit (heap : Heap α) (head cell : α) :
    (listHeadInit heap head).prev cell = if cell = head then some head else heap.prev cell := by
  rw [listHeadInit, Heap.prev_setNext, Heap.prev_setPrev]

/-- What `list_add` leaves, where the head has a predecessor. -/
theorem listAdd_eq_some {new before : α} (last : heap.prev head = some before) :
    ∃ heap', listAdd heap new head = some heap' ∧
      (∀ cell, heap'.next cell =
        if cell = before then some new else if cell = new then some head else heap.next cell) ∧
      ∀ cell, heap'.prev cell =
        if cell = head then some new else if cell = new then some before else heap.prev cell := by
  refine ⟨((((heap.setNext new (some head)).setPrev new (some before)).setNext before
    (some new)).setPrev head (some new)), ?_, fun cell => ?_, fun cell => ?_⟩
  · simp only [listAdd, Heap.prev_setNext, Heap.prev_setPrev, ↓reduceIte, last, Option.bind_eq_bind,
      Option.bind_some, Option.pure_def]
  · simp only [Heap.next_setPrev, Heap.next_setNext]
  · simp only [Heap.prev_setPrev, Heap.prev_setNext]

/-- What `list_del` leaves, where the entry has neighbours. -/
theorem listDel_eq_some {entry before after : α} (next : heap.next entry = some after)
    (prev : heap.prev entry = some before) (apart : after ≠ entry) :
    ∃ heap', listDel heap entry = some heap' ∧
      (∀ cell, heap'.next cell =
        if cell = entry then none else if cell = before then some after else heap.next cell) ∧
      ∀ cell, heap'.prev cell =
        if cell = entry then none else if cell = after then some before else heap.prev cell := by
  refine ⟨((((heap.setPrev after (some before)).setNext before (some after)).setNext entry
    none).setPrev entry none), ?_, fun cell => ?_, fun cell => ?_⟩
  · simp only [listDel, next, prev, Heap.prev_setPrev, Heap.next_setPrev, apart.symm, ↓reduceIte,
      Option.bind_eq_bind, Option.bind_some, Option.pure_def]
  · simp only [Heap.next_setPrev, Heap.next_setNext]
  · simp only [Heap.prev_setPrev, Heap.prev_setNext]

/-! ## Operations on sequences -/

namespace Represents

/-- **Starting.** A head that was initialized is the empty sequence. -/
theorem init (heap : Heap α) (head : α) : Represents (listHeadInit heap head) head [] where
  distinct := List.nodup_singleton head
  next := by rw [Path.nil_iff, next_listHeadInit, if_pos rfl]
  prev := by rw [List.reverse_nil, Path.nil_iff, prev_listHeadInit, if_pos rfl]

/-- **Emptiness.** -/
theorem isEmpty_iff (represents : Represents heap head nodes) :
    listIsEmpty heap head = true ↔ nodes = [] := by
  rw [listIsEmpty, decide_eq_true_eq, represents.first]
  cases nodes with
  | nil => exact ⟨fun _ => rfl, fun _ => rfl⟩
  | cons node nodes =>
      rw [List.cons_append, List.head?_cons, Option.some.injEq]
      refine ⟨fun same => ?_, nofun⟩
      subst same
      exact absurd List.mem_cons_self (List.nodup_cons.mp represents.distinct).1

/-- **Adding.** A node that is not in the list is appended, and no other cells than those of the
list and the node change. -/
theorem add (represents : Represents heap head nodes) {new : α} (fresh : new ∉ head :: nodes) :
    ∃ heap', listAdd heap new head = some heap' ∧ Represents heap' head (nodes ++ [new]) ∧
      ∀ cell, cell ≠ new → cell ∉ head :: nodes → heap' cell = heap cell := by
  have distinct := represents.distinct
  have ne : new ≠ head := fun same => fresh (same ▸ List.mem_cons_self)
  have absent : new ∉ nodes := fun member => fresh (List.mem_cons_of_mem _ member)
  obtain ⟨before, isLast⟩ : ∃ before, (head :: nodes).getLast? = some before :=
    ⟨_, List.getLast?_eq_some_getLast (List.cons_ne_nil _ _)⟩
  have member : before ∈ head :: nodes := List.mem_of_getLast? isLast
  obtain ⟨heap', added, next, prev⟩ := listAdd_eq_some (represents.last.trans isLast)
  refine ⟨heap', added, ⟨?_, ?_, ?_⟩, fun cell other outside => ?_⟩
  · rw [← List.cons_append]
    exact List.nodup_append.mpr ⟨distinct, List.nodup_singleton new, fun a there b same => by
      rw [List.mem_singleton] at same
      rintro rfl
      exact fresh (same ▸ there)⟩
  · refine Path.append_iff.mpr ⟨?_, ?_⟩
    · refine represents.next.redirect distinct isLast (fun cell there notLast => ?_) ?_
      · rw [next, if_neg notLast, if_neg (ne_of_mem_of_not_mem there fresh)]
      · rw [next, if_pos rfl]
    · rw [Path.nil_iff, next, if_neg (ne_of_mem_of_not_mem member fresh).symm, if_pos rfl]
  · rw [List.reverse_append, List.reverse_singleton, List.singleton_append]
    refine ⟨by rw [prev, if_pos rfl], represents.prev.congr_from ?_ fun cell there => ?_⟩
    · rw [prev, if_neg ne, if_pos rfl, represents.last, isLast]
    · rw [List.mem_reverse] at there
      rw [prev, if_neg (ne_of_mem_of_not_mem there (List.nodup_cons.mp distinct).1),
        if_neg (ne_of_mem_of_not_mem there absent)]
  · refine Heap.cell_ext ?_ ?_
    · rw [next, if_neg (ne_of_mem_of_not_mem member outside).symm, if_neg other]
    · rw [prev, if_neg (ne_of_mem_of_not_mem List.mem_cons_self outside).symm, if_neg other]

/-- **Deleting.** A node of the list is left out, and no other cells than those of the list
change. -/
theorem del {entry : α} (represents : Represents heap head nodes) (member : entry ∈ nodes) :
    ∃ heap', listDel heap entry = some heap' ∧ Represents heap' head (nodes.erase entry) ∧
      ∀ cell ∉ head :: nodes, heap' cell = heap cell := by
  obtain ⟨xs, ys, rfl⟩ := List.append_of_mem member
  have ⟨distinct, path, back⟩ := represents
  -- The other way round, the entry stands between the same two neighbours.
  have split : (xs ++ entry :: ys).reverse = ys.reverse ++ entry :: xs.reverse := by
    rw [List.reverse_append, List.reverse_cons, List.append_assoc, List.singleton_append]
  have distinctBack : (head :: (ys.reverse ++ entry :: xs.reverse)).Nodup := by
    rw [← split, List.nodup_cons, List.mem_reverse, List.nodup_reverse, ← List.nodup_cons]
    exact distinct
  rw [split] at back
  obtain ⟨before, isLast⟩ : ∃ before, (head :: xs).getLast? = some before :=
    ⟨_, List.getLast?_eq_some_getLast (List.cons_ne_nil _ _)⟩
  obtain ⟨after, isLast'⟩ : ∃ after, (head :: ys.reverse).getLast? = some after :=
    ⟨_, List.getLast?_eq_some_getLast (List.cons_ne_nil _ _)⟩
  have next : heap.next entry = some after := by
    rw [(Path.append_iff.mp path).2.first, ← isLast', ← List.head?_reverse, List.reverse_cons,
      List.reverse_reverse]
  have prev : heap.prev entry = some before := by
    rw [(Path.append_iff.mp back).2.first, ← isLast, ← List.head?_reverse, List.reverse_cons]
  have left : (xs ++ entry :: ys).erase entry = xs ++ ys := by
    rw [List.erase_append_right, List.erase_cons_head]
    exact fun there => (List.nodup_append.mp (List.nodup_cons.mp distinct).2).2.2 entry there entry
      List.mem_cons_self rfl
  have apart : entry ∉ head :: (xs ++ ys) := by
    have moved := (@List.perm_middle _ entry (head :: xs) ys).nodup_iff
    exact (List.nodup_cons.mp (moved.mp distinct)).1
  have inside : before ∈ head :: (xs ++ ys) :=
    List.mem_append_left ys (List.mem_of_getLast? isLast)
  have inside' : after ∈ head :: (xs ++ ys) := by
    have there : after ∈ head :: ys.reverse := List.mem_of_getLast? isLast'
    simp only [List.mem_cons, List.mem_append, List.mem_reverse] at there ⊢
    exact there.imp_right .inr
  obtain ⟨heap', deleted, next', prev'⟩ :=
    listDel_eq_some next prev (ne_of_mem_of_not_mem inside' apart)
  refine ⟨heap', deleted, ?_, fun cell outside => ?_⟩
  · rw [left]
    refine ⟨?_, path.leaveOut distinct isLast (fun cell there notLast => ?_) ?_, ?_⟩
    · exact distinct.sublist (((List.sublist_cons_self entry ys).append_left xs).cons_cons head)
    · rw [next', if_neg (ne_of_mem_of_not_mem there apart), if_neg notLast]
    · rw [next', if_neg (ne_of_mem_of_not_mem inside apart), if_pos rfl, next]
    · rw [List.reverse_append]
      refine back.leaveOut distinctBack isLast' (fun cell there notLast => ?_) ?_
      · have there : cell ∈ head :: (xs ++ ys) := by
          simp only [List.mem_cons, List.mem_append, List.mem_reverse] at there ⊢
          exact there.imp_right Or.symm
        rw [prev', if_neg (ne_of_mem_of_not_mem there apart), if_neg notLast]
      · rw [prev', if_neg (ne_of_mem_of_not_mem inside' apart), if_pos rfl, prev]
  · have outside' : cell ∉ head :: (xs ++ ys) := fun there => outside (by
      simp only [List.mem_cons, List.mem_append] at there ⊢
      exact there.imp_right (.imp_right .inr))
    have other := (ne_of_mem_of_not_mem (List.mem_cons_of_mem head member) outside).symm
    refine Heap.cell_ext ?_ ?_
    · rw [next', if_neg other, if_neg (ne_of_mem_of_not_mem inside outside').symm]
    · rw [prev', if_neg other, if_neg (ne_of_mem_of_not_mem inside' outside').symm]

end Represents

end Effects

end Adsbus

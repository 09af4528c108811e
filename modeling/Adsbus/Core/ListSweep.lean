import Adsbus.Core.ListHistory

/-! # Sweeps over a list

`list_for_each_entry_safe` takes the node behind the current one before its body runs, so that the
body may delete the current node. Nodes that a body appends are met later on, but for those that are
appended while the last node is the current one: by then the next one is the head.
-/

namespace Adsbus

variable {α : Type} [DecidableEq α]

/-! ## Bodies -/

/-- Nodes that are not in the list are appended to it, and other cells than its own are changed in
any way. -/
inductive Appends (head : α) : Heap α → List α → List α → Heap α → List α → Prop
  | done (heap : Heap α) (nodes : List α) : Appends head heap nodes [] heap nodes
  | append {heap added heap' : Heap α} {nodes news nodes' : List α} {new : α}
      (fresh : new ∉ head :: nodes) (ran : listAdd heap new head = some added)
      (rest : Appends head added (nodes ++ [new]) news heap' nodes') :
      Appends head heap nodes (new :: news) heap' nodes'
  | elsewhere {heap changed heap' : Heap α} {nodes news nodes' : List α}
      (same : ∀ cell ∈ head :: nodes, changed cell = heap cell)
      (rest : Appends head changed nodes news heap' nodes') :
      Appends head heap nodes news heap' nodes'

/-- A body: the current node may be deleted, once. -/
inductive Body (head current : α) : Heap α → List α → List α → Heap α → List α → Prop
  | keep {heap heap' : Heap α} {nodes news nodes' : List α}
      (appends : Appends head heap nodes news heap' nodes') :
      Body head current heap nodes news heap' nodes'
  | delete {heap before after heap' : Heap α} {nodes news between news' nodes' : List α}
      (first : Appends head heap nodes news before between) (member : current ∈ between)
      (ran : listDel before current = some after)
      (rest : Appends head after (between.erase current) news' heap' nodes') :
      Body head current heap nodes (news ++ news') heap' nodes'

variable {head current : α} {heap heap' : Heap α} {nodes news nodes' : List α}

theorem Appends.represents (appends : Appends head heap nodes news heap' nodes')
    (represents : Represents heap head nodes) :
    Represents heap' head nodes' ∧ nodes' = nodes ++ news := by
  induction appends with
  | done heap nodes => exact ⟨represents, (List.append_nil _).symm⟩
  | append fresh ran _ ih =>
      obtain ⟨_, added, represents, _⟩ := represents.add fresh
      rw [ran, Option.some.injEq] at added
      subst added
      obtain ⟨represents, left⟩ := ih represents
      exact ⟨represents, by rw [left, List.append_assoc, List.singleton_append]⟩
  | elsewhere same _ ih => exact ih (represents.congr same)

/-- Behind the current node, a body only appends. -/
theorem Body.represents {kept rest : List α}
    (body : Body head current heap (kept ++ current :: rest) news heap' nodes')
    (represents : Represents heap head (kept ++ current :: rest)) :
    Represents heap' head nodes' ∧ ∃ kept', nodes' = kept' ++ (rest ++ news) := by
  generalize listed : kept ++ current :: rest = nodes at body represents
  cases body with
  | keep appends =>
      obtain ⟨represents, left⟩ := appends.represents represents
      refine ⟨represents, kept ++ [current], ?_⟩
      rw [left, ← listed, List.append_assoc, List.append_assoc, List.singleton_append,
        List.cons_append]
  | delete first member ran after =>
      obtain ⟨represents', between⟩ := first.represents represents
      obtain ⟨_, deleted, represents', _⟩ := represents'.del member
      rw [ran, Option.some.injEq] at deleted
      subst deleted
      obtain ⟨represents', left⟩ := after.represents represents'
      have absent : current ∉ kept := fun there => by
        have distinct := (List.nodup_cons.mp represents.distinct).2
        rw [← listed] at distinct
        exact (List.nodup_append.mp distinct).2.2 current there current List.mem_cons_self rfl
      refine ⟨represents', kept, ?_⟩
      rw [left, between, ← listed, List.append_assoc, List.erase_append_right _ absent,
        List.cons_append, List.erase_cons_head]
      simp only [List.append_assoc]

/-! ## The loop -/

/-- The loop before its test, with the nodes that it has visited and that were appended so far. -/
structure Sweep (α : Type) where
  heap : Heap α
  nodes : List α
  pos : α
  n : α
  visited : List α
  added : List α

/-- The initialization of `list_for_each_entry_safe`. -/
structure Sweep.Starts (head : α) (heap : Heap α) (nodes : List α) (loop : Sweep α) : Prop where
  heap : loop.heap = heap
  nodes : loop.nodes = nodes
  pos : loop.heap.next head = some loop.pos
  n : loop.heap.next loop.pos = some loop.n
  visited : loop.visited = []
  added : loop.added = []

/-- One turn of the loop: the test, a body, and `pos = n, n = n->next`. -/
inductive Sweep.Step (head : α) : Sweep α → List α → Sweep α → Prop
  | turn {loop : Sweep α} {news nodes' : List α} {heap' : Heap α} {n' : α} (going : loop.pos ≠ head)
      (body : Body head loop.pos loop.heap loop.nodes news heap' nodes')
      (next : heap'.next loop.n = some n') :
      Step head loop news
        { heap := heap', nodes := nodes', pos := loop.n, n := n'
          visited := loop.visited ++ [loop.pos], added := loop.added ++ news }

/-- Where the loop is: at a node of the list, with the nodes behind it to come, or at the head. -/
inductive Sweep.At (head : α) (start : List α) (loop : Sweep α) : Prop
  | node {kept rest : List α} (nodes : loop.nodes = kept ++ loop.pos :: rest)
      (n : (rest ++ [head]).head? = some loop.n)
      (met : loop.visited ++ loop.pos :: rest = start ++ loop.added)
  | head {seen missed : List α} (pos : loop.pos = head) (visited : loop.visited = start ++ seen)
      (added : loop.added = seen ++ missed)

/-- The invariant of the loop. -/
structure Sweep.Sound (head : α) (start : List α) (loop : Sweep α) : Prop where
  represents : Represents loop.heap head loop.nodes
  at' : loop.At head start

namespace Sweep

variable {start : List α} {loop next : Sweep α}

omit [DecidableEq α] in
theorem Starts.sound (starts : loop.Starts head heap nodes) (represents : Represents heap head nodes) :
    loop.Sound head nodes := by
  have first := starts.pos
  have second := starts.n
  rw [starts.heap] at first second
  refine ⟨by rwa [starts.heap, starts.nodes], ?_⟩
  rw [represents.first] at first
  cases nodes with
  | nil =>
      have pos := Option.some.inj first
      exact .head pos.symm starts.visited starts.added
  | cons node rest =>
      have pos : node = loop.pos := Option.some.inj first
      rw [← pos, represents.next.2.first] at second
      refine .node (starts.nodes.trans (by rw [← pos, List.nil_append])) second ?_
      rw [starts.visited, starts.added, ← pos, List.append_nil]
      rfl

omit [DecidableEq α] in
theorem exists_starts (represents : Represents heap head nodes) :
    ∃ loop : Sweep α, loop.Starts head heap nodes := by
  obtain ⟨first, toFirst⟩ := exists_head? nodes head
  obtain ⟨second, toSecond⟩ : ∃ second, heap.next first = some second := by
    cases nodes with
    | nil =>
        cases toFirst
        exact ⟨_, represents.next⟩
    | cons node rest =>
        cases toFirst
        obtain ⟨second, toSecond⟩ := exists_head? rest head
        exact ⟨second, represents.next.2.first.trans toSecond⟩
  exact ⟨⟨heap, nodes, first, second, [], []⟩, rfl, rfl, represents.first.trans toFirst, toSecond,
    rfl, rfl⟩

/-- After a body, the node taken before it is in the list still, or it is the head. -/
theorem Sound.left (sound : loop.Sound head start) (going : loop.pos ≠ head)
    (body : Body head loop.pos loop.heap loop.nodes news heap' nodes') :
    Represents heap' head nodes' ∧ ∃ kept rest,
      nodes' = kept ++ (rest ++ news) ∧ (rest ++ [head]).head? = some loop.n ∧
        loop.visited ++ loop.pos :: rest = start ++ loop.added := by
  obtain ⟨represents, at'⟩ := sound
  cases at' with
  | head pos _ _ => exact absurd pos going
  | @node kept rest nodes n met =>
      rw [nodes] at body represents
      obtain ⟨represents', kept', left⟩ := body.represents represents
      exact ⟨represents', kept', rest, left, n, met⟩

/-- The loop goes on, whatever its body was. -/
theorem Sound.proceeds (sound : loop.Sound head start) (going : loop.pos ≠ head)
    (body : Body head loop.pos loop.heap loop.nodes news heap' nodes') :
    ∃ n', heap'.next loop.n = some n' := by
  obtain ⟨represents, kept, rest, nodes, n, _⟩ := sound.left going body
  cases rest with
  | nil =>
      cases n
      rw [represents.first]
      exact exists_head? nodes' _
  | cons node rest =>
      cases n
      rw [nodes] at represents
      rw [(Path.append_iff.mp represents.next).2.first]
      exact exists_head? (rest ++ news) head

/-- **One turn.** -/
theorem Sound.step (sound : loop.Sound head start) (turn : Step head loop news next) :
    next.Sound head start := by
  cases turn with
  | @turn nodes' heap' n' going body leads =>
      obtain ⟨represents, kept, rest, nodes, n, met⟩ := sound.left going body
      refine ⟨represents, ?_⟩
      cases rest with
      | nil =>
          cases n
          exact .head rfl met rfl
      | cons node rest =>
          cases n
          refine .node nodes ?_ ?_
          · rw [nodes] at represents
            rw [← leads]
            exact (Path.append_iff.mp represents.next).2.first.symm
          · change (loop.visited ++ [loop.pos]) ++ loop.n :: (rest ++ news) = start ++ (loop.added ++ news)
            rw [List.append_assoc, List.singleton_append, ← List.append_assoc start, ← met]
            simp only [List.append_assoc, List.cons_append]

variable {trace : List (Sweep α × List α)}

theorem Sound.run (sound : loop.Sound head start) (run : Run (Step head) loop trace next) :
    next.Sound head start :=
  run.invariant sound fun sound turn => sound.step turn

omit [DecidableEq α] in
/-- Every turn visits a node that was there at the start or was appended. -/
theorem Sound.visited_le (sound : loop.Sound head start) :
    loop.visited.length ≤ start.length + loop.added.length := by
  cases sound.at' with
  | node _ _ met =>
      have lengths := congrArg List.length met
      simp only [List.length_append, List.length_cons] at lengths
      omega
  | head _ visited added =>
      rw [visited, added, List.length_append, List.length_append]
      omega

theorem visited_length (starts : loop.Starts head heap nodes)
    (run : Run (Step head) loop trace next) : next.visited.length = trace.length := by
  induction run with
  | start => rw [starts.visited, List.length_nil, List.length_nil]
  | step _ turn ih =>
      cases turn with
      | turn _ _ _ => rw [List.length_append, List.length_singleton, ih, List.length_cons]

/-- What a sweep over a list has done by the time it is at this test, whatever its bodies were: it
goes on while it is not at the head, it has taken at most one turn for each node of the list and
each appended one, and at the head it has visited the nodes of the list, in their order, and then
some of the appended ones. -/
structure Visits (head : α) (nodes : List α) (turns : Nat) (loop : Sweep α) : Prop where
  represents : Represents loop.heap head loop.nodes
  proceeds : loop.pos ≠ head → ∀ news heap' nodes',
    Body head loop.pos loop.heap loop.nodes news heap' nodes' → ∃ next, Step head loop news next
  turns : turns ≤ nodes.length + loop.added.length
  whole : loop.pos = head →
    ∃ seen missed, loop.visited = nodes ++ seen ∧ loop.added = seen ++ missed
  once : loop.pos = head → ∀ node ∈ nodes, node ∉ loop.added → loop.visited.count node = 1

/-- **A sweep.** -/
theorem Starts.visits (starts : loop.Starts head heap nodes) (represents : Represents heap head nodes)
    (run : Run (Step head) loop trace next) : next.Visits head nodes trace.length := by
  have sound := (starts.sound represents).run run
  have whole : next.pos = head →
      ∃ seen missed, next.visited = nodes ++ seen ∧ next.added = seen ++ missed := by
    intro atHead
    cases sound.at' with
    | node inside _ _ =>
        have distinct := (List.nodup_cons.mp sound.represents.distinct).1
        rw [inside, atHead] at distinct
        exact absurd (List.mem_append_right _ List.mem_cons_self) distinct
    | head _ visited added => exact ⟨_, _, visited, added⟩
  refine ⟨sound.represents, fun going news heap' nodes' body => ?_, ?_, whole, ?_⟩
  · obtain ⟨n', leads⟩ := sound.proceeds going body
    exact ⟨_, .turn going body leads⟩
  · rw [← visited_length starts run]
    exact sound.visited_le
  · intro atHead node member fresh
    obtain ⟨seen, missed, visited, added⟩ := whole atHead
    have distinct := (List.nodup_cons.mp represents.distinct).2
    rw [visited, List.count_append, List.count_eq_one_of_mem distinct member,
      List.count_eq_zero_of_not_mem fun there => fresh (added ▸ List.mem_append_left _ there)]

/-- A sweep that takes turn after turn appends without bound. -/
theorem Starts.ends {loops : Nat → Sweep α} {bodies : Nat → List α}
    (starts : (loops 0).Starts head heap nodes) (represents : Represents heap head nodes)
    (turns : ∀ turn, Step head (loops turn) (bodies turn) (loops (turn + 1))) (bound : Nat) :
    ∃ turn, bound < (loops turn).added.length := by
  have runs : ∀ turn, ∃ trace, trace.length = turn ∧ Run (Step head) (loops 0) trace (loops turn) := by
    intro turn
    induction turn with
    | zero => exact ⟨[], rfl, .start⟩
    | succ turn ih =>
        obtain ⟨trace, length, run⟩ := ih
        exact ⟨_ :: trace, by rw [List.length_cons, length], run.step (turns turn)⟩
  obtain ⟨trace, length, run⟩ := runs (nodes.length + bound + 1)
  have taken := (starts.visits represents run).turns
  exact ⟨nodes.length + bound + 1, by omega⟩

end Sweep

/-! ## Bodies that leave the list alone -/

section Fold

variable {σ : Type} {heap : Heap α} {head : α} {nodes : List α} {body : σ → α → σ} {state last : σ}

/-- The turns of the loop from its test on, with a body that changes something else. -/
inductive ForEachSafe (heap : Heap α) (head : α) (body : σ → α → σ) : α → α → σ → σ → Prop
  | done (n : α) (state : σ) : ForEachSafe heap head body head n state state
  | turn {pos n n' : α} {state last : σ} (going : pos ≠ head) (next : heap.next n = some n')
      (rest : ForEachSafe heap head body n n' (body state pos) last) :
      ForEachSafe heap head body pos n state last

/-- `list_for_each_entry_safe` over such a body. -/
inductive ListForEachEntrySafe (heap : Heap α) (head : α) (body : σ → α → σ) (state last : σ) : Prop
  | starts {pos n : α} (first : heap.next head = some pos) (second : heap.next pos = some n)
      (loop : ForEachSafe heap head body pos n state last)

omit [DecidableEq α] in
theorem Path.forEachSafe {pos first : α} (path : Path heap.next pos nodes head)
    (circle : heap.next head = some first) (away : head ∉ pos :: nodes) {n : α}
    (next : heap.next pos = some n) :
    ForEachSafe heap head body pos n state last ↔ last = (pos :: nodes).foldl body state := by
  induction nodes generalizing pos n state with
  | nil =>
      rw [Path.nil_iff, next, Option.some.injEq] at path
      subst path
      have going : pos ≠ n := fun same => away (same ▸ List.mem_cons_self)
      constructor
      · intro loop
        cases loop with
        | done => exact absurd rfl going
        | turn _ _ rest =>
            cases rest with
            | done => rfl
            | turn going _ _ => exact absurd rfl going
      · rintro rfl
        exact .turn going circle (.done _ _)
  | cons node nodes ih =>
      obtain ⟨here, behind⟩ := path
      obtain rfl : node = n := Option.some.inj (here.symm.trans next)
      have going : pos ≠ head := fun same => away (same ▸ List.mem_cons_self)
      have away' : head ∉ node :: nodes := fun member => away (List.mem_cons_of_mem _ member)
      obtain ⟨second, leads⟩ := exists_head? nodes head
      have leads := behind.first.trans leads
      constructor
      · intro loop
        cases loop with
        | done => exact absurd rfl going
        | turn _ next' rest => exact (ih behind away' next').mp rest
      · intro folded
        exact .turn going leads ((ih behind away' leads).mpr folded)

omit [DecidableEq α] in
/-- Such a loop folds its body over the sequence. -/
theorem Represents.forEachEntrySafe (represents : Represents heap head nodes) :
    ListForEachEntrySafe heap head body state last ↔ last = nodes.foldl body state := by
  have away := (List.nodup_cons.mp represents.distinct).1
  cases nodes with
  | nil =>
      have circle : heap.next head = some head := represents.next
      constructor
      · rintro ⟨first, second, loop⟩
        obtain rfl := Option.some.inj (first.symm.trans circle)
        cases loop with
        | done => rfl
        | turn going _ _ => exact absurd rfl going
      · rintro rfl
        exact .starts circle circle (.done _ _)
  | cons node nodes =>
      obtain ⟨here, behind⟩ := represents.next
      obtain ⟨n, leads⟩ := exists_head? nodes head
      have leads := behind.first.trans leads
      constructor
      · rintro ⟨first, second, loop⟩
        obtain rfl := Option.some.inj (first.symm.trans here)
        exact (behind.forEachSafe here away second).mp loop
      · exact fun folded => .starts here leads ((behind.forEachSafe here away leads).mpr folded)

end Fold

/-! ## Lists represent sequences -/

/-- What it means that a head stands for a sequence: following either pointer from the head visits
just its nodes, in order or in reverse, it is empty exactly where the list says so, and a sweep
over it visits each of them once and ends. -/
structure Stands (heap : Heap α) (head : α) (nodes : List α) : Prop where
  distinct : (head :: nodes).Nodup
  forward : ∃ first, heap.next head = some first ∧
    ∀ visited, Traversal heap.next head first visited ↔ visited = nodes
  backward : ∃ last, heap.prev head = some last ∧
    ∀ visited, Traversal heap.prev head last visited ↔ visited = nodes.reverse
  isEmpty : listIsEmpty heap head = true ↔ nodes = []
  sweepable : ∃ loop : Sweep α, loop.Starts head heap nodes
  sweep : ∀ loop : Sweep α, loop.Starts head heap nodes → ∀ trace next,
    Run (Sweep.Step head) loop trace next → next.Visits head nodes trace.length
  ends : ∀ (loops : Nat → Sweep α) (bodies : Nat → List α), (loops 0).Starts head heap nodes →
    (∀ turn, Sweep.Step head (loops turn) (bodies turn) (loops (turn + 1))) →
    ∀ bound, ∃ turn, bound < (loops turn).added.length

theorem Represents.stands (represents : Represents heap head nodes) : Stands heap head nodes where
  distinct := represents.distinct
  forward := represents.next.traversal (List.nodup_cons.mp represents.distinct).1
  backward := represents.prev.traversal fun member =>
    (List.nodup_cons.mp represents.distinct).1 (List.mem_reverse.mp member)
  isEmpty := represents.isEmpty_iff
  sweepable := Sweep.exists_starts represents
  sweep := fun _ starts _ _ run => starts.visits represents run
  ends := fun _ _ starts turns bound => starts.ends represents turns bound

/-- **The intrusive list.** After any history of operations on any number of lists, each head stands
for the sequence that its operations make; a further operation succeeds and touches no cell of a list
that it leaves as it is. -/
theorem lists_stand {before : Heap α} {trace : List ((Heap α × Lists α) × ListOp α)}
    {lists : Lists α} (run : Run listStep (before, fun _ => none) trace (heap, lists)) :
    (∀ head nodes, lists head = some nodes → Stands heap head nodes) ∧
      ∀ op lists', Lists.Step lists op lists' → ∃ heap', op.run heap = some heap' ∧
        ∀ other nodes, lists other = some nodes → lists' other = some nodes →
          ∀ cell ∈ other :: nodes, heap' cell = heap cell := by
  have held := Lists.heldBy_of_run run
  refine ⟨fun head nodes here => (held.represents here).stands, fun op lists' step => ?_⟩
  obtain ⟨heap', ran, _, frame⟩ := step.run held
  exact ⟨heap', ran, frame⟩

/-- Two nodes added to a list in unused memory, and the first one deleted. -/
theorem lists_stand_two : ∃ heap : Heap Nat, Stands heap 0 [2] := by
  have fresh := @Run.start _ _ listStep
    ((fun _ => ⟨none, none⟩ : Heap Nat), (fun _ => none : Lists Nat))
  have one := @Run.step _ _ _ _ _ _ (_, _) (.init 0) fresh ⟨rfl, .init _ 0⟩
  have two := @Run.step _ _ _ _ _ _ (_, _) (.add 1 0) one ⟨rfl, .add rfl (by decide)⟩
  have three := @Run.step _ _ _ _ _ _ (_, _) (.add 2 0) two ⟨rfl, .add rfl (by decide)⟩
  have four := @Run.step _ _ _ _ _ _ (_, _) (.del 1) three
    ⟨rfl, @Lists.Step.del _ _ _ 1 0 [1, 2] rfl (by decide)⟩
  exact ⟨_, (lists_stand four).1 0 [2] rfl⟩

end Adsbus

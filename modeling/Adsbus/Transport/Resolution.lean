import Adsbus.Transport.Resolving

/-! # Every request gets its own answer

From the start of the threads to the end of the last one, whatever the order of the steps: a request
is in one place, its answer is read from the descriptor that its call returned, and when the threads
have been joined, every request that was sent has been answered.
-/

namespace Adsbus.Resolver

variable {α Addrs : Type} [DecidableEq α] {lookup : Query → Answer Addrs → Prop}
  {resolver next : Resolver α Addrs} {action : Action α Addrs} {res : α}
  {resolution : Resolution Addrs}

/-! ## Runs -/

/-- What holds of every state. -/
structure Sound (lookup : Query → Answer Addrs → Prop) (resolver : Resolver α Addrs) : Prop where
  kept : resolver.Kept
  linked : resolver.Linked
  closing : resolver.Closing
  recorded : resolver.Recorded lookup

theorem Sound.step (sound : resolver.Sound lookup)
    (taken : Resolver.step lookup resolver action next) : next.Sound lookup := by
  have moves := moves_of_step taken
  exact ⟨sound.kept.step sound.linked moves, sound.linked.step sound.kept moves,
    sound.closing.step sound.linked moves, sound.recorded.step sound.kept sound.linked moves⟩

section Start

variable {fd fd1 : Nat} {subfds : List Nat}

theorem get_foldl_put (subfds : List Nat) (end' : End) (fds : Table End) (other : Nat) :
    (subfds.foldl (fun fds subfd => fds.put subfd end') fds).get other =
      if other ∈ subfds then some end' else fds.get other := by
  induction subfds generalizing fds with
  | nil => rfl
  | cons subfd subfds ih =>
      rw [List.foldl_cons, ih, Table.get_put]
      by_cases here : other = subfd
      · simp only [here, List.mem_cons, true_or, ↓reduceIte, ite_self]
      · simp only [here, List.mem_cons, false_or, ↓reduceIte]

omit [DecidableEq α] in
/-- The descriptors at the start. -/
theorem get_asyncaddrinfoInit (distinct : (fd :: fd1 :: subfds).Nodup) {other : Nat} {end' : End} :
    (asyncaddrinfoInit fd fd1 subfds : Resolver α Addrs).fds.get other = some end' ↔
      other ∈ subfds ∧ end' = ⟨.requests, .read⟩ ∨ other = fd1 ∧ end' = ⟨.requests, .write⟩ := by
  rw [asyncaddrinfoInit, Table.get_remove, get_foldl_put, Table.get_put, Table.get_put, Table.empty]
  simp only [List.nodup_cons, List.mem_cons, not_or] at distinct
  grind

omit [DecidableEq α] in
/-- The threads at the start. -/
theorem workers_asyncaddrinfoInit (i : Nat) :
    (asyncaddrinfoInit fd fd1 subfds : Resolver α Addrs).workers i =
      (subfds[i]?).elim .ended .receiving := rfl

omit [DecidableEq α] in
theorem fd_asyncaddrinfoInit {i other : Nat} :
    ((asyncaddrinfoInit fd fd1 subfds : Resolver α Addrs).workers i).fd = some other ↔
      subfds[i]? = some other := by
  rw [workers_asyncaddrinfoInit]
  cases subfds[i]? with
  | none => exact iff_of_false nofun nofun
  | some subfd => rfl

omit [DecidableEq α] in
/-- Nothing has happened yet. -/
theorem sound_init (distinct : (fd :: fd1 :: subfds).Nodup) :
    (asyncaddrinfoInit fd fd1 subfds : Resolver α Addrs).Sound lookup := by
  have get := @get_asyncaddrinfoInit α Addrs _ _ _ distinct
  have idle : ∀ i, (asyncaddrinfoInit fd fd1 subfds : Resolver α Addrs).workers i = .ended ∨
      ∃ subfd, (asyncaddrinfoInit fd fd1 subfds : Resolver α Addrs).workers i = .receiving subfd := by
    intro i
    rw [workers_asyncaddrinfoInit]
    cases subfds[i]? with
    | none => exact .inl rfl
    | some subfd => exact .inr ⟨subfd, rfl⟩
  have counts : ∀ rank, 0 < rank → Counts (fun _ => .absent) [] rank := fun rank positive =>
    ⟨List.nodup_nil, fun call => iff_of_false List.not_mem_nil (Nat.not_le_of_lt positive)⟩
  have kept : (asyncaddrinfoInit fd fd1 subfds : Resolver α Addrs).Kept := by
    refine ⟨fun stage res => iff_of_false (fun held => ?_) ?_, ?_, fun _ => List.nodup_nil,
      (fun same => by cases same), fun _ _ => rfl, fun _ present _ => absurd rfl present⟩
    · cases stage with
      | took i =>
          rw [Holds] at held
          rcases idle i with here | ⟨subfd, here⟩
          · rw [here] at held
            cases held
          · rw [here] at held
            cases held
      | answered i =>
          rw [Holds] at held
          rcases idle i with here | ⟨subfd, here⟩
          · rw [here] at held
            cases held
          · rw [here] at held
            cases held
      | absent => exact held
      | returned => exact held
      | filled => cases held
      | queued => cases held
      | replied call => cases held
      | received => cases held
    · rintro ⟨_, reads, _⟩
      cases reads
    · intro _ _ _ _ reads
      cases reads
  have linked : (asyncaddrinfoInit fd fd1 subfds : Resolver α Addrs).Linked := by
    refine ⟨fun other => ?_, fun here => ?_, fun here there => ?_, (fun reads => by cases reads),
      fun {i _ _ _ _} here => ?_, fun {i _ _} here => ?_, fun {i _ _ _ _} here => ?_,
      (fun reads => by cases reads), (fun main => by cases main), (fun main => by cases main), fun here => ?_,
      fun here => ?_, fun here => ?_⟩
    · rw [get]
      constructor
      · intro same
        exact .inr ⟨(Option.some.inj same).symm, rfl⟩
      · rintro (⟨_, same⟩ | ⟨rfl, _⟩)
        · cases same
        · rfl
    · exact get.mpr (.inl ⟨List.mem_of_getElem? (fd_asyncaddrinfoInit.mp here), rfl⟩)
    · have here := fd_asyncaddrinfoInit.mp here
      have inside := (List.getElem?_eq_some_iff.mp here).1
      exact (List.getElem?_inj inside (distinct.sublist ((List.sublist_cons_self _ _).trans
        (List.sublist_cons_self _ _)))).mp (here.trans (fd_asyncaddrinfoInit.mp there).symm)
    · rcases idle i with other | ⟨_, other⟩
      · cases here.symm.trans other
      · cases here.symm.trans other
    · rcases idle i with other | ⟨_, other⟩
      · cases here.symm.trans other
      · cases here.symm.trans other
    · rcases idle i with other | ⟨_, other⟩
      · cases here.symm.trans other
      · cases here.symm.trans other
    · rcases get.mp here with ⟨_, same⟩ | ⟨_, same⟩ <;> cases same
    · rcases get.mp here with ⟨_, same⟩ | ⟨_, same⟩ <;> cases same
    · rcases get.mp here with ⟨member, _⟩ | ⟨_, same⟩
      · obtain ⟨i, there⟩ := List.getElem?_of_mem member
        exact ⟨i, fd_asyncaddrinfoInit.mpr there⟩
      · cases same
  have closing : (asyncaddrinfoInit fd fd1 subfds : Resolver α Addrs).Closing := by
    refine ⟨fun {i} inside here => ?_, fun {i} past => ?_, (fun main => by cases main),
      (fun started => by cases started), (fun _ isOpen => by cases isOpen), (fun main => by cases main),
      fun _ => rfl⟩
    · rw [workers_asyncaddrinfoInit, List.getElem?_eq_getElem inside] at here
      cases here
    · rw [workers_asyncaddrinfoInit, List.getElem?_eq_none past]
      rfl
  exact ⟨kept, linked, closing, ⟨counts 2 (by decide), counts 4 (by decide), counts 5 (by decide),
    counts 7 (by decide), (fun reads => by cases reads), (fun reads => by cases reads),
    (fun member => by cases member), fun member => by cases member⟩⟩

end Start

/-- **Every run.** -/
theorem sound_of_run {fd fd1 : Nat} {subfds : List Nat} (distinct : (fd :: fd1 :: subfds).Nodup)
    {trace : List (Resolver α Addrs × Action α Addrs)}
    (run : Run (Resolver.step lookup) (asyncaddrinfoInit fd fd1 subfds) trace resolver) :
    resolver.Sound lookup :=
  run.invariant (sound_init distinct) fun sound taken => sound.step taken

/-! ## No assertion fails -/

omit [DecidableEq α] in
theorem recv_message {fd : Nat} {socket : Socket} {rest : List α}
    (reads : resolver.fds.get fd = some ⟨socket, .read⟩)
    (queue : resolver.messages socket = res :: rest) :
    resolver.recv fd = .ok (some res, { resolver with
      messages := Function.update resolver.messages socket rest }) := by
  rw [recv]
  simp only [reads, queue]

omit [DecidableEq α] in
theorem recv_empty {fd : Nat} {socket : Socket}
    (reads : resolver.fds.get fd = some ⟨socket, .read⟩) (empty : resolver.messages socket = []) :
    resolver.recv fd =
      if resolver.isOpen ⟨socket, .write⟩ then .error .waits else .ok (none, resolver) := by
  rw [recv]
  simp only [reads, empty]

omit [DecidableEq α] in
theorem send_open {fd other : Nat} {socket : Socket}
    (there : resolver.fds.get fd = some ⟨socket, .write⟩)
    (heard : resolver.fds.get other = some ⟨socket, .read⟩) :
    resolver.send (some fd) res = .ok { resolver with
      messages := Function.update resolver.messages socket (resolver.messages socket ++ [res]) } := by
  rw [send, Option.bind_some]
  simp only [there, isOpen_iff.mpr ⟨other, heard⟩, ↓reduceIte]

omit [DecidableEq α] in
theorem close_open {fd : Nat} {end' : End} (there : resolver.fds.get fd = some end') :
    resolver.close (some fd) = .ok { resolver with fds := resolver.fds.remove fd } := by
  rw [close, there]
  rfl

omit [DecidableEq α] in
/-- What is held can be read. -/
theorem Kept.load_eq (kept : resolver.Kept) (stage : Stage) (held : resolver.Holds stage res) :
    ∃ resolution, resolver.load res = .ok resolution ∧
      resolver.memory res = some resolution ∧ resolver.history.stage resolution.call = stage := by
  obtain ⟨resolution, reads, here⟩ := (kept.holds stage res).mp held
  exact ⟨resolution, load_eq_ok.mpr reads, reads, here⟩

omit [DecidableEq α] in
theorem Worker.replying_eq_some {worker : Worker α} :
    worker.replying = some res ↔ ∃ fd returnFd, worker = .answered fd res returnFd := by
  cases worker with
  | answered fd res' returnFd =>
      simp only [Worker.replying, Option.some.injEq, Worker.answered.injEq, exists_and_left,
        exists_and_right, exists_eq', and_true, true_and]
  | receiving fd => exact iff_of_false nofun nofun
  | took fd res' => exact iff_of_false nofun nofun
  | replied fd returnFd => exact iff_of_false nofun nofun
  | ended => exact iff_of_false nofun nofun

omit [DecidableEq α] in
/-- The other end of a descriptor that a call returned is open until the result is there. -/
theorem Sound.isOpen_result (sound : resolver.Sound lookup) {fd call : Nat}
    (main : resolver.main = .idle) (there : resolver.fds.get fd = some ⟨.result call, .read⟩)
    (empty : resolver.messages (.result call) = []) :
    resolver.isOpen ⟨.result call, .write⟩ = true := by
  have ⟨kept, linked, closing, recorded⟩ := sound
  obtain ⟨present, left⟩ := linked.live there
  obtain ⟨res, resolution, reads, rfl⟩ := kept.requested call
    (fun same => present (by rw [same]; rfl)) fun same => left (by rw [same]; rfl)
  have held := (kept.holds_of reads _).mpr rfl
  have early : (resolver.history.stage resolution.call).rank ≤ 3 →
      resolver.isOpen ⟨.result resolution.call, .write⟩ = true := by
    intro early
    obtain ⟨fd1, _, there'⟩ := linked.returnFd reads early
    exact isOpen_iff.mpr ⟨fd1, there'⟩
  cases stage : resolver.history.stage resolution.call with
  | absent => exact absurd stage fun same => present (by rw [same]; rfl)
  | filled => exact early (by rw [stage]; decide)
  | queued => exact early (by rw [stage]; decide)
  | took i => exact early (by rw [stage, Stage.rank])
  | answered i =>
      rw [stage, Holds] at held
      obtain ⟨fd, returnFd, worker⟩ := Worker.replying_eq_some.mp held
      obtain ⟨fd1, _, there'⟩ := linked.answered worker reads
      exact isOpen_iff.mpr ⟨fd1, there'⟩
  | replied call =>
      rw [stage, Holds, kept.own stage, empty] at held
      cases held
  | received =>
      rw [stage, Holds, main] at held
      cases held
  | returned => exact absurd stage fun same => left (by rw [same]; rfl)

/-- A thread that is at a step takes it or waits; only a request that nobody listens for fails. -/
theorem Sound.not_fails (sound : resolver.Sound lookup)
    (heard : 0 < resolver.threads ∨ action ≠ .enqueue) (possible : action.Possible lookup resolver) :
    action.run resolver ≠ .error .fails := by
  have parts := sound
  obtain ⟨kept, linked, closing, recorded⟩ := parts
  intro failed
  cases action with
  | prepare query fd fd1 res =>
      change resolver.prepare query fd fd1 res = _ at failed
      unfold prepare at failed
      split at failed <;> cases failed
  | enqueue =>
      change resolver.enqueue = _ at failed
      unfold enqueue at failed
      split at failed
      · rename_i fd res main
        obtain ⟨resolution, loads, _, _⟩ := kept.load_eq .filled
          (by rw [Holds, main]; rfl)
        have started := closing.sending main
        cases isOpen : resolver.writeFd with
        | none =>
            obtain ⟨i, joins⟩ := closing.shut started isOpen
            cases main.symm.trans joins
        | some writeFd =>
            have there := (linked.writeFd writeFd).mp isOpen
            have some : 0 < resolver.threads := heard.resolve_right fun ne => ne rfl
            obtain ⟨listens, here⟩ : ∃ fd, (resolver.workers 0).fd = .some fd := by
              cases worker : resolver.workers 0 with
              | ended => cases isOpen.symm.trans (closing.ended some worker).1
              | receiving fd => exact ⟨fd, rfl⟩
              | took fd _ => exact ⟨fd, rfl⟩
              | answered fd _ _ => exact ⟨fd, rfl⟩
              | replied fd _ => exact ⟨fd, rfl⟩
            rw [loads, isOpen, Except.ok_bind, send_open there (linked.worker here)] at failed
            cases failed
      · cases failed
  | receive fd =>
      obtain ⟨call, there⟩ := possible
      change resolver.receive fd = _ at failed
      unfold receive at failed
      split at failed
      · rename_i main
        cases queue : resolver.messages (.result call) with
        | cons res rest =>
            obtain ⟨resolution, loads, _, _⟩ := kept.load_eq (.replied call)
              (show res ∈ resolver.messages _ by rw [queue]; exact List.mem_cons_self)
            rw [recv_message there queue, Except.ok_bind] at failed
            change (resolver.load res >>= _) = _ at failed
            rw [loads] at failed
            cases failed
        | nil =>
            rw [recv_empty there queue, if_pos (sound.isOpen_result main there queue)] at failed
            cases failed
      · cases failed
  | finish =>
      change resolver.finish = _ at failed
      unfold finish at failed
      split at failed
      · rename_i fd res main
        obtain ⟨resolution, loads, reads, stage⟩ := kept.load_eq .received
          (by rw [Holds, main]; rfl)
        obtain ⟨answer, written, _⟩ := recorded.answered reads (by rw [stage]; decide)
        rw [close_open (linked.reading main reads), Except.ok_bind] at failed
        change (resolver.load res >>= _) = _ at failed
        rw [loads, Except.ok_bind, written] at failed
        cases failed
      · cases failed
  | cleanup =>
      change resolver.cleanup = _ at failed
      unfold cleanup at failed
      split at failed
      · rename_i main
        have possible : resolver.started = true := possible
        rw [if_pos possible] at failed
        cases isOpen : resolver.writeFd with
        | none =>
            obtain ⟨i, joins⟩ := closing.shut possible isOpen
            cases main.symm.trans joins
        | some fd =>
            rw [isOpen, close_open ((linked.writeFd fd).mp isOpen)] at failed
            cases failed
      · cases failed
  | join =>
      change resolver.join = _ at failed
      unfold join at failed
      split at failed
      · split at failed
        · split at failed <;> cases failed
        · cases failed
      · cases failed
  | take i =>
      change resolver.take i = _ at failed
      unfold take at failed
      split at failed
      · rename_i fd worker
        have there := @linked.worker i fd (by rw [worker]; rfl)
        cases queue : resolver.messages .requests with
        | cons res rest =>
            obtain ⟨resolution, loads, _, _⟩ := kept.load_eq .queued
              (show res ∈ resolver.messages _ by rw [queue]; exact List.mem_cons_self)
            rw [recv_message there queue, Except.ok_bind] at failed
            change (resolver.load res >>= _) = _ at failed
            rw [loads] at failed
            cases failed
        | nil =>
            rw [recv_empty there queue] at failed
            split at failed
            · cases failed
            · rw [Except.ok_bind] at failed
              dsimp only at failed
              rw [close_open there] at failed
              cases failed
      · cases failed
  | lookUp i answer =>
      change resolver.lookUp i answer = _ at failed
      unfold lookUp at failed
      split at failed
      · rename_i fd res worker
        obtain ⟨resolution, loads, _, _⟩ := kept.load_eq (.took i)
          (by rw [Holds, worker]; rfl)
        rw [loads] at failed
        cases failed
      · cases failed
  | reply i =>
      change resolver.reply i = _ at failed
      unfold reply at failed
      split at failed
      · rename_i fd res returnFd worker
        obtain ⟨resolution, loads, reads, _⟩ := kept.load_eq (.answered i)
          (by rw [Holds, worker]; rfl)
        obtain ⟨fd1, rfl, there⟩ := linked.answered worker reads
        obtain ⟨other, listens⟩ := linked.reader reads
        rw [loads, Except.ok_bind, send_open there listens] at failed
        cases failed
      · cases failed
  | closeReply i =>
      change resolver.closeReply i = _ at failed
      unfold closeReply at failed
      split at failed
      · rename_i fd returnFd worker
        obtain ⟨fd1, call, rfl, there, _⟩ := linked.replied worker
        rw [close_open there] at failed
        cases failed
      · cases failed

/-! ## The cleanup returns -/

/-- The steps that a thread has left until it takes another request. -/
def Worker.left : Worker α → Nat
  | .receiving _ => 1
  | .took _ _ => 4
  | .answered _ _ _ => 3
  | .replied _ _ => 2
  | .ended => 0

/-- The steps that are left while the main thread waits for the others. -/
def left (resolver : Resolver α Addrs) : Nat :=
  4 * (resolver.messages .requests).length +
    ∑ i ∈ Finset.range resolver.threads, (resolver.workers i).left +
    match resolver.main with
    | .joining i => resolver.threads - i + 1
    | _ => 0

omit [DecidableEq α] in
/-- A thread that goes on has fewer steps left, those that a request it takes brings with it
included. -/
theorem left_goes {i : Nat} {worker : Worker α} (inside : i < resolver.threads)
    (workers : next.workers = Function.update resolver.workers i worker)
    (main : next.main = resolver.main) (threads : next.threads = resolver.threads)
    (fewer : 4 * (next.messages .requests).length + worker.left <
      4 * (resolver.messages .requests).length + (resolver.workers i).left) :
    next.left < resolver.left := by
  have member := Finset.mem_range.mpr inside
  have others : ∑ j ∈ (Finset.range resolver.threads).erase i, (next.workers j).left =
      ∑ j ∈ (Finset.range resolver.threads).erase i, (resolver.workers j).left :=
    Finset.sum_congr rfl fun j there => by
      rw [workers, Function.update_of_ne (Finset.ne_of_mem_erase there)]
  have here : (next.workers i).left = worker.left := by rw [workers, Function.update_self]
  rw [left, left, main, threads, ← Finset.add_sum_erase _ _ member, others, here,
    ← Finset.add_sum_erase _ _ member]
  omega

/-- Every step while the main thread waits is one of those that are left. -/
theorem Sound.shrinks (sound : resolver.Sound lookup) {i : Nat} (joins : resolver.main = .joining i)
    (taken : Resolver.step lookup resolver action next) : next.left < resolver.left := by
  have parts := sound
  obtain ⟨kept, linked, closing, recorded⟩ := parts
  have inside : ∀ {j}, resolver.workers j ≠ .ended → j < resolver.threads := fun {j} works =>
    Nat.lt_of_not_le fun past => works (closing.beyond past)
  cases moves_of_step taken with
  | prepare query main => cases joins.symm.trans main
  | enqueue main => cases joins.symm.trans main
  | receive main => cases joins.symm.trans main
  | finish main => cases joins.symm.trans main
  | cleanup main => cases joins.symm.trans main
  | joined main more =>
      rw [left, left, main]
      simp only
      omega
  | stopped main all =>
      rw [left, left, main]
      simp only
      omega
  | @took j fd res socket rest resolution worker there queue reads =>
      have requests := @linked.worker j fd (by rw [worker]; rfl)
      rw [there, Option.some.injEq, End.mk.injEq] at requests
      obtain ⟨rfl, _⟩ := requests
      refine left_goes (inside (by simp [worker])) rfl rfl rfl ?_
      simp only [reach, goes, Function.update_self, worker, queue, List.length_cons, Worker.left]
      omega
  | @answered j fd res resolution answer worker reads looked =>
      refine left_goes (inside (by simp [worker])) rfl rfl rfl ?_
      simp only [reach, goes, worker, Worker.left]
      omega
  | @replied j fd fd1 res socket returnFd resolution worker reads isOpen there =>
      obtain ⟨fd1', same, there'⟩ := linked.answered worker reads
      rw [isOpen, Option.some.injEq] at same
      rw [← same, there, Option.some.injEq, End.mk.injEq] at there'
      obtain ⟨rfl, _⟩ := there'
      refine left_goes (inside (by simp [worker])) rfl rfl rfl ?_
      simp only [reach, goes, update_result, worker, Worker.left]
      omega
  | @ended j fd socket worker there empty closed =>
      refine left_goes (inside (by simp [worker])) rfl rfl rfl ?_
      simp only [goes, worker, Worker.left]
      omega
  | @closed j fd fd1 returnFd worker isOpen =>
      refine left_goes (inside (by simp [worker])) rfl rfl rfl ?_
      simp only [goes, worker, Worker.left]
      omega

/-- While the main thread waits for a thread, one of the two can take a step. -/
theorem Sound.proceeds (sound : resolver.Sound lookup) (answers : ∀ query, ∃ answer, lookup query answer)
    {i : Nat} (joins : resolver.main = .joining i) :
    ∃ action next, Resolver.step lookup resolver action next := by
  have ⟨kept, linked, closing, recorded⟩ := sound
  obtain ⟨_, shut, _⟩ := closing.joining joins
  by_cases more : i < resolver.threads
  · cases worker : resolver.workers i with
    | ended =>
        refine ⟨.join, { resolver with main := .joining (i + 1) }, trivial, ?_⟩
        change resolver.join = _
        unfold join
        simp only [joins, more, ↓reduceIte, worker]
    | receiving fd =>
        have there := @linked.worker i fd (by rw [worker]; rfl)
        cases queue : resolver.messages .requests with
        | cons res rest =>
            obtain ⟨resolution, loads, _, _⟩ := kept.load_eq .queued
              (show res ∈ resolver.messages _ by rw [queue]; exact List.mem_cons_self)
            have ran : ∃ next, resolver.take i = .ok next := by
              unfold take
              simp only [worker]
              rw [recv_message there queue, Except.ok_bind]
              change ∃ next, (resolver.load res >>= _) = .ok next
              rw [loads]
              exact ⟨_, rfl⟩
            obtain ⟨next, ran⟩ := ran
            exact ⟨.take i, next, trivial, ran⟩
        | nil =>
            have closed : ¬ resolver.isOpen ⟨.requests, .write⟩ = true := fun isOpen => by
              obtain ⟨fd, here⟩ := isOpen_iff.mp isOpen
              exact nomatch shut.symm.trans ((linked.writeFd fd).mpr here)
            have ran : ∃ next, resolver.take i = .ok next := by
              unfold take
              simp only [worker]
              rw [recv_empty there queue, if_neg closed, Except.ok_bind]
              dsimp only
              rw [close_open there]
              exact ⟨_, rfl⟩
            obtain ⟨next, ran⟩ := ran
            exact ⟨.take i, next, trivial, ran⟩
    | took fd res =>
        obtain ⟨resolution, loads, reads, _⟩ := kept.load_eq (.took i) (by rw [Holds, worker]; rfl)
        obtain ⟨answer, looked⟩ := answers resolution.query
        have ran : ∃ next, resolver.lookUp i answer = .ok next := by
          unfold lookUp
          simp only [worker]
          rw [loads]
          exact ⟨_, rfl⟩
        obtain ⟨next, ran⟩ := ran
        refine ⟨.lookUp i answer, next, fun fd' res' same resolution' reads' => ?_, ran⟩
        rw [worker, Worker.took.injEq] at same
        rw [← same.2, reads, Option.some.injEq] at reads'
        rwa [← reads']
    | answered fd res returnFd =>
        obtain ⟨resolution, loads, reads, _⟩ := kept.load_eq (.answered i)
          (by rw [Holds, worker]; rfl)
        obtain ⟨fd1, rfl, there⟩ := linked.answered worker reads
        obtain ⟨other, listens⟩ := linked.reader reads
        have ran : ∃ next, resolver.reply i = .ok next := by
          unfold reply
          simp only [worker]
          rw [loads, Except.ok_bind, send_open there listens]
          exact ⟨_, rfl⟩
        obtain ⟨next, ran⟩ := ran
        exact ⟨.reply i, next, trivial, ran⟩
    | replied fd returnFd =>
        obtain ⟨fd1, call, rfl, there, _⟩ := linked.replied worker
        have ran : ∃ next, resolver.closeReply i = .ok next := by
          unfold closeReply
          simp only [worker]
          rw [close_open there]
          exact ⟨_, rfl⟩
        obtain ⟨next, ran⟩ := ran
        exact ⟨.closeReply i, next, trivial, ran⟩
  · refine ⟨.join, { resolver with main := .idle, started := false }, trivial, ?_⟩
    change resolver.join = _
    unfold join
    simp only [joins, more, ↓reduceIte]

/-! ## Pairs -/

/-- Where a request can be. -/
inductive Place
  | queue
  | worker (i : Nat)
  | result (call : Nat)
  | main

/-- The request is there. -/
def At (resolver : Resolver α Addrs) : Place → α → Prop
  | .queue, res => res ∈ resolver.messages .requests
  | .worker i, res =>
      (resolver.workers i).looking = some res ∨ (resolver.workers i).replying = some res
  | .result call, res => res ∈ resolver.messages (.result call)
  | .main, res => resolver.main.sending = some res ∨ resolver.main.reading = some res

/-- The place of a request whose call has come to a stage. -/
def Stage.place : Stage → Place
  | .queued => .queue
  | .took i => .worker i
  | .answered i => .worker i
  | .replied call => .result call
  | .absent | .filled | .received | .returned => .main

omit [DecidableEq α] in
theorem at_iff {place : Place} :
    resolver.At place res ↔ ∃ stage : Stage, stage.place = place ∧ resolver.Holds stage res := by
  constructor
  · intro here
    cases place with
    | queue => exact ⟨.queued, rfl, here⟩
    | worker i =>
        rcases here with looks | replies
        · exact ⟨.took i, rfl, looks⟩
        · exact ⟨.answered i, rfl, replies⟩
    | result call => exact ⟨.replied call, rfl, here⟩
    | main =>
        rcases here with sends | reads
        · exact ⟨.filled, rfl, sends⟩
        · exact ⟨.received, rfl, reads⟩
  · rintro ⟨stage, rfl, held⟩
    cases stage with
    | absent => exact held.elim
    | filled => exact .inl held
    | queued => exact held
    | took i => exact .inl held
    | answered i => exact .inr held
    | replied call => exact held
    | received => exact .inr held
    | returned => exact held.elim

/-- What is promised of a state. -/
structure Paired (lookup : Query → Answer Addrs → Prop) (resolver : Resolver α Addrs) : Prop where
  /-- A request is in one place, once. -/
  place : ∀ res, resolver.memory res ≠ none →
    ∃ place, resolver.At place res ∧ ∀ other, resolver.At other res → other = place
  distinct : ∀ socket, (resolver.messages socket).Nodup
  /-- What is anywhere is a request, and what is in the socket of a call is the one of this call. -/
  request : ∀ place res, resolver.At place res → ∃ resolution,
    resolver.memory res = some resolution ∧
      resolver.history.queries[resolution.call]? = some resolution.query ∧
        ∀ call, place = .result call → resolution.call = call
  /-- What is read from the descriptor that a call returned is the request of this call, with an
  answer to its query. -/
  read : ∀ fd res, resolver.main = .received fd res → ∃ resolution answer,
    resolver.memory res = some resolution ∧
      resolver.fds.get fd = some ⟨.result resolution.call, .read⟩ ∧
      resolver.history.queries[resolution.call]? = some resolution.query ∧
      resolution.answer = some answer ∧ lookup resolution.query answer ∧
      (resolution.call, answer) ∈ resolver.history.lookups
  returned : ∀ call answer, (call, answer) ∈ resolver.history.returned →
    (call, answer) ∈ resolver.history.lookups ∧
      ∃ query, resolver.history.queries[call]? = some query ∧ lookup query answer
  /-- A request is looked up, answered, and returned at most once. -/
  once : (resolver.history.lookups.map Prod.fst).Nodup ∧ resolver.history.replies.Nodup ∧
    (resolver.history.returned.map Prod.fst).Nodup
  /-- When `asyncaddrinfo_cleanup` has returned, all threads have ended, and every request that was
  sent has been answered. -/
  cleaned : resolver.started = false → (∀ i, resolver.workers i = .ended) ∧
    ∀ call ∈ resolver.history.enqueued, call ∈ resolver.history.replies

omit [DecidableEq α] in
theorem Sound.paired (sound : resolver.Sound lookup) : resolver.Paired lookup := by
  have parts := sound
  obtain ⟨kept, linked, closing, recorded⟩ := parts
  refine ⟨fun res used => ?_, kept.distinct, fun place res here => ?_, fun fd res main => ?_,
    fun call answer member => ⟨recorded.result member, recorded.looked (recorded.result member)⟩,
    ⟨recorded.lookups.once, recorded.replies.once, recorded.returned.once⟩, fun stop => ?_⟩
  · obtain ⟨resolution, reads⟩ := Option.ne_none_iff_exists'.mp used
    refine ⟨(resolver.history.stage resolution.call).place,
      at_iff.mpr ⟨_, rfl, (kept.holds_of reads _).mpr rfl⟩, fun other here => ?_⟩
    obtain ⟨stage, rfl, held⟩ := at_iff.mp here
    rw [(kept.holds_of reads stage).mp held]
  · obtain ⟨stage, rfl, held⟩ := at_iff.mp here
    obtain ⟨resolution, reads, same⟩ := (kept.holds stage res).mp held
    refine ⟨resolution, reads, recorded.queries reads, fun call result => ?_⟩
    cases stage with
    | replied call' =>
        cases result
        exact (kept.own same).symm
    | absent => cases result
    | filled => cases result
    | queued => cases result
    | took i => cases result
    | answered i => cases result
    | received => cases result
    | returned => cases result
  · obtain ⟨resolution, reads, stage⟩ := (kept.holds .received res).mp (by rw [Holds, main]; rfl)
    obtain ⟨answer, written, member⟩ := recorded.answered reads (by rw [stage]; decide)
    obtain ⟨query, asked, looked⟩ := recorded.looked member
    have same := recorded.queries reads
    rw [asked, Option.some.injEq] at same
    exact ⟨resolution, answer, reads, linked.reading main reads, recorded.queries reads, written,
      same ▸ looked, member⟩
  · obtain ⟨shut, all⟩ := closing.stopped stop
    refine ⟨all, fun call member => (recorded.replies.mem call).mpr ?_⟩
    have sent := (recorded.enqueued.mem call).mp member
    have empty : resolver.messages .requests = [] := by
      rcases Nat.eq_zero_or_pos resolver.threads with none | some
      · exact closing.silent none
      · exact (closing.ended some (all 0)).2
    have held : ∀ {stage}, resolver.history.stage call = stage → stage ≠ .absent →
        stage ≠ .returned → ∃ res, resolver.Holds stage res := by
      rintro _ rfl present left
      obtain ⟨res, resolution, reads, rfl⟩ := kept.requested call present left
      exact ⟨res, (kept.holds_of reads _).mpr rfl⟩
    cases stage : resolver.history.stage call with
    | absent => exact absurd sent (by rw [stage]; decide)
    | filled => exact absurd sent (by rw [stage]; decide)
    | queued =>
        obtain ⟨res, here⟩ := held stage (by simp) (by simp)
        rw [Holds, empty] at here
        cases here
    | took i =>
        obtain ⟨res, here⟩ := held stage (by simp) (by simp)
        rw [Holds, all i] at here
        cases here
    | answered i =>
        obtain ⟨res, here⟩ := held stage (by simp) (by simp)
        rw [Holds, all i] at here
        cases here
    | replied call' => exact Nat.le_refl 5
    | received => exact Nat.le_succ 5
    | returned => exact Nat.le_add_right 5 2

/-- **Pairing.** In every state that the threads can reach, whatever their number and the order of
their steps, requests and answers are paired; no assertion fails unless a request is sent that no
thread listens for; and once `asyncaddrinfo_cleanup` waits, it returns after no more steps than are
left, if `getaddrinfo` always does. -/
theorem requests_paired {fd fd1 : Nat} {subfds : List Nat} (distinct : (fd :: fd1 :: subfds).Nodup)
    {trace : List (Resolver α Addrs × Action α Addrs)}
    (run : Run (Resolver.step lookup) (asyncaddrinfoInit fd fd1 subfds) trace resolver) :
    resolver.Paired lookup ∧
    (∀ action : Action α Addrs, action.Possible lookup resolver →
      0 < resolver.threads ∨ action ≠ .enqueue → action.run resolver ≠ .error .fails) ∧
    ((∀ query, ∃ answer, lookup query answer) → ∀ i, resolver.main = .joining i →
      (∃ action next, Resolver.step lookup resolver action next) ∧
        ∀ action next, Resolver.step lookup resolver action next → next.left < resolver.left) := by
  have sound := sound_of_run distinct run
  exact ⟨sound.paired, fun action possible heard => sound.not_fails heard possible,
    fun answers i joins => ⟨sound.proceeds answers joins, fun action next taken =>
      sound.shrinks joins taken⟩⟩

/-! ## A run to the end -/

/-- The end that a call returned. -/
def End.isResult : End → Bool
  | ⟨.result _, .read⟩ => true
  | _ => false

theorem any_isResult {found : Option End} :
    found.any End.isResult = true ↔ ∃ call, found = some ⟨.result call, .read⟩ := by
  constructor
  · intro any
    rcases found with _ | ⟨_ | call, _ | _⟩
    · cases any
    · cases any
    · cases any
    · exact ⟨call, rfl⟩
    · cases any
  · rintro ⟨call, rfl⟩
    rfl

/-- The query that a worker looks up. -/
def looked (resolver : Resolver α Addrs) (i : Nat) : Option Query :=
  (resolver.workers i).looking.bind fun res => (resolver.memory res).map Resolution.query

omit [DecidableEq α] in
theorem forall_looked {answer : Answer Addrs} {i : Nat} :
    (∀ query ∈ resolver.looked i, lookup query answer) ↔
      ∀ fd res, resolver.workers i = .took fd res →
        ∀ resolution, resolver.memory res = some resolution → lookup resolution.query answer := by
  constructor
  · intro all fd res took resolution reads
    refine all _ ?_
    rw [looked, took, Worker.looking, Option.bind_some, reads]
    rfl
  · intro all query here
    obtain ⟨res, looking, reads⟩ := Option.bind_eq_some_iff.mp here
    obtain ⟨resolution, there, rfl⟩ := Option.map_eq_some_iff.mp reads
    cases at' : resolver.workers i with
    | took fd res' =>
        rw [at'] at looking
        cases looking
        exact all fd res at' resolution there
    | receiving | answered | replied | ended =>
        rw [at'] at looking
        cases looking

/-- Whether a step is possible. -/
instance [∀ query answer, Decidable (lookup query answer)] (resolver : Resolver α Addrs)
    (action : Action α Addrs) : Decidable (action.Possible lookup resolver) :=
  match action with
  | .prepare _ fd fd1 res => inferInstanceAs (Decidable (_ = _ ∧ resolver.fds.get fd = none ∧
      resolver.fds.get fd1 = none ∧ _ ≠ _ ∧ resolver.memory res = none))
  | .receive fd => decidable_of_iff ((resolver.fds.get fd).any End.isResult = true) any_isResult
  | .cleanup => inferInstanceAs (Decidable (resolver.started = true))
  | .lookUp i answer =>
      decidable_of_iff (∀ query ∈ resolver.looked i, lookup query answer) forall_looked
  | .enqueue | .finish | .join | .take _ | .reply _ | .closeReply _ => .isTrue trivial

/-- The state behind a step, if it is possible. -/
def advance (lookup : Query → Answer Addrs → Prop) [∀ query answer, Decidable (lookup query answer)]
    (resolver : Resolver α Addrs) (action : Action α Addrs) : Option (Resolver α Addrs) :=
  if action.Possible lookup resolver then (action.run resolver).toOption else none

theorem step_of_advance [∀ query answer, Decidable (lookup query answer)]
    (taken : resolver.advance lookup action = some next) :
    Resolver.step lookup resolver action next := by
  rw [advance] at taken
  split_ifs at taken with possible
  refine ⟨possible, ?_⟩
  cases ran : action.run resolver with
  | error stop => rw [ran] at taken; cases taken
  | ok after => rw [ran] at taken; cases taken; rfl

/-- The thread that `asyncaddrinfo_cleanup` waits for. -/
def Main.joins : Main α → Option Nat
  | .joining i => some i
  | _ => none

/-- `getaddrinfo` leaves the name of the node. -/
def named (query : Query) (answer : Answer (Option Bytes)) : Prop :=
  answer = ⟨0, query.node⟩

instance (query : Query) (answer : Answer (Option Bytes)) : Decidable (named query answer) :=
  inferInstanceAs (Decidable (_ = _))

/-- Two requests for two threads, of which the last is answered and read, and a cleanup. -/
def twoRequests : List (Action Nat (Option Bytes)) :=
  [.prepare (resolveQuery (some (ascii "a")) none 0) 7 8 100, .enqueue,
    .prepare (resolveQuery (some (ascii "b")) none 0) 9 10 101, .enqueue,
    .take 1, .take 0, .lookUp 0 ⟨0, some (ascii "b")⟩, .reply 0, .closeReply 0, .receive 9, .finish,
    .cleanup]

/-- The other one is answered while the cleanup waits, and read behind it. -/
def twoAnswers : List (Action Nat (Option Bytes)) :=
  [.take 0, .join, .lookUp 1 ⟨0, some (ascii "a")⟩, .reply 1, .closeReply 1, .take 1, .join, .join,
    .receive 7]

/-- The run while the cleanup waits, and at its end. -/
theorem requests_paired_two :
    ∃ trace trace', ∃ waiting last : Resolver Nat (Option Bytes),
      Run (Resolver.step named) (asyncaddrinfoInit 3 4 [5, 6]) trace waiting ∧
      waiting.main.joins = some 0 ∧ waiting.history.returned = [(1, ⟨0, some (ascii "b")⟩)] ∧
      (∃ action next, Resolver.step named waiting action next) ∧
      (∀ action next, Resolver.step named waiting action next → next.left < waiting.left) ∧
      Run (Resolver.step named) (asyncaddrinfoInit 3 4 [5, 6]) trace' last ∧
      last.started = false ∧ last.main.reading = some 100 ∧ last.history.replies = [1, 0] ∧
      last.Paired named := by
  obtain ⟨trace, waiting, run, waits⟩ := @Run.of_follow_any _ _ _ (asyncaddrinfoInit 3 4 [5, 6])
    (advance named) step_of_advance twoRequests
    (fun waiting => waiting.main.joins = some 0 ∧
      waiting.history.returned = [(1, ⟨0, some (ascii "b")⟩)]) (by decide +kernel)
  obtain ⟨trace', last, run', ends⟩ := @Run.of_follow_any _ _ _ (asyncaddrinfoInit 3 4 [5, 6])
    (advance named) step_of_advance (twoRequests ++ twoAnswers)
    (fun last => last.started = false ∧ last.main.reading = some 100 ∧
      last.history.replies = [1, 0]) (by decide +kernel)
  obtain ⟨joins, returned⟩ := of_decide_eq_true waits
  obtain ⟨started, reading, replies⟩ := of_decide_eq_true ends
  have main : waiting.main = .joining 0 := by
    cases main : waiting.main with
    | joining i => rw [main] at joins; cases joins; rfl
    | idle | filled | received => rw [main] at joins; cases joins
  have answers : ∀ query, ∃ answer, named query answer := fun query => ⟨_, rfl⟩
  obtain ⟨proceeds, shrinks⟩ := (requests_paired (by decide) run).2.2 answers 0 main
  exact ⟨trace, trace', waiting, last, run, joins, returned, proceeds, shrinks, run', started,
    reading, replies, (requests_paired (by decide) run').1⟩

end Adsbus.Resolver

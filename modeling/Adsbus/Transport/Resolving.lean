import Adsbus.Transport.ResolverSteps

/-! # Who holds a request

The record of a request is with the main thread, in the queue, with one worker, or in the socket of
its call, and nowhere else. The descriptors that it goes through stand for the ends of its own
socket.
-/

namespace Adsbus.Resolver

variable {α Addrs : Type} [DecidableEq α] {lookup : Query → Answer Addrs → Prop}
  {resolver next : Resolver α Addrs} {action : Action α Addrs}

/-! ## Records -/

/-- The request that is looked up. -/
@[grind =] def Worker.looking : Worker α → Option α
  | .took _ res => some res
  | _ => none

/-- The request that is sent back. -/
@[grind =] def Worker.replying : Worker α → Option α
  | .answered _ res _ => some res
  | _ => none

/-- The request that is sent. -/
@[grind =] def Main.sending : Main α → Option α
  | .filled _ res => some res
  | _ => none

/-- The request that was received. -/
@[grind =] def Main.reading : Main α → Option α
  | .received _ res => some res
  | _ => none

/-- Where an address is held while its call is at a stage. -/
def Holds (resolver : Resolver α Addrs) : Stage → α → Prop
  | .filled, res => resolver.main.sending = some res
  | .queued, res => res ∈ resolver.messages .requests
  | .took i, res => (resolver.workers i).looking = some res
  | .answered i, res => (resolver.workers i).replying = some res
  | .replied call, res => res ∈ resolver.messages (.result call)
  | .received, res => resolver.main.reading = some res
  | .absent, _ => False
  | .returned, _ => False

/-- An address is held at the stage of its call, and there only. -/
structure Kept (resolver : Resolver α Addrs) : Prop where
  holds : ∀ stage res, resolver.Holds stage res ↔ ∃ resolution,
    resolver.memory res = some resolution ∧ resolver.history.stage resolution.call = stage
  single : ∀ {res res' resolution resolution'}, resolver.memory res = some resolution →
    resolver.memory res' = some resolution' → resolution.call = resolution'.call → res = res'
  distinct : ∀ socket, (resolver.messages socket).Nodup
  own : ∀ {call call'}, resolver.history.stage call = .replied call' → call' = call
  absent : ∀ call, resolver.history.queries.length ≤ call → resolver.history.stage call = .absent
  requested : ∀ call, resolver.history.stage call ≠ .absent →
    resolver.history.stage call ≠ .returned → ∃ res resolution,
      resolver.memory res = some resolution ∧ resolution.call = call

/-- An address comes to a stage, and the others stay where they are. -/
structure Comes (resolver next : Resolver α Addrs) (res : α) (call : Nat) (stage : Stage) :
    Prop where
  calls : ∀ other, (next.memory other).map Resolution.call = (resolver.memory other).map Resolution.call
  stages : next.history.stage = Function.update resolver.history.stage call stage
  holds : ∀ other res', next.Holds other res' ↔
    res' = res ∧ other = stage ∨ res' ≠ res ∧ resolver.Holds other res'

omit [DecidableEq α] in
theorem Kept.holds_of (kept : resolver.Kept) {res : α} {resolution : Resolution Addrs}
    (reads : resolver.memory res = some resolution) (stage : Stage) :
    resolver.Holds stage res ↔ stage = resolver.history.stage resolution.call := by
  rw [kept.holds, reads]
  constructor
  · rintro ⟨_, same, rfl⟩
    rw [Option.some.inj same]
  · exact fun same => ⟨resolution, rfl, same.symm⟩

omit [DecidableEq α] in
theorem Kept.comes (kept : resolver.Kept) {res : α} {resolution : Resolution Addrs}
    (reads : resolver.memory res = some resolution) {stage : Stage}
    (comes : Comes resolver next res resolution.call stage) (other : Stage) (res' : α) :
    next.Holds other res' ↔ ∃ resolution', next.memory res' = some resolution' ∧
      next.history.stage resolution'.call = other := by
  have calls := comes.calls res'
  rw [comes.holds, comes.stages]
  by_cases same : res' = res
  · subst same
    rw [reads, Option.map_some] at calls
    obtain ⟨resolution', reads', call⟩ := Option.map_eq_some_iff.mp calls
    rw [reads']
    constructor
    · rintro (⟨_, rfl⟩ | ⟨ne, _⟩)
      · exact ⟨resolution', rfl, by rw [call, Function.update_self]⟩
      · exact absurd rfl ne
    · rintro ⟨_, same, rfl⟩
      rw [← Option.some.inj same, call, Function.update_self]
      exact .inl ⟨rfl, rfl⟩
  · have old : ∀ {resolution'}, resolver.memory res' = some resolution' →
        resolution'.call ≠ resolution.call := fun reads' call =>
      same (kept.single reads' reads call)
    rw [kept.holds]
    constructor
    · rintro (⟨here, _⟩ | ⟨_, resolution', reads', rfl⟩)
      · exact absurd here same
      · rw [reads', Option.map_some] at calls
        obtain ⟨resolution'', reads'', call⟩ := Option.map_eq_some_iff.mp calls
        exact ⟨resolution'', reads'', by rw [call, Function.update_of_ne (old reads')]⟩
    · rintro ⟨resolution'', reads'', rfl⟩
      rw [reads'', Option.map_some] at calls
      obtain ⟨resolution', reads', call⟩ := Option.map_eq_some_iff.mp calls.symm
      exact .inr ⟨same, resolution', reads', by rw [← call, Function.update_of_ne (old reads')]⟩

/-- How many of the steps of a call are done. -/
@[grind =] def Stage.rank : Stage → Nat
  | .absent => 0
  | .filled => 1
  | .queued => 2
  | .took _ => 3
  | .answered _ => 4
  | .replied _ => 5
  | .received => 6
  | .returned => 7

/-- The descriptor of a thread for the requests. -/
@[grind =] def Worker.fd : Worker α → Option Nat
  | .receiving fd => some fd
  | .took fd _ => some fd
  | .answered fd _ _ => some fd
  | .replied fd _ => some fd
  | .ended => none

/-- Each descriptor that is kept stands for the end that it is used for, and nobody else closes it. -/
structure Linked (resolver : Resolver α Addrs) : Prop where
  writeFd : ∀ fd, resolver.writeFd = some fd ↔ resolver.fds.get fd = some ⟨.requests, .write⟩
  worker : ∀ {i fd}, (resolver.workers i).fd = some fd →
    resolver.fds.get fd = some ⟨.requests, .read⟩
  alone : ∀ {i j fd}, (resolver.workers i).fd = some fd → (resolver.workers j).fd = some fd → i = j
  returnFd : ∀ {res resolution}, resolver.memory res = some resolution →
    (resolver.history.stage resolution.call).rank ≤ 3 → ∃ fd1, resolution.returnFd = some fd1 ∧
      resolver.fds.get fd1 = some ⟨.result resolution.call, .write⟩
  answered : ∀ {i fd res returnFd resolution}, resolver.workers i = .answered fd res returnFd →
    resolver.memory res = some resolution → ∃ fd1, returnFd = some fd1 ∧
      resolver.fds.get fd1 = some ⟨.result resolution.call, .write⟩
  replied : ∀ {i fd returnFd}, resolver.workers i = .replied fd returnFd → ∃ fd1 call,
    returnFd = some fd1 ∧ resolver.fds.get fd1 = some ⟨.result call, .write⟩ ∧
      5 ≤ (resolver.history.stage call).rank
  repliedAlone : ∀ {i j fd fd' fd1}, resolver.workers i = .replied fd fd1 →
    resolver.workers j = .replied fd' fd1 → i = j
  reader : ∀ {res resolution}, resolver.memory res = some resolution →
    ∃ fd, resolver.fds.get fd = some ⟨.result resolution.call, .read⟩
  sending : ∀ {fd res resolution}, resolver.main = .filled fd res →
    resolver.memory res = some resolution →
      resolver.fds.get fd = some ⟨.result resolution.call, .read⟩
  reading : ∀ {fd res resolution}, resolver.main = .received fd res →
    resolver.memory res = some resolution →
      resolver.fds.get fd = some ⟨.result resolution.call, .read⟩
  readerAlone : ∀ {fd fd' call}, resolver.fds.get fd = some ⟨.result call, .read⟩ →
    resolver.fds.get fd' = some ⟨.result call, .read⟩ → fd = fd'
  live : ∀ {fd call}, resolver.fds.get fd = some ⟨.result call, .read⟩ →
    (resolver.history.stage call).rank ≠ 0 ∧ (resolver.history.stage call).rank ≠ 7
  listener : ∀ {fd}, resolver.fds.get fd = some ⟨.requests, .read⟩ →
    ∃ i, (resolver.workers i).fd = some fd

variable {res : α} {resolution : Resolution Addrs} {stage : Stage}

omit [DecidableEq α] in
/-- An address that comes to a stage of its own call. -/
theorem Kept.move (kept : resolver.Kept) (reads : resolver.memory res = some resolution)
    (comes : Comes resolver next res resolution.call stage)
    (own : ∀ call, stage = .replied call → call = resolution.call)
    (distinct : ∀ socket, (next.messages socket).Nodup)
    (queries : next.history.queries = resolver.history.queries) : next.Kept where
  holds := kept.comes reads comes
  single := by
    intro res₁ res₂ resolution₁ resolution₂ reads₁ reads₂ same
    have calls₁ := comes.calls res₁
    have calls₂ := comes.calls res₂
    rw [reads₁, Option.map_some] at calls₁
    rw [reads₂, Option.map_some] at calls₂
    obtain ⟨old₁, was₁, call₁⟩ := Option.map_eq_some_iff.mp calls₁.symm
    obtain ⟨old₂, was₂, call₂⟩ := Option.map_eq_some_iff.mp calls₂.symm
    exact kept.single was₁ was₂ (by rw [call₁, call₂, same])
  distinct := distinct
  own := by
    intro call call' here
    rw [comes.stages] at here
    by_cases same : call = resolution.call
    · subst same
      rw [Function.update_self] at here
      exact own call' here
    · rw [Function.update_of_ne same] at here
      exact kept.own here
  absent := by
    intro call past
    rw [queries] at past
    rw [comes.stages, Function.update_of_ne]
    · exact kept.absent call past
    · rintro rfl
      exact (kept.holds .absent res).mpr ⟨resolution, reads, kept.absent _ past⟩
  requested := by
    intro call present left
    rw [comes.stages] at present left
    have was : ∃ res resolution, resolver.memory res = some resolution ∧ resolution.call = call := by
      by_cases same : call = resolution.call
      · exact ⟨res, resolution, reads, same.symm⟩
      · rw [Function.update_of_ne same] at present left
        exact kept.requested call present left
    obtain ⟨res', resolution', reads', call'⟩ := was
    have calls := comes.calls res'
    rw [reads', Option.map_some] at calls
    obtain ⟨resolution'', reads'', same⟩ := Option.map_eq_some_iff.mp calls
    exact ⟨res', resolution'', reads'', same.trans call'⟩

omit [DecidableEq α] in
/-- Nothing is held elsewhere. -/
theorem Kept.congr (kept : resolver.Kept) (memory : next.memory = resolver.memory)
    (messages : next.messages = resolver.messages) (history : next.history = resolver.history)
    (sending : next.main.sending = resolver.main.sending)
    (reading : next.main.reading = resolver.main.reading)
    (looking : ∀ i, (next.workers i).looking = (resolver.workers i).looking)
    (replying : ∀ i, (next.workers i).replying = (resolver.workers i).replying) : next.Kept where
  holds stage res := by
    rw [memory, history, ← kept.holds]
    cases stage <;> simp only [Holds, messages, sending, reading, looking, replying]
  single := by
    rw [memory]
    exact kept.single
  distinct := by
    rw [messages]
    exact kept.distinct
  own := by
    rw [history]
    exact kept.own
  absent := by
    rw [history]
    exact kept.absent
  requested := by
    rw [history, memory]
    exact kept.requested

omit [DecidableEq α] in
theorem Kept.sent (kept : resolver.Kept) {socket : Socket} (fresh : res ∉ resolver.messages socket)
    (other : Socket) : (Function.update resolver.messages socket
      (resolver.messages socket ++ [res]) other).Nodup := by
  by_cases same : other = socket
  · subst same
    rw [Function.update_self]
    exact List.nodup_append.mpr ⟨kept.distinct other, List.nodup_singleton res,
      fun first member second here => by
        rw [List.mem_singleton.mp here]
        exact ne_of_mem_of_not_mem member fresh⟩
  · rw [Function.update_of_ne same]
    exact kept.distinct other

omit [DecidableEq α] in
theorem Kept.received (kept : resolver.Kept) {socket : Socket} {rest : List α}
    (queue : resolver.messages socket = res :: rest) (other : Socket) :
    (Function.update resolver.messages socket rest other).Nodup := by
  by_cases same : other = socket
  · subst same
    rw [Function.update_self]
    have distinct := kept.distinct other
    rw [queue] at distinct
    exact (List.nodup_cons.mp distinct).2
  · rw [Function.update_of_ne same]
    exact kept.distinct other

theorem Kept.step (kept : resolver.Kept) (linked : resolver.Linked)
    (moves : Moves lookup resolver action next) : next.Kept := by
  cases moves with
  | @prepare query fd fd1 res main started unused unused' ne free =>
      have absent := kept.absent _ le_rfl
      have fresh : ∀ {res' resolution'}, resolver.memory res' = some resolution' →
          resolution'.call ≠ resolver.history.queries.length := by
        rintro res' resolution' reads same
        exact (kept.holds .absent res').mpr ⟨resolution', reads, by rw [same, absent]⟩
      refine ⟨fun stage res' => ?_, fun {r r' _ _} reads reads' same => ?_, kept.distinct,
        fun {call call'} here => ?_, fun call past => ?_, fun call present left => ?_⟩
      · have was : ¬ resolver.Holds stage res := fun held => by
          obtain ⟨_, reads, _⟩ := (kept.holds stage res).mp held
          exact nomatch free.symm.trans reads
        refine Iff.trans (b := res' = res ∧ stage = .filled ∨ res' ≠ res ∧ resolver.Holds stage res')
          ?_ ?_
        · cases stage <;> simp only [Holds, reach] at was ⊢ <;> grind
        · by_cases same : res' = res
          · subst same
            simp only [reach, Function.update_self, Option.some.injEq, exists_eq_left', true_and,
              ne_eq, not_true_eq_false, false_and, or_false]
            exact eq_comm
          · simp only [same, false_and, ne_eq, not_false_eq_true, true_and, false_or, kept.holds,
              reach, Function.update_of_ne same]
            refine exists_congr fun resolution => and_congr_right fun reads => ?_
            rw [Function.update_of_ne (fresh reads)]
      · simp only [reach, Function.update_apply] at reads reads'
        grind [kept.single]
      · simp only [reach, Function.update_apply] at here
        grind [kept.own]
      · simp only [reach, List.length_append, List.length_singleton, Function.update_apply] at past ⊢
        rw [if_neg (by omega)]
        exact kept.absent call (by omega)
      · by_cases same : call = resolver.history.queries.length
        · exact ⟨res, _, Function.update_self .., same.symm⟩
        · simp only [reach, Function.update_of_ne same] at present left
          obtain ⟨res', resolution', reads', call'⟩ := kept.requested call present left
          refine ⟨res', resolution', (Function.update_of_ne ?_ _ _).trans reads', call'⟩
          rintro rfl
          exact nomatch free.symm.trans reads'
  | @enqueue fd writeFd res socket resolution main reads isOpen there heard =>
      have was := kept.holds_of reads
      have stage := (was .filled).mp (by rw [Holds, main]; rfl)
      obtain rfl : socket = .requests := by
        have requests := (linked.writeFd writeFd).mp isOpen
        rw [there, Option.some.injEq, End.mk.injEq] at requests
        exact requests.1
      refine kept.move reads ⟨fun _ => rfl, rfl, fun other res' => ?_⟩ nofun (kept.sent ?_) rfl
      · have := was other
        cases other <;> simp only [Holds, reach, Function.update_apply] at this ⊢ <;> grind
      · exact fun member => nomatch stage.trans ((was .queued).mp member).symm
  | @receive fd call res rest resolution main there queue reads =>
      have was := kept.holds_of reads
      have stage := (was (.replied call)).mp (by rw [Holds, queue]; exact List.mem_cons_self)
      refine kept.move reads ⟨fun _ => rfl, rfl, fun other res' => ?_⟩ nofun (kept.received queue) rfl
      have := was other
      have := kept.distinct (.result call)
      cases other <;> simp only [Holds, reach, Function.update_apply] at this ⊢ <;> grind
  | @finish fd res resolution answer main reads written =>
      refine ⟨fun stage res' => ?_, fun {r r' _ _} reads reads' same => ?_, kept.distinct,
        fun {call call'} here => ?_, fun call past => ?_, fun call present left => ?_⟩
      · have was := kept.holds_of reads stage
        have received := (kept.holds_of reads .received).mp (by rw [Holds, main]; rfl)
        refine Iff.trans (b := res' ≠ res ∧ resolver.Holds stage res') ?_ ?_
        · cases stage <;> simp only [Holds, reach] at was ⊢ <;> grind
        · by_cases same : res' = res
          · subst same
            simp only [reach, Function.update_self, reduceCtorEq, false_and, exists_false, ne_eq,
              not_true_eq_false]
          · simp only [same, ne_eq, not_false_eq_true, true_and, kept.holds, reach,
              Function.update_of_ne same]
            refine exists_congr fun resolution' => and_congr_right fun reads' => ?_
            rw [Function.update_of_ne fun call => same (kept.single reads' reads call)]
      · simp only [reach, Function.update_apply] at reads reads'
        grind [kept.single]
      · simp only [reach, Function.update_apply] at here
        grind [kept.own]
      · simp only [reach, Function.update_apply] at past ⊢
        split
        · rename_i same
          subst same
          exact ((kept.holds .absent res).mpr ⟨resolution, reads, kept.absent _ past⟩).elim
        · exact kept.absent call past
      · by_cases same : call = resolution.call
        · subst same
          exact absurd (Function.update_self ..) left
        · simp only [reach, Function.update_of_ne same] at present left
          obtain ⟨res', resolution', reads', call'⟩ := kept.requested call present left
          refine ⟨res', resolution', (Function.update_of_ne ?_ _ _).trans reads', call'⟩
          rintro rfl
          rw [reads, Option.some.injEq] at reads'
          exact same (by rw [← call', reads'])
  | cleanup main => 
      refine kept.congr rfl rfl rfl ?_ ?_ (fun _ => rfl) fun _ => rfl
      · rw [main]
        rfl
      · rw [main]
        rfl
  | joined main => 
      refine kept.congr rfl rfl rfl ?_ ?_ (fun _ => rfl) fun _ => rfl
      · rw [main]
        rfl
      · rw [main]
        rfl
  | stopped main => 
      refine kept.congr rfl rfl rfl ?_ ?_ (fun _ => rfl) fun _ => rfl
      · rw [main]
        rfl
      · rw [main]
        rfl
  | @took i fd res socket rest resolution worker there queue reads =>
      have was := kept.holds_of reads
      obtain rfl : socket = .requests := by
        have requests := @linked.worker i fd (by rw [worker]; rfl)
        rw [there, Option.some.injEq, End.mk.injEq] at requests
        exact requests.1
      have stage := (was .queued).mp (by rw [Holds, queue]; exact List.mem_cons_self)
      refine kept.move reads ⟨fun _ => rfl, rfl, fun other res' => ?_⟩ nofun (kept.received queue) rfl
      have := was other
      have := kept.distinct .requests
      cases other <;> simp only [Holds, reach, goes, Function.update_apply] at this ⊢ <;> grind
  | @answered i fd res resolution answer worker reads looked =>
      have was := kept.holds_of reads
      have stage := (was (.took i)).mp (by rw [Holds, worker]; rfl)
      refine kept.move reads ⟨fun other => ?_, rfl, fun other res' => ?_⟩ nofun kept.distinct rfl
      · simp only [goes, reach, Function.update_apply]
        grind
      · have := was other
        cases other <;> simp only [Holds, reach, goes, Function.update_apply] at this ⊢ <;> grind
  | @replied i fd fd1 res socket returnFd resolution worker reads isOpen there =>
      have was := kept.holds_of reads
      obtain rfl : socket = .result resolution.call := by
        obtain ⟨fd1', same, there'⟩ := linked.answered worker reads
        rw [isOpen, Option.some.injEq] at same
        rw [← same, there, Option.some.injEq, End.mk.injEq] at there'
        exact there'.1
      have stage := (was (.answered i)).mp (by rw [Holds, worker]; rfl)
      refine kept.move reads ⟨fun _ => rfl, rfl, fun other res' => ?_⟩
        (fun call same => (Stage.replied.inj same).symm) (kept.sent ?_) rfl
      · have := was other
        cases other <;> simp only [Holds, reach, goes, Function.update_apply] at this ⊢ <;> grind
      · exact fun member => nomatch stage.trans ((was (.replied resolution.call)).mp member).symm
  | @ended i fd socket worker there empty closed =>
      refine kept.congr rfl rfl rfl rfl rfl (fun other => ?_) fun other => ?_
      · simp only [goes, Function.update_apply]
        grind
      · simp only [goes, Function.update_apply]
        grind
  | @closed i fd fd1 returnFd worker isOpen =>
      refine kept.congr rfl rfl rfl rfl rfl (fun other => ?_) fun other => ?_
      · simp only [goes, Function.update_apply]
        grind
      · simp only [goes, Function.update_apply]
        grind

omit [DecidableEq α] in
/-- Memory that is not in use is held nowhere. -/
theorem Kept.unheld (kept : resolver.Kept) (free : resolver.memory res = none) (stage : Stage) :
    ¬ resolver.Holds stage res := fun held => by
  obtain ⟨_, reads, _⟩ := (kept.holds stage res).mp held
  exact nomatch free.symm.trans reads

omit [DecidableEq α] in
/-- No call that has a request is absent. -/
theorem Kept.present (kept : resolver.Kept) (reads : resolver.memory res = some resolution) :
    resolution.call ≠ resolver.history.queries.length := fun same =>
  (kept.holds .absent res).mpr ⟨resolution, reads, by rw [same, kept.absent _ le_rfl]⟩

omit [DecidableEq α] in
theorem Kept.replying (kept : resolver.Kept) {i fd : Nat} {returnFd : Option Nat}
    (worker : resolver.workers i = .answered fd res returnFd)
    (reads : resolver.memory res = some resolution) :
    resolver.history.stage resolution.call = .answered i :=
  ((kept.holds_of reads (.answered i)).mp (by rw [Holds, worker]; rfl)).symm

/-! ## Descriptors of each step -/

theorem Linked.prepare (linked : resolver.Linked) (kept : resolver.Kept) {query : Query} {fd fd1 : Nat}
    (moves : Moves lookup resolver (.prepare query fd fd1 res) next) : next.Linked := by
  have ⟨writeFd, worker, alone, returnFd, answered, replied, repliedAlone, reader, sending,
    reading, readerAlone, live, listener⟩ := linked
  have single := @kept.single
  cases moves with
  | @prepare query fd fd1 res main started unused unused' ne free =>
      have fresh := @kept.present
      have absent := kept.absent _ le_rfl
      have unheld := fun i => kept.unheld free (.answered i)
      refine ⟨?_, ?_, alone, ?_, ?_, ?_, repliedAlone, ?_, ?_, ?_, ?_, ?_, ?_⟩
      all_goals simp only [reach, Function.update_apply, Table.get_put, Holds] at unheld ⊢
      all_goals grind

theorem Linked.enqueue (linked : resolver.Linked) (kept : resolver.Kept) 
    (moves : Moves lookup resolver (.enqueue) next) : next.Linked := by
  have ⟨writeFd, worker, alone, returnFd, answered, replied, repliedAlone, reader, sending,
    reading, readerAlone, live, listener⟩ := linked
  have single := @kept.single
  cases moves with
  | @enqueue fd writeFd' res socket resolution main reads isOpen there heard =>
      have stage := (kept.holds_of reads .filled).mp (by rw [Holds, main]; rfl)
      refine ⟨writeFd, worker, alone, ?_, answered, ?_, repliedAlone, reader, nofun, nofun, readerAlone,
        ?_, listener⟩
      all_goals simp only [reach, Function.update_apply]
      all_goals grind

theorem Linked.receive (linked : resolver.Linked) (kept : resolver.Kept) {fd : Nat}
    (moves : Moves lookup resolver (.receive fd) next) : next.Linked := by
  have ⟨writeFd, worker, alone, returnFd, answered, replied, repliedAlone, reader, sending,
    reading, readerAlone, live, listener⟩ := linked
  have single := @kept.single
  cases moves with
  | @receive fd call res rest resolution main there queue reads =>
      have stage := (kept.holds_of reads (.replied call)).mp
        (by rw [Holds, queue]; exact List.mem_cons_self)
      have own := kept.own stage.symm
      refine ⟨writeFd, worker, alone, ?_, answered, ?_, repliedAlone, reader, nofun, ?_,
        readerAlone, ?_, listener⟩
      all_goals simp only [reach, Function.update_apply]
      all_goals grind

theorem Linked.finish (linked : resolver.Linked) (kept : resolver.Kept) 
    (moves : Moves lookup resolver (.finish) next) : next.Linked := by
  have ⟨writeFd, worker, alone, returnFd, answered, replied, repliedAlone, reader, sending,
    reading, readerAlone, live, listener⟩ := linked
  have single := @kept.single
  cases moves with
  | @finish fd res resolution answer main reads written =>
      have stage := (kept.holds_of reads .received).mp (by rw [Holds, main]; rfl)
      have here := reading main reads
      refine ⟨?_, ?_, alone, ?_, ?_, ?_, repliedAlone, ?_, nofun, nofun, ?_, ?_, ?_⟩
      all_goals simp only [reach, Function.update_apply, Table.get_remove]
      all_goals grind

theorem Linked.cleanup (linked : resolver.Linked) (kept : resolver.Kept) 
    (moves : Moves lookup resolver (.cleanup) next) : next.Linked := by
  have ⟨writeFd, worker, alone, returnFd, answered, replied, repliedAlone, reader, sending,
    reading, readerAlone, live, listener⟩ := linked
  have single := @kept.single
  cases moves with
  | @cleanup fd main started isOpen =>
      have here := (writeFd fd).mp isOpen
      refine ⟨?_, ?_, alone, ?_, ?_, ?_, repliedAlone, ?_, nofun, nofun, ?_, ?_, ?_⟩
      all_goals simp only [Table.get_remove]
      all_goals grind

theorem Linked.join (linked : resolver.Linked) (kept : resolver.Kept) 
    (moves : Moves lookup resolver (.join) next) : next.Linked := by
  have ⟨writeFd, worker, alone, returnFd, answered, replied, repliedAlone, reader, sending,
    reading, readerAlone, live, listener⟩ := linked
  have single := @kept.single
  cases moves with
  | joined main =>
      exact ⟨writeFd, worker, alone, returnFd, answered, replied, repliedAlone, reader, nofun, nofun,
        readerAlone, live, listener⟩
  | stopped main =>
      exact ⟨writeFd, worker, alone, returnFd, answered, replied, repliedAlone, reader, nofun, nofun,
        readerAlone, live, listener⟩

theorem Linked.take (linked : resolver.Linked) (kept : resolver.Kept) {i : Nat}
    (moves : Moves lookup resolver (.take i) next) : next.Linked := by
  have ⟨writeFd, worker, alone, returnFd, answered, replied, repliedAlone, reader, sending,
    reading, readerAlone, live, listener⟩ := linked
  have single := @kept.single
  cases moves with
  | @took i fd res socket rest resolution at' there queue reads =>
      have stage := (kept.holds_of reads .queued).mp (by
        have requests := @worker i fd (by rw [at']; rfl)
        rw [there, Option.some.injEq, End.mk.injEq] at requests
        rw [Holds, ← requests.1, queue]
        exact List.mem_cons_self)
      refine ⟨writeFd, ?_, ?_, ?_, ?_, ?_, ?_, reader, sending, reading,
        readerAlone, ?_, ?_⟩
      all_goals simp only [reach, goes, Function.update_apply]
      all_goals grind
  | @ended i fd socket at' there empty closed =>
      have here := @worker i fd (by rw [at']; rfl)
      refine ⟨?_, ?_, ?_, ?_, ?_, ?_, ?_, ?_, ?_, ?_, ?_, ?_, ?_⟩
      all_goals simp only [goes, Function.update_apply, Table.get_remove]
      all_goals grind

theorem Linked.lookUp (linked : resolver.Linked) (kept : resolver.Kept) {i : Nat} {answer : Answer Addrs}
    (moves : Moves lookup resolver (.lookUp i answer) next) : next.Linked := by
  have ⟨writeFd, worker, alone, returnFd, answered, replied, repliedAlone, reader, sending,
    reading, readerAlone, live, listener⟩ := linked
  have single := @kept.single
  cases moves with
  | @answered i fd res resolution answer at' reads looked =>
      have stage := (kept.holds_of reads (.took i)).mp (by rw [Holds, at']; rfl)
      have here := returnFd reads (by rw [← stage]; rfl)
      refine ⟨writeFd, ?_, ?_, ?_, ?_, ?_, ?_, ?_, ?_, ?_, readerAlone, ?_, ?_⟩
      all_goals simp only [reach, goes, Function.update_apply]
      all_goals grind

theorem Linked.reply (linked : resolver.Linked) (kept : resolver.Kept) {i : Nat}
    (moves : Moves lookup resolver (.reply i) next) : next.Linked := by
  have ⟨writeFd, worker, alone, returnFd, answered, replied, repliedAlone, reader, sending,
    reading, readerAlone, live, listener⟩ := linked
  have single := @kept.single
  cases moves with
  | @replied i fd fd1 res socket returnFd' resolution at' reads isOpen there =>
      have stage := kept.replying at' reads
      have here := answered at' reads
      refine ⟨writeFd, ?_, ?_, ?_, ?_, ?_, ?_, reader, sending, reading,
        readerAlone, ?_, ?_⟩
      all_goals simp only [reach, goes, Function.update_apply]
      all_goals grind

theorem Linked.closeReply (linked : resolver.Linked) (kept : resolver.Kept) {i : Nat}
    (moves : Moves lookup resolver (.closeReply i) next) : next.Linked := by
  have ⟨writeFd, worker, alone, returnFd, answered, replied, repliedAlone, reader, sending,
    reading, readerAlone, live, listener⟩ := linked
  have single := @kept.single
  cases moves with
  | @closed i fd fd1 returnFd' at' isOpen =>
      have here := replied at'
      have replying := @kept.replying
      refine ⟨?_, ?_, ?_, ?_, ?_, ?_, ?_, ?_, ?_, ?_, ?_, ?_, ?_⟩
      all_goals simp only [goes, Function.update_apply, Table.get_remove]
      all_goals grind

/-- **Descriptors.** Every step leaves each of them with the one that uses it. -/
theorem Linked.step (linked : resolver.Linked) (kept : resolver.Kept)
    (moves : Moves lookup resolver action next) : next.Linked := by
  cases action with
  | prepare query fd fd1 res => exact linked.prepare kept moves
  | enqueue => exact linked.enqueue kept moves
  | receive fd => exact linked.receive kept moves
  | finish => exact linked.finish kept moves
  | cleanup => exact linked.cleanup kept moves
  | join => exact linked.join kept moves
  | take i => exact linked.take kept moves
  | lookUp i answer => exact linked.lookUp kept moves
  | reply i => exact linked.reply kept moves
  | closeReply i => exact linked.closeReply kept moves

/-! ## The end -/

/-- A thread ends when nothing is left to take and nobody is left to send, and the main thread waits
for each of them. -/
structure Closing (resolver : Resolver α Addrs) : Prop where
  ended : ∀ {i}, i < resolver.threads → resolver.workers i = .ended →
    resolver.writeFd = none ∧ resolver.messages .requests = []
  beyond : ∀ {i}, resolver.threads ≤ i → resolver.workers i = .ended
  joining : ∀ {i}, resolver.main = .joining i → resolver.started = true ∧
    resolver.writeFd = none ∧ ∀ j < i, resolver.workers j = .ended
  stopped : resolver.started = false → resolver.writeFd = none ∧ ∀ j, resolver.workers j = .ended
  shut : resolver.started = true → resolver.writeFd = none → ∃ i, resolver.main = .joining i
  sending : ∀ {fd res}, resolver.main = .filled fd res → resolver.started = true
  silent : resolver.threads = 0 → resolver.messages .requests = []

omit [DecidableEq α] in
theorem update_result (messages : Socket → List α) (call : Nat) (queue : List α) :
    Function.update messages (.result call) queue .requests = messages .requests :=
  Function.update_of_ne (nofun : Socket.requests ≠ .result call) _ _

omit [DecidableEq α] in
/-- A thread that works goes on. -/
theorem Closing.works (closing : resolver.Closing) {i : Nat} {worker : Worker α}
    (going : resolver.workers i ≠ .ended) (goes : worker ≠ .ended)
    (workers : next.workers = Function.update resolver.workers i worker)
    (main : next.main = resolver.main) (writeFd : next.writeFd = resolver.writeFd)
    (started : next.started = resolver.started) (threads : next.threads = resolver.threads)
    (messages : resolver.messages .requests = [] → next.messages .requests = []) :
    next.Closing := by
  have ⟨ended, beyond, joining, stopped, shut, sending, silent⟩ := closing
  have same : ∀ j, next.workers j = .ended ↔ resolver.workers j = .ended := by
    intro j
    rw [workers, Function.update_apply]
    split
    · rename_i here
      subst here
      exact iff_of_false goes going
    · rfl
  refine ⟨fun inside isEnded => ?_, fun past => ?_, fun joins => ?_, fun stop => ?_, ?_, ?_,
    fun none => messages (silent (threads.symm.trans none))⟩
  · rw [threads] at inside
    obtain ⟨none, empty⟩ := ended inside ((same _).mp isEnded)
    exact ⟨writeFd.trans none, messages empty⟩
  · rw [threads] at past
    exact (same _).mpr (beyond past)
  · obtain ⟨isStarted, none, before⟩ := joining (main.symm.trans joins)
    exact ⟨started.trans isStarted, writeFd.trans none, fun j below => (same j).mpr (before j below)⟩
  · obtain ⟨none, all⟩ := stopped (started.symm.trans stop)
    exact ⟨writeFd.trans none, fun j => (same j).mpr (all j)⟩
  · rw [started, writeFd, main]
    exact shut
  · rw [started, main]
    exact sending

theorem Closing.step (closing : resolver.Closing) (linked : resolver.Linked)
    (moves : Moves lookup resolver action next) : next.Closing := by
  have ⟨ended, beyond, joining, stopped, shut, sending, silent⟩ := closing
  cases moves with
  | @prepare query fd fd1 res main started unused unused' ne free =>
      refine ⟨ended, beyond, nofun, stopped, fun _ none => ?_, fun _ => started, silent⟩
      obtain ⟨i, joins⟩ := shut started none
      exact nomatch main.symm.trans joins
  | @enqueue fd writeFd res socket resolution main reads isOpen there heard =>
      refine ⟨fun inside isEnded => ?_, beyond, nofun, stopped, fun _ none => ?_, nofun,
        fun none => ?_⟩
      · exact nomatch isOpen.symm.trans (ended inside isEnded).1
      · exact nomatch isOpen.symm.trans none
      · obtain ⟨other, listens⟩ := heard
        have requests := (linked.writeFd writeFd).mp isOpen
        rw [there, Option.some.injEq, End.mk.injEq] at requests
        rw [requests.1] at listens
        obtain ⟨i, here⟩ := linked.listener listens
        rw [@beyond i (none.trans_le (Nat.zero_le i))] at here
        cases here
  | @receive fd call res rest resolution main there queue reads =>
      have other := update_result resolver.messages call rest
      refine ⟨fun inside isEnded => ?_, beyond, nofun, stopped, fun started none => ?_, nofun,
        fun none => other.trans (silent none)⟩
      · exact ⟨(ended inside isEnded).1, other.trans (ended inside isEnded).2⟩
      · obtain ⟨i, joins⟩ := shut started none
        exact nomatch main.symm.trans joins
  | @finish fd res resolution answer main reads written =>
      refine ⟨ended, beyond, nofun, stopped, fun started none => ?_, nofun, silent⟩
      obtain ⟨i, joins⟩ := shut started none
      exact nomatch main.symm.trans joins
  | @cleanup fd main started isOpen =>
      refine ⟨fun inside isEnded => ?_, beyond, fun joins => ?_, fun stop => ?_, fun _ _ => ⟨0, rfl⟩,
        nofun, silent⟩
      · exact nomatch isOpen.symm.trans (ended inside isEnded).1
      · cases joins
        exact ⟨started, rfl, nofun⟩
      · exact nomatch started.symm.trans stop
  | @joined i main more isEnded =>
      obtain ⟨started, none, before⟩ := joining main
      refine ⟨ended, beyond, fun joins => ?_, stopped, fun _ _ => ⟨i + 1, rfl⟩, nofun,
        silent⟩
      cases joins
      refine ⟨started, none, fun j below => ?_⟩
      rcases Nat.lt_succ_iff_lt_or_eq.mp below with earlier | rfl
      · exact before j earlier
      · exact isEnded
  | @stopped i main all =>
      obtain ⟨_, none, before⟩ := joining main
      refine ⟨ended, beyond, nofun, fun _ => ⟨none, fun j => ?_⟩, nofun, nofun, silent⟩
      by_cases below : j < i
      · exact before j below
      · exact beyond (by omega)
  | @took i fd res socket rest resolution worker there queue reads =>
      have requests := @linked.worker i fd (by rw [worker]; rfl)
      rw [there, Option.some.injEq, End.mk.injEq] at requests
      obtain ⟨rfl, _⟩ := requests
      exact @Closing.works _ _ _ _ closing i (.took fd res)
        (fun same => nomatch worker.symm.trans same) nofun rfl rfl rfl rfl rfl
        fun empty => nomatch queue.symm.trans empty
  | @answered i fd res resolution answer worker reads looked =>
      exact @Closing.works _ _ _ _ closing i (.answered fd res resolution.returnFd)
        (fun same => nomatch worker.symm.trans same) nofun rfl rfl rfl rfl rfl id
  | @replied i fd fd1 res socket returnFd resolution worker reads isOpen there =>
      obtain ⟨fd1', same, there'⟩ := linked.answered worker reads
      rw [isOpen, Option.some.injEq] at same
      rw [← same, there, Option.some.injEq, End.mk.injEq] at there'
      obtain ⟨rfl, _⟩ := there'
      have other := update_result resolver.messages resolution.call
        (resolver.messages (.result resolution.call) ++ [res])
      exact @Closing.works _ _ _ _ closing i (.replied fd returnFd)
        (fun same => nomatch worker.symm.trans same) nofun rfl rfl rfl rfl rfl other.trans
  | @ended i fd socket worker there empty closed =>
      have requests := @linked.worker i fd (by rw [worker]; rfl)
      rw [there, Option.some.injEq, End.mk.injEq] at requests
      obtain ⟨rfl, _⟩ := requests
      have none : resolver.writeFd = none := Option.eq_none_iff_forall_ne_some.mpr fun fd isOpen =>
        closed fd ((linked.writeFd fd).mp isOpen)
      have stays : ∀ {j}, resolver.workers j = .ended →
          Function.update resolver.workers i .ended j = .ended := by
        intro j isEnded
        rw [Function.update_apply, isEnded, ite_self]
      refine ⟨fun _ _ => ⟨none, empty⟩, fun past => stays (beyond past), fun joins => ?_,
        fun stop => ⟨none, fun j => stays ((stopped stop).2 j)⟩, shut, sending, silent⟩
      obtain ⟨started, _, before⟩ := joining joins
      exact ⟨started, none, fun j below => stays (before j below)⟩
  | @closed i fd fd1 returnFd worker isOpen =>
      exact @Closing.works _ _ _ _ closing i (.receiving fd)
        (fun same => nomatch worker.symm.trans same) nofun rfl rfl rfl rfl rfl id

/-! ## What has happened -/

/-- The calls that have come to a rank, each of them once. -/
structure Counts (stage : Nat → Stage) (calls : List Nat) (rank : Nat) : Prop where
  once : calls.Nodup
  mem : ∀ call, call ∈ calls ↔ rank ≤ (stage call).rank

theorem Counts.pass {stages : Nat → Stage} {calls : List Nat} {rank : Nat}
    (counts : Counts stages calls rank) {call : Nat} (next : stage.rank = (stages call).rank + 1)
    (other : stage.rank ≠ rank) : Counts (Function.update stages call stage) calls rank where
  once := counts.once
  mem := by
    intro call'
    rw [counts.mem, Function.update_apply]
    split
    · rename_i same
      rw [same]
      omega
    · rfl

theorem Counts.count {stages : Nat → Stage} {calls : List Nat} {rank : Nat}
    (counts : Counts stages calls rank) {call : Nat} (next : stage.rank = (stages call).rank + 1)
    (here : stage.rank = rank) : Counts (Function.update stages call stage) (calls ++ [call]) rank where
  once := by
    refine List.nodup_append.mpr ⟨counts.once, List.nodup_singleton _, fun one member two same => ?_⟩
    rw [List.mem_singleton.mp same]
    rintro rfl
    have := (counts.mem one).mp member
    omega
  mem := by
    intro call'
    rw [List.mem_append, counts.mem, List.mem_singleton, Function.update_apply]
    split
    · rename_i same
      simp only [same, or_true, here, le_refl]
    · rename_i ne
      simp only [ne, or_false]

/-- What is said of the calls is what happened to their requests. -/
structure Recorded (lookup : Query → Answer Addrs → Prop) (resolver : Resolver α Addrs) : Prop where
  enqueued : Counts resolver.history.stage resolver.history.enqueued 2
  lookups : Counts resolver.history.stage (resolver.history.lookups.map Prod.fst) 4
  replies : Counts resolver.history.stage resolver.history.replies 5
  returned : Counts resolver.history.stage (resolver.history.returned.map Prod.fst) 7
  queries : ∀ {res resolution}, resolver.memory res = some resolution →
    resolver.history.queries[resolution.call]? = some resolution.query
  answered : ∀ {res resolution}, resolver.memory res = some resolution →
    4 ≤ (resolver.history.stage resolution.call).rank → ∃ answer,
      resolution.answer = some answer ∧ (resolution.call, answer) ∈ resolver.history.lookups
  looked : ∀ {call answer}, (call, answer) ∈ resolver.history.lookups → ∃ query,
    resolver.history.queries[call]? = some query ∧ lookup query answer
  result : ∀ {call answer}, (call, answer) ∈ resolver.history.returned →
    (call, answer) ∈ resolver.history.lookups

theorem Recorded.step (recorded : resolver.Recorded lookup) (kept : resolver.Kept)
    (linked : resolver.Linked) (moves : Moves lookup resolver action next) :
    next.Recorded lookup := by
  have ⟨enqueued, lookups, replies, returned, queries, answered, looked, result⟩ := recorded
  cases moves with
  | @prepare query fd fd1 res main started unused unused' ne free =>
      have up : Stage.filled.rank =
          (resolver.history.stage resolver.history.queries.length).rank + 1 := by
        rw [kept.absent _ le_rfl]
        rfl
      refine ⟨enqueued.pass up nofun, lookups.pass up nofun, replies.pass up nofun,
        returned.pass up nofun, ?_, ?_, ?_, result⟩
      all_goals simp only [reach, Function.update_apply]
      · grind
      · grind [kept.present]
      · grind
  | @enqueue fd writeFd' res socket resolution main reads isOpen there heard =>
      have stage := (kept.holds_of reads .filled).mp (by rw [Holds, main]; rfl)
      have up : Stage.queued.rank = (resolver.history.stage resolution.call).rank + 1 := by
        rw [← stage]
        rfl
      refine ⟨enqueued.count up rfl, lookups.pass up nofun, replies.pass up nofun,
        returned.pass up nofun, queries, ?_, looked, result⟩
      simp only [reach, Function.update_apply]
      grind
  | @receive fd call res rest resolution main there queue reads =>
      have stage := (kept.holds_of reads (.replied call)).mp
        (by rw [Holds, queue]; exact List.mem_cons_self)
      have up : Stage.received.rank = (resolver.history.stage resolution.call).rank + 1 := by
        rw [← stage]
        rfl
      refine ⟨enqueued.pass up nofun, lookups.pass up nofun, replies.pass up nofun,
        returned.pass up nofun, queries, ?_, looked, result⟩
      simp only [reach, Function.update_apply]
      grind
  | @finish fd res resolution answer main reads written =>
      have stage := (kept.holds_of reads .received).mp (by rw [Holds, main]; rfl)
      have up : Stage.returned.rank = (resolver.history.stage resolution.call).rank + 1 := by
        rw [← stage]
        rfl
      have single := @kept.single
      refine ⟨enqueued.pass up nofun, lookups.pass up nofun, replies.pass up nofun,
        ?_, ?_, ?_, looked, ?_⟩
      · change Counts _ ((resolver.history.returned ++ [(resolution.call, answer)]).map Prod.fst) 7
        rw [List.map_append]
        exact returned.count up rfl
      all_goals simp only [reach, Function.update_apply]
      · grind
      · grind
      · grind
  | cleanup => exact ⟨enqueued, lookups, replies, returned, queries, answered, looked, result⟩
  | joined => exact ⟨enqueued, lookups, replies, returned, queries, answered, looked, result⟩
  | stopped => exact ⟨enqueued, lookups, replies, returned, queries, answered, looked, result⟩
  | @took i fd res socket rest resolution at' there queue reads =>
      have stage := (kept.holds_of reads .queued).mp (by
        have requests := @linked.worker i fd (by rw [at']; rfl)
        rw [there, Option.some.injEq, End.mk.injEq] at requests
        rw [Holds, ← requests.1, queue]
        exact List.mem_cons_self)
      have up : (Stage.took i).rank = (resolver.history.stage resolution.call).rank + 1 := by
        rw [← stage]
        rfl
      refine ⟨enqueued.pass up nofun, lookups.pass up nofun, replies.pass up nofun,
        returned.pass up nofun, queries, ?_, looked, result⟩
      simp only [reach, goes, Function.update_apply]
      grind
  | @answered i fd res resolution answer at' reads looks =>
      have stage := (kept.holds_of reads (.took i)).mp (by rw [Holds, at']; rfl)
      have up : (Stage.answered i).rank = (resolver.history.stage resolution.call).rank + 1 := by
        rw [← stage]
        rfl
      have single := @kept.single
      refine ⟨enqueued.pass up nofun, ?_, replies.pass up nofun,
        returned.pass up nofun, ?_, ?_, ?_, ?_⟩
      · change Counts _ ((resolver.history.lookups ++ [(resolution.call, answer)]).map Prod.fst) 4
        rw [List.map_append]
        exact lookups.count up rfl
      all_goals simp only [reach, goes, Function.update_apply]
      · grind
      · grind
      · grind
      · grind
  | @replied i fd fd1 res socket returnFd' resolution at' reads isOpen there =>
      have up : (Stage.replied resolution.call).rank =
          (resolver.history.stage resolution.call).rank + 1 := by
        rw [kept.replying at' reads]
        rfl
      refine ⟨enqueued.pass up nofun, lookups.pass up nofun, replies.count up rfl,
        returned.pass up nofun, queries, ?_, looked, result⟩
      simp only [reach, goes, Function.update_apply]
      grind
  | ended => exact ⟨enqueued, lookups, replies, returned, queries, answered, looked, result⟩
  | closed => exact ⟨enqueued, lookups, replies, returned, queries, answered, looked, result⟩

end Adsbus.Resolver

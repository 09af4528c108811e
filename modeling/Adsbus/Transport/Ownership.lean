import Adsbus.Transport.LoopRuns

/-! # Who has a descriptor

A peer says which descriptor it has, and whoever closes the peer believes it. The
program's own transports reset the descriptor before they wait to be tried again, all but
one: an incoming object that could bind none of its addresses keeps the number of the
last socket it closed, which is that of the next descriptor opened.
-/

namespace Adsbus.EventLoop

/-- The descriptor that the peer of the object says it has, or its `log_peer`. -/
def Object.fd : Object → Option Nat
  | .peerShutdownPeer fd | .execPeer fd => fd
  | .receive fd _ _ | .send fd _ | .wakeup fd _ _ => some fd
  | .outgoing entry => entry.fd
  | .incoming entry => entry.fd
  | .exec entry => entry.logFd
  | .sendReceive _ _ | .file _ => none

/-- The descriptor is open, and registered with nobody else if it can be polled; no other object
says that it has it, and it is none of those that no object has. -/
structure Loop.Owns (loop : Loop) (address : Nat) (object : Object) (fd : Nat) : Prop where
  registered : ∃ pollable, loop.poll.fds.get fd =
    some ⟨pollable, if pollable then some (object.peerRef address, object.events) else none⟩
  alone : ∀ other object', loop.objects.get other = some object' → object'.fd = some fd →
    other = address
  apart : fd ∉ loop.poll.others

/-- Every descriptor that an object says it has is its own. -/
def Loop.Owned (loop : Loop) : Prop := ∀ address object fd,
  loop.objects.get address = some object → object.fd = some fd → loop.Owns address object fd

variable {clean : Prop} {credit : Account → Int} {loop after : Loop} {address : Nat}
  {object : Object} {answers : Answers} {state : LoopState} {trace : List (LoopState × LoopAct)}

theorem Object.Formed.fd_eq {history : List Event} (formed : object.Formed clean history)
    (isClean : clean) : object.fd = object.slot := by
  cases object with
  | incoming entry =>
      simp only [Object.Formed] at formed
      simp only [Object.fd, Object.slot]
      split
      · next waits =>
          rw [if_pos waits] at formed
          exact formed isClean
      · rfl
  | _ => rfl

/-- What a clean run knows: the descriptors that the objects have are those they say they have. -/
theorem Inv.owned (inv : Inv clean credit loop) (isClean : clean)
    (natural : ∀ fd, 0 ≤ credit (.fd fd)) : loop.Owned := by
  intro address object fd reads names
  have slot : object.slot = some fd := ((inv.formed reads).fd_eq isClean).symm.trans names
  obtain ⟨alone, apart⟩ := inv.balanced.alone (natural fd) reads slot
  obtain ⟨pollable, _, watched⟩ := inv.wired.watched reads slot
  refine ⟨⟨pollable, watched⟩, fun other object' reads' names' => ?_, apart⟩
  exact alone other object' reads' (((inv.formed reads').fd_eq isClean).symm.trans names')

/-- An incoming object that waits to be tried again and says that it has a descriptor is wrong. -/
theorem Inv.not_owned {entry : Incoming} {fd : Nat} (inv : Inv clean 0 loop)
    (reads : loop.objects.get address = some (.incoming entry))
    (waits : entry.eventHandler = .incomingResolveWrapper) (stale : entry.fd = some fd) :
    ¬ loop.Owned := by
  intro owned
  obtain ⟨⟨pollable, watched⟩, alone, apart⟩ := owned address _ fd reads stale
  have slot : (Object.incoming entry).slot = none := if_pos waits
  -- the descriptor is open, so that an object has it, but not this one
  have books := inv.balanced (.fd fd)
  rw [Loop.Books, watched, Option.isSome_some, if_pos rfl, Pi.zero_apply, add_zero,
    List.count_eq_zero.mpr apart, Nat.cast_zero, add_zero] at books
  obtain ⟨other, object, reads', charged⟩ := Table.exists_of_total_pos
    (show 0 < loop.objects.total (charge (.fd fd)) from books ▸ Int.one_pos)
  have has : object.slot = some fd := by
    by_contra differ
    simp only [charge, differ, ↓reduceIte, lt_self_iff_false] at charged
  have names : object.fd = some fd := by
    cases object with
    | incoming entry' =>
        simp only [Object.slot] at has
        split at has
        · cases has
        · exact has
    | _ => exact has
  cases alone other object reads' names
  cases reads.symm.trans reads'
  rw [slot] at has
  cases has

/-! ## The retry that forgets -/

/-- The waiting object is left as it was given. -/
theorem Loop.retry_get {attempt : UInt32} {waiting : Object}
    (retried : loop.retry answers address attempt waiting = .ok after) :
    after.objects.get address = some waiting := by
  rw [Loop.retry] at retried
  split at retried
  · cases retried
  · rw [Loop.wakeupAdd] at retried
    obtain ⟨⟨fd, poll⟩, _, retried⟩ := Except.bind_eq_ok.mp retried
    obtain ⟨⟨_, poll'⟩, _, retried⟩ := Except.bind_eq_ok.mp retried
    cases retried
    refine (Table.get_put_of_ne _ _ _ ?_).trans (Table.get_put_self ..)
    change address ≠ max loop.objects.bound (address + 1)
    omega

/-- When no address can be bound, the object waits with the descriptor of the last one. -/
theorem Loop.incomingBind_stale (left : Nat) {incoming : Incoming}
    (fails : ∀ behind < left, answers.bind behind = false)
    (tried : 0 < left ∨ incoming.fd ≠ none)
    (bound : Loop.incomingBind answers address left incoming loop = .ok after) :
    ∃ entry, after.objects.get address = some (.incoming entry) ∧
      entry.eventHandler = .incomingResolveWrapper ∧ entry.fd ≠ none := by
  induction left generalizing incoming loop with
  | zero => exact ⟨_, retry_get bound, rfl, tried.resolve_left (Nat.lt_irrefl 0)⟩
  | succ behind ih =>
      rw [Loop.incomingBind] at bound
      obtain ⟨⟨fd, poll⟩, _, bound⟩ := Except.bind_eq_ok.mp bound
      simp only [fails behind (Nat.lt_succ_self behind), Bool.false_eq_true, ↓reduceIte] at bound
      obtain ⟨poll', _, bound⟩ := Except.bind_eq_ok.mp bound
      refine ih (fun other before => fails other (Nat.lt_succ_of_lt before)) (.inr ?_) bound
      intro same
      cases same

/-- A step that fails to bind leaves an object with a descriptor that is not its own. -/
theorem not_owned_of_failsToBind {act : LoopAct} {next : LoopState} (run : LoopRun trace state)
    (fails : state.FailsToBind act) (taken : state.step act = some (.ok next)) :
    ¬ next.loop.Owned := by
  cases act with
  | next answers =>
      obtain ⟨running, ⟨peer, rest, batch, address, incoming, rfl, reads, handler⟩, unbound⟩ := fails
      have inside : state.phase ≠ .left := (by simp [batch])
      have sound := step_runs run inside taken
      simp only [Answers.Binds, not_forall, not_or, not_exists, not_and, Bool.not_eq_true] at unbound
      obtain ⟨addrs, resolved, some', fails⟩ := unbound
      simp only [LoopState.step, LoopState.turn, batch] at taken
      obtain ⟨after, called, rest'⟩ := Except.bind_eq_ok.mp (Option.some.inj taken)
      cases rest'
      rw [Loop.call, running, if_neg Bool.false_ne_true, Loop.eventHandler, reads] at called
      simp only [handler] at called
      rw [Loop.incomingListen] at called
      obtain ⟨closed, _, called⟩ := Except.bind_eq_ok.mp called
      simp only [resolved] at called
      obtain ⟨entry, reads', waits, stale⟩ :=
        Loop.incomingBind_stale addrs fails (.inl (Nat.pos_of_ne_zero some')) called
      obtain ⟨fd, names⟩ := Option.ne_none_iff_exists'.mp stale
      exact (sound.inv (by simp)).not_owned reads' waits names
  | _ => cases fails

/-! ## Runs -/

/-- Every descriptor that an object says it has is its own, and whatever happens next closes or
deletes none in vain. -/
def LoopState.KeepsDescriptors (state : LoopState) : Prop :=
  state.loop.Owned ∧ ∀ act fault, state.step act = some (.error fault) → fault.Benign

theorem keepsDescriptors_of_binding (run : LoopRun trace state) (binds : Binding trace) :
    state.KeepsDescriptors := by
  have sound : Sound True state := sound_of_run run fun _ => binds
  by_cases left : state.phase = .left
  · obtain ⟨_, credit, quiet, inv⟩ := sound.left left trivial
    refine ⟨inv.owned trivial quiet.fd, fun act fault taken => ?_⟩
    have binding : ¬ state.FailsToBind act := fun fails => by
      cases act with
      | next answers =>
          obtain ⟨_, ⟨peer, rest, batch, _⟩, _⟩ := fails
          cases left.symm.trans batch
      | _ => cases fails
    exact show Runs (.error fault) _ from sound.step (.inl trivial) (fun _ => binding) taken
  · refine ⟨(sound.inv left).owned trivial fun _ => le_refl 0, fun act fault taken => ?_⟩
    exact step_runs run left taken

/-- **Descriptor ownership.** In all states of a run the objects' descriptors are their own, and no
assertion about a descriptor fails at the next step or at the end of the program, exactly when no
incoming object of the run has found addresses none of which could be bound. -/
theorem keepsDescriptors_iff (run : LoopRun trace state) :
    (∀ reached ∈ state :: trace.map Prod.fst, reached.KeepsDescriptors) ↔ Binding trace := by
  induction run with
  | start =>
      refine ⟨fun _ entry member => absurd member List.not_mem_nil, fun binds reached member => ?_⟩
      rw [List.mem_singleton.mp member]
      exact keepsDescriptors_of_binding .start binds
  | @step trace state next act run taken ih =>
      constructor
      · intro keeps entry member
        obtain ⟨last, before⟩ := List.forall_mem_cons.mp keeps
        rcases List.mem_cons.mp member with rfl | earlier
        · exact fun fails => not_owned_of_failsToBind run fails taken last.1
        · exact ih.mp before entry earlier
      · intro binds
        have before := ih.mpr fun entry member => binds entry (List.mem_cons_of_mem _ member)
        exact List.forall_mem_cons.mpr ⟨keepsDescriptors_of_binding (run.step taken) binds, before⟩

/-- An incoming connection that is listened for, until the program is shut down. -/
def listening : List LoopAct :=
  [.add (.incoming .sendReceive) .refused, .peerLoop, .wait [.peer 1],
    .next { Answers.refused with
      resolved := some 1
      bind := fun _ => true },
    .next .refused, .next .refused, .wait [.peer 0], .next .refused, .next .refused,
    .next .refused, .leave]

/-- What is listened for can be freed at the end. -/
theorem keepsDescriptors_listening : ∃ trace state, LoopRun trace state ∧ state.phase = .left ∧
    state.loop.objects.get 1 ≠ none ∧ state.KeepsDescriptors := by
  have follows : (follow [] loopStart listening).isSome = true := by decide
  obtain ⟨⟨trace, state⟩, followed⟩ := Option.isSome_iff_exists.mp follows
  have reached : ∀ result, follow [] loopStart listening = some result →
      result.2.phase = .left ∧ result.2.loop.objects.get 1 ≠ none := by decide
  obtain ⟨left, held⟩ := reached _ followed
  have run := run_of_follow .start followed
  refine ⟨trace, state, run, left, held, (keepsDescriptors_iff run).mpr ?_ _ List.mem_cons_self⟩
  intro entry member fails
  have binds : ∀ act ∈ listening, ∀ answers, act = .next answers → answers.Binds := by
    simp [listening, Answers.Binds, Answers.refused]
  rcases act_of_follow followed entry member with earlier | acts
  · cases earlier
  · obtain ⟨before, act⟩ := entry
    cases act with
    | next answers => exact fails.2.2 (binds _ acts answers rfl)
    | _ => cases fails

/-- The address of an incoming connection is in use, and the program is shut down by a signal before
the wakeup. -/
def addressInUse : List LoopAct :=
  [.add (.incoming .sendReceive) .refused, .peerLoop, .wait [.peer 1],
    .next { Answers.refused with resolved := some 1 }, .next .refused, .next .refused,
    .wait [.peer 0], .next .refused, .next .refused, .next .refused, .leave]

/-- The wakeup gets the number of the socket that could not be bound, so that two objects have one
descriptor. At the end of the program the incoming object closes it, and the assertion that deletes
it for the wakeup fails. -/
theorem descriptors_stale :
    (¬ ∀ trace state, LoopRun trace state → state.loop.Owned) ∧
      ¬ ∀ trace state, LoopRun trace state →
        ∀ act fault, state.step act = some (.error fault) → fault.Benign := by
  constructor
  · intro owned
    have follows : (follow [] loopStart addressInUse).isSome = true := by decide
    obtain ⟨⟨trace, state⟩, followed⟩ := Option.isSome_iff_exists.mp follows
    have reached : ∀ result, follow [] loopStart addressInUse = some result →
        (result.2.loop.objects.get 1).bind Object.fd = some 9 ∧
          (result.2.loop.objects.get 2).bind Object.fd = some 9 := by decide
    obtain ⟨incoming, wakeup⟩ := reached _ followed
    obtain ⟨object, reads, has⟩ := Option.bind_eq_some_iff.mp incoming
    obtain ⟨other, reads', has'⟩ := Option.bind_eq_some_iff.mp wakeup
    have owns := owned trace state (run_of_follow .start followed) 1 object 9 reads has
    exact absurd (owns.alone 2 other reads' has') (by decide)
  · intro benign
    have follows : (follow [] loopStart (addressInUse ++ [.del 1 .refused])).isSome = true := by
      decide
    obtain ⟨⟨trace, state⟩, followed⟩ := Option.isSome_iff_exists.mp follows
    have reached : ∀ result,
        follow [] loopStart (addressInUse ++ [.del 1 .refused]) = some result →
          result.2.fault (.del 2 .refused) = some .epollDel := by decide
    have fails := LoopState.step_of_fault (reached _ followed)
    rcases benign trace state (run_of_follow .start followed) _ _ fails with
      limit | delay | exit <;> contradiction

end Adsbus.EventLoop

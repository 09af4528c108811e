import Adsbus.Transport.LoopRuns

/-! # The counters and the calls of the loop

`peer_loop` goes on while something can still produce packets and something can take
them, which it tells from three counters; and it calls peers that it was given before
the calls of others. Both stay right to the end of the program: behind the loop nobody
is called, and every object that is freed is counted down once.
-/

namespace Adsbus.EventLoop

/-! ## What is counted -/

/-- The flow of a transport. -/
def Object.transportFlow : Object → Option Flow
  | .file entry => some entry.flow
  | .outgoing entry => some entry.flow
  | .incoming entry => some entry.flow
  | .exec entry => some entry.flow
  | _ => none

/-- A live receive connection. -/
def Object.isReceive : Object → Bool
  | .receive _ _ _ => true
  | _ => false

/-- A live send connection. -/
def Object.isSend : Object → Bool
  | .send _ _ => true
  | _ => false

/-- The object can still produce packets, or may start a flow that does. -/
def Object.produces (object : Object) : Bool :=
  object.isReceive ∨ object.transportFlow = some .receive ∨
    object.transportFlow = some .sendReceive

/-- The object can still take packets, or may start a flow that does. -/
def Object.takes (object : Object) : Bool :=
  object.isSend ∨ object.transportFlow = some .send ∨ object.transportFlow = some .sendReceive

namespace Loop

variable (loop : Loop)

/-- The number of live receive connections. -/
def receives : Nat := loop.objects.count fun _ object => object.isReceive

/-- The number of live send connections. -/
def sends : Nat := loop.objects.count fun _ object => object.isSend

/-- The number of live transports with the flow. -/
def transports (flow : Flow) : Nat :=
  loop.objects.count fun _ object => object.transportFlow = some flow

/-- `peer_count_in`, `peer_count_out` and `peer_count_out_in` count what is there. -/
structure CountsPeers : Prop where
  peerCountIn : (loop.peerCount .receive).toNat = loop.receives + loop.transports .receive
  peerCountOut : (loop.peerCount .send).toNat = loop.sends + loop.transports .send
  peerCountOutIn : (loop.peerCount .sendReceive).toNat = loop.transports .sendReceive

/-- Each counter is the number of objects that are counted by it. -/
def Counts : Prop :=
  ∀ flow, ((loop.peerCount flow).toNat : Int) = loop.objects.total (charge (.count flow))

end Loop

variable {clean : Prop} {credit : Account → Int} {loop : Loop} {address : Nat} {object : Object}
  {answers : Answers} {state : LoopState} {trace : List (LoopState × LoopAct)}

theorem Inv.counts (inv : Inv clean credit loop) (settled : Settled credit) : loop.Counts := by
  intro flow
  have counted := inv.count_eq settled.fd flow (settled.count flow).ge
    (by rw [settled.count, settled.transports])
  rwa [settled.count, add_zero] at counted

theorem Loop.Counts.countsPeers (counts : loop.Counts) : loop.CountsPeers := by
  have split : ∀ (flow : Flow) (connection : Object → Bool),
      (∀ address object, charge (.count flow) address object =
        (connection object).toNat + (decide (object.transportFlow = some flow)).toNat) →
      ((loop.peerCount flow).toNat : Int) =
        (loop.objects.count fun _ object => connection object) + loop.transports flow := by
    intro flow connection charged
    rw [counts flow, Table.count_eq_total, Loop.transports, Table.count_eq_total,
      ← Table.total_add]
    exact Table.total_congr fun address object _ => charged address object
  refine ⟨?_, ?_, ?_⟩
  · have counted := split .receive Object.isReceive fun address object => by
      cases object <;> simp [charge, Object.counted, Object.isReceive, Object.transportFlow,
        Bool.toNat, Bool.cond_decide]
    rw [Loop.receives]
    omega
  · have counted := split .send Object.isSend fun address object => by
      cases object <;> simp [charge, Object.counted, Object.isSend, Object.transportFlow,
        Bool.toNat, Bool.cond_decide]
    rw [Loop.sends]
    omega
  · have counted := split .sendReceive (fun _ => false) fun address object => by
      cases object <;> simp [charge, Object.counted, Object.transportFlow, Bool.toNat,
        Bool.cond_decide]
    have none : (loop.objects.count fun _ _ => false) = 0 := Finset.sum_eq_zero fun address _ => by
      cases loop.objects.get address <;> rfl
    omega

/-! ## When the loop stops -/

/-- Two counters add up without a carry, so the loop sees a sum of zero only when nothing is
counted by either. -/
theorem Inv.sum_eq_zero_iff (inv : Inv clean 0 loop) {one other : Flow} (differ : one ≠ other) :
    loop.peerCount one + loop.peerCount other = 0 ↔ ∀ address object,
      loop.objects.get address = some object →
        object.counted ≠ some one ∧ object.counted ≠ some other := by
  have counts := inv.counts natural_zero.toSettled
  have room := inv.counted_le fun _ => le_refl 0
  have both : loop.objects.total (charge (.count one)) + loop.objects.total (charge (.count other)) ≤
      loop.objects.total fun _ object => if object.counted.isSome then 1 else 0 := by
    rw [← Table.total_add]
    refine Table.total_mono fun address object _ => ?_
    simp only [charge]
    cases object.counted with
    | none => exact le_refl 0
    | some flow =>
        simp only [Option.some.injEq, Option.isSome_some, ↓reduceIte]
        split
        · next isOne =>
            rw [if_neg fun isOther => differ (isOne.symm.trans isOther)]
            exact le_refl 1
        · split <;> omega
  have first := counts one
  have second := counts other
  have sum : (loop.peerCount one + loop.peerCount other).toNat =
      (loop.peerCount one).toNat + (loop.peerCount other).toNat := by
    rw [UInt32.toNat_add, Nat.mod_eq_of_lt]
    rw [Pi.zero_apply] at room
    omega
  have nothing : ∀ flow, loop.objects.total (charge (.count flow)) ≤ 0 ↔ ∀ address object,
      loop.objects.get address = some object → object.counted ≠ some flow := by
    intro flow
    constructor
    · intro zero address object reads counted
      have own := Table.le_total (fun address object _ => charge_count_nonneg flow address object)
        reads
      simp only [charge, counted, ↓reduceIte] at own
      omega
    · intro uncounted
      refine le_of_eq (Table.total_eq_zero fun address object reads => ?_)
      simp only [charge, uncounted address object reads, ↓reduceIte]
  rw [← UInt32.toNat_inj, sum, UInt32.toNat_zero]
  constructor
  · intro zero address object reads
    exact ⟨(nothing one).mp (by omega) address object reads,
      (nothing other).mp (by omega) address object reads⟩
  · intro uncounted
    have noneOne := (nothing one).mpr fun address object reads => (uncounted address object reads).1
    have noneOther := (nothing other).mpr fun address object reads =>
      (uncounted address object reads).2
    omega

theorem Inv.noInputs_iff (inv : Inv clean 0 loop) : loop.noInputs = true ↔ ∀ address object,
    loop.objects.get address = some object → object.produces = false := by
  rw [Loop.noInputs, decide_eq_true_iff, inv.sum_eq_zero_iff (by decide)]
  refine forall_congr' fun address => forall_congr' fun object => forall_congr' fun _ => ?_
  cases object <;> simp [Object.counted, Object.produces, Object.isReceive, Object.transportFlow]

theorem Inv.noOutputs_iff (inv : Inv clean 0 loop) : loop.noOutputs = true ↔ ∀ address object,
    loop.objects.get address = some object → object.takes = false := by
  rw [Loop.noOutputs, decide_eq_true_iff, inv.sum_eq_zero_iff (by decide)]
  refine forall_congr' fun address => forall_congr' fun object => forall_congr' fun _ => ?_
  cases object <;> simp [Object.counted, Object.takes, Object.isSend, Object.transportFlow]

/-- The loop stops by itself exactly when it is shut down, or when an input or an output is
missing. -/
theorem LoopState.leave_iff (idle : state.phase = .idle) : (state.step .leave).isSome = true ↔
    state.loop.peerShutdownFlag = true ∨ state.loop.noInputs = true ∨
      state.loop.noOutputs = true := by
  simp only [LoopState.step, idle, ↓reduceIte]
  split
  · next flag => simp only [Option.isSome_some, flag, true_or]
  · next running =>
      simp only [running, Bool.false_eq_true, false_or]
      split
      · next stops => simp only [Option.isSome_some, stops]
      · next goes => simp only [Option.isSome_none, Bool.false_eq_true, goes]

/-! ## Behind the loop -/

/-- Nobody is called any more, and the counters are exact. -/
def Departed (loop : Loop) : Prop := loop.peerShutdownFlag = true ∧ loop.Counts

/-- The assertions that an object with a stale descriptor makes fail. -/
def LoopFault.Stale (fault : LoopFault) : Prop := fault = .close ∨ fault = .epollDel

theorem Poll.peerClose_ends (poll : Poll) (peer : PeerRef) (alwaysTrigger : Bool)
    (fd : Option Nat) :
    (poll.peerClose peer alwaysTrigger fd).Ends LoopFault.Stale fun _ => True := by
  cases fd with
  | none => trivial
  | some fd =>
      rw [Poll.peerClose]
      refine Except.Ends.bind (?_ : Except.Ends _ _ fun _ => True) fun after _ => ?_
      · rw [Poll.peerEpollDel]
        split
        · trivial
        · trivial
        · exact .inr rfl
      · rw [Poll.closeFd]
        split
        · trivial
        · exact .inl rfl

/-- The object is counted down. -/
theorem Departed.flowRefDec {flow : Flow} (departed : Departed loop)
    (reads : loop.objects.get address = some object) (counted : object.counted = some flow) :
    ∃ peerCount, loop.flowRefDec flow = .ok { loop with peerCount := peerCount } ∧
      ∀ after : Loop, after.peerShutdownFlag = true →
        after.objects = loop.objects.remove address → after.peerCount = peerCount →
          Departed after := by
  obtain ⟨_, counts⟩ := departed
  have own := Table.le_total (fun address object _ => charge_count_nonneg flow address object) reads
  simp only [charge, counted, ↓reduceIte] at own
  have exact' := counts flow
  have nonzero : loop.peerCount flow ≠ 0 := fun zero => by
    rw [zero, UInt32.toNat_zero] at exact'
    change (0 : Int) = _ at exact'
    omega
  have fewer : (loop.peerCount flow - 1).toNat = (loop.peerCount flow).toNat - 1 :=
    UInt32.toNat_sub_of_le _ _ (UInt32.le_iff_toNat_le.mpr (by
      change 1 ≤ _
      omega))
  refine ⟨_, if_neg nonzero, fun after flag objects peerCount => ⟨flag, fun other => ?_⟩⟩
  rw [objects, Table.total_remove, reads, peerCount]
  change _ = _ - charge (.count other) address object
  by_cases here : other = flow
  · subst here
    rw [Function.update_self, fewer]
    simp only [charge, counted, ↓reduceIte]
    omega
  · rw [Function.update_of_ne here, counts other]
    simp only [charge, counted, Option.some.injEq, Ne.symm here, ↓reduceIte, sub_zero]

/-- An object that is counted by no counter may change, or go. -/
theorem Departed.uncounted {after : Loop} (departed : Departed loop)
    (flag : after.peerShutdownFlag = true) (peerCount : after.peerCount = loop.peerCount)
    (same : ∀ other, other ≠ address → after.objects.get other = loop.objects.get other)
    (before : ∀ object, loop.objects.get address = some object → object.counted = none)
    (behind : ∀ object, after.objects.get address = some object → object.counted = none) :
    Departed after := by
  refine ⟨flag, fun flow => ?_⟩
  have free : ∀ entry : Option Object, (∀ object, entry = some object → object.counted = none) →
      entry.elim 0 (charge (.count flow) address) = 0 := by
    intro entry uncounted
    cases entry with
    | none => rfl
    | some object =>
        change charge (.count flow) address object = 0
        simp only [charge, uncounted object rfl, reduceCtorEq, ↓reduceIte]
  rw [peerCount, departed.2 flow, Table.total_change (charge (.count flow)) same, free _ before,
    free _ behind]
  omega

variable (answers) in
/-- To free an object does not fail but with a stale descriptor. -/
theorem objectDel_departs (departed : Departed loop)
    (reads : loop.objects.get address = some object) :
    (loop.objectDel answers address object).Ends LoopFault.Stale Departed := by
  have left := departed.1
  have elsewhere : ∀ other, other ≠ address →
      (loop.objects.remove address).get other = loop.objects.get other := fun other differ =>
    Table.get_remove_of_ne _ _ differ
  have gone : ∀ object, (loop.objects.remove address).get address = some object →
      object.counted = none := fun object reads => by
    rw [Table.get_remove_self] at reads
    cases reads
  cases object with
  | peerShutdownPeer own => exact departed
  | execPeer own =>
      refine (loop.poll.peerClose_ends _ _ _).bind fun poll _ => ?_
      refine departed.uncounted left rfl (fun other (differ : other ≠ address) =>
        Table.get_put_of_ne _ _ _ differ) (fun object same => ?_) (fun object same => ?_)
      · cases reads.symm.trans same
        rfl
      · cases (Table.get_put_self ..).symm.trans same
        rfl
  | receive fd alwaysTrigger onClose | send fd onClose =>
      obtain ⟨peerCount, decremented, departs⟩ := departed.flowRefDec reads rfl
      simp only [Loop.objectDel, Loop.receiveDel, Loop.sendDel, decremented, Except.ok_bind]
      refine (Poll.peerClose_ends _ _ _ _).bind fun poll _ => ?_
      rw [peerCall_left _ (by exact left)]
      exact departs _ left rfl rfl
  | sendReceive refCount onClose =>
      change Except.Ends (Loop.peerCall answers 2 _ onClose) _ _
      rw [peerCall_left _ (by exact left)]
      refine departed.uncounted left rfl elsewhere (fun object same => ?_) gone
      cases reads.symm.trans same
      rfl
  | wakeup fd innerPeer delayMs =>
      refine (loop.poll.peerClose_ends _ _ _).bind fun poll _ => ?_
      refine departed.uncounted left rfl elsewhere (fun object same => ?_) gone
      cases reads.symm.trans same
      rfl
  | file file =>
      obtain ⟨peerCount, decremented, departs⟩ := departed.flowRefDec reads rfl
      simp only [Loop.objectDel, Loop.fileDel, decremented, Except.ok_bind]
      exact departs _ left rfl rfl
  | outgoing entry | incoming entry =>
      obtain ⟨peerCount, decremented, departs⟩ := departed.flowRefDec reads rfl
      simp only [Loop.objectDel, Loop.outgoingDel, Loop.incomingDel, decremented, Except.ok_bind]
      exact (Poll.peerClose_ends _ _ _ _).bind fun poll _ => departs _ left rfl rfl
  | exec exec =>
      obtain ⟨peerCount, decremented, departs⟩ := departed.flowRefDec reads rfl
      simp only [Loop.objectDel, Loop.execDel, decremented, Except.ok_bind]
      split
      · simp only [Loop.execChildCleanup]
        refine Except.Ends.bind (?_ : Except.Ends _ _ fun after => after.peerShutdownFlag = true ∧
          (after.listDel address).objects = loop.objects.remove address ∧
            after.peerCount = peerCount) fun after made => ?_
        · refine (Poll.peerClose_ends _ _ _ _).bind fun poll _ => ⟨left, ?_, rfl⟩
          exact loop.objects.remove_put _ _ (Table.lt_bound reads)
        · obtain ⟨flag, objects, counted⟩ := made
          exact departs (after.listDel address) flag objects counted
      · exact departs _ left rfl rfl

/-- The loop is left by one step only. -/
theorem LoopState.leave_of_step {act : LoopAct} {next : LoopState} (inside : state.phase ≠ .left)
    (taken : state.step act = some (.ok next)) (left : next.phase = .left) : act = .leave := by
  cases act with
  | leave => rfl
  | openOther pollable =>
      obtain ⟨_, _, rest⟩ := Except.bind_eq_ok.mp (Option.some.inj taken)
      cases rest
      exact absurd left inside
  | closeOther | add | execInit =>
      simp only [LoopState.step] at taken
      split at taken
      · obtain ⟨_, _, rest⟩ := Except.bind_eq_ok.mp (Option.some.inj taken)
        cases rest
        exact absurd left inside
      · cases taken
  | peerLoop | wait =>
      simp only [LoopState.step] at taken
      split at taken
      · cases taken
        cases left
      · cases taken
  | next answers =>
      obtain ⟨loop, phase⟩ := state
      cases phase with
      | batch events =>
          cases events with
          | nil =>
              obtain ⟨_, _, rest⟩ := Except.bind_eq_ok.mp (Option.some.inj taken)
              cases rest
              cases left
          | cons peer events =>
              obtain ⟨_, _, rest⟩ := Except.bind_eq_ok.mp (Option.some.inj taken)
              cases rest
              cases left
      | sweep iter next =>
          cases iter with
          | none =>
              cases taken
              cases left
          | some iter =>
              obtain ⟨_, _, rest⟩ := Except.bind_eq_ok.mp (Option.some.inj taken)
              obtain ⟨_, _, rest⟩ := Except.bind_eq_ok.mp rest
              cases rest
              cases left
      | options | idle | left => cases taken
  | del address answers =>
      simp only [LoopState.step, if_neg inside] at taken
      cases taken

/-- Behind the loop the counters stay exact while objects are freed, in any run. -/
theorem departed_of_run (run : LoopRun trace state) : state.phase = .left → Departed state.loop := by
  induction run with
  | start => exact nofun
  | @step trace state next act run taken ih =>
      intro left
      by_cases behind : state.phase = .left
      · have departed := ih behind
        cases act with
        | openOther pollable =>
            obtain ⟨_, _, rest⟩ := Except.bind_eq_ok.mp (Option.some.inj taken)
            cases rest
            exact departed
        | closeOther fd =>
            simp only [LoopState.step] at taken
            split at taken
            · obtain ⟨_, _, rest⟩ := Except.bind_eq_ok.mp (Option.some.inj taken)
              cases rest
              exact departed
            · cases taken
        | del address answers =>
            simp only [LoopState.step, if_pos behind] at taken
            obtain ⟨object, reads, steps⟩ := Option.map_eq_some_iff.mp taken
            obtain ⟨after, freed, rest⟩ := Except.bind_eq_ok.mp steps
            cases rest
            have departs := objectDel_departs answers departed reads
            rwa [freed] at departs
        | next answers =>
            simp only [LoopState.step, LoopState.turn, behind, reduceCtorEq] at taken
        | add | execInit | peerLoop | wait | leave =>
            simp only [LoopState.step, behind, reduceCtorEq, false_and, ↓reduceIte] at taken
      · cases LoopState.leave_of_step behind taken left
        have sound := sound_of_run run False.elim
        have counts := (sound.inv behind).counts natural_zero.toSettled
        simp only [LoopState.step] at taken
        split at taken
        · next idle =>
            split at taken
            · next flag =>
                cases taken
                exact ⟨flag, counts⟩
            · next running =>
                split at taken
                · obtain ⟨after, shut, rest⟩ := Except.bind_eq_ok.mp (Option.some.inj taken)
                  cases rest
                  obtain ⟨fd, reads⟩ := sound.root behind (.inr (Bool.not_eq_true _ ▸ running))
                  have done := peerShutdown_runs (sound.inv behind) reads
                  rw [shut] at done
                  exact ⟨done.2, done.1.inv.counts natural_zero.toSettled⟩
                · cases taken
        · cases taken

/-- In any run, a step can fail with a stale descriptor behind the loop, and in no other way but the
benign ones. -/
theorem step_faults (run : LoopRun trace state) {act : LoopAct} {fault : LoopFault}
    (taken : state.step act = some (.error fault)) : fault.Benign ∨ fault.Stale := by
  by_cases behind : state.phase = .left
  · cases act with
    | openOther pollable =>
        rcases Except.bind_eq_error.mp (Option.some.inj taken) with failed | ⟨_, _, rest⟩
        · simp only [Poll.openFd] at failed
          split at failed
          · cases failed
          · cases failed
            exact .inl (.inl rfl)
        · cases rest
    | closeOther fd =>
        simp only [LoopState.step] at taken
        split at taken
        · rcases Except.bind_eq_error.mp (Option.some.inj taken) with failed | ⟨_, _, rest⟩
          · simp only [Poll.closeFd] at failed
            split at failed
            · cases failed
            · cases failed
              exact .inr (.inl rfl)
          · cases rest
        · cases taken
    | del address answers =>
        simp only [LoopState.step, if_pos behind] at taken
        obtain ⟨object, reads, steps⟩ := Option.map_eq_some_iff.mp taken
        have departs := objectDel_departs answers (departed_of_run run behind) reads
        rcases Except.bind_eq_error.mp steps with failed | ⟨_, _, rest⟩
        · rw [failed] at departs
          exact .inr departs
        · cases rest
    | next answers =>
        simp only [LoopState.step, LoopState.turn, behind, reduceCtorEq] at taken
    | add | execInit | peerLoop | wait | leave =>
        simp only [LoopState.step, behind, reduceCtorEq, false_and, ↓reduceIte] at taken
  · exact .inl (step_runs run behind taken)

theorem countsPeers_of_run (run : LoopRun trace state) : state.loop.CountsPeers := by
  by_cases behind : state.phase = .left
  · exact (departed_of_run run behind).2.countsPeers
  · exact ((inv_of_run run behind).counts natural_zero.toSettled).countsPeers

/-! ## The counters -/

/-- Nothing that could still produce packets exists. -/
def Loop.InputsGone (loop : Loop) : Prop :=
  ∀ address object, loop.objects.get address = some object → object.produces = false

/-- Nothing that could still take packets exists. -/
def Loop.OutputsGone (loop : Loop) : Prop :=
  ∀ address object, loop.objects.get address = some object → object.takes = false

/-- **The peer counters are exact.** In every state of every run they count the live connections and
transports, and none of them underflows. The loop, when it is not shut down, stops exactly when
nothing that could produce packets exists any more, or nothing that could take them. -/
theorem peerCounters_exact (run : LoopRun trace state) :
    state.loop.CountsPeers ∧
      (∀ act, state.step act ≠ some (.error .underflow)) ∧
      (state.phase = .idle → state.loop.peerShutdownFlag = false →
        (state.loop.noInputs = true ↔ state.loop.InputsGone) ∧
        (state.loop.noOutputs = true ↔ state.loop.OutputsGone) ∧
        ((state.step .leave).isSome = true ↔
          state.loop.InputsGone ∨ state.loop.OutputsGone)) := by
  refine ⟨countsPeers_of_run run, fun act taken => ?_, fun idle running => ?_⟩
  · rcases step_faults run taken with (limit | delay | exit) | (close | epollDel) <;>
      contradiction
  · have inv := inv_of_run run (idle ▸ nofun)
    have inputs := inv.noInputs_iff
    have outputs := inv.noOutputs_iff
    refine ⟨inputs, outputs, ?_⟩
    rw [LoopState.leave_iff idle, running, inputs, outputs]
    simp only [Bool.false_eq_true, false_or, Loop.InputsGone, Loop.OutputsGone]

/-- Standard input and a connection, in the loop. -/
def inputAndConnection : List LoopAct :=
  [.add (.stdin true) .refused, .add (.outgoing .sendReceive) .refused, .peerLoop]

theorem peerCounters_exact_two : ∃ trace state, LoopRun trace state ∧ state.phase = .idle ∧
    state.loop.peerCount .receive = 1 ∧ state.loop.peerCount .sendReceive = 1 ∧
      state.loop.CountsPeers ∧ ¬ state.loop.InputsGone := by
  obtain ⟨⟨trace, state⟩, followed⟩ :=
    Option.isSome_iff_exists.mp (by decide : (follow [] loopStart inputAndConnection).isSome = true)
  have reached : ∀ result, follow [] loopStart inputAndConnection = some result →
      result.2.phase = .idle ∧ result.2.loop.peerShutdownFlag = false ∧
        result.2.loop.peerCount .receive = 1 ∧ result.2.loop.peerCount .sendReceive = 1 ∧
          result.2.loop.noInputs = false := by decide
  obtain ⟨idle, running, input, connection, stays⟩ := reached _ followed
  have run := run_of_follow .start followed
  obtain ⟨counts, _, stops⟩ := peerCounters_exact run
  refine ⟨trace, state, run, idle, input, connection, counts, fun gone => ?_⟩
  exact Bool.false_ne_true (stays.symm.trans ((stops idle running).1.mpr gone))

/-! ## Calls of the living -/

/-- The object of the peer has not been freed. -/
def Loop.Live (loop : Loop) : PeerRef → Prop
  | .peer address => (loop.objects.get address).isSome = true
  | .logPeer address => ∃ exec, loop.objects.get address = some (.exec exec)

theorem Ready.live {peer : PeerRef} (ready : Ready loop.objects peer) : loop.Live peer := by
  cases peer with
  | logPeer address => exact ready
  | peer address =>
      obtain ⟨object, reads, _⟩ := ready
      change (loop.objects.get address).isSome = true
      rw [reads]
      rfl

/-- **Deleted objects are never dispatched.** What is left of a batch is alive, and so are the peer
that the sweep has come to and the one it has saved; and no step, in the loop or behind it, calls
a peer that was freed, through an `on_close` or an `inner_peer` however deep. -/
theorem dispatched_live (run : LoopRun trace state) :
    (∀ events, state.phase = .batch events → ∀ peer ∈ events, state.loop.Live peer) ∧
      (∀ iter next, state.phase = .sweep (some iter) next →
        state.loop.Live iter ∧ ∀ peer, next = some peer → state.loop.Live peer) ∧
      ∀ act, state.step act ≠ some (.error .dead) ∧ state.step act ≠ some (.error .depth) := by
  have sound := sound_of_run run False.elim
  refine ⟨fun events batch peer member => ?_, fun iter next sweep => ?_, fun act => ?_⟩
  · have poised := sound.poised
    rw [batch] at poised
    exact (poised.2 peer member).live
  · have poised := sound.poised
    have inv := sound.inv (sweep ▸ nofun)
    rw [sweep] at poised
    exact ⟨(inv.always poised.1).live, fun peer saved => (inv.always (poised.2 peer saved).1).live⟩
  · constructor <;>
    · intro taken
      rcases step_faults run taken with (limit | delay | exit) | (close | epollDel) <;>
        contradiction

/-- An outgoing connection is made and its send connection is closed; then its receive connection is
closed by the first event of a batch. -/
def lostConnection : List LoopAct :=
  [.add (.stdin true) .refused, .add (.outgoing .sendReceive) .refused, .peerLoop,
    .wait [.peer 2],
    .next { Answers.refused with
      resolved := some 1
      sendto := fun _ => (true, 0) },
    .next .refused, .next .refused, .wait [.peer 2], .next { Answers.refused with error := 0 },
    .next .refused, .next .refused, .wait [.peer 4], .next .refused, .next .refused,
    .next .refused, .wait [.peer 5, .peer 1], .next { Answers.refused with closes := true }]

/-- The event frees the receive connection, and with it the object of both, whose `on_close` is
followed to the outgoing one; the other peer of the batch is alive. -/
theorem dispatched_live_batch : ∃ trace state, LoopRun trace state ∧
    state.phase = .batch [.peer 1] ∧ state.loop.objects.get 5 = none ∧
    state.loop.objects.get 3 = none ∧
    state.loop.history.take 4 = [.draw 1 1, .onClose 3, .onClose 5, .onClose 4] ∧
    state.loop.Live (.peer 1) := by
  obtain ⟨⟨trace, state⟩, followed⟩ := Option.isSome_iff_exists.mp (by decide +kernel :
    (follow [] loopStart lostConnection).isSome = true)
  have reached : ∀ result, follow [] loopStart lostConnection = some result →
      result.2.phase = .batch [.peer 1] ∧ result.2.loop.objects.get 5 = none ∧
        result.2.loop.objects.get 3 = none ∧ result.2.loop.history.take 4 =
          [.draw 1 1, .onClose 3, .onClose 5, .onClose 4] := by decide +kernel
  obtain ⟨batch, connection, both, history⟩ := reached _ followed
  have run := run_of_follow .start followed
  refine ⟨trace, state, run, batch, connection, both, history, ?_⟩
  exact (dispatched_live run).1 _ batch _ List.mem_cons_self

end Adsbus.EventLoop

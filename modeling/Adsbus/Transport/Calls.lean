import Adsbus.Transport.Transports

/-! # What the calls do

A flow that closes calls what waits for it, a send-receive flow or a transport, and a
wakeup calls the transport that it was added for. What is called is still in the table,
and in the state that it waits in: otherwise the books would not balance.
-/

namespace Adsbus.EventLoop

variable {clean : Prop} {credit : Account → Int} {loop : Loop} {address fd : Nat} {object : Object}
  {onClose : Option Nat} {answers : Answers} {depth : Nat}

/-! ## What is called -/

/-- A call that a flow owes has somebody who waits for it. -/
theorem Inv.owing (inv : Inv clean (credit + owed (some address)) loop) (natural : Natural credit) :
    ∃ object, loop.objects.get address = some object ∧ object.flows ≠ 0 := by
  have books := inv.balanced (.flow address)
  have own := natural.flow address
  rw [owed_some, Pi.add_apply, one_self] at books
  simp only [Loop.Books] at books
  by_contra idle
  push Not at idle
  have above := Table.total_nonneg loop.objects (charge (.flow address))
    fun at' object reads => by
      by_cases here : address = at'
      · subst here
        simp only [charge, idle object reads, ↓reduceIte, Nat.cast_zero, sub_zero]
        split <;> omega
      · exact charge_flow_nonneg here
  omega

/-- A wakeup has somebody who waits for it. -/
theorem Inv.woken {wakeup : Nat} {delayMs : UInt32} (inv : Inv clean credit loop)
    (none : 0 ≤ credit (.wake address))
    (reads : loop.objects.get wakeup = some (.wakeup fd address delayMs)) :
    ∃ object, loop.objects.get address = some object ∧ object.waiting = true := by
  have books := inv.balanced (.wake address)
  simp only [Loop.Books] at books
  by_contra idle
  push Not at idle
  have natural : ∀ at' object, loop.objects.get at' = some object →
      0 ≤ charge (.wake address) at' object := by
    intro at' object reads
    have rests : address = at' → object.waiting = false := by
      rintro rfl
      exact Bool.eq_false_iff.mpr (idle object reads)
    simp only [charge]
    by_cases here : address = at'
    · simp only [here, ↓reduceIte, rests here, Bool.toNat_false, Nat.cast_zero, sub_zero]
      split <;> omega
    · simp only [here, ↓reduceIte]
      split <;> omega
  have own := Table.le_total natural reads
  simp only [charge, Object.innerPeer, Object.waiting, ↓reduceIte, Bool.toNat_false, Nat.cast_zero,
    ite_self, sub_zero] at own
  omega

/-! ## Flows that close -/

variable (loop) in
/-- The call of a flow that is not one of the parts of a send-receive flow. -/
theorem closes_transport (inv : Inv clean (credit + owed (some address)) loop)
    (natural : Natural credit) (running : loop.peerShutdownFlag = false)
    (outer : ∀ refCount onClose,
      loop.objects.get address ≠ some (.sendReceive refCount onClose)) :
    Runs (Loop.peerCall answers (depth + 1) loop (some address))
      (Done clean credit none loop.objects) := by
  obtain ⟨object, reads, waits⟩ := inv.owing natural
  rw [Loop.peerCall, running, if_neg Bool.false_ne_true, Loop.eventHandler, reads]
  cases object with
  | sendReceive refCount onClose => exact absurd reads (outer refCount onClose)
  | file file =>
      have handler : file.eventHandler = .fileHandleClose := by
        cases handler : file.eventHandler with
        | fileHandleClose => rfl
        | fileOpenWrapper => simp [Object.flows, handler] at waits
      have inHand := (inv.take reads rfl).recredit (show _ = credit + held file.flow by
        rw [charge_transport address (.file file) rfl rfl, owed_some]
        simp only [Object.slot, Object.flows, Object.waiting, handler, each, ↓reduceIte, reduceCtorEq,
          decide_false, Bool.toNat_false, Nat.cast_zero, Nat.cast_one, Pi.single_zero]
        abel)
      simp only [handler]
      refine (fileHandleClose_runs inHand natural fun entry other => ?_).mono fun after done =>
        ⟨done.inv, done.frame.unslotted fun object same => ?_⟩
      · cases reads.symm.trans other
      · cases reads.symm.trans same
        exact .inl rfl
  | outgoing outgoing =>
      have handler : outgoing.eventHandler = .outgoingDisconnectHandler := by
        by_contra other
        simp only [Object.flows, other, ↓reduceIte, ne_eq, not_true] at waits
      have slot : outgoing.fd = none := (inv.formed reads).mpr (.inl handler)
      have inHand := (inv.take reads slot).recredit (show _ = credit + held outgoing.flow by
        rw [charge_transport address (.outgoing outgoing) rfl rfl, owed_some]
        simp only [Object.slot, Object.flows, Object.waiting, handler, slot, each, ↓reduceIte,
          reduceCtorEq, decide_false, Bool.toNat_false, Nat.cast_zero, Nat.cast_one, Pi.single_zero]
        abel)
      simp only [handler, Loop.outgoingDisconnectHandler]
      refine (outgoingRetry_runs _ _ natural (fun entry other => ?_) inHand).mono fun after done =>
        ⟨done.inv, done.frame.unslotted fun object same => ?_⟩
      · cases reads.symm.trans other
      · cases reads.symm.trans same
        exact .inl slot
  | _ => exact absurd rfl waits

/-- The call of a part of a send-receive flow: the other part is still open, or both are closed. -/
theorem closes_sendReceive {refCount : UInt8}
    (inv : Inv clean (credit + owed (some address)) loop)
    (natural : Natural credit) (running : loop.peerShutdownFlag = false)
    (reads : loop.objects.get address = some (.sendReceive refCount onClose)) :
    Runs (loop.sendReceiveOnClose (Loop.peerCall answers (depth + 1)) address refCount onClose)
      (Done clean credit none loop.objects) := by
  have nonzero : refCount ≠ 0 := inv.formed reads
  have positive : refCount.toNat ≠ 0 := fun zero => nonzero (UInt8.toNat_inj.mp zero)
  have counted : ((refCount - 1).toNat : Int) = refCount.toNat - 1 := by
    have above : 1 ≤ refCount := UInt8.le_iff_toNat_le.mpr (show 1 ≤ refCount.toNat by omega)
    rw [UInt8.toNat_sub_of_le _ _ above]
    change ((refCount.toNat - 1 : Nat) : Int) = _
    omega
  have unslotted : ∀ object, loop.objects.get address = some object →
      object.slot = none ∨ ∃ entry, object = .exec entry := fun object same => by
    cases reads.symm.trans same
    exact .inl rfl
  have outer : ∀ peer, onClose = some peer → peer ≠ address ∧
      ∀ refCount onClose, loop.objects.get peer ≠ some (.sendReceive refCount onClose) := by
    rintro peer rfl
    have flat := inv.flat address refCount peer reads
    refine ⟨?_, flat⟩
    rintro rfl
    exact flat _ _ reads
  rw [Loop.sendReceiveOnClose]
  split
  · next last =>
      have one : (refCount.toNat : Int) = 1 := by
        rw [last] at counted
        change (0 : Int) = _ at counted
        omega
      have called := (((inv.take reads rfl).log (.onClose address)).recredit
        (show _ = credit + owed onClose by
          rw [charge_sendReceive, one, owed_some, Event.moves]
          abel))
      have framed : Frame none loop.objects (loop.objects.remove address) :=
        Frame.unslotted (.remove fun entry other => by cases reads.symm.trans other) unslotted
      rw [Loop.sendReceiveDel, Loop.listDel_put _ (Table.lt_bound reads)]
      cases onClose with
      | none =>
          rw [owed_none, add_zero] at called
          exact ⟨called, framed⟩
      | some peer =>
          refine (closes_transport ((loop.listDel address).log (.onClose address)) called
            natural running fun count onClose nested => ?_).mono fun after done =>
              ⟨done.inv, framed.trans done.frame⟩
          exact (outer peer rfl).2 count onClose (Table.get_remove_eq_some.mp nested).2
  · next open' =>
      have placed := ((inv.take reads rfl).recredit (show _ = credit +
          fun account => charge account address (.sendReceive (refCount - 1) onClose) by
        rw [charge_sendReceive, charge_sendReceive, counted, owed_some, Pi.single_sub]
        abel)).putBack _ rfl open' ⟨fun other count reads' => ?_, fun peer calls => ?_⟩
      · exact ⟨placed, Frame.unslotted (.put fun entry other => by
          cases reads.symm.trans other) unslotted⟩
      · obtain ⟨_, reads'⟩ := Table.get_remove_eq_some.mp reads'
        exact inv.flat other count address reads' refCount onClose reads
      · obtain ⟨differ, kind⟩ := outer peer calls
        exact ⟨differ, fun count onClose nested =>
          kind count onClose (Table.get_remove_eq_some.mp nested).2⟩

/-- The call of `on_close`, for a flow that has just been taken off its list. -/
theorem peerCall_closes (inv : Inv clean (credit + owed onClose) loop) (natural : Natural credit)
    (running : loop.peerShutdownFlag = false) :
    Runs (Loop.peerCall answers 2 loop onClose) (Done clean credit none loop.objects) := by
  cases onClose with
  | none =>
      rw [owed_none, add_zero] at inv
      exact ⟨inv, .refl⟩
  | some peer =>
      obtain ⟨object, reads, _⟩ := inv.owing natural
      by_cases nested : ∃ refCount onClose, object = .sendReceive refCount onClose
      · obtain ⟨refCount, onClose, rfl⟩ := nested
        rw [Loop.peerCall, running, if_neg Bool.false_ne_true, Loop.eventHandler, reads]
        exact closes_sendReceive inv natural running reads
      · refine closes_transport loop inv natural running fun refCount onClose same => nested ?_
        exact ⟨refCount, onClose, Option.some.inj (reads.symm.trans same)⟩

variable (loop) in
/-- After the shutdown nobody is called. -/
theorem peerCall_left (left : loop.peerShutdownFlag = true) :
    Loop.peerCall answers depth loop onClose = .ok loop := by
  cases onClose with
  | none => cases depth <;> rfl
  | some peer => cases depth <;> rw [Loop.peerCall, left, if_pos rfl]

section FlowDel

variable {flow : Flow} {call : Loop → Option Nat → Except LoopFault Loop} {post : Loop → Prop}

/-- What `receive_del` and `send_del` have in common: the call comes last. -/
theorem flowDel_runs (inv : Inv clean credit loop) (settled : Settled credit)
    (reads : loop.objects.get address = some object) (slot : object.slot = some fd)
    (peer : object.peerRef address = .peer address) (counted : object.counted = some flow)
    (charged : (fun account => charge account address object) =
      one (.fd fd) + owed onClose + one (.ran address) + one (.count flow))
    (calls : ∀ after : Loop, after.peerShutdownFlag = loop.peerShutdownFlag →
      after.objects = loop.objects.remove address → Inv clean (credit + owed onClose) after →
        Runs (call after onClose) post) :
    Runs (do
      let loop ← loop.flowRefDec flow
      let poll ← loop.poll.peerClose (.peer address) object.alwaysTrigger (some fd)
      call (({ loop with poll := poll }.listDel address).log (.onClose address)) onClose) post := by
  obtain ⟨peerCount, decremented, inv'⟩ := inv.flowRefDec_of_get settled reads counted
  obtain ⟨poll, closed, inv''⟩ := inv'.release (fun fd => by
    rw [Pi.sub_apply, one_of_ne (fun same => by cases same), sub_zero]
    exact settled.fd fd) reads
  have called := (inv''.log (.onClose address)).recredit (show _ = credit + owed onClose by
    rw [charged, slot, Event.moves, each]
    abel)
  rw [peer, slot] at closed
  simp only [decremented, closed, Except.ok_bind]
  exact calls (Loop.log (Loop.listDel { loop with
    poll := poll
    peerCount := peerCount } address) (.onClose address)) rfl rfl called

theorem receiveDel_runs {alwaysTrigger : Bool} (inv : Inv clean credit loop)
    (settled : Settled credit)
    (reads : loop.objects.get address = some (.receive fd alwaysTrigger onClose))
    (calls : ∀ after : Loop, after.peerShutdownFlag = loop.peerShutdownFlag →
      after.objects = loop.objects.remove address → Inv clean (credit + owed onClose) after →
        Runs (call after onClose) post) :
    Runs (loop.receiveDel call address fd alwaysTrigger onClose) post :=
  flowDel_runs inv settled reads rfl rfl rfl (charge_receive address fd onClose alwaysTrigger) calls

theorem sendDel_runs (inv : Inv clean credit loop) (settled : Settled credit)
    (reads : loop.objects.get address = some (.send fd onClose))
    (calls : ∀ after : Loop, after.peerShutdownFlag = loop.peerShutdownFlag →
      after.objects = loop.objects.remove address → Inv clean (credit + owed onClose) after →
        Runs (call after onClose) post) :
    Runs (loop.sendDel call address fd onClose) post :=
  flowDel_runs inv settled reads rfl rfl rfl (charge_send address fd onClose) calls

end FlowDel

/-- While the loop runs, the call keeps the books. -/
theorem peerCall_removed {after : Loop} (inv : Inv clean (0 + owed onClose) after)
    (running : after.peerShutdownFlag = false)
    (kind : ∀ entry, loop.objects.get address ≠ some (.exec entry))
    (removed : after.objects = loop.objects.remove address) :
    Runs (Loop.peerCall answers 2 after onClose) (Done clean 0 (some address) loop.objects) :=
  (peerCall_closes inv natural_zero running).mono fun _ done =>
    ⟨done.inv, (removed ▸ Frame.remove kind).trans done.frame.weaken⟩

/-! ## Wakeups that fire -/

theorem wakeupDel_runs {innerPeer : Nat} {delayMs : UInt32} (inv : Inv clean credit loop)
    (natural : ∀ fd, 0 ≤ credit (.fd fd))
    (reads : loop.objects.get address = some (.wakeup fd innerPeer delayMs)) :
    Runs (loop.wakeupDel address fd) fun after =>
      Inv clean (credit + one (.wake innerPeer)) after ∧
        after.objects = loop.objects.remove address ∧
        after.peerShutdownFlag = loop.peerShutdownFlag := by
  obtain ⟨poll, closed, inv'⟩ := inv.release natural reads
  change loop.poll.peerClose (.peer address) false (some fd) = .ok poll at closed
  rw [Loop.wakeupDel]
  simp only [closed, Except.ok_bind]
  refine ⟨inv'.recredit ?_, rfl, rfl⟩
  rw [charge_wakeup, Object.slot, each]
  abel

/-- The call of a transport that waits for the wakeup. -/
theorem peerCall_wakes (inv : Inv clean 0 loop) (running : loop.peerShutdownFlag = false)
    (reads : loop.objects.get address = some object) (waits : object.waiting = true) :
    Runs (Loop.peerCall answers (depth + 1) loop (some address))
      (Done clean (0 - one (.wake address)) none loop.objects) := by
  have natural : Natural (0 - one (.wake address)) :=
    ⟨⟨fun _ => le_refl 0, fun _ => rfl, rfl⟩, fun _ => le_refl 0⟩
  have formed := inv.formed reads
  have slot : object.slot = none := by
    cases object with
    | file => rfl
    | outgoing outgoing =>
        exact formed.mpr (.inr (of_decide_eq_true waits))
    | incoming incoming => exact if_pos (of_decide_eq_true waits)
    | exec exec => exact formed.1 (formed.2.mpr (of_decide_eq_true waits))
    | _ => cases waits
  have transport : object.isTransport = true ∧ object.flows = 0 := by
    cases object with
    | file file =>
        have handler : file.eventHandler = .fileOpenWrapper := of_decide_eq_true waits
        simp only [Object.isTransport, Object.flows, handler, reduceCtorEq, ↓reduceIte, and_self]
    | outgoing outgoing =>
        have handler : outgoing.eventHandler = .outgoingResolveWrapper := of_decide_eq_true waits
        simp only [Object.isTransport, Object.flows, handler, reduceCtorEq, ↓reduceIte, and_self]
    | incoming => exact ⟨rfl, rfl⟩
    | exec => exact ⟨rfl, rfl⟩
    | _ => cases waits
  have inHand : ∀ flow, object.counted = some flow →
      Inv clean (0 - one (.wake address) + held flow) (loop.listDel address) := fun flow counted =>
    (inv.take reads slot).recredit (by
      rw [charge_transport address object counted transport.1, slot, transport.2, waits]
      simp only [each, Nat.cast_zero, Pi.single_zero, Bool.toNat_true, Nat.cast_one]
      abel)
  have leaves : ∀ after, Done clean (0 - one (.wake address)) (some address) loop.objects after →
      Done clean (0 - one (.wake address)) none loop.objects after := fun after done =>
    ⟨done.inv, done.frame.unslotted fun object same => by
      cases reads.symm.trans same
      exact .inl slot⟩
  have kind : (∀ entry, object ≠ .exec entry) →
      ∀ entry, loop.objects.get address ≠ some (.exec entry) := fun differ entry other =>
    differ entry (Option.some.inj (reads.symm.trans other))
  rw [Loop.peerCall, running, if_neg Bool.false_ne_true, Loop.eventHandler, reads]
  cases object with
  | file file =>
      have handler : file.eventHandler = .fileOpenWrapper := of_decide_eq_true waits
      simp only [handler]
      exact (fileOpen_runs (inHand _ rfl) natural (kind fun _ same => by cases same)
        (Table.lt_bound reads)).mono leaves
  | outgoing outgoing =>
      have handler : outgoing.eventHandler = .outgoingResolveWrapper := of_decide_eq_true waits
      simp only [handler]
      exact (outgoingResolve_runs natural (kind fun _ same => by cases same) (inHand _ rfl)).mono leaves
  | incoming incoming =>
      have handler : incoming.eventHandler = .incomingResolveWrapper := of_decide_eq_true waits
      simp only [handler]
      exact (incomingResolve_runs natural (kind fun _ same => by cases same) (inHand _ rfl)).mono leaves
  | exec exec =>
      have handler : exec.eventHandler = .execSpawnWrapper := of_decide_eq_true waits
      simp only [handler]
      exact (execSpawn_runs natural (inHand _ rfl)).mono leaves
  | _ => cases waits

theorem wakeupHandler_runs {innerPeer : Nat} {delayMs : UInt32} (inv : Inv clean 0 loop)
    (running : loop.peerShutdownFlag = false)
    (reads : loop.objects.get address = some (.wakeup fd innerPeer delayMs)) :
    Runs (loop.wakeupHandler (Loop.peerCall answers (depth + 1)) address fd innerPeer)
      (Done clean 0 (some address) loop.objects) := by
  obtain ⟨inner, reads', waits⟩ := inv.woken (le_refl 0) reads
  rw [Loop.wakeupHandler]
  refine (peerCall_wakes inv running reads' waits).bind fun after done => ?_
  have stays := done.frame.kept reads nofun nofun fun _ => nofun
  refine (wakeupDel_runs done.inv (fun _ => le_refl 0) stays).mono fun final deleted =>
    ⟨deleted.1.recredit (by abel), done.frame.weaken.trans ?_⟩
  rw [deleted.2.1]
  exact .remove fun entry other => by cases stays.symm.trans other

/-! ## Signals -/

theorem execSigchldHandler_runs (inv : Inv clean 0 loop)
    (running : loop.peerShutdownFlag = false) :
    Runs (loop.execSigchldHandler (Loop.peerCall answers (depth + 1)) answers)
      (Done clean 0 none loop.objects) := by
  rw [Loop.execSigchldHandler]
  cases found : answers.reaped.bind loop.execOf with
  | none => exact ⟨inv, .refl⟩
  | some entry =>
      obtain ⟨pid, _, found⟩ := Option.bind_eq_some_iff.mp found
      obtain ⟨address, object⟩ := entry
      obtain ⟨reads, matched⟩ := Table.of_find? found
      cases object with
      | exec exec =>
          have child : exec.child ≠ none := by
            rw [of_decide_eq_true matched]
            exact nofun
          obtain ⟨handler, poll, cleaned, inv'⟩ :=
            execChildCleanup_eq inv natural_zero.fd reads child
          simp only [cleaned, Except.ok_bind]
          rw [Loop.peerCall, show (Loop.put { loop with poll := poll } address _).peerShutdownFlag =
            false from running, if_neg Bool.false_ne_true, Loop.eventHandler, Loop.put,
            Table.get_put_self]
          simp only [handler]
          refine (execRetry_runs natural_zero ?_ rfl rfl).mono fun after done => ⟨done.inv, ?_⟩
          · change Inv clean _ ((Loop.put { loop with poll := poll } address _).listDel address)
            rw [Loop.listDel_put { loop with poll := poll } (Table.lt_bound reads)]
            exact inv'
          · exact (Frame.unslotted (.put fun _ _ => ⟨_, rfl⟩) fun object same => by
              cases reads.symm.trans same
              exact .inr ⟨exec, rfl⟩).trans (done.frame.unslotted fun object same => by
                cases (Table.get_put_self ..).symm.trans same
                exact .inl rfl)
      | _ => cases matched

theorem peerShutdown_runs {own : Option Nat} (inv : Inv clean 0 loop)
    (reads : loop.objects.get address = some (.peerShutdownPeer own)) :
    Runs (loop.peerShutdown address) fun after =>
      Done clean 0 (some address) loop.objects after ∧ after.peerShutdownFlag = true := by
  obtain ⟨poll, closed, inv'⟩ := inv.release (fun _ => le_refl 0) reads
  change loop.poll.peerClose (.peer address) false own = .ok poll at closed
  have placed := (inv'.recredit (show _ = 0 + fun account =>
      charge account address (.peerShutdownPeer none) by
    rw [charge_eq, charge_eq]
    simp only [Object.slot, Object.onClose, Object.flows, Object.innerPeer, Object.waiting,
      Object.isFlow, Object.counted, Object.isTransport, each]
    abel)).putBack { loop with poll := poll } rfl trivial trivial
  rw [Loop.peerShutdown, reads]
  simp only [closed, Except.ok_bind]
  refine ⟨⟨⟨placed.balanced, placed.wired, placed.formed, placed.flat, placed.small⟩, .put ?_⟩, rfl⟩
  intro entry other
  cases reads.symm.trans other

end Adsbus.EventLoop

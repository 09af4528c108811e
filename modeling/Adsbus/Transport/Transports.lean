import Adsbus.Transport.Handlers

/-! # What the transports do

A handler of a transport starts with the transport in hand, and puts it back with a
descriptor of its own, behind a flow, or behind a wakeup. The socket that it was given
is registered, handed to the flow or closed.
-/

namespace Adsbus.EventLoop

variable {clean : Prop} {credit : Account → Int} {loop : Loop} {address fd : Nat} {answers : Answers}

/-! ## Files -/

section Files

variable {file : File} (inv : Inv clean (credit + held file.flow) (loop.listDel address))
  (natural : Natural credit) (kind : ∀ entry, loop.objects.get address ≠ some (.exec entry))

include inv natural kind

variable (file) in
theorem fileRetry_runs : Runs (loop.fileRetry answers address file)
    (Done clean credit (some address) loop.objects) :=
  retry_runs inv natural.fd rfl rfl rfl rfl rfl trivial fun entry reads => (kind entry reads).elim

theorem fileDel_runs : Runs (loop.fileDel address file)
    (Done clean credit (some address) loop.objects) := by
  obtain ⟨peerCount, decremented, inv'⟩ := inv.flowRefDec_of_held natural
  rw [Loop.fileDel, decremented]
  exact ⟨inv'.dropTransport, .remove kind⟩

theorem fileHandleClose_runs : Runs (loop.fileHandleClose answers address file)
    (Done clean credit (some address) loop.objects) := by
  rw [Loop.fileHandleClose]
  split
  · exact fileRetry_runs file inv natural kind
  · exact fileDel_runs inv natural kind

theorem fileOpen_runs (inside : address < loop.objects.bound) :
    Runs (loop.fileOpen answers address file) (Done clean credit (some address) loop.objects) := by
  rw [Loop.fileOpen]
  cases opens : answers.opened with
  | none => exact fileRetry_runs file inv natural kind
  | some pollable =>
      refine inv.openFd_runs pollable fun fd poll _ hand _ inv' => ?_
      dsimp only
      generalize handled : ({ file with
        retry := Loop.fileShouldRetry pollable file, eventHandler := .fileHandleClose,
        attempt := 0 } : File) = file'
      have flow : file'.flow = file.flow := handled ▸ rfl
      have handles : (Object.file file').flows = 1 ∧ (Object.file file').waiting = false :=
        handled ▸ ⟨rfl, rfl⟩
      have framed : Frame (some address) loop.objects (loop.objects.put address (.file file')) :=
        .put fun entry reads => (kind entry reads).elim
      rw [Loop.flowNewSendHello]
      split
      · have placed := (inv'.recredit (show _ = credit + one (.fd fd) + owed (some address) +
            fun account => charge account address (.file file') by
          rw [charge_transport address (.file file') (congrArg some flow) rfl, handles.1, handles.2,
            owed_some]
          simp only [Object.slot, each, Bool.toNat_false, Nat.cast_zero, Nat.cast_one,
            Pi.single_zero]
          abel)).putBack { loop with poll := poll } rfl trivial trivial
        have outer : Outer (loop.objects.put address (.file file')) (some address) := by
          rintro peer ⟨⟩
          exact ⟨.file file', Table.get_put_self .., fun _ _ same => by cases same⟩
        rw [bind_assoc]
        exact (flowNew_runs placed natural hand outer).bind fun after done =>
          ⟨done.inv, framed.trans done.frame.weaken⟩
      · obtain ⟨poll', closed, _, inv''⟩ := inv'.closeFd hand (by
          have own := natural.fd fd
          simp only [held, Pi.add_apply, Pi.single_apply, reduceCtorEq, ↓reduceIte]
          omega)
        simp only [Loop.put, closed, Except.ok_bind]
        refine (fileRetry_runs file' ?_ natural fun entry reads => ?_).mono
          fun after done => ⟨done.inv, framed.trans done.frame⟩
        · change Inv clean _ ((Loop.put { loop with poll := poll' } address _).listDel address)
          rw [Loop.listDel_put { loop with poll := poll' } inside, flow]
          exact inv''.recredit (add_sub_cancel_right _ _)
        · change (loop.objects.put address (.file file')).get address = _ at reads
          rw [Table.get_put_self] at reads
          cases reads

end Files

/-! ## Outgoing connections -/

section Outgoing

variable {outgoing : Outgoing} (natural : Natural credit)
  (kind : ∀ entry, loop.objects.get address ≠ some (.exec entry))

include natural kind

variable (loop outgoing) in
theorem outgoingRetry_runs (inv : Inv clean (credit + held outgoing.flow) (loop.listDel address)) :
    Runs (loop.outgoingRetry answers address outgoing)
      (Done clean credit (some address) loop.objects) :=
  retry_runs inv natural.fd rfl rfl rfl rfl rfl ⟨fun _ => .inr rfl, fun _ => rfl⟩
    fun entry reads => (kind entry reads).elim

variable (loop outgoing) in
/-- The socket is handed to a flow, registered, or closed before the next address is tried. -/
theorem outgoingConnectResult_runs {connectNext : Loop → Except LoopFault Loop} {result : Nat}
    (inv : Inv clean (credit + held outgoing.flow + one (.fd fd)) (loop.listDel address))
    (hand : loop.poll.Hand fd true)
    (next : ∀ poll, Inv clean (credit + held outgoing.flow)
        (Loop.listDel { loop with poll := poll } address) →
      Runs (connectNext { loop with poll := poll })
        (Done clean credit (some address) loop.objects)) :
    Runs (loop.outgoingConnectResult connectNext address outgoing fd result)
      (Done clean credit (some address) loop.objects) := by
  have framed : ∀ object, Frame (some address) loop.objects (loop.objects.put address object) :=
    fun object => Frame.put fun entry reads => (kind entry reads).elim
  rw [Loop.outgoingConnectResult]
  split
  · have placed := (inv.recredit (show _ = credit + one (.fd fd) + owed (some address) +
        fun account => charge account address (.outgoing { outgoing with
          attempt := 0, fd := none, eventHandler := .outgoingDisconnectHandler }) by
      rw [charge_transport address (.outgoing _) rfl rfl, owed_some]
      simp only [Object.slot, Object.flows, Object.waiting, each, ↓reduceIte, reduceCtorEq,
        decide_false, Bool.toNat_false, Nat.cast_zero, Nat.cast_one, Pi.single_zero]
      abel)).putBack _ rfl ⟨fun _ => .inl rfl, fun _ => rfl⟩ trivial
    refine (flowNew_runs placed natural hand ?_).mono fun after done =>
      ⟨done.inv, (framed _).trans done.frame.weaken⟩
    rintro peer ⟨⟩
    exact ⟨_, Table.get_put_self .., fun _ _ same => by cases same⟩
  · split
    · obtain ⟨poll, added, _, _, plugged⟩ := Inv.plugBack loop (.outgoing {
          outgoing with fd := some fd, eventHandler := .outgoingConnectHandler }) fd
        (inv.recredit (by
          rw [charge_transport address (.outgoing _) rfl rfl]
          simp only [Object.slot, Object.flows, Object.waiting, each, ↓reduceIte, reduceCtorEq,
            decide_false, Bool.toNat_false, Nat.cast_zero, Pi.single_zero]
          abel)) (natural.fd fd) rfl hand rfl (by simp [Object.Formed])
      change loop.poll.peerEpollAdd (.peer address) fd .output = .ok (false, poll) at added
      simp only [added, Except.ok_bind]
      exact ⟨plugged, framed _⟩
    · obtain ⟨poll, closed, _, inv'⟩ := inv.closeFd hand (by
        have own := natural.fd fd
        simp only [held, Pi.add_apply, Pi.single_apply, reduceCtorEq, ↓reduceIte]
        omega)
      change loop.poll.closeFd fd = .ok poll at closed
      simp only [closed, Except.ok_bind]
      exact next poll (inv'.recredit (add_sub_cancel_right _ _))

variable (outgoing) in
theorem outgoingConnectNext_runs (left : Nat) (poll : Poll)
    (inv : Inv clean (credit + held outgoing.flow) (Loop.listDel { loop with poll := poll } address)) :
    Runs (Loop.outgoingConnectNext answers address outgoing left { loop with poll := poll })
      (Done clean credit (some address) loop.objects) := by
  induction left generalizing poll with
  | zero =>
      rw [Loop.outgoingConnectNext]
      exact outgoingRetry_runs { loop with poll := poll } { outgoing with addr := 0 } natural kind inv
  | succ behind ih =>
      rw [Loop.outgoingConnectNext]
      refine inv.openFd_runs true fun fd poll' _ hand _ inv' => ?_
      exact outgoingConnectResult_runs { loop with poll := poll' }
        { outgoing with addr := behind + 1 } natural kind inv' hand ih

theorem outgoingResolve_runs (inv : Inv clean (credit + held outgoing.flow) (loop.listDel address)) :
    Runs (loop.outgoingResolve address outgoing)
      (Done clean credit (some address) loop.objects) := by
  rw [Loop.outgoingResolve]
  refine resolve_runs (fun fd => .outgoing { outgoing with
    fd := some fd, eventHandler := .outgoingResolveHandler }) inv natural kind ?_ ?_ ?_ ?_ ?_ ?_ ?_ ?_ ?_
  all_goals intro fd
  all_goals first | rfl | exact ⟨nofun, nofun⟩

end Outgoing

/-- The handlers of an outgoing object with a descriptor. -/
theorem outgoingConnectHandler_runs {outgoing : Outgoing} (inv : Inv clean credit loop)
    (natural : Natural credit) (reads : loop.objects.get address = some (.outgoing outgoing))
    (handler : outgoing.eventHandler = .outgoingConnectHandler) :
    Runs (loop.outgoingConnectHandler answers address outgoing)
      (Done clean credit (some address) loop.objects) := by
  have kind : ∀ entry, loop.objects.get address ≠ some (.exec entry) := fun entry other => by
    cases reads.symm.trans other
  have formed := inv.formed reads
  simp only [Object.Formed, handler, reduceCtorEq, or_self, iff_false] at formed
  cases fds : outgoing.fd with
  | none => exact absurd fds formed
  | some fd =>
      obtain ⟨poll, pollable, deleted, polls, hand, _, inv'⟩ :=
        inv.unplug (natural.fd fd) reads (show (Object.outgoing outgoing).slot = some fd from fds)
      cases polls
      change loop.poll.peerEpollDel (.peer address) fd false = .ok poll at deleted
      rw [Loop.outgoingConnectHandler, fds]
      simp only [deleted, Except.ok_bind]
      refine outgoingConnectResult_runs { loop with poll := poll } outgoing natural kind
        (inv'.recredit ?_) hand fun poll inv =>
          outgoingConnectNext_runs outgoing natural kind _ poll inv
      rw [charge_transport address (.outgoing outgoing) rfl rfl]
      simp only [Object.slot, Object.flows, Object.waiting, handler, fds, each, ↓reduceIte,
        reduceCtorEq, decide_false, Bool.toNat_false, Nat.cast_zero, Pi.single_zero]
      abel

theorem outgoingResolveHandler_runs {outgoing : Outgoing} (inv : Inv clean credit loop)
    (natural : Natural credit) (reads : loop.objects.get address = some (.outgoing outgoing))
    (handler : outgoing.eventHandler = .outgoingResolveHandler) :
    Runs (loop.outgoingResolveHandler answers address outgoing)
      (Done clean credit (some address) loop.objects) := by
  have kind : ∀ entry, loop.objects.get address ≠ some (.exec entry) := fun entry other => by
    cases reads.symm.trans other
  have formed := inv.formed reads
  simp only [Object.Formed, handler, reduceCtorEq, or_self, iff_false] at formed
  cases fds : outgoing.fd with
  | none => exact absurd fds formed
  | some fd =>
      obtain ⟨poll, closed, inv'⟩ := inv.shut (natural.fd fd) reads fds fun pollable polls => polls
      have inHand := inv'.recredit (show _ = credit + held outgoing.flow by
        rw [charge_transport address (.outgoing outgoing) rfl rfl]
        simp only [Object.slot, Object.flows, Object.waiting, handler, fds, each, ↓reduceIte,
          reduceCtorEq, decide_false, Bool.toNat_false, Nat.cast_zero, Pi.single_zero]
        abel)
      rw [Loop.outgoingResolveHandler, fds]
      simp only [Loop.resolveResult, closed, Except.ok_bind]
      cases answers.resolved with
      | none =>
          exact outgoingRetry_runs { loop with poll := poll } { outgoing with fd := none } natural kind inHand
      | some addrs =>
          exact outgoingConnectNext_runs { outgoing with fd := none } natural kind
            addrs poll inHand

/-! ## Incoming connections -/

/-- Not all of the addresses that were found fail to be bound. -/
def Answers.Binds (answers : Answers) : Prop :=
  ∀ addrs, answers.resolved = some addrs → addrs = 0 ∨ ∃ behind < addrs, answers.bind behind = true

section Incoming

variable {incoming : Incoming} (natural : Natural credit)
  (kind : ∀ entry, loop.objects.get address ≠ some (.exec entry))

include natural kind

variable (loop incoming) in
theorem incomingRetry_runs (inv : Inv clean (credit + held incoming.flow) (loop.listDel address))
    (closed : clean → incoming.fd = none) :
    Runs (loop.incomingRetry answers address incoming)
      (Done clean credit (some address) loop.objects) :=
  retry_runs inv natural.fd rfl rfl rfl rfl rfl closed fun entry reads => (kind entry reads).elim

/-- The addresses from one on: in a clean run one of them can be bound, or none was tried. -/
theorem incomingBind_runs (left : Nat) (fd : Option Nat) (poll : Poll)
    (inv : Inv clean (credit + held incoming.flow) (Loop.listDel { loop with poll := poll } address))
    (binds : clean → left = 0 ∧ fd = none ∨ ∃ behind < left, answers.bind behind = true) :
    Runs (Loop.incomingBind answers address left { incoming with fd := fd } { loop with poll := poll })
      (Done clean credit (some address) loop.objects) := by
  induction left generalizing fd poll with
  | zero =>
      rw [Loop.incomingBind]
      refine incomingRetry_runs { loop with poll := poll } { incoming with fd := fd } natural kind inv fun isClean => ?_
      rcases binds isClean with ⟨_, closed⟩ | ⟨behind, before, _⟩
      · exact closed
      · exact absurd before (Nat.not_lt_zero _)
  | succ behind ih =>
      rw [Loop.incomingBind]
      refine inv.openFd_runs true fun own poll' _ hand _ inv' => ?_
      dsimp only
      split
      · obtain ⟨poll'', added, _, _, plugged⟩ := Inv.plugBack { loop with poll := poll' } (.incoming {
            incoming with fd := some own, attempt := 0, eventHandler := .incomingHandler }) own
          (inv'.recredit (by
            rw [charge_transport address (.incoming _) rfl rfl]
            simp only [Object.slot, Object.flows, Object.waiting, each, ↓reduceIte, reduceCtorEq,
              decide_false, Bool.toNat_false, Nat.cast_zero, Pi.single_zero]
            abel)) (natural.fd own) rfl hand rfl (by
            simp only [Object.Formed, reduceCtorEq, ↓reduceIte, ne_eq, not_false_eq_true])
        change poll'.peerEpollAdd (.peer address) own .input = .ok (false, poll'') at added
        simp only [added, Except.ok_bind]
        exact ⟨plugged, .put fun entry reads => (kind entry reads).elim⟩
      · next fails =>
          obtain ⟨poll'', closed, _, inv''⟩ := inv'.closeFd hand (by
            have owns := natural.fd own
            simp only [held, Pi.add_apply, Pi.single_apply, reduceCtorEq, ↓reduceIte]
            omega)
          change poll'.closeFd own = .ok poll'' at closed
          simp only [closed, Except.ok_bind]
          refine ih (some own) poll'' (inv''.recredit (add_sub_cancel_right _ _)) fun isClean => ?_
          rcases binds isClean with ⟨none, _⟩ | ⟨found, before, succeeds⟩
          · cases none
          · refine .inr ⟨found, lt_of_le_of_ne (Nat.le_of_lt_succ before) ?_, succeeds⟩
            rintro rfl
            exact fails succeeds

theorem incomingResolve_runs (inv : Inv clean (credit + held incoming.flow) (loop.listDel address)) :
    Runs (loop.incomingResolve address incoming)
      (Done clean credit (some address) loop.objects) := by
  rw [Loop.incomingResolve]
  refine resolve_runs (fun fd => .incoming { incoming with
    fd := some fd, eventHandler := .incomingListen }) inv natural kind ?_ ?_ ?_ ?_ ?_ ?_ ?_ ?_ ?_
  all_goals intro fd
  all_goals first | rfl | simp [Object.Formed]

end Incoming

theorem incomingListen_runs {incoming : Incoming} (inv : Inv clean credit loop)
    (natural : Natural credit) (reads : loop.objects.get address = some (.incoming incoming))
    (handler : incoming.eventHandler = .incomingListen) (binds : clean → answers.Binds) :
    Runs (loop.incomingListen answers address incoming)
      (Done clean credit (some address) loop.objects) := by
  have kind : ∀ entry, loop.objects.get address ≠ some (.exec entry) := fun entry other => by
    cases reads.symm.trans other
  have formed := inv.formed reads
  simp only [Object.Formed, handler, reduceCtorEq, ↓reduceIte] at formed
  cases fds : incoming.fd with
  | none => exact absurd fds formed
  | some fd =>
      have slot : (Object.incoming incoming).slot = some fd := by
        simp only [Object.slot, handler, reduceCtorEq, ↓reduceIte, fds]
      obtain ⟨poll, closed, inv'⟩ := inv.shut (natural.fd fd) reads slot fun pollable polls => polls
      have inHand := inv'.recredit (show _ = credit + held incoming.flow by
        rw [charge_transport address (.incoming incoming) rfl rfl, slot]
        simp only [Object.flows, Object.waiting, handler, each, reduceCtorEq, decide_false,
          Bool.toNat_false, Nat.cast_zero, Pi.single_zero]
        abel)
      rw [Loop.incomingListen, fds]
      simp only [Loop.resolveResult, closed, Except.ok_bind]
      cases resolved : answers.resolved with
      | none =>
          exact incomingRetry_runs { loop with poll := poll } { incoming with fd := none } natural kind inHand fun _ => rfl
      | some addrs =>
          refine incomingBind_runs natural kind addrs none poll inHand fun isClean => ?_
          rcases binds isClean addrs resolved with none | some
          · exact .inl ⟨none, rfl⟩
          · exact .inr some

theorem incomingHandler_runs {incoming : Incoming} (inv : Inv clean credit loop)
    (natural : Natural credit) :
    Runs (loop.incomingHandler answers incoming) (Done clean credit none loop.objects) := by
  rw [Loop.incomingHandler]
  split
  · refine inv.openFd_runs true fun fd poll _ hand _ inv' => ?_
    exact (flowNewSendHello_runs inv' natural hand).bind fun result done => done
  · exact ⟨inv, .refl⟩

/-! ## Commands -/

section Commands

variable {exec : Exec} (natural : Natural credit)

include natural

theorem execRetry_runs (inv : Inv clean (credit + held exec.flow) (loop.listDel address))
    (child : exec.child = none) (logFd : exec.logFd = none) :
    Runs (loop.execRetry answers address exec) (Done clean credit (some address) loop.objects) :=
  retry_runs inv natural.fd rfl rfl logFd rfl rfl ⟨fun _ => logFd, fun _ => rfl, fun _ => child⟩
    fun _ _ => ⟨_, rfl⟩

omit natural in
/-- `peer_close` of `log_peer`: the object is in hand without it. -/
theorem execLogClose (inv : Inv clean credit loop) (natural : ∀ fd, 0 ≤ credit (.fd fd))
    (reads : loop.objects.get address = some (.exec exec)) :
    ∃ poll, loop.poll.peerClose (.logPeer address) false exec.logFd = .ok poll ∧
      Inv clean (credit + fun account =>
          charge account address (.exec { exec with logFd := none }))
        (Loop.listDel { loop with poll := poll } address) := by
  obtain ⟨poll, closed, inv'⟩ := inv.release natural reads
  refine ⟨poll, closed, inv'.recredit ?_⟩
  rw [charge_transport address (.exec _) rfl rfl, charge_transport address (.exec _) rfl rfl]
  simp only [Object.slot, Object.flows, Object.waiting, each]
  abel

theorem execLogHandler_runs (inv : Inv clean credit loop)
    (reads : loop.objects.get address = some (.exec exec)) :
    Runs (loop.execLogHandler answers address exec)
      (Done clean credit (some address) loop.objects) := by
  rw [Loop.execLogHandler]
  split
  · obtain ⟨poll, closed, inv'⟩ := execLogClose inv natural.fd reads
    simp only [closed, Except.ok_bind]
    exact ⟨inv'.putBack _ rfl ⟨fun _ => rfl, (inv.formed reads).2⟩ trivial, .put fun _ _ => ⟨_, rfl⟩⟩
  · exact ⟨inv, .refl⟩

omit natural in
/-- `exec_child_cleanup` leaves an object that has no child and is not retried. -/
theorem execChildCleanup_eq (inv : Inv clean credit loop) (natural : ∀ fd, 0 ≤ credit (.fd fd))
    (reads : loop.objects.get address = some (.exec exec)) (child : exec.child ≠ none) :
    exec.eventHandler = .execRetry ∧ ∃ poll,
      loop.execChildCleanup address exec = .ok (Loop.put { loop with poll := poll } address
        (.exec { exec with child := none, logFd := none })) ∧
      Inv clean (credit + held exec.flow) (Loop.listDel { loop with poll := poll } address) := by
  have handler : exec.eventHandler = .execRetry := by
    have formed := (inv.formed reads).2
    cases handler : exec.eventHandler with
    | execRetry => rfl
    | execSpawnWrapper => exact absurd (formed.mpr handler) child
  obtain ⟨poll, closed, inv'⟩ := execLogClose inv natural reads
  refine ⟨handler, poll, ?_, inv'.recredit ?_⟩
  · simp only [Loop.execChildCleanup, closed, Except.ok_bind]
  · rw [charge_transport address (.exec _) rfl rfl]
    simp only [Object.slot, Object.flows, Object.waiting, handler, each, reduceCtorEq, decide_false,
      Bool.toNat_false, Nat.cast_zero, Pi.single_zero]
    abel

variable (loop) in
theorem execParent_runs {dataFd logFd : Nat}
    (inv : Inv clean (credit + held exec.flow + one (.fd dataFd) + one (.fd logFd))
      (loop.listDel address))
    (data : loop.poll.Hand dataFd true) (log : loop.poll.Hand logFd true) (differ : dataFd ≠ logFd) :
    Runs (loop.execParent answers address exec dataFd logFd)
      (Done clean credit (some address) loop.objects) := by
  obtain ⟨poll, added, same, _, plugged⟩ := Inv.plugBack loop (.exec { exec with
      child := some answers.forked, logFd := some logFd, eventHandler := .execRetry }) logFd
    (inv.recredit (show _ = credit + one (.fd dataFd) + fun account => charge account address _ by
      rw [charge_transport address (.exec _) rfl rfl]
      simp only [Object.slot, Object.flows, Object.waiting, each, reduceCtorEq, decide_false,
        Bool.toNat_false, Nat.cast_zero, Pi.single_zero]
      abel)) (by
      have own := natural.fd logFd
      simp only [Pi.add_apply, Pi.single_apply]
      split <;> omega) rfl log rfl ⟨nofun, nofun, nofun⟩
  change loop.poll.peerEpollAdd (.logPeer address) logFd .input = .ok (false, poll) at added
  rw [Loop.execParent]
  simp only [added, Except.ok_bind]
  exact (flowNewSendHello_runs plugged natural (data.keep same differ)).bind fun result done =>
    ⟨done.inv, (Frame.put fun _ _ => ⟨_, rfl⟩).trans done.frame.weaken⟩

theorem execSpawn_runs (inv : Inv clean (credit + held exec.flow) (loop.listDel address)) :
    Runs (loop.execSpawn answers address exec)
      (Done clean credit (some address) loop.objects) := by
  rw [Loop.execSpawn]
  refine inv.openFd_runs true fun data poll1 _ hand1 _ inv1 => ?_
  refine inv1.openFd_runs true fun dataChild poll2 free2 hand2 same2 inv2 => ?_
  refine inv2.openFd_runs true fun log poll3 free3 hand3 same3 inv3 => ?_
  refine inv3.openFd_runs true fun logChild poll4 free4 hand4 same4 inv4 => ?_
  have ne12 := hand1.ne free2
  have hand1 := hand1.keep same2 ne12
  have ne13 := hand1.ne free3
  have hand1 := hand1.keep same3 ne13
  have ne14 := hand1.ne free4
  have hand1 := hand1.keep same4 ne14
  have ne23 := hand2.ne free3
  have hand2 := hand2.keep same3 ne23
  have ne24 := hand2.ne free4
  have hand2 := hand2.keep same4 ne24
  have ne34 := hand3.ne free4
  have hand3 := hand3.keep same4 ne34
  have owns : ∀ fd, 0 ≤ (credit + held exec.flow + one (.fd data) + one (.fd log)) (.fd fd) := by
    intro fd
    have own := natural.fd fd
    simp only [held, Pi.add_apply, Pi.single_apply, reduceCtorEq, ↓reduceIte]
    split <;> split <;> omega
  obtain ⟨poll5, closed5, same5, inv5⟩ := (inv4.recredit (show _ = credit + held exec.flow +
      one (.fd data) + one (.fd log) + one (.fd logChild) + one (.fd dataChild) by abel)).closeFd
    hand2 (by
      have own := owns dataChild
      rw [Pi.add_apply, Pi.add_apply, one_self, one_of_ne fun same => ne24 (Account.fd.inj same)]
      omega)
  rw [add_sub_cancel_right] at inv5
  obtain ⟨poll6, closed6, same6, inv6⟩ := inv5.closeFd (hand4.keep same5 ne24.symm) (by
    have own := owns logChild
    rw [Pi.add_apply, one_self]
    omega)
  rw [add_sub_cancel_right] at inv6
  change poll4.closeFd dataChild = .ok poll5 at closed5
  change poll5.closeFd logChild = .ok poll6 at closed6
  simp only [closed5, closed6, Except.ok_bind]
  exact execParent_runs { loop with poll := poll6 } natural inv6
    ((hand1.keep same5 ne12).keep same6 ne14) ((hand3.keep same5 ne23.symm).keep same6 ne34) ne13

end Commands

end Adsbus.EventLoop

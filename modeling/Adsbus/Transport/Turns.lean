import Adsbus.Transport.Calls

/-! # Turns of the loop

An option adds its transport with books that balance, and every peer that the loop calls
is ready to be called: it is alive, and its handler is one for its descriptor. So every
turn of the loop keeps the books, and what is still to be called in a batch stays ready,
whatever was freed before it.
-/

namespace Adsbus.EventLoop

variable {clean : Prop} {credit : Account → Int} {loop : Loop} {address fd : Nat} {object : Object}
  {answers : Answers} {peer : PeerRef}

/-! ## Options -/

section Additions

variable {flow : Flow} (inv : Inv clean 0 loop)
  (room : loop.objects.total (charge .transports) < 2 ^ 31 - 2)

include inv room

/-- A new transport is counted, and in hand. -/
theorem Inv.allocate (flow : Flow) (object : Object) :
    Inv clean (0 + held flow) (((loop.flowRefInc flow).put loop.objects.bound object).listDel
      loop.objects.bound) :=
  (((inv.takeTransport (by rw [Pi.zero_apply]; omega)).flowRefInc flow).recredit (by
    rw [held]
    abel)).reserve object

omit inv room in
/-- What a new transport's first handler leaves. -/
theorem Done.allocated {after : Loop} (done : Done clean 0 (some loop.objects.bound)
    (loop.objects.put loop.objects.bound object) after) : Done clean 0 none loop.objects after :=
  ⟨done.inv, ((Frame.put_fresh loop.objects.get_bound).trans done.frame).unslotted
    fun other reads => by
      rw [Table.get_bound] at reads
      cases reads⟩

omit inv room in
theorem notExec (differ : ∀ entry, object ≠ .exec entry) (entry : Exec) :
    (loop.objects.put address object).get address ≠ some (.exec entry) := by
  rw [Table.get_put_self]
  exact fun same => differ entry (Option.some.inj same)

theorem add_runs (addition : Addition) :
    Runs (loop.add answers addition) (Done clean 0 none loop.objects) := by
  cases addition with
  | outgoing flow =>
      exact (outgoingResolve_runs natural_zero (notExec fun entry other => by cases other)
        (inv.allocate room flow _)).mono fun after done => done.allocated
  | incoming flow =>
      exact (incomingResolve_runs natural_zero (notExec fun entry other => by cases other)
        (inv.allocate room flow _)).mono fun after done => done.allocated
  | exec flow =>
      exact (execSpawn_runs natural_zero (inv.allocate room flow _)).mono fun after done =>
        done.allocated
  | file flags flow =>
      exact (fileOpen_runs (inv.allocate room flow _) natural_zero
        (notExec fun entry other => by cases other) (Nat.lt_of_lt_of_le (Nat.lt_succ_self _)
          (Nat.le_max_right _ _))).mono fun after done => done.allocated
  | stdin pollable | stdout pollable =>
      refine inv.openFd_runs pollable fun fd poll _ hand _ inv' => ?_
      refine (flowNewSendHello_runs inv' natural_zero hand).bind fun result done => ?_
      dsimp only
      split
      · exact done
      · exact .inr (.inr rfl)

omit room in
theorem execInit_runs : Runs loop.execInit (Done clean 0 none loop.objects) := by
  refine inv.openFd_runs true fun fd poll _ hand _ inv' => ?_
  obtain ⟨poll', added, _, _, plugged⟩ := Inv.plug (.execPeer (some fd))
    (inv'.recredit (show _ = 0 + fun account =>
        charge account loop.objects.bound (.execPeer (some fd)) by
      rw [charge_eq]
      simp [Object.slot, Object.onClose, Object.flows, Object.innerPeer, Object.waiting,
        Object.isFlow, Object.counted, Object.isTransport, each]))
    (le_refl 0) loop.objects.get_bound rfl hand rfl trivial
  change poll.peerEpollAdd (.peer loop.objects.bound) fd .input = .ok (false, poll') at added
  simp only [added, Except.ok_bind]
  exact ⟨plugged, .put_fresh loop.objects.get_bound⟩

end Additions

/-! ## Calls of the loop -/

/-- The object whose peer it is. -/
def PeerRef.owner : PeerRef → Nat
  | .peer address => address
  | .logPeer address => address

/-- The peer may be called: its object is alive, with a descriptor of its own, or it is the log of a
command. -/
def Ready (objects : Table Object) : PeerRef → Prop
  | .peer address => ∃ object, objects.get address = some object ∧ object.slot ≠ none ∧
      ∀ entry, object ≠ .exec entry
  | .logPeer address => ∃ entry, objects.get address = some (.exec entry)

/-- What is ready stays so while another peer is called. -/
theorem Frame.ready {before after : Table Object} (frame : Frame (some peer.owner) before after)
    (called : Ready before peer) {other : PeerRef} (differ : other ≠ peer)
    (ready : Ready before other) : Ready after other := by
  cases other with
  | logPeer address =>
      obtain ⟨entry, reads⟩ := ready
      exact frame.exec reads
  | peer address =>
      obtain ⟨object, reads, slot, kind⟩ := ready
      refine ⟨object, frame.kept reads ?_ slot kind, slot, kind⟩
      rintro ⟨⟩
      cases peer with
      | peer own => exact differ rfl
      | logPeer own =>
          obtain ⟨entry, other⟩ := called
          exact kind entry (Option.some.inj (reads.symm.trans other))

/-- The peer that is called is that of an incoming object whose addresses have been found. -/
def Listens (objects : Table Object) (peer : PeerRef) : Prop :=
  ∃ address incoming, peer = .peer address ∧
    objects.get address = some (.incoming incoming) ∧ incoming.eventHandler = .incomingListen

theorem call_runs (inv : Inv clean 0 loop) (ready : Ready loop.objects peer)
    (binds : clean → loop.peerShutdownFlag = false → Listens loop.objects peer → answers.Binds) :
    Runs (loop.call answers peer) (Done clean 0 (some peer.owner) loop.objects) := by
  rw [Loop.call]
  split
  · exact ⟨inv, .refl⟩
  · next running =>
      rw [Bool.not_eq_true] at running
      cases peer with
      | logPeer address =>
          obtain ⟨entry, reads⟩ := ready
          rw [Loop.eventHandler, reads]
          exact execLogHandler_runs natural_zero inv reads
      | peer address =>
          obtain ⟨object, reads, slot, kind⟩ := ready
          rw [Loop.eventHandler, reads]
          cases object with
          | peerShutdownPeer own =>
              exact (peerShutdown_runs inv reads).mono fun after done => done.1
          | execPeer own =>
              exact (execSigchldHandler_runs inv running).mono fun after done =>
                ⟨done.inv, done.frame.weaken⟩
          | receive fd alwaysTrigger onClose =>
              change Runs (loop.receiveRead (Loop.peerCall answers 2) answers address fd
                alwaysTrigger onClose) _
              rw [Loop.receiveRead]
              split
              · refine receiveDel_runs inv natural_zero.toSettled reads
                  fun after same removed inv' => ?_
                refine peerCall_removed inv' (same.trans running) (fun entry other => ?_) removed
                cases reads.symm.trans other
              · exact ⟨inv, .refl⟩
          | send fd onClose =>
              refine sendDel_runs inv natural_zero.toSettled reads
                fun after same removed inv' => ?_
              refine peerCall_removed inv' (same.trans running) (fun entry other => ?_) removed
              cases reads.symm.trans other
          | sendReceive => exact absurd rfl slot
          | wakeup fd innerPeer delayMs => exact wakeupHandler_runs inv running reads
          | file => exact absurd rfl slot
          | outgoing outgoing =>
              have formed := inv.formed reads
              cases handler : outgoing.eventHandler with
              | outgoingConnectHandler =>
                  simp only [handler]
                  exact outgoingConnectHandler_runs inv natural_zero reads handler
              | outgoingResolveHandler =>
                  simp only [handler]
                  exact outgoingResolveHandler_runs inv natural_zero reads handler
              | outgoingDisconnectHandler => exact absurd (formed.mpr (.inl handler)) slot
              | outgoingResolveWrapper => exact absurd (formed.mpr (.inr handler)) slot
          | incoming incoming =>
              cases handler : incoming.eventHandler with
              | incomingListen =>
                  simp only [handler]
                  exact incomingListen_runs inv natural_zero reads handler fun isClean =>
                    binds isClean running ⟨address, incoming, rfl, reads, handler⟩
              | incomingHandler =>
                  simp only [handler]
                  exact (incomingHandler_runs inv natural_zero).mono fun after done =>
                    ⟨done.inv, done.frame.weaken⟩
              | incomingResolveWrapper => exact absurd (if_pos handler) slot
          | exec entry => exact absurd rfl (kind entry)

/-! ## Turns -/

/-- A peer that epoll reports is ready. -/
theorem Inv.registered (inv : Inv clean credit loop) (reported : loop.poll.registered peer = true) :
    Ready loop.objects peer := by
  obtain ⟨⟨fd, pollable, watch⟩, found⟩ := Option.isSome_iff_exists.mp reported
  obtain ⟨reads, watches⟩ := Table.of_find? found
  obtain ⟨⟨other, events⟩, rfl, same⟩ := (Option.any_eq_true _ _).mp watches
  cases of_decide_eq_true same
  obtain ⟨address, object, owner, slot, refers⟩ := inv.wired.watching reads
  cases object with
  | exec entry =>
      subst refers
      exact ⟨entry, owner⟩
  | _ =>
      subst refers
      exact ⟨_, owner, slot ▸ nofun, nofun⟩

/-- A peer that is called in every turn is ready. -/
theorem Inv.always (inv : Inv clean credit loop) (member : peer ∈ loop.poll.always) :
    Ready loop.objects peer := by
  obtain ⟨address, fd, onClose, reads, rfl⟩ := inv.wired.always.mp member
  exact ⟨_, reads, nofun, nofun⟩

/-- The others that are called in every turn are not taken off while one is called. -/
theorem Frame.always {after : Loop} (inv : Inv clean 0 loop) (inv' : Inv clean 0 after)
    (frame : Frame (some peer.owner) loop.objects after.objects) {other : PeerRef}
    (member : other ∈ loop.poll.always) (called : peer ∈ loop.poll.always) (differ : other ≠ peer) :
    other ∈ after.poll.always := by
  obtain ⟨own, _, _, _, rfl⟩ := inv.wired.always.mp called
  obtain ⟨address, fd, onClose, reads, rfl⟩ := inv.wired.always.mp member
  refine inv'.wired.always.mpr ⟨address, fd, onClose, frame.kept reads ?_ nofun nofun, rfl⟩
  rintro ⟨⟩
  exact differ rfl

/-- The successor of a peer in the list is another one, or the head. -/
theorem Poll.next_of_mem {poll : Poll} (distinct : poll.always.Nodup)
    (member : peer ∈ poll.always) : ∃ after, poll.next (some peer) = .ok after ∧
      ∀ other, after = some other → other ∈ poll.always ∧ other ≠ peer := by
  obtain ⟨before, rest, split⟩ := List.append_of_mem member
  rw [split] at distinct
  have fresh := (List.nodup_append'.mp distinct)
  have dropped : poll.always.dropWhile (· ≠ peer) = peer :: rest := by
    rw [split, List.dropWhile_append_of_pos, List.dropWhile_cons_of_neg]
    · simp only [ne_eq, not_true_eq_false, decide_false, Bool.false_eq_true, not_false_eq_true]
    · intro other inside
      refine decide_eq_true fun same => ?_
      exact List.disjoint_left.mp fresh.2.2 (same ▸ inside) List.mem_cons_self
  refine ⟨rest.head?, ?_, fun other isHead => ?_⟩
  · rw [Poll.next, dropped]
  · have inside := List.mem_of_mem_head? isHead
    refine ⟨split ▸ List.mem_append_right _ (List.mem_cons_of_mem _ inside), ?_⟩
    rintro rfl
    exact (List.nodup_cons.mp fresh.2.1).1 inside

/-- What is still to be called is ready, and distinct from what is called next. -/
def Poised (loop : Loop) : Phase → Prop
  | .batch events => events.Nodup ∧ ∀ peer ∈ events, Ready loop.objects peer
  | .sweep (some iter) next => iter ∈ loop.poll.always ∧
      ∀ peer, next = some peer → peer ∈ loop.poll.always ∧ peer ≠ iter
  | _ => True

/-- Nothing in hand but calls that are made no more. -/
structure Quiet (credit : Account → Int) : Prop extends Settled credit where
  none : ∀ fd, credit (.fd fd) = 0

/-- The program between two calls. Behind the loop the calls of what is freed are not made; what is
known then is known of clean runs only. -/
structure Sound (clean : Prop) (state : LoopState) : Prop where
  inv : state.phase ≠ .left → Inv clean 0 state.loop
  root : state.phase ≠ .left → state.phase = .options ∨ state.loop.peerShutdownFlag = false →
    ∃ fd, state.loop.objects.get Loop.peerShutdownAddress = some (.peerShutdownPeer (some fd))
  poised : Poised state.loop state.phase
  left : state.phase = .left → clean → state.loop.peerShutdownFlag = true ∧
    ∃ credit, Quiet credit ∧ Inv clean credit state.loop

/-- An incoming object finds addresses, and none of them can be bound. -/
def LoopState.FailsToBind (state : LoopState) : LoopAct → Prop
  | .next answers => state.loop.peerShutdownFlag = false ∧ (∃ peer rest,
      state.phase = .batch (peer :: rest) ∧ Listens state.loop.objects peer) ∧ ¬ answers.Binds
  | _ => False

/-- The call of a peer leaves the peer of the signals as it is, or the program is shut down. -/
theorem call_root {after : Loop} (ready : Ready loop.objects peer)
    (frame : Frame (some peer.owner) loop.objects after.objects)
    (called : loop.call answers peer = .ok after)
    (root : loop.peerShutdownFlag = false → ∃ fd,
      loop.objects.get Loop.peerShutdownAddress = some (.peerShutdownPeer (some fd)))
    (running : after.peerShutdownFlag = false) :
    ∃ fd, after.objects.get Loop.peerShutdownAddress = some (.peerShutdownPeer (some fd)) := by
  cases flag : loop.peerShutdownFlag with
  | true =>
      rw [Loop.call, flag, if_pos rfl] at called
      cases called
      rw [flag] at running
      cases running
  | false =>
      obtain ⟨fd, reads⟩ := root flag
      refine ⟨fd, frame.kept reads ?_ nofun nofun⟩
      intro same
      have owns := Option.some.inj same
      cases peer with
      | logPeer address =>
          obtain ⟨entry, other⟩ := ready
          change address = _ at owns
          rw [owns, reads] at other
          cases other
      | peer address =>
          change address = _ at owns
          subst owns
          rw [Loop.call, flag, if_neg Bool.false_ne_true, Loop.eventHandler, reads] at called
          change loop.peerShutdown Loop.peerShutdownAddress = .ok after at called
          rw [Loop.peerShutdown, reads] at called
          obtain ⟨poll, _, rest⟩ := Except.bind_eq_ok.mp called
          cases rest
          cases running

variable {state : LoopState}

theorem Sound.inLoop {phase : Phase} (options : phase ≠ .options) (inside : phase ≠ .left)
    (inv : Inv clean 0 loop) (root : loop.peerShutdownFlag = false → ∃ fd,
      loop.objects.get Loop.peerShutdownAddress = some (.peerShutdownPeer (some fd)))
    (poised : Poised loop phase) : Sound clean ⟨loop, phase⟩ where
  inv := fun _ => inv
  root := fun _ running => root (running.resolve_left options)
  poised := poised
  left := fun left => absurd left inside

/-- A turn of the loop, in a batch or behind it. -/
theorem Sound.turn (sound : Sound clean state)
    (binds : clean → ¬ state.FailsToBind (.next answers)) {result : Except LoopFault LoopState}
    (taken : state.turn answers = some result) : Runs result (Sound clean) := by
  obtain ⟨loop, phase⟩ := state
  cases phase with
  | options | idle | left => cases taken
  | batch events =>
      have inv := sound.inv nofun
      have root := fun running => sound.root nofun (.inr running)
      cases events with
      | nil =>
          cases taken
          change Runs (loop.poll.next loop.poll.always.head? >>= _) _
          cases head : loop.poll.always.head? with
          | none => exact Sound.inLoop nofun nofun inv root trivial
          | some iter =>
              have member := List.mem_of_mem_head? head
              obtain ⟨after, found, others⟩ := Poll.next_of_mem inv.wired.distinct member
              rw [found]
              exact Sound.inLoop nofun nofun inv root ⟨member, others⟩
      | cons peer events =>
          cases taken
          obtain ⟨distinct, ready⟩ := sound.poised
          obtain ⟨fresh, distinct⟩ := List.nodup_cons.mp distinct
          obtain ⟨first, ready⟩ := List.forall_mem_cons.mp ready
          refine (call_runs inv first fun isClean running listens => ?_).bind_eq
            fun after called done => ?_
          · by_contra fails
            exact binds isClean ⟨running, ⟨peer, events, rfl, listens⟩, fails⟩
          · refine Sound.inLoop nofun nofun done.inv (call_root first done.frame called root)
              ⟨distinct, fun other member => ?_⟩
            exact done.frame.ready first (fun same => fresh (same ▸ member)) (ready other member)
  | sweep iter next =>
      have inv := sound.inv nofun
      have root := fun running => sound.root nofun (.inr running)
      cases iter with
      | none =>
          cases taken
          exact Sound.inLoop nofun nofun inv root trivial
      | some iter =>
          cases taken
          obtain ⟨member, others⟩ := sound.poised
          have ready := inv.always member
          refine (call_runs inv ready fun _ _ listens => ?_).bind_eq fun after called done => ?_
          · obtain ⟨address, incoming, same, reads, _⟩ := listens
            obtain ⟨other, fd, onClose, reads', same'⟩ := inv.wired.always.mp member
            cases same.symm.trans same'
            cases reads.symm.trans reads'
          · have root' := call_root ready done.frame called root
            cases next with
            | none => exact Sound.inLoop nofun nofun done.inv root' trivial
            | some next =>
                obtain ⟨inside, differ⟩ := others next rfl
                have stays := Frame.always inv done.inv done.frame inside member differ
                obtain ⟨final, found, others'⟩ := Poll.next_of_mem done.inv.wired.distinct stays
                change Runs (after.poll.next (some next) >>= _) _
                rw [found]
                exact Sound.inLoop nofun nofun done.inv root' ⟨stays, others'⟩

/-! ## Other descriptors -/

theorem Inv.openOther {pollable : Bool} {poll : Poll} (inv : Inv clean credit loop)
    (opened : loop.poll.openFd pollable = .ok (fd, poll)) :
    Inv clean credit { loop with poll := { poll with others := fd :: poll.others } } := by
  rcases inv.openFd pollable with limit | ⟨fd', poll', opened', _, _, _, inv'⟩
  · cases opened.symm.trans limit
  · cases opened.symm.trans opened'
    exact (inv'.lend fd).recredit (add_sub_cancel_right _ _)

theorem Inv.closeOther (inv : Inv clean credit loop) (settled : Settled credit)
    (other : fd ∈ loop.poll.others) : ∃ poll, loop.poll.closeFd fd = .ok poll ∧
      Inv clean credit { loop with poll := { poll with others := poll.others.erase fd } } := by
  obtain ⟨pollable, hand, inv'⟩ := inv.reclaim (settled.fd fd) other
  obtain ⟨poll, closed, _, inv''⟩ := inv'.closeFd hand (by
    have own := settled.fd fd
    rw [Pi.add_apply, one_self]
    omega)
  rw [add_sub_cancel_right] at inv''
  have reads : loop.poll.fds.get fd = some ⟨pollable, none⟩ := hand
  simp only [Poll.closeFd, reads, Except.ok.injEq] at closed
  subst closed
  exact ⟨{ loop.poll with fds := loop.poll.fds.remove fd }, by rw [Poll.closeFd, reads], inv''⟩

/-- What is poised stays so while the objects do. -/
theorem Poised.same {after : Loop} {phase : Phase} (poised : Poised loop phase)
    (inv : Inv clean 0 loop) (inv' : Inv clean 0 after) (objects : after.objects = loop.objects) :
    Poised after phase := by
  have member : ∀ {peer}, peer ∈ loop.poll.always → peer ∈ after.poll.always := fun inside => by
    rw [inv'.wired.always, objects]
    exact inv.wired.always.mp inside
  cases phase with
  | batch events => exact ⟨poised.1, fun peer inside => objects ▸ poised.2 peer inside⟩
  | sweep iter next =>
      cases iter with
      | none => trivial
      | some iter =>
          exact ⟨member poised.1, fun peer isNext =>
            ⟨member (poised.2 peer isNext).1, (poised.2 peer isNext).2⟩⟩
  | _ => trivial

/-- The books are known, in the loop or in a clean run. -/
theorem Sound.books (sound : Sound clean state) (known : clean ∨ state.phase ≠ .left) :
    ∃ credit, Settled credit ∧ Inv clean credit state.loop := by
  by_cases left : state.phase = .left
  · rcases known with isClean | inside
    · obtain ⟨_, credit, quiet, inv⟩ := sound.left left isClean
      exact ⟨credit, quiet.toSettled, inv⟩
    · exact absurd left inside
  · exact ⟨0, natural_zero.toSettled, sound.inv left⟩

/-- Descriptors that no object has do not matter to the objects. -/
theorem Sound.same (sound : Sound clean state) (after : Loop)
    (objects : after.objects = state.loop.objects)
    (flag : after.peerShutdownFlag = state.loop.peerShutdownFlag)
    (keeps : ∀ credit, Settled credit → Inv clean credit state.loop → Inv clean credit after) :
    Sound clean { state with loop := after } where
  inv := fun inside => keeps 0 natural_zero.toSettled (sound.inv inside)
  root := fun inside running => by
    rw [objects]
    exact sound.root inside (flag ▸ running)
  poised := by
    by_cases left : state.phase = .left
    · simp only [left, Poised]
    · exact sound.poised.same (sound.inv left) (keeps 0 natural_zero.toSettled (sound.inv left))
        objects
  left := fun left isClean => by
    obtain ⟨gone, credit, quiet, inv⟩ := sound.left left isClean
    exact ⟨flag.trans gone, credit, quiet, keeps credit quiet.toSettled inv⟩

theorem Sound.openOther (sound : Sound clean state) {pollable : Bool}
    {result : Except LoopFault LoopState} (taken : state.step (.openOther pollable) = some result) :
    Runs result (Sound clean) := by
  cases taken
  cases opened : state.loop.poll.openFd pollable with
  | error fault =>
      simp only [Poll.openFd] at opened
      split at opened
      · cases opened
      · cases opened
        exact .inl rfl
  | ok pair => exact sound.same _ rfl rfl fun credit _ inv => inv.openOther opened

theorem Sound.closeOther (sound : Sound clean state) (known : clean ∨ state.phase ≠ .left)
    {result : Except LoopFault LoopState} (taken : state.step (.closeOther fd) = some result) :
    Runs result (Sound clean) := by
  simp only [LoopState.step] at taken
  split at taken
  · next other =>
      cases taken
      obtain ⟨credit, settled, inv⟩ := sound.books known
      obtain ⟨poll, closed, _⟩ := inv.closeOther settled other
      rw [closed]
      refine sound.same { state.loop with
        poll := { poll with others := poll.others.erase fd } } rfl rfl fun credit settled inv => ?_
      obtain ⟨poll', closed', inv'⟩ := inv.closeOther settled other
      cases closed.symm.trans closed'
      exact inv'
  · cases taken

end Adsbus.EventLoop

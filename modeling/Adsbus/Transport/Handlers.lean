import Adsbus.Transport.Wires

/-! # What the handlers do

Every function of the loop keeps the books. What can fail is a descriptor too many or a
delay that cannot be drawn, no assertion of the program; and beyond its own object a
handler changes none that has a descriptor, but for objects of commands. Here are the
functions that the transports share: wakeups, flows and resolution.
-/

namespace Adsbus.EventLoop

/-- The ways to stop that are no failed assertion of the loop. -/
def LoopFault.Benign (fault : LoopFault) : Prop :=
  fault = .limit ∨ fault = .retryDelay ∨ fault = .exit

/-- The handler ends as said, or stops in one of those ways. -/
abbrev Runs {α : Type} (result : Except LoopFault α) (post : α → Prop) : Prop :=
  result.Ends LoopFault.Benign post

/-- The objects with a descriptor, but for one and those of commands, stay as they are, and commands
stay commands. -/
structure Frame (own : Option Nat) (before after : Table Object) : Prop where
  kept : ∀ {address object}, before.get address = some object → own ≠ some address →
    object.slot ≠ none → (∀ entry, object ≠ .exec entry) → after.get address = some object
  exec : ∀ {address entry}, before.get address = some (.exec entry) →
    ∃ entry', after.get address = some (.exec entry')

/-- What a handler leaves. -/
structure Done (clean : Prop) (credit : Account → Int) (own : Option Nat) (before : Table Object)
    (after : Loop) : Prop where
  inv : Inv clean credit after
  frame : Frame own before after.objects

variable {clean : Prop} {credit : Account → Int} {loop : Loop} {address : Nat} {object : Object}
  {fd : Nat} {poll : Poll} {pollable : Bool} {own : Option Nat} {before middle after : Table Object}
  {onClose : Option Nat} {answers : Answers}

theorem Frame.refl : Frame own before before := ⟨fun reads _ _ _ => reads, fun reads => ⟨_, reads⟩⟩

theorem Frame.trans (first : Frame own before middle) (second : Frame own middle after) :
    Frame own before after where
  kept := fun reads other slot kind => second.kept (first.kept reads other slot kind) other slot kind
  exec := fun reads => by
    obtain ⟨_, reads'⟩ := first.exec reads
    exact second.exec reads'

theorem Frame.weaken (frame : Frame none before after) : Frame own before after :=
  ⟨fun reads _ slot kind => frame.kept reads nofun slot kind, frame.exec⟩

theorem Frame.put_fresh (free : before.get address = none) :
    Frame own before (before.put address object) := by
  have elsewhere : ∀ {at' held}, before.get at' = some held →
      (before.put address object).get at' = some held := fun {at' held} reads => by
    refine Table.get_put_eq_some.mpr (.inr ⟨?_, reads⟩)
    rintro rfl
    rw [free] at reads
    cases reads
  exact ⟨fun reads _ _ _ => elsewhere reads, fun reads => ⟨_, elsewhere reads⟩⟩

/-- An object that takes the place of one of its kind. -/
theorem Frame.put (kind : ∀ entry, before.get address = some (.exec entry) →
    ∃ entry', object = .exec entry') : Frame (some address) before (before.put address object) where
  kept := fun reads other _ _ =>
    Table.get_put_eq_some.mpr (.inr ⟨fun same => other (congrArg some same.symm), reads⟩)
  exec := fun {at' entry} reads => by
    by_cases here : at' = address
    · subst here
      obtain ⟨entry', rfl⟩ := kind entry reads
      exact ⟨entry', Table.get_put_self ..⟩
    · exact ⟨entry, Table.get_put_eq_some.mpr (.inr ⟨here, reads⟩)⟩

theorem Frame.remove (kind : ∀ entry, before.get address ≠ some (.exec entry)) :
    Frame (some address) before (before.remove address) where
  kept := fun reads other _ _ =>
    Table.get_remove_eq_some.mpr ⟨fun same => other (congrArg some same.symm), reads⟩
  exec := fun {_ entry} reads =>
    ⟨entry, Table.get_remove_eq_some.mpr ⟨fun same => kind entry (same ▸ reads), reads⟩⟩

/-- The own object does not matter if it has no descriptor, or is that of a command. -/
theorem Frame.unslotted (frame : Frame (some address) before after)
    (slot : ∀ object, before.get address = some object →
      object.slot = none ∨ ∃ entry, object = .exec entry) : Frame own before after where
  kept := fun {at' object} reads _ slotted kind => by
    refine frame.kept reads ?_ slotted kind
    rintro ⟨⟩
    rcases slot object reads with none | ⟨entry, isExec⟩
    · exact slotted none
    · exact kind entry isExec
  exec := frame.exec

/-- A descriptor is opened and comes in hand, if there is one. -/
theorem Inv.openFd_runs {α : Type} {next : Nat × Poll → Except LoopFault α} {post : α → Prop}
    (inv : Inv clean credit loop) (pollable : Bool)
    (rest : ∀ fd poll, loop.poll.fds.get fd = none → poll.Hand fd pollable →
      loop.poll.Same poll fd → Inv clean (credit + one (.fd fd)) { loop with poll := poll } →
        Runs (next (fd, poll)) post) :
    Runs (loop.poll.openFd pollable >>= next) post := by
  rcases inv.openFd pollable with limit | ⟨fd, poll, opened, free, hand, same, inv'⟩
  · rw [limit]
    exact .inl rfl
  · rw [opened]
    exact rest fd poll free hand same inv'

/-! ## What the objects are charged with -/

section Charges

variable (address fd onClose)

theorem charge_receive (alwaysTrigger : Bool) :
    (fun account => charge account address (.receive fd alwaysTrigger onClose)) =
      one (.fd fd) + owed onClose + one (.ran address) + one (.count .receive) := by
  rw [charge_eq]
  simp [Object.slot, Object.onClose, Object.flows, Object.innerPeer, Object.waiting,
    Object.isFlow, Object.counted, Object.isTransport, each]

theorem charge_send : (fun account => charge account address (.send fd onClose)) =
    one (.fd fd) + owed onClose + one (.ran address) + one (.count .send) := by
  rw [charge_eq]
  simp [Object.slot, Object.onClose, Object.flows, Object.innerPeer, Object.waiting,
    Object.isFlow, Object.counted, Object.isTransport, each]

theorem charge_sendReceive (refCount : UInt8) :
    (fun account => charge account address (.sendReceive refCount onClose)) =
      owed onClose - Pi.single (.flow address) (refCount.toNat : Int) + one (.ran address) := by
  rw [charge_eq]
  simp [Object.slot, Object.onClose, Object.flows, Object.innerPeer, Object.waiting,
    Object.isFlow, Object.counted, Object.isTransport, each]

theorem charge_wakeup (innerPeer : Nat) (delayMs : UInt32) :
    (fun account => charge account address (.wakeup fd innerPeer delayMs)) =
      one (.fd fd) + one (.wake innerPeer) := by
  rw [charge_eq]
  simp [Object.slot, Object.onClose, Object.flows, Object.innerPeer, Object.waiting,
    Object.isFlow, Object.counted, Object.isTransport, each]

/-- A transport has its places, may have a descriptor, and waits for a flow or a wakeup or not. -/
theorem charge_transport (object : Object) {flow : Flow} (counted : object.counted = some flow)
    (transport : object.isTransport = true) :
    (fun account => charge account address object) = held flow + each .fd object.slot -
      Pi.single (.flow address) (object.flows : Int) -
        Pi.single (.wake address) (object.waiting.toNat : Int) := by
  cases object with
  | file | outgoing | incoming | exec =>
      rw [charge_eq, counted]
      simp only [Object.onClose, Object.innerPeer, Object.isFlow, Object.isTransport, each, held,
        Bool.toNat_false, Bool.toNat_true, Nat.cast_zero, Nat.cast_one, Pi.single_zero]
      abel
  | _ => cases transport

end Charges

/-! ## Wakeups -/

theorem wakeupAdd_runs {peer : Nat} {delayMs attempt jitter : UInt32}
    (inv : Inv clean (credit + one (.wake peer)) loop) (natural : ∀ fd, 0 ≤ credit (.fd fd))
    (drawn : .draw attempt jitter ∈ loop.history)
    (delay : wakeupGetRetryDelayMs attempt jitter = some delayMs) :
    Runs (loop.wakeupAdd peer delayMs) (Done clean credit none loop.objects) := by
  rw [Loop.wakeupAdd]
  refine inv.openFd_runs true fun fd poll _ hand _ inv' => ?_
  obtain ⟨poll', added, _, _, plugged⟩ := Inv.plug (.wakeup fd peer delayMs)
    (inv'.recredit (by
      rw [charge_wakeup loop.objects.bound fd peer delayMs]
      abel)) (natural fd) loop.objects.get_bound rfl hand rfl ⟨attempt, jitter, drawn, delay⟩
  change poll.peerEpollAdd (.peer loop.objects.bound) fd .input = .ok (false, poll') at added
  simp only [added, Except.ok_bind]
  exact ⟨plugged, .put_fresh loop.objects.get_bound⟩

theorem fits_of_isTransport {objects : Table Object} (transport : object.isTransport = true) :
    Fits objects address object := by
  cases object with
  | sendReceive => cases transport
  | _ => trivial

/-- What the retry functions have in common: the transport, in hand, waits for the wakeup. -/
theorem retry_runs {attempt : UInt32} {waiting : Object} {flow : Flow}
    (inv : Inv clean (credit + held flow) (loop.listDel address))
    (natural : ∀ fd, 0 ≤ credit (.fd fd)) (transport : waiting.isTransport = true)
    (counted : waiting.counted = some flow) (slot : waiting.slot = none) (flows : waiting.flows = 0)
    (waits : waiting.waiting = true) (formed : waiting.Formed clean loop.history)
    (kind : ∀ entry, loop.objects.get address = some (.exec entry) →
      ∃ entry', waiting = .exec entry') :
    Runs (loop.retry answers address attempt waiting)
      (Done clean credit (some address) loop.objects) := by
  rw [Loop.retry]
  cases delay : wakeupGetRetryDelayMs attempt answers.jitter with
  | none => exact .inr (.inl rfl)
  | some delayMs =>
      have placed := ((inv.log (.draw attempt answers.jitter)).recredit (show _ =
        credit + one (.wake address) + fun account => charge account address waiting by
          rw [charge_transport address waiting counted transport, slot, flows, waits, Event.moves]
          simp only [each, Nat.cast_zero, Pi.single_zero, Bool.toNat_true, Nat.cast_one]
          abel)).putBack (loop.log (.draw attempt answers.jitter)) slot (formed.log _)
            (fits_of_isTransport transport)
      refine (wakeupAdd_runs placed natural List.mem_cons_self delay).mono fun after done =>
          ⟨done.inv, (Frame.put kind).trans done.frame.weaken⟩

/-! ## Flows -/

/-- What a new flow leaves: the descriptor that it was given stays open, and no other changes. -/
structure Started (clean : Prop) (credit : Account → Int) (fd : Nat) (before after : Loop) : Prop
    extends Done clean credit none before.objects after where
  stays : (after.poll.fds.get fd).isSome
  same : before.poll.Same after.poll fd

variable (loop) in
theorem receiveNew_starts
    (inv : Inv clean (credit + one (.fd fd) + owed onClose) loop) (natural : ∀ fd, 0 ≤ credit (.fd fd))
    (hand : loop.poll.Hand fd pollable) :
    Runs (loop.receiveNew fd onClose) (Started clean credit fd loop) := by
  have logged := ((inv.flowRefInc .receive).log (.flowNew loop.objects.bound)).recredit
    (show _ = credit + fun account =>
        charge account loop.objects.bound (.receive fd (!pollable) onClose) by
      rw [charge_receive loop.objects.bound fd onClose (!pollable), Event.moves]
      abel)
  obtain ⟨poll, added, same, stays, plugged⟩ := Inv.plug (.receive fd (!pollable) onClose)
    logged (natural fd) loop.objects.get_bound rfl hand rfl trivial
  change loop.poll.peerEpollAdd (.peer loop.objects.bound) fd .input = .ok (!pollable, poll) at added
  rw [Loop.receiveNew]
  simp only [Loop.flowRefInc, added, Except.ok_bind]
  exact ⟨⟨plugged, .put_fresh loop.objects.get_bound⟩, stays, same⟩

theorem sendNew_starts
    (inv : Inv clean (credit + one (.fd fd) + owed onClose) loop) (natural : ∀ fd, 0 ≤ credit (.fd fd))
    (hand : loop.poll.Hand fd pollable) :
    Runs (loop.sendNew fd onClose) (Started clean credit fd loop) := by
  have logged := ((inv.flowRefInc .send).log (.flowNew loop.objects.bound)).recredit
    (show _ = credit + fun account => charge account loop.objects.bound (.send fd onClose) by
      rw [charge_send loop.objects.bound fd onClose, Event.moves]
      abel)
  obtain ⟨poll, added, same, stays, plugged⟩ := Inv.plug (.send fd onClose)
    logged (natural fd) loop.objects.get_bound rfl hand trivial trivial
  change loop.poll.peerEpollAdd (.peer loop.objects.bound) fd .none = .ok (false, poll) at added
  rw [Loop.sendNew]
  simp only [Loop.flowRefInc, added, Except.ok_bind]
  exact ⟨⟨plugged, .put_fresh loop.objects.get_bound⟩, stays, same⟩

/-- An address that is not in use is nobody's `on_close`. -/
theorem Inv.unowed (inv : Inv clean credit loop) (natural : ∀ peer, 0 ≤ credit (.flow peer))
    (free : loop.objects.get address = none) {other : Nat} {object : Object}
    (reads : loop.objects.get other = some object) : object.onClose ≠ some address := by
  intro calls
  have books := inv.balanced (.flow address)
  have owed := natural address
  have elsewhere : ∀ {at' : Nat} {held : Object}, loop.objects.get at' = some held →
      address ≠ at' := by
    rintro at' held reads rfl
    rw [free] at reads
    cases reads
  have one : charge (.flow address) other object ≤ loop.objects.total (charge (.flow address)) :=
    Table.le_total (fun at' held reads => charge_flow_nonneg (elsewhere reads)) reads
  simp only [charge, calls, elsewhere reads, ↓reduceIte] at one
  simp only [Loop.Books] at books
  omega

/-- The `on_close` of a new flow is no send-receive flow. -/
def Outer (objects : Table Object) (onClose : Option Nat) : Prop :=
  ∀ peer, onClose = some peer → ∃ object, objects.get peer = some object ∧
    ∀ refCount onClose, object ≠ .sendReceive refCount onClose

theorem outer_none {objects : Table Object} : Outer objects none := fun _ calls => by cases calls

theorem sendReceiveNew_runs
    (inv : Inv clean (credit + one (.fd fd) + owed onClose) loop) (natural : Natural credit)
    (hand : loop.poll.Hand fd pollable) (outer : Outer loop.objects onClose) :
    Runs (loop.sendReceiveNew fd onClose) (Done clean credit none loop.objects) := by
  have free := loop.objects.get_bound
  have owes : ∀ peer, 0 ≤ (credit + one (.fd fd) + owed onClose) (.flow peer) := fun peer => by
    have own := natural.flow peer
    simp only [Pi.add_apply, Pi.single_apply, reduceCtorEq, ↓reduceIte, each_apply]
    split <;> omega
  have fits : Fits loop.objects loop.objects.bound (.sendReceive 2 onClose) := by
    refine ⟨fun other refCount reads => inv.unowed owes free reads rfl, fun peer calls => ?_⟩
    obtain ⟨object, reads, kind⟩ := outer peer calls
    refine ⟨fun same => ?_, fun refCount onClose nested => ?_⟩
    · rw [same, free] at reads
      cases reads
    · exact kind refCount onClose (Option.some.inj (reads.symm.trans nested))
  have placed := ((inv.log (.flowNew loop.objects.bound)).recredit
    (show _ = (credit + one (.flow loop.objects.bound) + one (.fd fd) +
        owed (some loop.objects.bound)) + fun account =>
          charge account loop.objects.bound (.sendReceive 2 onClose) by
      rw [charge_sendReceive loop.objects.bound onClose 2, Event.moves,
        show ((2 : UInt8).toNat : Int) = 1 + 1 from rfl, Pi.single_add, owed_some]
      abel)).put free rfl (show (2 : UInt8) ≠ 0 by decide) fits
  rw [Loop.sendReceiveNew]
  refine (sendNew_starts placed (fun own => ?_) hand).bind fun sent started => ?_
  · have own := natural.fd own
    simp only [Pi.add_apply, Pi.single_apply, reduceCtorEq, ↓reduceIte]
    omega
  · obtain ⟨⟨pollable', watch⟩, isOpen⟩ := Option.isSome_iff_exists.mp started.stays
    simp only [Poll.dupFd, isOpen]
    refine started.inv.openFd_runs pollable' fun fd2 poll _ hand2 _ inv2 => ?_
    refine (receiveNew_starts { sent with poll := poll } (inv2.recredit (by
      rw [owed_some]
      abel)) natural.fd hand2).mono fun after received => ⟨received.inv, ?_⟩
    exact (Frame.put_fresh free).trans (started.frame.trans received.frame)

theorem flowNew_runs {flow : Flow}
    (inv : Inv clean (credit + one (.fd fd) + owed onClose) loop) (natural : Natural credit)
    (hand : loop.poll.Hand fd pollable) (outer : Outer loop.objects onClose) :
    Runs (loop.flowNew fd flow onClose) (Done clean credit none loop.objects) := by
  cases flow with
  | receive =>
      exact (receiveNew_starts loop inv natural.fd hand).mono fun after started => started.toDone
  | send => exact (sendNew_starts inv natural.fd hand).mono fun after started => started.toDone
  | sendReceive => exact sendReceiveNew_runs inv natural hand outer

/-- A flow that calls nobody when it closes, or a hello that fails. -/
theorem flowNewSendHello_runs {flow : Flow} (inv : Inv clean (credit + one (.fd fd)) loop)
    (natural : Natural credit) (hand : loop.poll.Hand fd pollable) :
    Runs (loop.flowNewSendHello answers fd flow none) fun result =>
      Done clean credit none loop.objects result.2 := by
  rw [Loop.flowNewSendHello]
  split
  · exact (flowNew_runs (inv.recredit (by rw [owed_none, add_zero])) natural hand outer_none).bind
      fun after done => done
  · obtain ⟨poll, closed, _, inv'⟩ := inv.closeFd hand (by
      have own := natural.fd fd
      rw [Pi.add_apply, one_self]
      omega)
    simp only [closed, Except.ok_bind]
    exact ⟨inv'.recredit (add_sub_cancel_right _ _), .refl⟩

/-! ## Resolution -/

/-- `resolve` for a transport in hand, which gets the descriptor. -/
theorem resolve_runs (resolving : Nat → Object) {flow : Flow}
    (inv : Inv clean (credit + held flow) (loop.listDel address)) (natural : Natural credit)
    (kind : ∀ entry, loop.objects.get address ≠ some (.exec entry))
    (transport : ∀ fd, (resolving fd).isTransport = true)
    (counted : ∀ fd, (resolving fd).counted = some flow)
    (slot : ∀ fd, (resolving fd).slot = some fd) (flows : ∀ fd, (resolving fd).flows = 0)
    (waits : ∀ fd, (resolving fd).waiting = false) (polls : ∀ fd, (resolving fd).Polls true)
    (peer : ∀ fd, (resolving fd).peerRef address = .peer address)
    (events : ∀ fd, (resolving fd).events = .input)
    (formed : ∀ fd, (resolving fd).Formed clean loop.history) :
    Runs (do
      let (fd, loop) ← loop.resolve address
      .ok (loop.put address (resolving fd))) (Done clean credit (some address) loop.objects) := by
  have framed : ∀ fd, Frame (some address) loop.objects (loop.objects.put address (resolving fd)) :=
    fun fd => Frame.put fun entry reads => (kind entry reads).elim
  rw [Loop.resolve]
  rw [bind_assoc]
  refine inv.openFd_runs true fun fd poll _ hand _ inv' => ?_
  dsimp only
  rw [bind_assoc]
  refine inv'.openFd_runs true fun returnFd poll' free _ same inv'' => ?_
  have hand' : ({ poll' with others := returnFd :: poll'.others } : Poll).Hand fd true :=
    hand.keep same (hand.ne free)
  obtain ⟨poll'', added, _, _, plugged⟩ :=
    Inv.plugBack { loop with poll := { poll' with others := returnFd :: poll'.others } }
      (resolving fd) fd
      ((inv''.lend returnFd).recredit (show _ = credit +
          fun account => charge account address (resolving fd) by
        rw [charge_transport address (resolving fd) (counted fd) (transport fd), slot, flows, waits]
        simp only [each, Bool.toNat_false, Nat.cast_zero, Pi.single_zero]
        abel))
      (natural.fd fd) (slot fd) hand' (polls fd) (formed fd)
  rw [peer, events] at added
  simp only [added, Except.ok_bind]
  exact ⟨plugged, framed fd⟩

end Adsbus.EventLoop

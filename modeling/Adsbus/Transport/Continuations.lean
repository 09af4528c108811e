import Adsbus.Transport.PeerLoop

/-! # Continuations

A transport has no thread of its own. What is to happen to it next is kept by one other
thing that will call it: a descriptor that its peer is registered for, a flow that has it
as `on_close`, or a wakeup. While the loop runs there is exactly one such thing for each
connection and each file, and it calls the handler that was set for it.
-/

namespace Adsbus.EventLoop

namespace Loop

variable (loop : Loop)

/-- The descriptors that are registered for the peer of the object, with the events. -/
def watches (address : Nat) (events : Events) : Nat :=
  loop.poll.fds.count fun _ descriptor => descriptor.watch = some (.peer address, events)

/-- The live flows that call the object when they close. -/
def flowsTo (address : Nat) : Nat := loop.objects.count fun _ object => object.onClose = some address

/-- The wakeups that call the object. -/
def wakeupsFor (address : Nat) : Nat :=
  loop.objects.count fun _ object => object.innerPeer = some address

/-- The things that call a handler of a connection: the descriptor of the resolver, the socket that
is being connected, the flow and the wakeup. -/
def outgoingCallers (address : Nat) : OutgoingHandler → Nat
  | .outgoingResolveHandler => loop.watches address .input
  | .outgoingConnectHandler => loop.watches address .output
  | .outgoingDisconnectHandler => loop.flowsTo address
  | .outgoingResolveWrapper => loop.wakeupsFor address

/-- The things that call a handler of a file. -/
def fileCallers (address : Nat) : FileHandler → Nat
  | .fileHandleClose => loop.flowsTo address
  | .fileOpenWrapper => loop.wakeupsFor address

/-- The flow or the wakeup has been started, and its peer is called when something happens. -/
def Awaited (address : Nat) : Object → Prop
  | .receive fd alwaysTrigger _ =>
      if alwaysTrigger then .peer address ∈ loop.poll.always
      else loop.poll.fds.get fd = some ⟨true, some (.peer address, .input)⟩
  | .send fd _ => ∃ pollable, loop.poll.fds.get fd =
      some ⟨pollable, if pollable then some (.peer address, .none) else none⟩
  | .wakeup fd _ _ => loop.poll.fds.get fd = some ⟨true, some (.peer address, .input)⟩
  | _ => True

/-- Every connection and every file has one continuation, and `on_close` is called once for each
flow. -/
structure OneContinuation : Prop where
  /-- Of all the things that may call a connection there is one, and it calls the handler that the
  connection has set. -/
  outgoing : ∀ {address entry}, loop.objects.get address = some (.outgoing entry) →
    loop.watches address .input + loop.watches address .output + loop.flowsTo address +
        loop.wakeupsFor address = 1 ∧
      loop.outgoingCallers address entry.eventHandler = 1
  file : ∀ {address entry}, loop.objects.get address = some (.file entry) →
    loop.flowsTo address + loop.wakeupsFor address = 1 ∧
      loop.fileCallers address entry.eventHandler = 1
  awaited : ∀ {address object}, loop.objects.get address = some object → loop.Awaited address object
  /-- A flow has called its `on_close` as often as it was started, but for one time while it is
  live. -/
  once : ∀ flow, loop.history.count (.onClose flow) +
    (if (loop.objects.get flow).any Object.isFlow then 1 else 0) = loop.history.count (.flowNew flow)
  /-- A send-receive flow is live while one of its halves is. -/
  halves : ∀ {address refCount onClose},
    loop.objects.get address = some (.sendReceive refCount onClose) →
      loop.flowsTo address = refCount.toNat ∧ 0 < refCount.toNat
  /-- Nothing calls what was freed. -/
  gone : ∀ {address}, loop.objects.get address = none →
    loop.flowsTo address = 0 ∧ loop.wakeupsFor address = 0

end Loop

variable {clean : Prop} {loop : Loop} {address : Nat} {object : Object} {state : LoopState}
  {trace : List (LoopState × LoopAct)}

/-- What is called once for each call that it waits for. -/
theorem count_callers {objects : Table Object} (caller : Object → Option Nat) (waits : Object → Nat)
    (balanced : (objects.total fun at' object =>
      (if caller object = some address then 1 else 0) -
        (if address = at' then waits object else 0 : Nat)) = 0) :
    (objects.count fun _ object => caller object = some address) =
      (objects.get address).elim 0 waits := by
  simp only [Nat.cast_ite, Nat.cast_zero] at balanced
  rw [Table.total_sub, Table.total_at address fun object => (waits object : Int)] at balanced
  have counted := objects.count_eq_total fun _ object => caller object = some address
  simp only [Bool.toNat, Bool.cond_decide, Nat.cast_ite, Nat.cast_one, Nat.cast_zero] at counted
  rw [← counted] at balanced
  cases reads : objects.get address with
  | none =>
      rw [reads] at balanced
      change _ - (0 : Int) = 0 at balanced
      change _ = 0
      omega
  | some object =>
      rw [reads] at balanced
      change _ - (waits object : Int) = 0 at balanced
      change _ = waits object
      omega

section Callers

variable (inv : Inv clean 0 loop)

include inv

/-- An object is called by as many flows as it waits for. -/
theorem Inv.flowsTo_eq (address : Nat) :
    loop.flowsTo address = (loop.objects.get address).elim 0 Object.flows := by
  have books := inv.balanced (.flow address)
  rw [Pi.zero_apply, add_zero] at books
  exact count_callers Object.onClose Object.flows books

/-- An object is called by a wakeup if it waits for one. -/
theorem Inv.wakeupsFor_eq (address : Nat) : loop.wakeupsFor address =
    (loop.objects.get address).elim 0 fun object => object.waiting.toNat := by
  have books := inv.balanced (.wake address)
  rw [Pi.zero_apply, add_zero] at books
  exact count_callers Object.innerPeer (fun object => object.waiting.toNat) books

/-- A peer is watched for the events of its object, while that has a descriptor. -/
theorem Inv.watches_eq (reads : loop.objects.get address = some object)
    (peer : object.peerRef address = .peer address)
    (polled : ∀ pollable, object.Polls pollable → pollable = true) (events : Events) :
    loop.watches address events = if object.slot.isSome ∧ object.events = events then 1 else 0 := by
  have only : ∀ {fd pollable events}, loop.poll.fds.get fd =
      some ⟨pollable, some (.peer address, events)⟩ → object.slot = some fd := by
    intro fd pollable events watches
    obtain ⟨other, object', reads', slot, same⟩ := inv.wired.watching watches
    cases object' with
    | exec => cases same
    | _ =>
        cases same
        cases reads.symm.trans reads'
        exact slot
  split
  · next holds =>
      obtain ⟨isSlot, rfl⟩ := holds
      obtain ⟨fd, slot⟩ := Option.isSome_iff_exists.mp isSlot
      obtain ⟨pollable, polls, watched⟩ := inv.wired.watched reads slot
      cases polled pollable polls
      rw [if_pos rfl, peer] at watched
      refine Table.count_eq_one watched (decide_eq_true rfl) fun other descriptor reads' matched => ?_
      obtain ⟨pollable, watch⟩ := descriptor
      cases of_decide_eq_true matched
      exact Option.some.inj ((only reads').symm.trans slot)
  · next free =>
      refine Table.count_eq_zero fun fd descriptor reads' => decide_eq_false fun matched => free ?_
      obtain ⟨pollable, watch⟩ := descriptor
      cases matched
      have slot := only reads'
      obtain ⟨pollable', polls, watched⟩ := inv.wired.watched reads slot
      cases polled pollable' polls
      rw [if_pos rfl, peer] at watched
      cases reads'.symm.trans watched
      exact ⟨slot ▸ rfl, rfl⟩

theorem Inv.awaited (reads : loop.objects.get address = some object) :
    loop.Awaited address object := by
  cases object with
  | receive fd alwaysTrigger onClose =>
      obtain ⟨pollable, polls, watched⟩ := inv.wired.watched reads rfl
      rw [Loop.Awaited]
      cases pollable with
      | true =>
          cases polls
          exact watched
      | false =>
          cases polls
          exact inv.wired.always.mpr ⟨address, fd, onClose, reads, rfl⟩
  | send fd onClose =>
      obtain ⟨pollable, _, watched⟩ := inv.wired.watched reads rfl
      exact ⟨pollable, watched⟩
  | wakeup fd innerPeer delayMs =>
      obtain ⟨pollable, polls, watched⟩ := inv.wired.watched reads rfl
      cases polls
      exact watched
  | _ => trivial

theorem Inv.once (flow : Nat) : loop.history.count (.onClose flow) +
    (if (loop.objects.get flow).any Object.isFlow then 1 else 0) =
      loop.history.count (.flowNew flow) := by
  have books := inv.balanced (.ran flow)
  rw [Pi.zero_apply, add_zero] at books
  change (loop.objects.total fun at' object =>
    if flow = at' then (object.isFlow.toNat : Int) else 0) + _ = _ at books
  rw [Table.total_at flow fun object : Object => (object.isFlow.toNat : Int)] at books
  cases reads : loop.objects.get flow with
  | none =>
      rw [reads] at books
      change (0 : Int) + _ = _ at books
      change _ + 0 = _
      omega
  | some object =>
      rw [reads] at books
      change (object.isFlow.toNat : Int) + _ = _ at books
      rw [Option.any_some]
      cases isFlow : object.isFlow with
      | false =>
          rw [isFlow, Bool.toNat_false] at books
          rw [if_neg Bool.false_ne_true]
          omega
      | true =>
          rw [isFlow, Bool.toNat_true] at books
          rw [if_pos rfl]
          omega

/-- While the books balance, every transport has its continuation. -/
theorem Inv.oneContinuation : loop.OneContinuation where
  outgoing := fun {address entry} reads => by
    have formed := inv.formed reads
    have input := inv.watches_eq reads rfl (fun _ polls => polls) .input
    have output := inv.watches_eq reads rfl (fun _ polls => polls) .output
    have flows := inv.flowsTo_eq address
    have wakeups := inv.wakeupsFor_eq address
    rw [reads] at flows wakeups
    simp only [Object.Formed] at formed
    simp only [Option.elim_some, Object.flows, Object.waiting, Object.slot, Object.events] at *
    have isSome : entry.fd.isSome = true ↔ ¬ (entry.eventHandler = .outgoingDisconnectHandler ∨
        entry.eventHandler = .outgoingResolveWrapper) := by
      rw [← formed, Option.isSome_iff_ne_none]
    cases handler : entry.eventHandler <;>
      simp only [handler, reduceCtorEq, or_self, or_false, or_true, not_true, not_false_eq_true,
        iff_true, iff_false, ↓reduceIte, and_true, and_false, decide_true, decide_false,
        Bool.toNat_true, Bool.toNat_false, Bool.not_eq_true] at * <;>
      simp only [isSome, Bool.false_eq_true, ↓reduceIte] at * <;>
      simp only [Loop.outgoingCallers, input, output, flows, wakeups, and_self]
  file := fun {address entry} reads => by
    have flows := inv.flowsTo_eq address
    have wakeups := inv.wakeupsFor_eq address
    rw [reads] at flows wakeups
    simp only [Option.elim_some, Object.flows, Object.waiting] at flows wakeups
    cases handler : entry.eventHandler <;>
      simp only [Loop.fileCallers, flows, wakeups, handler, reduceCtorEq, ↓reduceIte, decide_true,
        decide_false, Bool.toNat_true, Bool.toNat_false, and_self]
  awaited := inv.awaited
  once := inv.once
  halves := fun {address refCount onClose} reads => by
    have flows := inv.flowsTo_eq address
    rw [reads] at flows
    refine ⟨flows, Nat.pos_of_ne_zero fun zero => inv.formed reads ?_⟩
    exact UInt8.toNat_inj.mp zero
  gone := fun {address} free => by
    have flows := inv.flowsTo_eq address
    have wakeups := inv.wakeupsFor_eq address
    rw [free] at flows wakeups
    exact ⟨flows, wakeups⟩

end Callers

end Adsbus.EventLoop

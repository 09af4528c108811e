import Adsbus.Transport.Loop
import Mathlib.Algebra.Group.Pi.Lemmas
import Mathlib.Tactic.Abel

/-! # The books of the event loop

What the objects share is passed from one to another: a descriptor has one owner, a
transport waits for one call, a counter counts what is there. Each such thing is an
account, which the objects are charged with, and the books say what an account must
come to. While a handler runs it may have something in hand that no object is charged
with, which is the credit; between two calls there is none.
-/

namespace Adsbus.EventLoop

/-! ## What an object has -/

namespace Object

/-- The descriptor that is the object's own. An incoming object that waits has none, whatever its
peer says. -/
def slot : Object → Option Nat
  | .peerShutdownPeer fd | .execPeer fd => fd
  | .receive fd _ _ | .send fd _ | .wakeup fd _ _ => some fd
  | .outgoing entry => entry.fd
  | .incoming entry =>
      if entry.eventHandler = .incomingResolveWrapper then none else entry.fd
  | .exec entry => entry.logFd
  | .sendReceive _ _ | .file _ => none

/-- The peer that is registered for the descriptor. -/
def peerRef (address : Nat) : Object → PeerRef
  | .exec _ => .logPeer address
  | _ => .peer address

/-- The events that the peer is added with. -/
def events : Object → Events
  | .send _ _ => .none
  | .outgoing entry =>
      if entry.eventHandler = .outgoingConnectHandler then .output else .input
  | _ => .input

/-- `always_trigger`, where it can be set. -/
def alwaysTrigger : Object → Bool
  | .receive _ alwaysTrigger _ => alwaysTrigger
  | _ => false

/-- Whether the descriptor may be one that can be polled, or cannot. -/
def Polls (pollable : Bool) : Object → Prop
  | .receive _ alwaysTrigger _ => alwaysTrigger = !pollable
  | .send _ _ => True
  | _ => pollable = true

/-- The object that a flow calls when it closes. -/
def onClose : Object → Option Nat
  | .receive _ _ onClose | .send _ onClose | .sendReceive _ onClose => onClose
  | _ => none

/-- The object that a wakeup calls. -/
def innerPeer : Object → Option Nat
  | .wakeup _ innerPeer _ => some innerPeer
  | _ => none

/-- The number of flows that the object waits to be closed. -/
def flows : Object → Nat
  | .sendReceive refCount _ => refCount.toNat
  | .file entry => if entry.eventHandler = .fileHandleClose then 1 else 0
  | .outgoing entry =>
      if entry.eventHandler = .outgoingDisconnectHandler then 1 else 0
  | _ => 0

/-- The object waits for a wakeup. -/
def waiting : Object → Bool
  | .file entry => entry.eventHandler = .fileOpenWrapper
  | .outgoing entry => entry.eventHandler = .outgoingResolveWrapper
  | .incoming entry => entry.eventHandler = .incomingResolveWrapper
  | .exec entry => entry.eventHandler = .execSpawnWrapper
  | _ => false

/-- The object is a flow. -/
def isFlow : Object → Bool
  | .receive _ _ _ | .send _ _ | .sendReceive _ _ => true
  | _ => false

/-- The counter that the object is counted by. -/
def counted : Object → Option Flow
  | .receive _ _ _ => some .receive
  | .send _ _ => some .send
  | .file entry => some entry.flow
  | .outgoing entry => some entry.flow
  | .incoming entry => some entry.flow
  | .exec entry => some entry.flow
  | _ => none

/-- The object is as its handlers leave it. The descriptor of an incoming object that waits is known
only for a clean run. -/
def Formed (clean : Prop) (history : List Event) : Object → Prop
  | .sendReceive refCount _ => refCount ≠ 0
  | .wakeup _ _ delayMs => ∃ attempt jitter, .draw attempt jitter ∈ history ∧
      wakeupGetRetryDelayMs attempt jitter = some delayMs
  | .outgoing entry => entry.fd = none ↔
      entry.eventHandler = .outgoingDisconnectHandler ∨
        entry.eventHandler = .outgoingResolveWrapper
  | .incoming entry =>
      if entry.eventHandler = .incomingResolveWrapper then clean → entry.fd = none
      else entry.fd ≠ none
  | .exec entry => (entry.child = none → entry.logFd = none) ∧
      (entry.child = none ↔ entry.eventHandler = .execSpawnWrapper)
  | _ => True

end Object

/-! ## Accounts -/

/-- What is passed on: a descriptor, the call of a peer by its flows or by its wakeup, the call of
`on_close` of a flow, the place in a counter, and the place on the command line. -/
inductive Account
  | fd (fd : Nat)
  | flow (peer : Nat)
  | wake (peer : Nat)
  | ran (flow : Nat)
  | count (flow : Flow)
  | transports
  deriving DecidableEq, Repr

/-- What an object is charged with. -/
def charge : Account → Nat → Object → Int
  | .fd fd, _, object => if object.slot = some fd then 1 else 0
  | .flow peer, address, object =>
      (if object.onClose = some peer then 1 else 0) - if peer = address then object.flows else 0
  | .wake peer, address, object =>
      (if object.innerPeer = some peer then 1 else 0) -
        if peer = address then object.waiting.toNat else 0
  | .ran flow, address, object => if flow = address then object.isFlow.toNat else 0
  | .count flow, _, object => if object.counted = some flow then 1 else 0
  | .transports, _, object => object.isTransport.toNat

/-- What an account must come to. -/
def Loop.Books (loop : Loop) : Account → Int → Prop
  | .fd fd, value =>
      value + loop.poll.others.count fd = if (loop.poll.fds.get fd).isSome then 1 else 0
  | .flow _, value => value = 0
  | .wake _, value => value = 0
  | .ran flow, value =>
      value + loop.history.count (.onClose flow) = loop.history.count (.flowNew flow)
  | .count flow, value => value % 2 ^ 32 = (loop.peerCount flow).toNat
  | .transports, value => value ≤ 2 ^ 31 - 2

/-- The accounts, with the credit. -/
def Balanced (credit : Account → Int) (loop : Loop) : Prop :=
  ∀ account, loop.Books account (loop.objects.total (charge account) + credit account)

/-- Each descriptor is registered with the object that has it, and no other. A descriptor that
cannot be polled is not registered, and a receive flow for it is called in every turn. -/
structure Wired (objects : Table Object) (poll : Poll) : Prop where
  watched : ∀ {address object fd}, objects.get address = some object → object.slot = some fd →
    ∃ pollable, object.Polls pollable ∧ poll.fds.get fd =
      some ⟨pollable, if pollable then some (object.peerRef address, object.events) else none⟩
  watching : ∀ {fd pollable peer events},
    poll.fds.get fd = some ⟨pollable, some (peer, events)⟩ → ∃ address object,
      objects.get address = some object ∧ object.slot = some fd ∧ peer = object.peerRef address
  distinct : poll.always.Nodup
  always : ∀ {peer}, peer ∈ poll.always ↔ ∃ address fd onClose,
    objects.get address = some (.receive fd true onClose) ∧ peer = .peer address

/-- No send-receive flow has another one as its `on_close`. -/
def Flat (objects : Table Object) : Prop :=
  ∀ address refCount peer, objects.get address = some (.sendReceive refCount (some peer)) →
    ∀ refCount onClose, objects.get peer ≠ some (.sendReceive refCount onClose)

/-- What holds while a handler runs with the credit in hand. -/
structure Inv (clean : Prop) (credit : Account → Int) (loop : Loop) : Prop where
  balanced : Balanced credit loop
  wired : Wired loop.objects loop.poll
  formed : ∀ {address object}, loop.objects.get address = some object →
    object.Formed clean loop.history
  flat : Flat loop.objects
  small : ∀ {fd}, (loop.poll.fds.get fd).isSome → fd < 2 ^ 31

/-- No descriptor is owed, and everything that is counted is in the table. -/
structure Settled (credit : Account → Int) : Prop where
  fd : ∀ fd, 0 ≤ credit (.fd fd)
  count : ∀ flow, credit (.count flow) = 0
  transports : credit .transports = 0

/-- No call is owed, either. -/
structure Natural (credit : Account → Int) : Prop extends Settled credit where
  flow : ∀ peer, 0 ≤ credit (.flow peer)

theorem natural_zero : Natural 0 := ⟨⟨fun _ => le_refl 0, fun _ => rfl, rfl⟩, fun _ => le_refl 0⟩

/-- One of an account. -/
abbrev one (account : Account) : Account → Int := Pi.single account 1

theorem one_self (account : Account) : one account account = 1 := Pi.single_eq_same account 1

theorem one_of_ne {account other : Account} (differ : other ≠ account) : one account other = 0 :=
  Pi.single_eq_of_ne differ 1

/-- One of an account that something may name. -/
def each {ι : Type} (account : ι → Account) : Option ι → Account → Int
  | none => 0
  | some name => one (account name)

/-- The call of a peer, null or not, by a flow. -/
abbrev owed : Option Nat → Account → Int := each .flow

theorem owed_none : owed none = 0 := rfl

theorem owed_some (peer : Nat) : owed (some peer) = one (.flow peer) := rfl

/-- The places of a transport in its counter and on the command line. -/
def held (flow : Flow) : Account → Int := one (.count flow) + one .transports

variable {clean : Prop} {credit : Account → Int} {loop : Loop} {address : Nat} {object : Object}
  {fd : Nat} {poll : Poll} {pollable : Bool}

/-! ## Reading the books -/

theorem charge_fd_nonneg (fd address : Nat) (object : Object) :
    0 ≤ charge (.fd fd) address object := by
  simp only [charge]
  split <;> omega

theorem charge_count_nonneg (flow : Flow) (address : Nat) (object : Object) :
    0 ≤ charge (.count flow) address object := by
  simp only [charge]
  split <;> omega

/-- Apart from what the peer itself waits for, its calls are not owed. -/
theorem charge_flow_nonneg {peer : Nat} (other : peer ≠ address) :
    0 ≤ charge (.flow peer) address object := by
  simp only [charge, other, ↓reduceIte]
  split <;> omega

theorem Books.congr {loop other : Loop} {account : Account} {value : Int}
    (books : loop.Books account value) (poll : other.poll = loop.poll)
    (history : other.history = loop.history) (counts : other.peerCount = loop.peerCount) :
    other.Books account value := by
  cases account <;> simpa only [Loop.Books, poll, history, counts] using books

theorem each_apply {ι : Type} (account : ι → Account) (named : Option ι) (other : Account) :
    each account named other = if named.map account = some other then 1 else 0 := by
  cases named with
  | none => rfl
  | some name => simp only [each, Pi.single_apply, Option.map_some, Option.some.injEq, eq_comm]

/-- What an object is charged with, account by account. -/
theorem charge_eq (address : Nat) (object : Object) :
    (fun account => charge account address object) =
      each .fd object.slot + owed object.onClose - Pi.single (.flow address) (object.flows : Int) +
        each .wake object.innerPeer - Pi.single (.wake address) (object.waiting.toNat : Int) +
        Pi.single (.ran address) (object.isFlow.toNat : Int) + each .count object.counted +
        Pi.single .transports (object.isTransport.toNat : Int) := by
  funext account
  cases account <;> simp [charge, each_apply, Pi.single_apply]

/-- The credit is all that matters of it. -/
theorem Inv.recredit (inv : Inv clean credit loop) {other : Account → Int}
    (same : credit = other) : Inv clean other loop := same ▸ inv

/-- A descriptor that is in hand belongs to no object, and is none of the others. -/
theorem Balanced.free (balanced : Balanced credit loop) (hand : 1 ≤ credit (.fd fd)) :
    (∀ address object, loop.objects.get address = some object → object.slot ≠ some fd) ∧
      fd ∉ loop.poll.others ∧ credit (.fd fd) = 1 ∧ (loop.poll.fds.get fd).isSome = true := by
  have books := balanced (.fd fd)
  have natural := Table.total_nonneg loop.objects _ fun address object _ =>
    charge_fd_nonneg fd address object
  simp only [Loop.Books] at books
  split at books
  · next isOpen =>
      refine ⟨fun address object reads own => ?_, ?_, by omega, isOpen⟩
      · have one := Table.le_total (fun address object _ => charge_fd_nonneg fd address object) reads
        simp only [charge, own, ↓reduceIte] at one
        omega
      · rw [← List.count_eq_zero]
        omega
  · omega

/-- A descriptor that an object has belongs to no other object, and is none of the others. -/
theorem Balanced.alone (balanced : Balanced credit loop) (natural : 0 ≤ credit (.fd fd))
    (reads : loop.objects.get address = some object) (slot : object.slot = some fd) :
    (∀ other object, loop.objects.get other = some object → object.slot = some fd →
      other = address) ∧ fd ∉ loop.poll.others := by
  have books := balanced (.fd fd)
  simp only [Loop.Books] at books
  have own := Table.le_total (fun address object _ => charge_fd_nonneg fd address object) reads
  simp only [charge, slot, ↓reduceIte] at own
  refine ⟨fun other object reads' slot' => ?_, ?_⟩
  · by_contra differ
    have both := Table.pair_le_total (fun address object _ => charge_fd_nonneg fd address object)
      differ reads' reads
    simp only [charge, slot, slot', ↓reduceIte] at both
    split at books <;> omega
  · rw [← List.count_eq_zero]
    split at books <;> omega

/-! ## Objects put and taken -/

variable (loop) in
/-- An object that was in the table may be put before it is taken. -/
theorem Loop.listDel_put (reads : address < loop.objects.bound) :
    (loop.put address object).listDel address = loop.listDel address := by
  simp only [Loop.put, Loop.listDel, loop.objects.remove_put address object reads]

theorem Balanced.put (balanced : Balanced (credit + fun account => charge account address object) loop)
    (free : loop.objects.get address = none) : Balanced credit (loop.put address object) := by
  intro account
  have books := balanced account
  have total := loop.objects.total_put (charge account) address object
  rw [free] at total
  change _ = _ - 0 + _ at total
  refine Books.congr (?_ : loop.Books account _) rfl rfl rfl
  rw [Loop.put, total, sub_zero, add_assoc, add_comm (charge account address object)]
  exact books

theorem Balanced.take (balanced : Balanced credit loop)
    (reads : loop.objects.get address = some object) :
    Balanced (credit + fun account => charge account address object) (loop.listDel address) := by
  intro account
  have books := balanced account
  have total := loop.objects.total_remove (charge account) address
  rw [reads] at total
  change _ = _ - charge account address object at total
  refine Books.congr (?_ : loop.Books account _) rfl rfl rfl
  rw [Loop.listDel, total, Pi.add_apply, show ∀ all own left : Int, all - own + (left + own) = all + left
    by omega]
  exact books

/-- The wires of an object without a descriptor do not matter. -/
theorem Wired.take (wired : Wired loop.objects loop.poll)
    (reads : loop.objects.get address = some object) (slot : object.slot = none) :
    Wired (loop.objects.remove address) loop.poll where
  watched := fun reads' => wired.watched (Table.get_remove_eq_some.mp reads').2
  watching := fun watches => by
    obtain ⟨other, object', reads', slot', same⟩ := wired.watching watches
    refine ⟨other, object', Table.get_remove_eq_some.mpr ⟨?_, reads'⟩, slot', same⟩
    rintro rfl
    cases reads.symm.trans reads'
    rw [slot] at slot'
    cases slot'
  distinct := wired.distinct
  always := fun {peer} => by
    rw [wired.always]
    constructor
    · rintro ⟨other, fd, onClose, reads', same⟩
      refine ⟨other, fd, onClose, Table.get_remove_eq_some.mpr ⟨?_, reads'⟩, same⟩
      rintro rfl
      cases reads.symm.trans reads'
      cases slot
    · rintro ⟨other, fd, onClose, reads', same⟩
      exact ⟨other, fd, onClose, (Table.get_remove_eq_some.mp reads').2, same⟩

theorem Wired.put (wired : Wired loop.objects loop.poll)
    (free : loop.objects.get address = none) (slot : object.slot = none) :
    Wired (loop.objects.put address object) loop.poll where
  watched := fun reads slot' => by
    rcases Table.get_put_eq_some.mp reads with ⟨_, rfl⟩ | ⟨_, reads⟩
    · rw [slot] at slot'
      cases slot'
    · exact wired.watched reads slot'
  watching := fun watches => by
    obtain ⟨other, object', reads', slot', same⟩ := wired.watching watches
    refine ⟨other, object', Table.get_put_eq_some.mpr (.inr ⟨?_, reads'⟩), slot', same⟩
    rintro rfl
    rw [free] at reads'
    cases reads'
  distinct := wired.distinct
  always := fun {peer} => by
    rw [wired.always]
    constructor
    · rintro ⟨other, fd, onClose, reads', same⟩
      refine ⟨other, fd, onClose, Table.get_put_eq_some.mpr (.inr ⟨?_, reads'⟩), same⟩
      rintro rfl
      rw [free] at reads'
      cases reads'
    · rintro ⟨other, fd, onClose, reads', same⟩
      rcases Table.get_put_eq_some.mp reads' with ⟨_, rfl⟩ | ⟨_, reads'⟩
      · cases slot
      · exact ⟨other, fd, onClose, reads', same⟩

theorem Flat.remove {objects : Table Object} (flat : Flat objects) (address : Nat) :
    Flat (objects.remove address) := fun other count peer reads refCount onClose nested =>
  flat other count peer (Table.get_remove_eq_some.mp reads).2 refCount onClose
    (Table.get_remove_eq_some.mp nested).2

/-- The object may be put there: it is no send-receive flow, or is no other's `on_close` and has no
other as its own. -/
def Fits (objects : Table Object) (address : Nat) : Object → Prop
  | .sendReceive _ onClose =>
      (∀ other refCount, objects.get other ≠ some (.sendReceive refCount (some address))) ∧
        ∀ peer, onClose = some peer → peer ≠ address ∧
          ∀ refCount onClose, objects.get peer ≠ some (.sendReceive refCount onClose)
  | _ => True

theorem Flat.put {objects : Table Object} (flat : Flat objects) (fits : Fits objects address object) :
    Flat (objects.put address object) := by
  intro other refCount peer reads refCount' onClose nested
  rcases Table.get_put_eq_some.mp reads with ⟨rfl, rfl⟩ | ⟨_, old⟩
  · obtain ⟨self, others⟩ := fits.2 peer rfl
    rcases Table.get_put_eq_some.mp nested with ⟨same, _⟩ | ⟨_, oldNested⟩
    · exact self same
    · exact others refCount' onClose oldNested
  · rcases Table.get_put_eq_some.mp nested with ⟨rfl, rfl⟩ | ⟨_, oldNested⟩
    · exact fits.1 other refCount old
    · exact flat other refCount peer old refCount' onClose oldNested

theorem fits_of_slot {objects : Table Object} (slot : object.slot = some fd) :
    Fits objects address object := by
  cases object with
  | sendReceive => cases slot
  | _ => trivial

/-- An object without a descriptor is taken in hand. -/
theorem Inv.take (inv : Inv clean credit loop) (reads : loop.objects.get address = some object)
    (slot : object.slot = none) :
    Inv clean (credit + fun account => charge account address object) (loop.listDel address) where
  balanced := inv.balanced.take reads
  wired := inv.wired.take reads slot
  formed := fun reads' => inv.formed (Table.get_remove_eq_some.mp reads').2
  flat := inv.flat.remove address
  small := inv.small

/-- An object without a descriptor is put back. -/
theorem Inv.put (inv : Inv clean (credit + fun account => charge account address object) loop)
    (free : loop.objects.get address = none) (slot : object.slot = none)
    (formed : object.Formed clean loop.history) (fits : Fits loop.objects address object) :
    Inv clean credit (loop.put address object) where
  balanced := inv.balanced.put free
  wired := inv.wired.put free slot
  formed := fun reads' => by
    rcases Table.get_put_eq_some.mp reads' with ⟨_, rfl⟩ | ⟨_, reads'⟩
    · exact formed
    · exact inv.formed reads'
  flat := inv.flat.put fits
  small := inv.small

variable (loop) in
/-- The object in hand, without a descriptor, takes its place in the table again. -/
theorem Inv.putBack
    (inv : Inv clean (credit + fun account => charge account address object) (loop.listDel address))
    (slot : object.slot = none) (formed : object.Formed clean loop.history)
    (fits : Fits (loop.listDel address).objects address object) :
    Inv clean credit (loop.put address object) := by
  have placed := inv.put (Table.get_remove_self ..) slot formed fits
  rwa [Loop.put, show (loop.listDel address).objects.put address object =
    loop.objects.put address object from loop.objects.put_remove address object] at placed

/-- The address of an object that is in hand is used. -/
theorem Inv.reserve (inv : Inv clean credit loop) (object : Object) :
    Inv clean credit ((loop.put loop.objects.bound object).listDel loop.objects.bound) := by
  have same : ∀ address,
      ((loop.objects.put loop.objects.bound object).remove loop.objects.bound).get address =
        loop.objects.get address := fun address => by
    by_cases here : address = loop.objects.bound
    · rw [here, Table.get_remove_self, Table.get_bound]
    · rw [Table.get_remove_of_ne _ _ here, Table.get_put_of_ne _ _ _ here]
  exact {
    balanced := fun account => by
      have total := Table.total_change (charge account) fun address (_ : address ≠ 0) => same address
      rw [same, show ∀ all own : Int, all - own + own = all by intros; omega] at total
      refine Books.congr (?_ : loop.Books account _) rfl rfl rfl
      simp only [Loop.put, Loop.listDel, total]
      exact inv.balanced account
    wired := by
      have wired := inv.wired
      exact {
        watched := fun reads => wired.watched ((same _).symm.trans reads)
        watching := fun watches => by
          obtain ⟨address, object, reads, rest⟩ := wired.watching watches
          exact ⟨address, object, (same address).trans reads, rest⟩
        distinct := wired.distinct
        always := fun {peer} => by
          simp only [Loop.put, Loop.listDel, same]
          exact wired.always }
    formed := fun reads => inv.formed ((same _).symm.trans reads)
    flat := fun address refCount peer reads => by
      simp only [Loop.put, Loop.listDel, same] at reads ⊢
      exact inv.flat address refCount peer reads
    small := inv.small }

/-! ## History and counters -/

theorem Object.Formed.log {history : List Event} (formed : object.Formed clean history)
    (event : Event) : object.Formed clean (event :: history) := by
  cases object with
  | wakeup fd innerPeer delayMs =>
      obtain ⟨attempt, jitter, drawn, delay⟩ := formed
      exact ⟨attempt, jitter, List.mem_cons_of_mem _ drawn, delay⟩
  | _ => exact formed

/-- What an event counts for. -/
def Event.moves : Event → Account → Int
  | .flowNew flow => one (.ran flow)
  | .onClose flow => - one (.ran flow)
  | .draw _ _ => 0

theorem Event.moves_of_ne (event : Event) {account : Account} (differ : ∀ flow, account ≠ .ran flow) :
    event.moves account = 0 := by
  cases event with
  | flowNew flow => exact one_of_ne (differ flow)
  | onClose flow => exact neg_eq_zero.mpr (one_of_ne (differ flow))
  | draw => rfl

/-- An event of the history counts for the flow it is about. -/
theorem Inv.log (inv : Inv clean credit loop) (event : Event) :
    Inv clean (credit + event.moves) (loop.log event) where
  balanced := by
    intro account
    have books := inv.balanced account
    rw [Pi.add_apply]
    cases account with
    | ran flow =>
        simp only [Loop.Books, Loop.log, List.count_cons, Event.moves] at books ⊢
        cases event with
        | flowNew other =>
            simp only [beq_iff_eq, Event.flowNew.injEq, reduceCtorEq, ↓reduceIte, Nat.add_zero,
              Pi.single_apply, Account.ran.injEq, @eq_comm _ flow other]
            split <;> omega
        | onClose other =>
            simp only [beq_iff_eq, Event.onClose.injEq, reduceCtorEq, ↓reduceIte, Nat.add_zero,
              Pi.neg_apply, Pi.single_apply, Account.ran.injEq, @eq_comm _ flow other]
            split <;> omega
        | draw attempt jitter =>
            simp only [beq_iff_eq, reduceCtorEq, ↓reduceIte, Nat.add_zero, Pi.zero_apply]
            omega
    | fd | flow | wake | count | transports =>
        rw [event.moves_of_ne, add_zero]
        · exact books
        · exact fun _ => nofun
  wired := inv.wired
  formed := fun reads => (inv.formed reads).log event
  flat := inv.flat
  small := inv.small

/-- A counter that moves. -/
theorem Inv.recount (inv : Inv clean credit loop) (flow : Flow) (count : UInt32) (delta : Int)
    (moves : (count.toNat : Int) = ((loop.peerCount flow).toNat + delta) % 2 ^ 32) :
    Inv clean (credit + Pi.single (.count flow) delta)
      { loop with peerCount := Function.update loop.peerCount flow count } where
  balanced := by
    intro account
    have books := inv.balanced account
    rw [Pi.add_apply]
    by_cases here : account = .count flow
    · subst here
      simp only [Loop.Books, Function.update_self, Pi.single_eq_same] at books ⊢
      rw [moves, ← books, Int.emod_add_emod, add_assoc]
    · rw [Pi.single_eq_of_ne here, add_zero]
      cases account with
      | count other =>
          have differ : other ≠ flow := fun same => here (congrArg Account.count same)
          simp only [Loop.Books, Function.update_of_ne differ] at books ⊢
          exact books
      | fd | flow | wake | ran | transports => exact books
  wired := inv.wired
  formed := inv.formed
  flat := inv.flat
  small := inv.small

theorem Inv.flowRefInc (inv : Inv clean credit loop) (flow : Flow) :
    Inv clean (credit + one (.count flow)) (loop.flowRefInc flow) :=
  inv.recount flow _ _ (by
    rw [UInt32.toNat_add]
    rfl)

/-- There are no more objects with a descriptor than descriptors. -/
theorem Inv.slots_le (inv : Inv clean credit loop) (natural : ∀ fd, 0 ≤ credit (.fd fd)) :
    (loop.objects.total fun _ object => if object.slot.isSome then 1 else 0) ≤ 2 ^ 31 := by
  have spread : (loop.objects.total fun _ object => if object.slot.isSome then 1 else 0) =
      ∑ fd ∈ Finset.range (2 ^ 31), loop.objects.total (charge (.fd fd)) := by
    rw [← Table.total_sum]
    refine Table.total_congr fun address object reads => ?_
    simp only [charge]
    cases slot : object.slot with
    | none => simp only [Option.isSome_none, Bool.false_eq_true, ↓reduceIte, reduceCtorEq,
        Finset.sum_const_zero]
    | some fd =>
        obtain ⟨pollable, _, watched⟩ := inv.wired.watched reads slot
        have inside : fd ∈ Finset.range (2 ^ 31) := Finset.mem_range.mpr (inv.small (by
          rw [watched]
          rfl))
        simp only [Option.some.injEq, Finset.sum_ite_eq, inside, ↓reduceIte, Option.isSome_some]
  have each : ∀ fd ∈ Finset.range (2 ^ 31), loop.objects.total (charge (.fd fd)) ≤ 1 := by
    intro fd _
    have books := inv.balanced (.fd fd)
    have owed := natural fd
    simp only [Loop.Books] at books
    split at books <;> omega
  rw [spread]
  refine le_trans (Finset.sum_le_sum each) ?_
  rw [Finset.sum_const, Finset.card_range, nsmul_one]
  exact le_refl _

/-- There is no room for as many objects that are counted as a counter can count: a flow has a
descriptor, and a transport its place on the command line. -/
theorem Inv.counted_le (inv : Inv clean credit loop) (natural : ∀ fd, 0 ≤ credit (.fd fd)) :
    (loop.objects.total fun _ object => if object.counted.isSome then 1 else 0) +
      credit .transports ≤ 2 ^ 32 - 2 := by
  have options := inv.balanced .transports
  have slots := inv.slots_le natural
  have below : (loop.objects.total fun _ object => if object.counted.isSome then 1 else 0) ≤
      (loop.objects.total fun _ object => if object.slot.isSome then 1 else 0) +
        loop.objects.total (charge .transports) := by
    rw [← Table.total_add]
    refine Table.total_mono fun address object _ => ?_
    cases object with
    | receive | send =>
        simp only [charge, Object.counted, Object.slot, Object.isTransport, Option.isSome_some,
          ↓reduceIte, Bool.toNat_false]
        omega
    | file | outgoing | incoming | exec =>
        simp only [charge, Object.counted, Object.isTransport, Bool.toNat_true, Option.isSome_some,
          ↓reduceIte]
        split <;> omega
    | peerShutdownPeer | execPeer | sendReceive | wakeup =>
        simp only [charge, Object.counted, Object.isTransport, Option.isSome_none,
          Bool.false_eq_true, ↓reduceIte, Bool.toNat_false]
        split <;> omega
  simp only [Loop.Books] at options
  omega

/-- A counter counts without a carry. -/
theorem Inv.count_eq (inv : Inv clean credit loop) (natural : ∀ fd, 0 ≤ credit (.fd fd))
    (flow : Flow) (positive : 0 ≤ credit (.count flow))
    (small : credit (.count flow) ≤ credit .transports) :
    ((loop.peerCount flow).toNat : Int) =
      loop.objects.total (charge (.count flow)) + credit (.count flow) := by
  have books := inv.balanced (.count flow)
  have room := inv.counted_le natural
  have below : loop.objects.total (charge (.count flow)) ≤
      loop.objects.total fun _ object => if object.counted.isSome then 1 else 0 := by
    refine Table.total_mono fun address object _ => ?_
    simp only [charge]
    cases object.counted with
    | none => exact le_refl 0
    | some other =>
        simp only [Option.isSome_some, ↓reduceIte]
        split <;> omega
  have above := Table.total_nonneg loop.objects (charge (.count flow))
    fun address object _ => charge_count_nonneg flow address object
  simp only [Loop.Books] at books
  rw [← books, Int.emod_eq_of_lt (by omega) (by omega)]

/-- `flow_ref_dec`, of something that is counted. -/
theorem Inv.flowRefDec (inv : Inv clean credit loop) (natural : ∀ fd, 0 ≤ credit (.fd fd))
    (flow : Flow) (positive : 0 ≤ credit (.count flow))
    (small : credit (.count flow) ≤ credit .transports)
    (counts : 1 ≤ loop.objects.total (charge (.count flow)) + credit (.count flow)) :
    ∃ peerCount, (∀ other : Loop, other.peerCount = loop.peerCount →
        other.flowRefDec flow = .ok { other with peerCount := peerCount }) ∧
      Inv clean (credit - one (.count flow)) { loop with peerCount := peerCount } := by
  have counted := inv.count_eq natural flow positive small
  have nonzero : loop.peerCount flow ≠ 0 := by
    intro zero
    rw [zero] at counted
    change (0 : Int) = _ at counted
    omega
  refine ⟨Function.update loop.peerCount flow (loop.peerCount flow - 1), fun other same => ?_, ?_⟩
  · rw [Loop.flowRefDec, same, if_neg nonzero]
  · have moved := inv.recount flow (loop.peerCount flow - 1) (-1) (by
      have bound := (loop.peerCount flow).toNat_lt
      rw [UInt32.toNat_sub_of_le _ _ (by
        rw [UInt32.le_iff_toNat_le]
        change 1 ≤ _
        omega)]
      change (((loop.peerCount flow).toNat - 1 : Nat) : Int) = _
      rw [Int.emod_eq_of_lt (by omega) (by omega)]
      omega)
    rwa [Pi.single_neg, ← sub_eq_add_neg] at moved

/-- A place on the command line need not be given back. -/
theorem Inv.dropTransport (inv : Inv clean (credit + one .transports) loop) :
    Inv clean credit loop where
  balanced := by
    intro account
    have books := inv.balanced account
    rw [Pi.add_apply] at books
    by_cases here : account = .transports
    · subst here
      rw [one_self] at books
      simp only [Loop.Books] at books ⊢
      omega
    · rwa [one_of_ne here, add_zero] at books
  wired := inv.wired
  formed := inv.formed
  flat := inv.flat
  small := inv.small

/-- A place on the command line is taken. -/
theorem Inv.takeTransport (inv : Inv clean credit loop)
    (left : loop.objects.total (charge .transports) + credit .transports < 2 ^ 31 - 2) :
    Inv clean (credit + one .transports) loop where
  balanced := by
    intro account
    have books := inv.balanced account
    rw [Pi.add_apply]
    by_cases here : account = .transports
    · subst here
      rw [one_self]
      simp only [Loop.Books]
      omega
    · rwa [one_of_ne here, add_zero]
  wired := inv.wired
  formed := inv.formed
  flat := inv.flat
  small := inv.small

/-- `flow_ref_dec` of an object in the table. -/
theorem Inv.flowRefDec_of_get (inv : Inv clean credit loop) (settled : Settled credit)
    (reads : loop.objects.get address = some object) {flow : Flow}
    (counted : object.counted = some flow) :
    ∃ peerCount, loop.flowRefDec flow = .ok { loop with peerCount := peerCount } ∧
      Inv clean (credit - one (.count flow)) { loop with peerCount := peerCount } := by
  have none := settled.count flow
  have one := Table.le_total (fun address object _ => charge_count_nonneg flow address object) reads
  simp only [charge, counted, ↓reduceIte] at one
  obtain ⟨peerCount, decremented, inv'⟩ := inv.flowRefDec settled.fd flow (by omega)
    (by rw [none, settled.transports]) (by omega)
  exact ⟨peerCount, decremented loop rfl, inv'⟩

/-- `flow_ref_dec` of a transport in hand. -/
theorem Inv.flowRefDec_of_held {flow : Flow}
    (inv : Inv clean (credit + held flow) (loop.listDel address)) (natural : Natural credit) :
    ∃ peerCount, loop.flowRefDec flow = .ok { loop with peerCount := peerCount } ∧
      Inv clean (credit + one .transports)
        (Loop.listDel { loop with peerCount := peerCount } address) := by
  have count : (credit + held flow) (.count flow) = 1 := by
    simp only [held, Pi.add_apply, natural.count, Pi.single_apply, reduceCtorEq, ↓reduceIte]
    rfl
  have transports : (credit + held flow) .transports = 1 := by
    simp only [held, Pi.add_apply, natural.transports, Pi.single_apply, reduceCtorEq, ↓reduceIte]
    rfl
  have above := Table.total_nonneg (loop.listDel address).objects _
    fun address object _ => charge_count_nonneg flow address object
  obtain ⟨peerCount, decremented, inv'⟩ := inv.flowRefDec (fun fd => by
      have own := natural.fd fd
      simp only [held, Pi.add_apply, Pi.single_apply, reduceCtorEq, ↓reduceIte]
      omega) flow (by omega) (by omega) (by omega)
  refine ⟨peerCount, decremented loop rfl, inv'.recredit ?_⟩
  rw [held]
  abel

end Adsbus.EventLoop

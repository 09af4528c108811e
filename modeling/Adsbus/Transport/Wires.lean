import Adsbus.Transport.Books

/-! # Descriptors in hand

What the kernel's operations do to the books: a descriptor that is opened comes in hand,
one that is closed leaves it, and a peer that is added or deleted takes the descriptor
from the hand into an object or back.
-/

namespace Adsbus.EventLoop

variable {clean : Prop} {credit : Account → Int} {loop : Loop} {address : Nat} {object : Object}
  {fd : Nat} {poll : Poll} {pollable : Bool}

/-! ## Descriptors opened and closed -/

/-- The descriptor is open and in hand: it is registered with no peer. -/
def Poll.Hand (poll : Poll) (fd : Nat) (pollable : Bool) : Prop :=
  poll.fds.get fd = some ⟨pollable, none⟩

/-- The descriptors other than one are the same. -/
def Poll.Same (before after : Poll) (fd : Nat) : Prop :=
  ∀ other, other ≠ fd → after.fds.get other = before.fds.get other

theorem Poll.Hand.ne (hand : poll.Hand fd pollable) {other : Nat}
    (free : poll.fds.get other = none) : fd ≠ other := by
  rintro rfl
  cases hand.symm.trans free

theorem Poll.Hand.keep {after : Poll} {other : Nat} (hand : poll.Hand fd pollable)
    (same : poll.Same after other) (differ : fd ≠ other) : after.Hand fd pollable :=
  (same fd differ).trans hand

/-- A descriptor that no object has may change while it is not registered. -/
theorem Wired.change (wired : Wired loop.objects loop.poll) (same : loop.poll.Same poll fd)
    (free : ∀ address object, loop.objects.get address = some object → object.slot ≠ some fd)
    (quiet : ∀ pollable watch, poll.fds.get fd ≠ some ⟨pollable, some watch⟩)
    (always : poll.always = loop.poll.always) : Wired loop.objects poll where
  watched := fun {address object own} reads slot => by
    have differ : own ≠ fd := fun here => free address object reads (here ▸ slot)
    rw [same own differ]
    exact wired.watched reads slot
  watching := fun {other pollable peer events} watches => by
    have differ : other ≠ fd := fun here => quiet pollable (peer, events) (here ▸ watches)
    exact wired.watching ((same other differ).symm.trans watches)
  distinct := always ▸ wired.distinct
  always := by
    rw [always]
    exact wired.always

/-- An account that no change of the descriptors but one concerns. -/
theorem Balanced.change (delta : Int) (balanced : Balanced credit loop) (same : loop.poll.Same poll fd)
    (others : poll.others = loop.poll.others)
    (moved : (if (poll.fds.get fd).isSome then 1 else 0 : Int) =
      (if (loop.poll.fds.get fd).isSome then 1 else 0) + delta) :
    Balanced (credit + Pi.single (.fd fd) delta) { loop with poll := poll } := by
  intro account
  have books := balanced account
  by_cases here : account = .fd fd
  · subst here
    simp only [Loop.Books, others, Pi.add_apply, Pi.single_eq_same] at books ⊢
    rw [moved, ← books]
    omega
  · rw [Pi.add_apply, Pi.single_eq_of_ne here, add_zero]
    cases account with
    | fd other =>
        have differ : other ≠ fd := fun same => here (congrArg Account.fd same)
        simp only [Loop.Books, others, same other differ] at books ⊢
        exact books
    | flow | wake | ran | count | transports => exact books

/-- `openFd`: a descriptor comes in hand. -/
theorem Inv.openFd (inv : Inv clean credit loop) (pollable : Bool) :
    loop.poll.openFd pollable = .error .limit ∨ ∃ fd poll,
      loop.poll.openFd pollable = .ok (fd, poll) ∧ loop.poll.fds.get fd = none ∧
      poll.Hand fd pollable ∧ loop.poll.Same poll fd ∧
      Inv clean (credit + one (.fd fd)) { loop with poll := poll } := by
  have free := loop.poll.fds.get_lowestFree
  by_cases fits : loop.poll.fds.lowestFree < 2 ^ 31
  · refine .inr ⟨_, _, if_pos fits, free, Table.get_put_self .., fun other differ =>
      Table.get_put_of_ne _ _ _ differ, ?_⟩
    have same : loop.poll.Same { loop.poll with
        fds := loop.poll.fds.put loop.poll.fds.lowestFree ⟨pollable, none⟩ }
        loop.poll.fds.lowestFree := fun other differ => Table.get_put_of_ne _ _ _ differ
    exact {
      balanced := inv.balanced.change _ same rfl (by
        rw [free, Table.get_put_self]
        rfl)
      wired := inv.wired.change same (fun address object reads slot => by
          obtain ⟨_, _, isOpen⟩ := inv.wired.watched reads slot
          rw [free] at isOpen
          cases isOpen)
        (fun pollable watch => by
          rw [Table.get_put_self]
          simp only [ne_eq, Option.some.injEq, Descriptor.mk.injEq, reduceCtorEq, and_false,
            not_false_eq_true])
        rfl
      formed := inv.formed
      flat := inv.flat
      small := fun {other} isOpen => by
        by_cases here : other = loop.poll.fds.lowestFree
        · rwa [here]
        · exact inv.small ((same other here) ▸ isOpen) }
  · exact .inl (if_neg fits)

/-- `closeFd`: a descriptor in hand is given away. -/
theorem Inv.closeFd (inv : Inv clean credit loop) (hand : loop.poll.Hand fd pollable)
    (owns : 1 ≤ credit (.fd fd)) : ∃ poll,
      loop.poll.closeFd fd = .ok poll ∧ loop.poll.Same poll fd ∧
      Inv clean (credit - one (.fd fd)) { loop with poll := poll } := by
  have same : loop.poll.Same { loop.poll with fds := loop.poll.fds.remove fd } fd :=
    fun other differ => Table.get_remove_of_ne _ _ differ
  refine ⟨{ loop.poll with fds := loop.poll.fds.remove fd }, ?_, same, ?_⟩
  · rw [Poll.closeFd, hand]
  · have moved := inv.balanced.change (-1) same rfl (by
      rw [hand, Table.get_remove_self]
      rfl)
    rw [Pi.single_neg, ← sub_eq_add_neg] at moved
    exact {
      balanced := moved
      wired := inv.wired.change same (inv.balanced.free owns).1 (fun pollable watch => by
        rw [Table.get_remove_self]
        exact nofun) rfl
      formed := inv.formed
      flat := inv.flat
      small := fun {other} isOpen => by
        rcases Option.isSome_iff_exists.mp isOpen with ⟨descriptor, reads⟩
        exact inv.small (Option.isSome_iff_exists.mpr
          ⟨descriptor, (Table.get_remove_eq_some.mp reads).2⟩) }

/-! ## Peers added and deleted -/

/-- `peer_epoll_add` with a descriptor in hand. -/
def Poll.added (poll : Poll) (peer : PeerRef) (fd : Nat) (events : Events) (pollable : Bool) : Poll :=
  if pollable then { poll with fds := poll.fds.put fd ⟨true, some (peer, events)⟩ }
  else if events = .none then poll
  else { poll with always := poll.always ++ [peer] }

/-- `peer_epoll_del` for the peer of an object. -/
def Poll.deleted (poll : Poll) (peer : PeerRef) (fd : Nat) (alwaysTrigger pollable : Bool) : Poll :=
  if pollable then { poll with fds := poll.fds.put fd ⟨true, none⟩ }
  else { poll with always := if alwaysTrigger then poll.always.erase peer else poll.always }

theorem Poll.peerEpollAdd_eq (hand : poll.Hand fd pollable) (polls : object.Polls pollable)
    (slot : object.slot = some fd) :
    poll.peerEpollAdd (object.peerRef address) fd object.events =
      .ok (object.alwaysTrigger, poll.added (object.peerRef address) fd object.events pollable) := by
  rw [Poll.Hand] at hand
  cases pollable with
  | true =>
      rw [peerEpollAdd, hand, added, if_pos rfl]
      cases object with
      | receive fd alwaysTrigger onClose =>
          cases polls
          rfl
      | _ => rfl
  | false =>
      rw [peerEpollAdd, hand, added]
      cases object with
      | receive fd alwaysTrigger onClose =>
          cases polls
          rfl
      | send fd onClose => rfl
      | sendReceive | file => cases slot
      | _ => cases polls

theorem Wired.deleted (wired : Wired loop.objects loop.poll)
    (reads : loop.objects.get address = some object) (slot : object.slot = some fd)
    (alone : ∀ other object, loop.objects.get other = some object → object.slot = some fd →
      other = address) (polls : object.Polls pollable)
    (watched : loop.poll.fds.get fd = some
      ⟨pollable, if pollable then some (object.peerRef address, object.events) else none⟩) :
    Wired (loop.objects.remove address)
        (loop.poll.deleted (object.peerRef address) fd object.alwaysTrigger pollable) ∧
      (loop.poll.deleted (object.peerRef address) fd object.alwaysTrigger pollable).Hand fd pollable ∧
      loop.poll.Same (loop.poll.deleted (object.peerRef address) fd object.alwaysTrigger pollable)
        fd := by
  have inAlways : ∀ {peer}, peer ∈ loop.poll.always ↔
      peer = .peer address ∧ object.alwaysTrigger = true ∨ ∃ other fd onClose,
        (loop.objects.remove address).get other = some (.receive fd true onClose) ∧
          peer = .peer other := by
    intro peer
    rw [wired.always]
    constructor
    · rintro ⟨other, own, onClose, reads', same⟩
      by_cases here : other = address
      · subst here
        cases reads.symm.trans reads'
        exact .inl ⟨same, rfl⟩
      · exact .inr ⟨other, own, onClose, Table.get_remove_eq_some.mpr ⟨here, reads'⟩, same⟩
    · rintro (⟨same, trigger⟩ | ⟨other, own, onClose, reads', same⟩)
      · cases object with
        | receive own alwaysTrigger onClose =>
            cases trigger
            exact ⟨address, own, onClose, reads, same⟩
        | _ => cases trigger
      · exact ⟨other, own, onClose, (Table.get_remove_eq_some.mp reads').2, same⟩
  cases pollable with
  | true =>
      have quiet : object.alwaysTrigger = false := by
        cases object with
        | receive own alwaysTrigger onClose => exact polls
        | _ => rfl
      have same : loop.poll.Same { loop.poll with fds := loop.poll.fds.put fd ⟨true, none⟩ } fd :=
        fun other differ => Table.get_put_of_ne _ _ _ differ
      refine ⟨?_, Table.get_put_self .., same⟩
      rw [Poll.deleted, if_pos rfl]
      exact {
        watched := fun {other object' own} reads' slot' => by
          obtain ⟨elsewhere, reads'⟩ := Table.get_remove_eq_some.mp reads'
          have differ : own ≠ fd := fun here => elsewhere (alone other object' reads' (here ▸ slot'))
          rw [same own differ]
          exact wired.watched reads' slot'
        watching := fun {own pollable peer events} watches => by
          have differ : own ≠ fd := by
            rintro rfl
            rw [Table.get_put_self] at watches
            cases watches
          obtain ⟨other, object', reads', slot', refers⟩ :=
            wired.watching ((same own differ).symm.trans watches)
          refine ⟨other, object', Table.get_remove_eq_some.mpr ⟨?_, reads'⟩, slot', refers⟩
          rintro rfl
          cases reads.symm.trans reads'
          exact differ (Option.some.inj (slot'.symm.trans slot))
        distinct := wired.distinct
        always := by
          intro peer
          rw [inAlways, quiet]
          simp only [Bool.false_eq_true, and_false, false_or] }
  | false =>
      refine ⟨?_, watched, fun other differ => rfl⟩
      rw [Poll.deleted, if_neg Bool.false_ne_true]
      exact {
        watched := fun reads' slot' =>
          wired.watched (Table.get_remove_eq_some.mp reads').2 slot'
        watching := fun {own pollable peer events} watches => by
          obtain ⟨other, object', reads', slot', refers⟩ := wired.watching watches
          refine ⟨other, object', Table.get_remove_eq_some.mpr ⟨?_, reads'⟩, slot', refers⟩
          rintro rfl
          cases reads.symm.trans reads'
          rw [← Option.some.inj (slot.symm.trans slot')] at watches
          cases watched.symm.trans watches
        distinct := by
          dsimp only
          split
          · exact wired.distinct.erase _
          · exact wired.distinct
        always := by
          intro peer
          have peerRef : object.alwaysTrigger = true → object.peerRef address = .peer address := by
            intro trigger
            cases object with
            | receive => rfl
            | _ => cases trigger
          dsimp only
          split
          · next trigger =>
              rw [wired.distinct.mem_erase_iff, peerRef trigger, inAlways]
              constructor
              · rintro ⟨differ, here | elsewhere⟩
                · exact absurd here.1 differ
                · exact elsewhere
              · rintro ⟨other, own, onClose, reads', same⟩
                refine ⟨?_, .inr ⟨other, own, onClose, reads', same⟩⟩
                rintro rfl
                rw [PeerRef.peer.injEq] at same
                exact (Table.get_remove_eq_some.mp reads').1 same.symm
          · next trigger =>
              rw [inAlways]
              simp only [trigger, Bool.false_eq_true, and_false, false_or] }

/-- `peer_epoll_del` for an object, which is taken in hand with its descriptor. -/
theorem Inv.unplug (inv : Inv clean credit loop) (natural : 0 ≤ credit (.fd fd))
    (reads : loop.objects.get address = some object) (slot : object.slot = some fd) :
    ∃ poll pollable, loop.poll.peerEpollDel (object.peerRef address) fd object.alwaysTrigger =
        .ok poll ∧ object.Polls pollable ∧ poll.Hand fd pollable ∧ loop.poll.Same poll fd ∧
      Inv clean (credit + fun account => charge account address object)
        (Loop.listDel { loop with poll := poll } address) := by
  obtain ⟨pollable, polls, watched⟩ := inv.wired.watched reads slot
  obtain ⟨alone, _⟩ := inv.balanced.alone natural reads slot
  obtain ⟨wired, hand, same⟩ := inv.wired.deleted reads slot alone polls watched
  have others : (loop.poll.deleted (object.peerRef address) fd object.alwaysTrigger
      pollable).others = loop.poll.others := by
    rw [Poll.deleted]
    split <;> rfl
  have moved := inv.balanced.change 0 same others (by
    rw [hand, watched]
    rfl)
  rw [Pi.single_zero, add_zero] at moved
  refine ⟨_, pollable, ?_, polls, hand, same, {
    balanced := moved.take reads
    wired := wired
    formed := fun reads' => inv.formed (Table.get_remove_eq_some.mp reads').2
    flat := inv.flat.remove address
    small := fun {other} isOpen => by
      by_cases here : other = fd
      · rw [here]
        exact inv.small (by rw [watched]; rfl)
      · exact inv.small (same other here ▸ isOpen) }⟩
  rw [Poll.peerEpollDel, watched, Poll.deleted]
  cases pollable <;> rfl

theorem Wired.added (wired : Wired loop.objects loop.poll)
    (free : loop.objects.get address = none) (slot : object.slot = some fd)
    (alone : ∀ address object, loop.objects.get address = some object → object.slot ≠ some fd)
    (hand : loop.poll.Hand fd pollable) (polls : object.Polls pollable) :
    Wired (loop.objects.put address object)
        (loop.poll.added (object.peerRef address) fd object.events pollable) := by
  have elsewhere : ∀ {other object'}, loop.objects.get other = some object' →
      (loop.objects.put address object).get other = some object' := fun {other object'} reads => by
    refine Table.get_put_eq_some.mpr (.inr ⟨?_, reads⟩)
    rintro rfl
    rw [free] at reads
    cases reads
  cases pollable with
  | true =>
      have quiet : object.alwaysTrigger = false := by
        cases object with
        | receive own alwaysTrigger onClose => exact polls
        | _ => rfl
      rw [Poll.added, if_pos rfl]
      exact {
        watched := fun {other object' own} reads slot' => by
          rcases Table.get_put_eq_some.mp reads with ⟨rfl, rfl⟩ | ⟨_, reads⟩
          · cases slot.symm.trans slot'
            exact ⟨true, polls, Table.get_put_self ..⟩
          · have differ : own ≠ fd := fun here => alone other object' reads (here ▸ slot')
            rw [Table.get_put_of_ne _ _ _ differ]
            exact wired.watched reads slot'
        watching := fun {own pollable peer events} watches => by
          rcases Table.get_put_eq_some.mp watches with ⟨rfl, same⟩ | ⟨_, watches⟩
          · cases same
            exact ⟨address, object, Table.get_put_self .., slot, rfl⟩
          · obtain ⟨other, object', reads, slot', refers⟩ := wired.watching watches
            exact ⟨other, object', elsewhere reads, slot', refers⟩
        distinct := wired.distinct
        always := fun {peer} => by
          rw [wired.always]
          constructor
          · rintro ⟨other, own, onClose, reads, same⟩
            exact ⟨other, own, onClose, elsewhere reads, same⟩
          · rintro ⟨other, own, onClose, reads, same⟩
            rcases Table.get_put_eq_some.mp reads with ⟨_, rfl⟩ | ⟨_, reads⟩
            · cases quiet
            · exact ⟨other, own, onClose, reads, same⟩ }
  | false =>
      have watched : ∀ {other object' own}, (loop.objects.put address object).get other =
          some object' → object'.slot = some own → ∃ pollable, object'.Polls pollable ∧
            loop.poll.fds.get own = some
              ⟨pollable, if pollable then some (object'.peerRef other, object'.events) else none⟩ := by
        intro other object' own reads slot'
        rcases Table.get_put_eq_some.mp reads with ⟨rfl, rfl⟩ | ⟨_, reads⟩
        · cases slot.symm.trans slot'
          exact ⟨false, polls, hand⟩
        · exact wired.watched reads slot'
      have watching : ∀ {own pollable peer events},
          loop.poll.fds.get own = some ⟨pollable, some (peer, events)⟩ → ∃ other object',
            (loop.objects.put address object).get other = some object' ∧
              object'.slot = some own ∧ peer = object'.peerRef other := by
        intro own pollable peer events watches
        obtain ⟨other, object', reads, slot', refers⟩ := wired.watching watches
        exact ⟨other, object', elsewhere reads, slot', refers⟩
      rw [Poll.added, if_neg Bool.false_ne_true]
      -- only the two flows may have a descriptor that cannot be polled
      cases object with
      | receive own alwaysTrigger onClose =>
          cases polls
          have fresh : PeerRef.peer address ∉ loop.poll.always := by
            rw [wired.always]
            rintro ⟨other, own, onClose, reads, same⟩
            cases same
            rw [free] at reads
            cases reads
          exact {
            watched := watched
            watching := watching
            distinct := List.nodup_append'.mpr ⟨wired.distinct, List.nodup_singleton _,
              List.disjoint_singleton.mpr fresh⟩
            always := fun {peer} => by
              change peer ∈ loop.poll.always ++ [.peer address] ↔ _
              rw [List.mem_append, List.mem_singleton, wired.always]
              constructor
              · rintro (⟨other, own, onClose, reads, same⟩ | same)
                · exact ⟨other, own, onClose, elsewhere reads, same⟩
                · exact ⟨address, own, onClose, Table.get_put_self .., same⟩
              · rintro ⟨other, own, onClose, reads, same⟩
                rcases Table.get_put_eq_some.mp reads with ⟨rfl, _⟩ | ⟨_, reads⟩
                · exact .inr same
                · exact .inl ⟨other, own, onClose, reads, same⟩ }
      | send own onClose =>
          exact {
            watched := watched
            watching := watching
            distinct := wired.distinct
            always := fun {peer} => by
              change peer ∈ loop.poll.always ↔ _
              rw [wired.always]
              constructor
              · rintro ⟨other, own, onClose, reads, same⟩
                exact ⟨other, own, onClose, elsewhere reads, same⟩
              · rintro ⟨other, own, onClose, reads, same⟩
                rcases Table.get_put_eq_some.mp reads with ⟨_, kind⟩ | ⟨_, reads⟩
                · cases kind
                · exact ⟨other, own, onClose, reads, same⟩ }
      | sendReceive | file => cases slot
      | _ => cases polls

variable (object) in
/-- `peer_epoll_add` for an object with a descriptor that is in hand, and which is put in the
table. -/
theorem Inv.plug (inv : Inv clean (credit + fun account => charge account address object) loop)
    (natural : 0 ≤ credit (.fd fd)) (free : loop.objects.get address = none)
    (slot : object.slot = some fd) (hand : loop.poll.Hand fd pollable)
    (polls : object.Polls pollable) (formed : object.Formed clean loop.history) :
    ∃ poll, loop.poll.peerEpollAdd (object.peerRef address) fd object.events =
        .ok (object.alwaysTrigger, poll) ∧ loop.poll.Same poll fd ∧ (poll.fds.get fd).isSome ∧
      Inv clean credit (Loop.put { loop with poll := poll } address object) := by
  have owned : charge (.fd fd) address object = 1 := by
    simp only [charge, slot, ↓reduceIte]
  have alone := (inv.balanced.free (show 1 ≤ _ by rw [Pi.add_apply, owned]; omega)).1
  have wired := inv.wired.added free slot alone hand polls
  have others : (loop.poll.added (object.peerRef address) fd object.events pollable).others =
      loop.poll.others := by
    simp only [Poll.added]
    split
    · rfl
    · split <;> rfl
  have same : loop.poll.Same (loop.poll.added (object.peerRef address) fd object.events pollable)
      fd := fun other differ => by
    simp only [Poll.added]
    split
    · exact Table.get_put_of_ne _ _ _ differ
    · split <;> rfl
  have stays : ((loop.poll.added (object.peerRef address) fd object.events
      pollable).fds.get fd).isSome := by
    simp only [Poll.added]
    split
    · rw [Table.get_put_self]
      rfl
    · split
      · rw [hand]
        rfl
      · change (loop.poll.fds.get fd).isSome
        rw [hand]
        rfl
  have moved := inv.balanced.change 0 same others (by
    rw [hand, if_pos stays]
    rfl)
  rw [Pi.single_zero, add_zero] at moved
  refine ⟨_, Poll.peerEpollAdd_eq hand polls slot, same, stays, {
    balanced := moved.put free
    wired := wired
    formed := fun reads' => by
      rcases Table.get_put_eq_some.mp reads' with ⟨_, rfl⟩ | ⟨_, reads'⟩
      · exact formed
      · exact inv.formed reads'
    flat := inv.flat.put (fits_of_slot slot)
    small := fun {other} isOpen => by
      by_cases here : other = fd
      · rw [here]
        exact inv.small (by rw [hand]; rfl)
      · exact inv.small (same other here ▸ isOpen) }⟩

variable (loop object fd) in
/-- The object in hand takes its place in the table again, with a descriptor that is added. -/
theorem Inv.plugBack
    (inv : Inv clean (credit + fun account => charge account address object) (loop.listDel address))
    (natural : 0 ≤ credit (.fd fd)) (slot : object.slot = some fd)
    (hand : loop.poll.Hand fd pollable) (polls : object.Polls pollable)
    (formed : object.Formed clean loop.history) :
    ∃ poll, loop.poll.peerEpollAdd (object.peerRef address) fd object.events =
        .ok (object.alwaysTrigger, poll) ∧ loop.poll.Same poll fd ∧ (poll.fds.get fd).isSome ∧
      Inv clean credit (Loop.put { loop with poll := poll } address object) := by
  obtain ⟨poll, added, same, stays, plugged⟩ :=
    inv.plug object natural (Table.get_remove_self ..) slot hand polls formed
  refine ⟨poll, added, same, stays, ?_⟩
  rwa [Loop.put, show (loop.listDel address).objects.put address object =
    loop.objects.put address object from loop.objects.put_remove address object] at plugged

/-- `peer_close` for an object, which is taken in hand without a descriptor. -/
theorem Inv.release (inv : Inv clean credit loop) (natural : ∀ fd, 0 ≤ credit (.fd fd))
    (reads : loop.objects.get address = some object) :
    ∃ poll, loop.poll.peerClose (object.peerRef address) object.alwaysTrigger object.slot =
        .ok poll ∧
      Inv clean (credit + (fun account => charge account address object) - each .fd object.slot)
        (Loop.listDel { loop with poll := poll } address) := by
  cases slot : object.slot with
  | none => exact ⟨loop.poll, rfl, (inv.take reads slot).recredit (by rw [each, sub_zero])⟩
  | some fd =>
      obtain ⟨poll, pollable, deleted, _, hand, _, inv'⟩ := inv.unplug (natural fd) reads slot
      obtain ⟨poll', closed, _, inv''⟩ := inv'.closeFd hand (by
        have own := natural fd
        simp only [Pi.add_apply, charge, slot, ↓reduceIte]
        omega)
      change poll.closeFd fd = .ok poll' at closed
      refine ⟨poll', ?_, inv''⟩
      simp only [Poll.peerClose, deleted, Except.ok_bind, closed]

/-- `resolve_result` for an object that has the descriptor: it is taken in hand without it. -/
theorem Inv.shut (inv : Inv clean credit loop) (natural : 0 ≤ credit (.fd fd))
    (reads : loop.objects.get address = some object) (slot : object.slot = some fd)
    (polled : ∀ pollable, object.Polls pollable → pollable = true) :
    ∃ poll, loop.poll.closeFd fd = .ok poll ∧
      Inv clean (credit + (fun account => charge account address object) - one (.fd fd))
        (Loop.listDel { loop with poll := poll } address) := by
  obtain ⟨unplugged, pollable, deleted, polls, hand, _, inv'⟩ := inv.unplug natural reads slot
  cases polled pollable polls
  have owned : charge (.fd fd) address object = 1 := by
    simp only [charge, slot, ↓reduceIte]
  obtain ⟨poll, closed, _, inv''⟩ := inv'.closeFd hand (by rw [Pi.add_apply, owned]; omega)
  refine ⟨poll, ?_, inv''⟩
  change unplugged.closeFd fd = .ok poll at closed
  obtain ⟨pollable, polls, watched⟩ := inv.wired.watched reads slot
  cases polled pollable polls
  -- closing the descriptor does what deleting the peer and closing it does
  rw [Poll.peerEpollDel, watched] at deleted
  cases deleted
  simp only [Poll.closeFd, Table.get_put_self,
    loop.poll.fds.remove_put _ _ (Table.lt_bound watched)] at closed
  simpa only [Poll.closeFd, watched] using closed

/-! ## Others -/

/-- A descriptor in hand goes to the others. -/
theorem Inv.lend (inv : Inv clean credit loop) (fd : Nat) :
    Inv clean (credit - one (.fd fd))
      { loop with poll := { loop.poll with others := fd :: loop.poll.others } } where
  balanced := by
    intro account
    have books := inv.balanced account
    rw [Pi.sub_apply]
    by_cases here : account = .fd fd
    · subst here
      simp only [Loop.Books, List.count_cons_self, Pi.single_eq_same] at books ⊢
      omega
    · rw [one_of_ne here, sub_zero]
      cases account with
      | fd other =>
          have differ : fd ≠ other := fun same => here (congrArg Account.fd same.symm)
          simp only [Loop.Books, List.count_cons_of_ne differ] at books ⊢
          exact books
      | flow | wake | ran | count | transports => exact books
  wired := ⟨inv.wired.watched, inv.wired.watching, inv.wired.distinct, inv.wired.always⟩
  formed := inv.formed
  flat := inv.flat
  small := inv.small

/-- One of the others comes in hand. -/
theorem Inv.reclaim (inv : Inv clean credit loop) (natural : 0 ≤ credit (.fd fd))
    (other : fd ∈ loop.poll.others) : ∃ pollable, loop.poll.Hand fd pollable ∧
      Inv clean (credit + one (.fd fd))
        { loop with poll := { loop.poll with others := loop.poll.others.erase fd } } := by
  have books := inv.balanced (.fd fd)
  have total := Table.total_nonneg loop.objects _ fun address object _ =>
    charge_fd_nonneg fd address object
  have counted := List.count_pos_iff.mpr other
  simp only [Loop.Books] at books
  have isOpen : (loop.poll.fds.get fd).isSome = true := by
    by_contra closed
    rw [if_neg closed] at books
    omega
  rw [if_pos isOpen] at books
  obtain ⟨⟨pollable, watch⟩, reads⟩ := Option.isSome_iff_exists.mp isOpen
  have quiet : watch = none := by
    cases watch with
    | none => rfl
    | some watch =>
        obtain ⟨address, object, owner, slot, _⟩ := inv.wired.watching reads
        have own := Table.le_total (fun address object _ => charge_fd_nonneg fd address object) owner
        simp only [charge, slot, ↓reduceIte] at own
        omega
  subst quiet
  refine ⟨pollable, reads, {
    balanced := ?_
    wired := ⟨inv.wired.watched, inv.wired.watching, inv.wired.distinct, inv.wired.always⟩
    formed := inv.formed
    flat := inv.flat
    small := inv.small }⟩
  intro account
  have books := inv.balanced account
  rw [Pi.add_apply]
  by_cases here : account = .fd fd
  · subst here
    simp only [Loop.Books, List.count_erase_self, Pi.single_eq_same] at books ⊢
    omega
  · rw [one_of_ne here, add_zero]
    cases account with
    | fd another =>
        have differ : another ≠ fd := fun same => here (congrArg Account.fd same)
        simp only [Loop.Books, List.count_erase_of_ne differ] at books ⊢
        exact books
    | flow | wake | ran | count | transports => exact books

end Adsbus.EventLoop

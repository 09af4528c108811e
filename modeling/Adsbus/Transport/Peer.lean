import Adsbus.Foundation.Except
import Adsbus.Foundation.Table
import Adsbus.Transport.Exec

/-! # Peers

The program waits for all its descriptors at once. An object that has one embeds a
peer, which it adds to the epoll instance and which names the handler to call. The
kernel hands out the lowest number that is free; a descriptor that cannot be polled
is refused by epoll, and its peer is called in every turn of the loop instead.
-/

namespace Adsbus.EventLoop

/-- How the program can stop, but for leaving its loop. -/
inductive LoopFault
  /-- `peer_epoll_add`, `peer_epoll_del`, `close` or `F_DUPFD_CLOEXEC`: an assertion fails. -/
  | epollAdd
  | epollDel
  | close
  | dup
  /-- A peer is called that was freed. -/
  | dead
  /-- No fault of the program: handlers call each other deeper than the model follows them. -/
  | depth
  /-- A counter of zero is decremented. -/
  | underflow
  /-- `wakeup_get_retry_delay_ms` divides by zero. -/
  | retryDelay
  /-- No number is left for a descriptor. -/
  | limit
  /-- `opts_call`: an option has an invalid value. -/
  | exit
  deriving DecidableEq, Repr

/-- A pointer to a peer: that at the start of an object, or `log_peer` of an exec object. -/
inductive PeerRef
  | peer (address : Nat)
  | logPeer (address : Nat)
  deriving DecidableEq, Repr

/-- The events that a peer is added with: 0, `EPOLLIN` or `EPOLLOUT`. -/
inductive Events
  | none
  | input
  | output
  deriving DecidableEq, Repr

/-- An open descriptor: whether it can be polled, and what it is registered with. -/
structure Descriptor where
  pollable : Bool
  watch : Option (PeerRef × Events)
  deriving DecidableEq, Repr

/-- The descriptors, those among them that no object has, and `peer_always_trigger_head`. -/
structure Poll where
  fds : Table Descriptor
  others : List Nat
  always : List PeerRef

namespace Poll

/-- The kernel opens a descriptor. -/
def openFd (poll : Poll) (pollable : Bool) : Except LoopFault (Nat × Poll) :=
  let fd := poll.fds.lowestFree
  if fd < 2 ^ 31 then .ok (fd, { poll with fds := poll.fds.put fd ⟨pollable, none⟩ })
  else .error .limit

/-- `close`, asserted to succeed. -/
def closeFd (poll : Poll) (fd : Nat) : Except LoopFault Poll :=
  match poll.fds.get fd with
  | some _ => .ok { poll with fds := poll.fds.remove fd }
  | none => .error .close

/-- `fcntl` with `F_DUPFD_CLOEXEC`, asserted to succeed. -/
def dupFd (poll : Poll) (fd : Nat) : Except LoopFault (Nat × Poll) :=
  match poll.fds.get fd with
  | some descriptor => poll.openFd descriptor.pollable
  | none => .error .dup

/-- `peer_epoll_add` for a peer with the descriptor, and the `always_trigger` it leaves. -/
def peerEpollAdd (poll : Poll) (peer : PeerRef) (fd : Nat) (events : Events) :
    Except LoopFault (Bool × Poll) :=
  match poll.fds.get fd with
  | some ⟨true, none⟩ =>
      .ok (false, { poll with fds := poll.fds.put fd ⟨true, some (peer, events)⟩ })
  | some ⟨false, _⟩ =>
      if events = .none then .ok (false, poll)
      else .ok (true, { poll with always := poll.always ++ [peer] })
  | _ => .error .epollAdd

/-- `peer_epoll_del` for a peer with the descriptor and the `always_trigger`. -/
def peerEpollDel (poll : Poll) (peer : PeerRef) (fd : Nat) (alwaysTrigger : Bool) :
    Except LoopFault Poll :=
  match poll.fds.get fd with
  | some ⟨true, some _⟩ => .ok { poll with fds := poll.fds.put fd ⟨true, none⟩ }
  | some ⟨false, _⟩ =>
      .ok { poll with always := if alwaysTrigger then poll.always.erase peer else poll.always }
  | _ => .error .epollDel

/-- `peer_close`; no descriptor stands for -1. -/
def peerClose (poll : Poll) (peer : PeerRef) (alwaysTrigger : Bool) :
    Option Nat → Except LoopFault Poll
  | none => .ok poll
  | some fd => do
      let poll ← poll.peerEpollDel peer fd alwaysTrigger
      poll.closeFd fd

/-- Whether epoll can report the peer. -/
def registered (poll : Poll) (peer : PeerRef) : Bool :=
  (poll.fds.find? fun descriptor => descriptor.watch.any fun watch => watch.1 = peer).isSome

/-- The successor of a peer in `peer_always_trigger_head`; none is the head. A peer that is not in
the list any more has none. -/
def next (poll : Poll) : Option PeerRef → Except LoopFault (Option PeerRef)
  | none => .ok none
  | some peer =>
      match poll.always.dropWhile (· ≠ peer) with
      | _ :: rest => .ok rest.head?
      | [] => .error .dead

end Poll

/-! ## Objects -/

/-- The flows, `receive_flow`, `send_flow` and `send_receive_flow`. -/
inductive Flow
  | receive
  | send
  | sendReceive
  deriving DecidableEq, Repr

inductive FileHandler
  | fileOpenWrapper
  | fileHandleClose
  deriving DecidableEq, Repr

/-- `struct file`. Its peer has no descriptor, at any time. -/
structure File where
  eventHandler : FileHandler
  flags : UInt32
  attempt : UInt32
  flow : Flow
  retry : Bool
  deriving DecidableEq, Repr

inductive OutgoingHandler
  | outgoingConnectHandler
  | outgoingDisconnectHandler
  | outgoingResolveHandler
  | outgoingResolveWrapper
  deriving DecidableEq, Repr

/-- `struct outgoing`, with the number of addresses from `addr` on. -/
structure Outgoing where
  fd : Option Nat
  eventHandler : OutgoingHandler
  addr : Nat
  attempt : UInt32
  flow : Flow
  deriving DecidableEq, Repr

inductive IncomingHandler
  | incomingListen
  | incomingHandler
  | incomingResolveWrapper
  deriving DecidableEq, Repr

/-- `struct incoming`. -/
structure Incoming where
  fd : Option Nat
  eventHandler : IncomingHandler
  attempt : UInt32
  flow : Flow
  deriving DecidableEq, Repr

/-- `struct exec`, with the descriptor of `log_peer`. That of `peer` is -1 at any time. -/
structure Exec where
  logFd : Option Nat
  eventHandler : ExecHandler
  flow : Flow
  child : Option Nat
  deriving DecidableEq, Repr

/-- What has a peer. `peer_shutdown_peer` and `exec_peer` are static, all others are allocated. A
null `on_close` is none. -/
inductive Object
  | peerShutdownPeer (fd : Option Nat)
  | execPeer (fd : Option Nat)
  | receive (fd : Nat) (alwaysTrigger : Bool) (onClose : Option Nat)
  | send (fd : Nat) (onClose : Option Nat)
  | sendReceive (refCount : UInt8) (onClose : Option Nat)
  | wakeup (fd innerPeer : Nat) (delayMs : UInt32)
  | file (file : File)
  | outgoing (outgoing : Outgoing)
  | incoming (incoming : Incoming)
  | exec (exec : Exec)
  deriving DecidableEq, Repr

/-- What the history keeps: a flow was started, its `on_close` was called, or a retry delay was
drawn. -/
inductive Event
  | flowNew (flow : Nat)
  | onClose (flow : Nat)
  | draw (attempt jitter : UInt32)
  deriving DecidableEq, Repr

/-- The program and the kernel. An object stays in the table from its allocation until it is taken
off its list to be freed, and no address is used twice; `peerCount` has the counter that
`ref_count` of a flow points to. The history is not part of the program. -/
structure Loop where
  poll : Poll
  objects : Table Object
  peerCount : Flow → UInt32
  peerShutdownFlag : Bool
  history : List Event

end Adsbus.EventLoop

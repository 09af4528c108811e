import Adsbus.Transport.Peer
import Adsbus.Transport.Wakeup

/-! # The event loop

The transports and flows as handlers on the objects, and `peer_loop` around them. What
the program is told by the rest of the world, by the kernel, the resolver and the
random numbers, is an answer given beforehand to each call. A handler may call others,
through an `on_close` or the `inner_peer` of a wakeup.
-/

namespace Adsbus.EventLoop

/-- What the calls of one handler return. -/
structure Answers where
  /-- The descriptor that is read has ended, or its buffer is overrun. -/
  closes : Bool
  /-- `resolve_result`: the number of addresses, or none for an error. -/
  resolved : Option Nat
  /-- `sendto`, by the number of addresses behind: whether all was queued, and `errno`. -/
  sendto : Nat → Bool × Nat
  /-- `SO_ERROR`. -/
  error : Nat
  /-- `bind` succeeds, by the number of addresses behind. -/
  bind : Nat → Bool
  /-- `accept4` succeeds. -/
  accepted : Bool
  /-- `open`: whether the file can be polled, or none for an error. -/
  opened : Option Bool
  /-- The hello is written whole. -/
  written : Bool
  /-- The random number that a delay is drawn from. -/
  jitter : UInt32
  /-- `fork`: the child. -/
  forked : Nat
  /-- `waitpid`: the child that has exited, or none. -/
  reaped : Option Nat

/-- `EINPROGRESS`. -/
def errnoInProgress : Nat := 115

namespace Loop

variable (loop : Loop)

/-- The object at the address is as given from now on. -/
def put (address : Nat) (object : Object) : Loop :=
  { loop with objects := loop.objects.put address object }

/-- The object is taken off its list. -/
def listDel (address : Nat) : Loop := { loop with objects := loop.objects.remove address }

/-- The history goes on. -/
def log (event : Event) : Loop := { loop with history := event :: loop.history }

/-! ## Flows -/

/-- `flow_ref_inc`. -/
def flowRefInc (flow : Flow) : Loop :=
  { loop with peerCount := Function.update loop.peerCount flow (loop.peerCount flow + 1) }

/-- `flow_ref_dec`. -/
def flowRefDec (flow : Flow) : Except LoopFault Loop :=
  if loop.peerCount flow = 0 then .error .underflow
  else .ok { loop with
    peerCount := Function.update loop.peerCount flow (loop.peerCount flow - 1) }

/-- `receive_new`. -/
def receiveNew (fd : Nat) (onClose : Option Nat) : Except LoopFault Loop := do
  let loop := loop.flowRefInc .receive
  let receive := loop.objects.bound
  let (alwaysTrigger, poll) ← loop.poll.peerEpollAdd (.peer receive) fd .input
  .ok (({ loop with poll := poll }.put receive (.receive fd alwaysTrigger onClose)).log
    (.flowNew receive))

/-- `send_new`. -/
def sendNew (fd : Nat) (onClose : Option Nat) : Except LoopFault Loop := do
  let loop := loop.flowRefInc .send
  let send := loop.objects.bound
  let (_, poll) ← loop.poll.peerEpollAdd (.peer send) fd .none
  .ok (({ loop with poll := poll }.put send (.send fd onClose)).log (.flowNew send))

/-- `send_receive_new`. -/
def sendReceiveNew (fd : Nat) (onClose : Option Nat) : Except LoopFault Loop := do
  let sendReceive := loop.objects.bound
  let loop := (loop.put sendReceive (.sendReceive 2 onClose)).log (.flowNew sendReceive)
  let loop ← loop.sendNew fd (some sendReceive)
  let (fd2, poll) ← loop.poll.dupFd fd
  { loop with poll := poll }.receiveNew fd2 (some sendReceive)

/-- `flow_new`. -/
def flowNew (fd : Nat) (flow : Flow) (onClose : Option Nat) : Except LoopFault Loop :=
  match flow with
  | .receive => loop.receiveNew fd onClose
  | .send => loop.sendNew fd onClose
  | .sendReceive => loop.sendReceiveNew fd onClose

/-- `flow_new_send_hello`: a receive flow has no hello, and its empty one is not written. -/
def flowNewSendHello (answers : Answers) (fd : Nat) (flow : Flow) (onClose : Option Nat) :
    Except LoopFault (Bool × Loop) :=
  if flow = .receive ∨ answers.written = true then do
    let loop ← loop.flowNew fd flow onClose
    .ok (true, loop)
  else do
    let poll ← loop.poll.closeFd fd
    .ok (false, { loop with poll := poll })

/-! ## Wakeups -/

/-- `wakeup_add`. -/
def wakeupAdd (peer : Nat) (delayMs : UInt32) : Except LoopFault Loop := do
  let (fd, poll) ← loop.poll.openFd true
  let wakeup := loop.objects.bound
  let (_, poll) ← poll.peerEpollAdd (.peer wakeup) fd .input
  .ok ({ loop with poll := poll }.put wakeup (.wakeup fd peer delayMs))

/-- `wakeup_del`. -/
def wakeupDel (wakeup fd : Nat) : Except LoopFault Loop := do
  let poll ← loop.poll.peerClose (.peer wakeup) false (some fd)
  .ok ({ loop with poll := poll }.listDel wakeup)

/-- What the retry functions have in common: a delay is drawn for the attempt number, the object
is left as given, and a wakeup is added for it. -/
def retry (answers : Answers) (address : Nat) (attempt : UInt32) (waiting : Object) :
    Except LoopFault Loop :=
  match wakeupGetRetryDelayMs attempt answers.jitter with
  | none => .error .retryDelay
  | some delay =>
      ((loop.log (.draw attempt answers.jitter)).put address waiting).wakeupAdd address delay

/-! ## Files -/

/-- `file_should_retry`, for a descriptor that can be polled or not: `!file->flags` is masked with
`O_RDONLY`, which is 0. -/
def fileShouldRetry (pollable : Bool) (file : File) : Bool :=
  if (if file.flags = 0 then (1 : UInt32) else 0) &&& 0 ≠ 0 then true else pollable

/-- `file_retry`. -/
def fileRetry (answers : Answers) (address : Nat) (file : File) : Except LoopFault Loop :=
  loop.retry answers address (Transport.file.attempt file.attempt)
    (.file { file with eventHandler := .fileOpenWrapper, attempt := file.attempt + 1 })

/-- `file_del`. -/
def fileDel (address : Nat) (file : File) : Except LoopFault Loop := do
  let loop ← loop.flowRefDec file.flow
  .ok (loop.listDel address)

/-- `file_handle_close`. -/
def fileHandleClose (answers : Answers) (address : Nat) (file : File) : Except LoopFault Loop :=
  if file.retry then loop.fileRetry answers address file else loop.fileDel address file

/-- `file_open`. -/
def fileOpen (answers : Answers) (address : Nat) (file : File) : Except LoopFault Loop :=
  match answers.opened with
  | none => loop.fileRetry answers address file
  | some pollable => do
      let (fd, poll) ← loop.poll.openFd pollable
      let file := { file with
        retry := fileShouldRetry pollable file, eventHandler := .fileHandleClose, attempt := 0 }
      let loop := { loop with poll := poll }.put address (.file file)
      let (sent, loop) ← loop.flowNewSendHello answers fd file.flow (some address)
      if sent then .ok loop else loop.fileRetry answers address file

/-- `file_new`. -/
def fileNew (answers : Answers) (flags : UInt32) (flow : Flow) : Except LoopFault Loop :=
  let loop := loop.flowRefInc flow
  let file := ⟨.fileOpenWrapper, flags, 0, flow, false⟩
  (loop.put loop.objects.bound (.file file)).fileOpen answers loop.objects.bound file

/-! ## Resolution -/

/-- `resolve`, and the descriptor that the peer gets. The other end of the pair is that of the
resolver's thread. -/
def resolve (peer : Nat) : Except LoopFault (Nat × Loop) := do
  let (fd, poll) ← loop.poll.openFd true
  let (returnFd, poll) ← poll.openFd true
  let (_, poll) ← { poll with others := returnFd :: poll.others }.peerEpollAdd (.peer peer) fd .input
  .ok (fd, { loop with poll := poll })

/-- `resolve_result`, but for what it returns: the descriptor is closed, and with it its
registration. -/
def resolveResult (fd : Option Nat) : Except LoopFault Loop :=
  match fd with
  | none => .error .close
  | some fd => do
      let poll ← loop.poll.closeFd fd
      .ok { loop with poll := poll }

/-! ## Outgoing connections -/

/-- `outgoing_retry`. -/
def outgoingRetry (answers : Answers) (address : Nat) (outgoing : Outgoing) :
    Except LoopFault Loop :=
  loop.retry answers address (Transport.outgoing.attempt outgoing.attempt)
    (.outgoing { outgoing with
      fd := none, attempt := outgoing.attempt + 1, eventHandler := .outgoingResolveWrapper })

/-- `outgoing_connect_result`, with the call of `outgoing_connect_next` for the addresses behind. -/
def outgoingConnectResult (connectNext : Loop → Except LoopFault Loop) (address : Nat)
    (outgoing : Outgoing) (fd result : Nat) : Except LoopFault Loop :=
  if result = 0 then
    (loop.put address (.outgoing { outgoing with
      attempt := 0, fd := none, eventHandler := .outgoingDisconnectHandler })).flowNew
        fd outgoing.flow (some address)
  else if result = errnoInProgress then do
    let (_, poll) ← loop.poll.peerEpollAdd (.peer address) fd .output
    .ok ({ loop with poll := poll }.put address (.outgoing { outgoing with
      fd := some fd, eventHandler := .outgoingConnectHandler }))
  else do
    let poll ← loop.poll.closeFd fd
    connectNext { loop with poll := poll }

/-- `outgoing_connect_next`, by the number of addresses that are left. -/
def outgoingConnectNext (answers : Answers) (address : Nat) (outgoing : Outgoing) :
    Nat → Loop → Except LoopFault Loop
  | 0, loop => loop.outgoingRetry answers address { outgoing with addr := 0 }
  | behind + 1, loop => do
      let (fd, poll) ← loop.poll.openFd true
      let (queued, errno) := answers.sendto behind
      { loop with poll := poll }.outgoingConnectResult
        (outgoingConnectNext answers address outgoing behind) address
        { outgoing with addr := behind + 1 } fd (if queued then errnoInProgress else errno)

/-- `outgoing_connect_handler`. -/
def outgoingConnectHandler (answers : Answers) (address : Nat) (outgoing : Outgoing) :
    Except LoopFault Loop :=
  match outgoing.fd with
  | none => .error .epollDel
  | some fd => do
      let poll ← loop.poll.peerEpollDel (.peer address) fd false
      { loop with poll := poll }.outgoingConnectResult
        (outgoingConnectNext answers address outgoing (outgoing.addr - 1)) address
        outgoing fd answers.error

/-- `outgoing_disconnect_handler`. -/
def outgoingDisconnectHandler (answers : Answers) (address : Nat) (outgoing : Outgoing) :
    Except LoopFault Loop :=
  loop.outgoingRetry answers address outgoing

/-- `outgoing_resolve_handler`. -/
def outgoingResolveHandler (answers : Answers) (address : Nat) (outgoing : Outgoing) :
    Except LoopFault Loop := do
  let loop ← loop.resolveResult outgoing.fd
  let outgoing := { outgoing with fd := none }
  match answers.resolved with
  | none => loop.outgoingRetry answers address outgoing
  | some addrs => outgoingConnectNext answers address outgoing addrs loop

/-- `outgoing_resolve`. -/
def outgoingResolve (address : Nat) (outgoing : Outgoing) : Except LoopFault Loop := do
  let (fd, loop) ← loop.resolve address
  .ok (loop.put address (.outgoing { outgoing with
    fd := some fd, eventHandler := .outgoingResolveHandler }))

/-- `outgoing_del`. -/
def outgoingDel (address : Nat) (outgoing : Outgoing) : Except LoopFault Loop := do
  let loop ← loop.flowRefDec outgoing.flow
  let poll ← loop.poll.peerClose (.peer address) false outgoing.fd
  .ok ({ loop with poll := poll }.listDel address)

/-- `outgoing_new`. -/
def outgoingNew (flow : Flow) : Except LoopFault Loop :=
  let loop := loop.flowRefInc flow
  let outgoing := ⟨none, .outgoingResolveWrapper, 0, 0, flow⟩
  (loop.put loop.objects.bound (.outgoing outgoing)).outgoingResolve loop.objects.bound outgoing

/-! ## Incoming connections -/

/-- `incoming_retry`, which leaves the descriptor of the peer as it is. -/
def incomingRetry (answers : Answers) (address : Nat) (incoming : Incoming) :
    Except LoopFault Loop :=
  loop.retry answers address (Transport.incoming.attempt incoming.attempt)
    (.incoming { incoming with
      attempt := incoming.attempt + 1, eventHandler := .incomingResolveWrapper })

/-- `incoming_handler`. -/
def incomingHandler (answers : Answers) (incoming : Incoming) : Except LoopFault Loop :=
  if answers.accepted then do
    let (fd, poll) ← loop.poll.openFd true
    let (_, loop) ← { loop with poll := poll }.flowNewSendHello answers fd incoming.flow none
    .ok loop
  else .ok loop

/-- `incoming_del`. -/
def incomingDel (address : Nat) (incoming : Incoming) : Except LoopFault Loop := do
  let loop ← loop.flowRefDec incoming.flow
  let poll ← loop.poll.peerClose (.peer address) false incoming.fd
  .ok ({ loop with poll := poll }.listDel address)

/-- The addresses of `incoming_listen` from one on, and what follows them: the first that can be
bound is listened on. -/
def incomingBind (answers : Answers) (address : Nat) :
    Nat → Incoming → Loop → Except LoopFault Loop
  | 0, incoming, loop => loop.incomingRetry answers address incoming
  | behind + 1, incoming, loop => do
      let (fd, poll) ← loop.poll.openFd true
      let incoming := { incoming with fd := some fd }
      if answers.bind behind then do
        let (_, poll) ← poll.peerEpollAdd (.peer address) fd .input
        .ok ({ loop with poll := poll }.put address (.incoming { incoming with
          attempt := 0, eventHandler := .incomingHandler }))
      else do
        let poll ← poll.closeFd fd
        incomingBind answers address behind incoming { loop with poll := poll }

/-- `incoming_listen`. -/
def incomingListen (answers : Answers) (address : Nat) (incoming : Incoming) :
    Except LoopFault Loop := do
  let loop ← loop.resolveResult incoming.fd
  let incoming := { incoming with fd := none }
  match answers.resolved with
  | none => loop.incomingRetry answers address incoming
  | some addrs => incomingBind answers address addrs incoming loop

/-- `incoming_resolve`. -/
def incomingResolve (address : Nat) (incoming : Incoming) : Except LoopFault Loop := do
  let (fd, loop) ← loop.resolve address
  .ok (loop.put address (.incoming { incoming with
    fd := some fd, eventHandler := .incomingListen }))

/-- `incoming_new`. -/
def incomingNew (flow : Flow) : Except LoopFault Loop :=
  let loop := loop.flowRefInc flow
  let incoming := ⟨none, .incomingHandler, 0, flow⟩
  (loop.put loop.objects.bound (.incoming incoming)).incomingResolve loop.objects.bound incoming

/-! ## Commands -/

/-- `exec_child_cleanup`; the descriptor of `peer` is -1. -/
def execChildCleanup (address : Nat) (exec : Exec) : Except LoopFault Loop := do
  let poll ← loop.poll.peerClose (.logPeer address) false exec.logFd
  .ok ({ loop with poll := poll }.put address (.exec { exec with child := none, logFd := none }))

/-- `exec_del`. -/
def execDel (address : Nat) (exec : Exec) : Except LoopFault Loop := do
  let loop ← loop.flowRefDec exec.flow
  let loop ← if exec.child.isSome then loop.execChildCleanup address exec else .ok loop
  .ok (loop.listDel address)

/-- `exec_retry`. -/
def execRetry (answers : Answers) (address : Nat) (exec : Exec) : Except LoopFault Loop :=
  loop.retry answers address 1 (.exec { exec with eventHandler := .execSpawnWrapper })

/-- `exec_log_handler`, but for the lines it logs. -/
def execLogHandler (answers : Answers) (address : Nat) (exec : Exec) : Except LoopFault Loop :=
  if answers.closes then do
    let poll ← loop.poll.peerClose (.logPeer address) false exec.logFd
    .ok ({ loop with poll := poll }.put address (.exec { exec with logFd := none }))
  else .ok loop

/-- `exec_parent`. -/
def execParent (answers : Answers) (address : Nat) (exec : Exec) (dataFd logFd : Nat) :
    Except LoopFault Loop := do
  let (_, poll) ← loop.poll.peerEpollAdd (.logPeer address) logFd .input
  let loop := { loop with poll := poll }.put address (.exec { exec with
    child := some answers.forked, logFd := some logFd, eventHandler := .execRetry })
  let (_, loop) ← loop.flowNewSendHello answers dataFd exec.flow none
  .ok loop

/-- `exec_spawn`, in the parent. -/
def execSpawn (answers : Answers) (address : Nat) (exec : Exec) : Except LoopFault Loop := do
  let (dataFd, poll) ← loop.poll.openFd true
  let (dataChildFd, poll) ← poll.openFd true
  let (logFd, poll) ← poll.openFd true
  let (logChildFd, poll) ← poll.openFd true
  let poll ← poll.closeFd dataChildFd
  let poll ← poll.closeFd logChildFd
  { loop with poll := poll }.execParent answers address exec dataFd logFd

/-- `exec_new`. -/
def execNew (answers : Answers) (flow : Flow) : Except LoopFault Loop :=
  let loop := loop.flowRefInc flow
  let exec := ⟨none, .execSpawnWrapper, flow, none⟩
  (loop.put loop.objects.bound (.exec exec)).execSpawn answers loop.objects.bound exec

/-- The entry of `exec_head` with the child. -/
def execOf (pid : Nat) : Option (Nat × Object) :=
  loop.objects.find? fun
    | .exec exec => exec.child = some pid
    | _ => false

/-! ## Calls

A handler is given the call of other peers, null or not. -/

/-- `peer_shutdown_peer` is the first object. -/
def peerShutdownAddress : Nat := 0

/-- `peer_shutdown`, with the address of `peer_shutdown_peer`. -/
def peerShutdown (address : Nat) : Except LoopFault Loop :=
  match loop.objects.get address with
  | some (.peerShutdownPeer fd) => do
      let poll ← loop.poll.peerClose (.peer address) false fd
      let loop := { loop with poll := poll }.put address (.peerShutdownPeer none)
      .ok { loop with peerShutdownFlag := true }
  | _ => .error .dead

section Calls

variable (call : Loop → Option Nat → Except LoopFault Loop) (answers : Answers)

/-- `receive_del`. -/
def receiveDel (receive fd : Nat) (alwaysTrigger : Bool) (onClose : Option Nat) :
    Except LoopFault Loop := do
  let loop ← loop.flowRefDec .receive
  let poll ← loop.poll.peerClose (.peer receive) alwaysTrigger (some fd)
  call (({ loop with poll := poll }.listDel receive).log (.onClose receive)) onClose

/-- `receive_read`, but for the packets it hands on. -/
def receiveRead (receive fd : Nat) (alwaysTrigger : Bool) (onClose : Option Nat) :
    Except LoopFault Loop :=
  if answers.closes then loop.receiveDel call receive fd alwaysTrigger onClose else .ok loop

/-- `send_del`. -/
def sendDel (send fd : Nat) (onClose : Option Nat) : Except LoopFault Loop := do
  let loop ← loop.flowRefDec .send
  let poll ← loop.poll.peerClose (.peer send) false (some fd)
  call (({ loop with poll := poll }.listDel send).log (.onClose send)) onClose

/-- `send_receive_del`. -/
def sendReceiveDel (sendReceive : Nat) (onClose : Option Nat) : Except LoopFault Loop :=
  call ((loop.listDel sendReceive).log (.onClose sendReceive)) onClose

/-- `send_receive_on_close`. -/
def sendReceiveOnClose (sendReceive : Nat) (refCount : UInt8) (onClose : Option Nat) :
    Except LoopFault Loop :=
  let loop := loop.put sendReceive (.sendReceive (refCount - 1) onClose)
  if refCount - 1 = 0 then loop.sendReceiveDel call sendReceive onClose else .ok loop

/-- `wakeup_handler`. -/
def wakeupHandler (wakeup fd innerPeer : Nat) : Except LoopFault Loop := do
  let loop ← call loop (some innerPeer)
  loop.wakeupDel wakeup fd

/-- `exec_sigchld_handler`. -/
def execSigchldHandler : Except LoopFault Loop :=
  match answers.reaped.bind loop.execOf with
  | some (address, .exec exec) => do
      let loop ← loop.execChildCleanup address exec
      call loop (some address)
  | _ => .ok loop

/-- What `event_handler` of a peer does. -/
def eventHandler (loop : Loop) : PeerRef → Except LoopFault Loop
  | .peer address =>
      match loop.objects.get address with
      | none => .error .dead
      | some (.peerShutdownPeer _) => loop.peerShutdown address
      | some (.execPeer _) => loop.execSigchldHandler call answers
      | some (.receive fd alwaysTrigger onClose) =>
          loop.receiveRead call answers address fd alwaysTrigger onClose
      | some (.send fd onClose) => loop.sendDel call address fd onClose
      | some (.sendReceive refCount onClose) =>
          loop.sendReceiveOnClose call address refCount onClose
      | some (.wakeup fd innerPeer _) => loop.wakeupHandler call address fd innerPeer
      | some (.file file) =>
          match file.eventHandler with
          | .fileOpenWrapper => loop.fileOpen answers address file
          | .fileHandleClose => loop.fileHandleClose answers address file
      | some (.outgoing outgoing) =>
          match outgoing.eventHandler with
          | .outgoingConnectHandler => loop.outgoingConnectHandler answers address outgoing
          | .outgoingDisconnectHandler => loop.outgoingDisconnectHandler answers address outgoing
          | .outgoingResolveHandler => loop.outgoingResolveHandler answers address outgoing
          | .outgoingResolveWrapper => loop.outgoingResolve address outgoing
      | some (.incoming incoming) =>
          match incoming.eventHandler with
          | .incomingListen => loop.incomingListen answers address incoming
          | .incomingHandler => loop.incomingHandler answers incoming
          | .incomingResolveWrapper => loop.incomingResolve address incoming
      | some (.exec exec) =>
          match exec.eventHandler with
          | .execRetry => loop.execRetry answers address exec
          | .execSpawnWrapper => loop.execSpawn answers address exec
  | .logPeer address =>
      match loop.objects.get address with
      | some (.exec exec) => loop.execLogHandler answers address exec
      | _ => .error .dead

end Calls

/-- `peer_call` on an `on_close` or an `inner_peer`, with the depth to which calls are followed. -/
def peerCall (answers : Answers) : Nat → Loop → Option Nat → Except LoopFault Loop
  | _, loop, none => .ok loop
  | 0, loop, some _ => if loop.peerShutdownFlag then .ok loop else .error .depth
  | depth + 1, loop, some peer =>
      if loop.peerShutdownFlag then .ok loop
      else loop.eventHandler (peerCall answers depth) answers (.peer peer)

/-- `peer_call` on a peer that `peer_loop` has been given. Its handler may call that of a flow, and
this one that of a transport. -/
def call (answers : Answers) (peer : PeerRef) : Except LoopFault Loop :=
  if loop.peerShutdownFlag then .ok loop else loop.eventHandler (peerCall answers 2) answers peer

/-- The function that frees the object at the end of the program. -/
def objectDel (answers : Answers) (address : Nat) : Object → Except LoopFault Loop
  | .peerShutdownPeer _ => .ok loop
  | .execPeer fd => do
      let poll ← loop.poll.peerClose (.peer address) false fd
      .ok ({ loop with poll := poll }.put address (.execPeer none))
  | .receive fd alwaysTrigger onClose =>
      loop.receiveDel (peerCall answers 2) address fd alwaysTrigger onClose
  | .send fd onClose => loop.sendDel (peerCall answers 2) address fd onClose
  | .sendReceive _ onClose => loop.sendReceiveDel (peerCall answers 2) address onClose
  | .wakeup fd _ _ => loop.wakeupDel address fd
  | .file file => loop.fileDel address file
  | .outgoing outgoing => loop.outgoingDel address outgoing
  | .incoming incoming => loop.incomingDel address incoming
  | .exec exec => loop.execDel address exec

/-! ## Options -/

/-- `stdinout_stdin` and `stdinout_stdout`: a flow on a duplicate of the descriptor. -/
def stdinoutNew (answers : Answers) (flow : Flow) (pollable : Bool) : Except LoopFault Loop := do
  let (fd, poll) ← loop.poll.openFd pollable
  let (sent, loop) ← { loop with poll := poll }.flowNewSendHello answers fd flow none
  if sent then .ok loop else .error .exit

/-- `exec_init`, when the options were called: the peer for SIGCHLD. -/
def execInit : Except LoopFault Loop := do
  let (fd, poll) ← loop.poll.openFd true
  let (_, poll) ← poll.peerEpollAdd (.peer loop.objects.bound) fd .input
  .ok ({ loop with poll := poll }.put loop.objects.bound (.execPeer (some fd)))

end Loop

/-- What an option of the command line adds. Standard input and output can be polled or not. -/
inductive Addition
  | outgoing (flow : Flow)
  | incoming (flow : Flow)
  | exec (flow : Flow)
  | file (flags : UInt32) (flow : Flow)
  | stdin (pollable : Bool)
  | stdout (pollable : Bool)
  deriving DecidableEq, Repr

/-- The handler of an option. -/
def Loop.add (loop : Loop) (answers : Answers) : Addition → Except LoopFault Loop
  | .outgoing flow => loop.outgoingNew flow
  | .incoming flow => loop.incomingNew flow
  | .exec flow => loop.execNew answers flow
  | .file flags flow => loop.fileNew answers flags flow
  | .stdin pollable => loop.stdinoutNew answers .receive pollable
  | .stdout pollable => loop.stdinoutNew answers .send pollable

/-- Whether the object is a transport. -/
def Object.isTransport : Object → Bool
  | .file _ | .outgoing _ | .incoming _ | .exec _ => true
  | _ => false

/-! ## Turns of the loop -/

/-- Where the program is: at its options, at the top of `peer_loop`, in a batch of events with those
left, in the loop over `peer_always_trigger_head` with `iter` and `next`, or behind `peer_loop`. -/
inductive Phase
  | options
  | idle
  | batch (events : List PeerRef)
  | sweep (iter next : Option PeerRef)
  | left
  deriving DecidableEq, Repr

/-- The program between two calls. -/
structure LoopState where
  loop : Loop
  phase : Phase

/-- What happens next. -/
inductive LoopAct
  /-- A descriptor is opened or closed that no object has, by a thread of the resolver or a log. -/
  | openOther (pollable : Bool)
  | closeOther (fd : Nat)
  /-- An option is handled. -/
  | add (addition : Addition) (answers : Answers)
  | execInit
  /-- The options are done, and `peer_loop` is called. -/
  | peerLoop
  /-- `epoll_wait` returns the events. -/
  | wait (events : List PeerRef)
  /-- The next step of a batch or of the loop behind it. -/
  | next (answers : Answers)
  /-- `peer_loop` returns. -/
  | leave
  /-- An object is freed at the end of the program. -/
  | del (address : Nat) (answers : Answers)

/-- `peer_count_in + peer_count_out_in` is zero. -/
def Loop.noInputs (loop : Loop) : Bool := loop.peerCount .receive + loop.peerCount .sendReceive = 0

/-- `peer_count_out + peer_count_out_in` is zero. -/
def Loop.noOutputs (loop : Loop) : Bool := loop.peerCount .send + loop.peerCount .sendReceive = 0

/-- `epoll_wait` may return the events. -/
def Poll.MayReport (poll : Poll) (events : List PeerRef) : Prop :=
  events.length ≤ 10 ∧ events.Nodup ∧ ∀ peer ∈ events, poll.registered peer = true

instance (poll : Poll) (events : List PeerRef) : Decidable (poll.MayReport events) :=
  inferInstanceAs (Decidable (_ ∧ _ ∧ _))

/-- What the loop does next in a batch or behind it. -/
def LoopState.turn (state : LoopState) (answers : Answers) : Option (Except LoopFault LoopState) :=
  match state.phase with
  | .batch [] => some do
      let next ← state.loop.poll.next state.loop.poll.always.head?
      .ok { state with phase := .sweep state.loop.poll.always.head? next }
  | .batch (peer :: events) => some do
      let loop ← state.loop.call answers peer
      .ok ⟨loop, .batch events⟩
  | .sweep none _ => some (.ok { state with phase := .idle })
  | .sweep (some iter) next => some do
      let loop ← state.loop.call answers iter
      let after ← loop.poll.next next
      .ok ⟨loop, .sweep next after⟩
  | _ => none

/-- What an action does, where it is possible. `argc` is an `int` and counts the program's name too,
so at most `2 ^ 31 - 2` options add a transport. -/
def LoopState.step (state : LoopState) : LoopAct → Option (Except LoopFault LoopState)
  | .openOther pollable => some do
      let (fd, poll) ← state.loop.poll.openFd pollable
      .ok { state with
        loop := { state.loop with poll := { poll with others := fd :: poll.others } } }
  | .closeOther fd =>
      if fd ∈ state.loop.poll.others then some do
        let poll ← state.loop.poll.closeFd fd
        .ok { state with
          loop := { state.loop with poll := { poll with others := poll.others.erase fd } } }
      else none
  | .add addition answers =>
      if state.phase = .options ∧
          state.loop.objects.count (fun _ object => object.isTransport) < 2 ^ 31 - 2 then some do
        let loop ← state.loop.add answers addition
        .ok { state with loop := loop }
      else none
  | .execInit =>
      if state.phase = .options then some do
        let loop ← state.loop.execInit
        .ok { state with loop := loop }
      else none
  | .peerLoop => if state.phase = .options then some (.ok { state with phase := .idle }) else none
  | .wait events =>
      if state.phase = .idle ∧ state.loop.peerShutdownFlag = false ∧
          state.loop.noInputs = false ∧ state.loop.noOutputs = false ∧
          state.loop.poll.MayReport events then
        some (.ok { state with phase := .batch events })
      else none
  | .next answers => state.turn answers
  | .leave =>
      if state.phase = .idle then
        if state.loop.peerShutdownFlag then some (.ok { state with phase := .left })
        else if state.loop.noInputs ∨ state.loop.noOutputs then some do
          let loop ← state.loop.peerShutdown Loop.peerShutdownAddress
          .ok ⟨loop, .left⟩
        else none
      else none
  | .del address answers =>
      if state.phase = .left then
        (state.loop.objects.get address).map fun object => do
          let loop ← state.loop.objectDel answers address object
          .ok { state with loop := loop }
      else none

/-- The program when `peer_init` has returned: eight descriptors are open besides the one for its
signals. -/
def loopStart : LoopState where
  loop := {
    poll := {
      fds := {
        get := fun fd =>
          if fd < 8 then some ⟨true, none⟩
          else if fd = 8 then some ⟨true, some (.peer Loop.peerShutdownAddress, .input)⟩
          else none
        bound := 9
        beyond := fun fd past => by rw [if_neg (by omega), if_neg (by omega)] }
      others := List.range 8
      always := [] }
    objects := Table.empty.put Loop.peerShutdownAddress (.peerShutdownPeer (some 8))
    peerCount := fun _ => 0
    peerShutdownFlag := false
    history := [] }
  phase := .options

/-- A run of the program. -/
abbrev LoopRun :=
  Run (fun state act next => LoopState.step state act = some (.ok next)) loopStart

end Adsbus.EventLoop


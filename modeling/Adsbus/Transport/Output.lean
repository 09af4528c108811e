import Adsbus.Flow.Send
import Adsbus.Foundation.Runs
import Adsbus.Transport.Loop

/-! # Outputs

What a receiver at the other end of a send connection gets: the bytes that the kernel has
accepted on its descriptor, from the hello on. Every transport writes the hello and then
starts the flow, but for an outgoing connection, which hands it to the kernel with its
first packet. A write may be cut short, and `shutdown` has an effect on sockets only.
-/

namespace Adsbus.Output

open EventLoop (errnoInProgress)

/-! ## Descriptors -/

/-- The writes to a descriptor: what each was given, and how many bytes of it were accepted. -/
abbrev Pieces := List (Bytes × Nat)

/-- The bytes that were accepted. -/
def accepted (pieces : Pieces) : Bytes := (pieces.map fun piece => piece.1.take piece.2).flatten

/-- The kernel's side of a descriptor. -/
structure Stream where
  socket : Bool
  shut : Bool
  pieces : Pieces
  deriving DecidableEq

namespace Stream

/-- A descriptor that was just opened. -/
def new (socket : Bool) : Stream := ⟨socket, false, []⟩

variable (stream : Stream)

/-- `write`, and whether all bytes were accepted. The kernel accepts some of them, or fails. -/
def write (buf : Bytes) (answer : Option Nat) : Bool × Stream :=
  match if stream.shut then none else answer with
  | none => (false, { stream with pieces := stream.pieces ++ [(buf, 0)] })
  | some count => (buf.length ≤ count,
      { stream with pieces := stream.pieces ++ [(buf, min count buf.length)] })

/-- `shutdown` of the write half: `ENOTSOCK` but for sockets. -/
def shutdown : Stream := { stream with shut := stream.shut || stream.socket }

end Stream

/-! ## Hellos -/

section Hellos

variable (hello : Bytes)

/-- `flow_send_hello`. -/
def flowSendHello (answer : Option Nat) (stream : Stream) : Bool × Stream :=
  if hello.length = 0 then (true, stream) else stream.write hello answer

/-- `flow_new_send_hello`: the descriptor that the flow is started on, or none if it is closed. -/
def flowNewSendHello (answer : Option Nat) (stream : Stream) : Option Stream :=
  let (sent, stream) := flowSendHello hello answer stream
  if sent then some stream else none

/-- What `sendto` with `MSG_FASTOPEN` does: all bytes are queued, or none and `errno` is set. -/
inductive Sendto
  | queued
  | fails (errno : Nat) (nonzero : errno ≠ 0)
  deriving DecidableEq

/-- What happens to an attempt to connect to an address, with `SO_ERROR` at each event of the
socket. -/
structure Address where
  sendto : Sendto
  errors : List Nat
  deriving DecidableEq

/-- `outgoing_connect_result`, with what follows an event of the socket and the call for the next
address. -/
def outgoingConnectResult (connectHandler connectNext : Option Stream) (stream : Stream)
    (result : Nat) : Option Stream :=
  if result = 0 then some stream
  else if result = errnoInProgress then connectHandler
  else connectNext

/-- `outgoing_connect_handler`, at one event after another. -/
def outgoingConnectHandler (connectNext : Option Stream) (stream : Stream) :
    List Nat → Option Stream
  | [] => none
  | error :: errors =>
      outgoingConnectResult (outgoingConnectHandler connectNext stream errors) connectNext stream
        error

/-- `outgoing_connect_next`: the socket that the flow is started on, or none while there is no
connection. -/
def outgoingConnectNext : List Address → Option Stream
  | [] => none
  | addr :: addrs =>
      let (result, stream) := match addr.sendto with
        | .queued => (errnoInProgress, ((Stream.new true).write hello (some hello.length)).2)
        | .fails errno _ => (errno, Stream.new true)
      outgoingConnectResult
        (outgoingConnectHandler (outgoingConnectNext addrs) stream addr.errors)
        (outgoingConnectNext addrs) stream result

end Hellos

/-- The transports. -/
inductive Opener
  | incoming
  | outgoing
  | file
  | exec
  | stdout
  deriving DecidableEq, Repr

/-- What the kernel does while a connection is opened: whether standard output is a socket, how the
hello is written, and what happens at the addresses. -/
structure World where
  socket : Bool
  written : Option Nat
  addrs : List Address
  deriving DecidableEq

section Openers

variable (hello : Bytes) (world : World)

/-- `incoming_handler`, for a connection that is accepted. -/
def incomingHandler : Option Stream := flowNewSendHello hello world.written (.new true)

/-- `outgoing_resolve_handler`, for addresses that are found. -/
def outgoingResolveHandler : Option Stream := outgoingConnectNext hello world.addrs

/-- `file_open`, for a file that is opened; it is no socket. -/
def fileOpen : Option Stream := flowNewSendHello hello world.written (.new false)

/-- `exec_parent`; the child has the other end of a pair of sockets. -/
def execParent : Option Stream := flowNewSendHello hello world.written (.new true)

/-- `stdinout_stdout`. -/
def stdinoutStdout : Option Stream := flowNewSendHello hello world.written (.new world.socket)

/-- What a transport does to open a send connection. -/
def Opener.connect : Opener → Option Stream
  | .incoming => incomingHandler hello world
  | .outgoing => outgoingResolveHandler hello world
  | .file => fileOpen hello world
  | .exec => execParent hello world
  | .stdout => stdinoutStdout hello world

end Openers

/-! ## Connections -/

/-- `struct send` with the kernel's side of its descriptor. How it was opened, the writes that were
made for its hello and the frames given to it since, with the kernel's answers, are not part of the
program. -/
structure Connection where
  stat : Stat
  stream : Stream
  opener : Opener
  world : World
  greeting : Pieces
  writes : List (Bytes × Option Nat)

/-- The state of sending. -/
structure Outputs where
  sendHead : Serializer → List Connection
  statsState : StatsState

section Sending

variable (server : Server)

/-- `send_get_hello`, of both flows that send. -/
def sendGetHello : Serializer → Except Fault Bytes
  | .json => jsonHello server.jansson server.serverId
  | .proto => protoHello server.protobuf server.serverId
  | .airspyAdsb | .beast | .raw | .stats => .ok []

/-- `send_new`, for a descriptor that a transport has opened. -/
def sendNew (stat : Stat) (opener : Opener) (world : World) (stream : Stream) : Connection where
  stat := stat
  stream := { stream with pieces := [] }
  opener := opener
  world := world
  greeting := stream.pieces
  writes := []

/-- The inner loop's body in `send_write`. -/
def sendTo (packet : Packet) (buf : Bytes) (answer : Option Nat) (iter : Connection) :
    Connection :=
  if iter.stat = packet.inputStat then iter
  else
    let (whole, stream) := iter.stream.write buf answer
    { iter with
      stream := if whole then stream else stream.shutdown
      writes := iter.writes ++ [(buf, answer)] }

/-- The outer loop's body in `send_write`, with an answer to the write for each connection. -/
def sendFormat (now : Int64) (packet : Packet) (answers : Serializer → Nat → Option Nat)
    (outputs : Outputs) (serializer : Serializer) : Except Fault Outputs :=
  if outputs.sendHead serializer = [] then .ok outputs
  else do
    let (buf, statsState) ← serializer.serialize server now packet outputs.statsState
    let outputs := { outputs with statsState := statsState }
    if buf.length = 0 then .ok outputs
    else .ok { outputs with
      sendHead := Function.update outputs.sendHead serializer
        ((outputs.sendHead serializer).mapIdx fun index iter =>
          sendTo packet buf (answers serializer index) iter) }

/-- `send_write`. -/
def sendWrite (now : Int64) (packet : Packet) (answers : Serializer → Nat → Option Nat)
    (outputs : Outputs) : Except Fault Outputs := do
  packetSanityCheck packet
  Serializer.all.foldlM (sendFormat server now packet answers) outputs

/-- What happens: a transport opens a send connection or fails to, one is closed, and a packet is
sent. -/
inductive Event
  | connect (serializer : Serializer) (stat : Stat) (opener : Opener) (world : World)
  | sendDel (serializer : Serializer) (index : Nat)
  | sendWrite (now : Int64) (packet : Packet) (answers : Serializer → Nat → Option Nat)

/-- One event. -/
def Outputs.step (outputs : Outputs) : Event → Except Fault Outputs
  | .connect serializer stat opener world => do
      let hello ← sendGetHello server serializer
      match opener.connect hello world with
      | none => .ok outputs
      | some stream => .ok { outputs with
          sendHead := Function.update outputs.sendHead serializer
            (outputs.sendHead serializer ++ [sendNew stat opener world stream]) }
  | .sendDel serializer index => .ok { outputs with
      sendHead := Function.update outputs.sendHead serializer
        ((outputs.sendHead serializer).eraseIdx index) }
  | .sendWrite now packet answers => sendWrite server now packet answers outputs

/-- No connections, with the counts of stats as they are. -/
def outputsInit (statsState : StatsState) : Outputs := ⟨fun _ => [], statsState⟩

/-- A run of the outputs. -/
abbrev OutputRun (statsState : StatsState) :=
  Run (fun outputs event next => Outputs.step server outputs event = .ok next)
    (outputsInit statsState)

end Sending

/-! ## What a run keeps -/

/-- A frame is written, and the descriptor is shut down if it was not accepted whole. -/
def Stream.send (stream : Stream) (frame : Bytes × Option Nat) : Stream :=
  if (stream.write frame.1 frame.2).1 then (stream.write frame.1 frame.2).2
  else (stream.write frame.1 frame.2).2.shutdown

variable {server : Server} {statsState : StatsState} {serializer : Serializer}
  {connection : Connection} {outputs next : Outputs}

/-- The bytes are a frame of the format, for some packet. -/
def IsFrame (server : Server) (serializer : Serializer) (frame : Bytes) : Prop :=
  frame ≠ [] ∧ ∃ now packet before after,
    serializer.serialize server now packet before = .ok (frame, after)

/-- The connection is what its transport opened it as, with the writes of whole frames that were
made since. -/
structure Connection.Follows (server : Server) (serializer : Serializer)
    (connection : Connection) : Prop where
  opened : ∃ hello stream, sendGetHello server serializer = .ok hello ∧
    connection.opener.connect hello connection.world = some stream ∧
      connection.greeting = stream.pieces ∧
        connection.stream = connection.writes.foldl Stream.send { stream with pieces := [] }
  frames : ∀ write ∈ connection.writes, IsFrame server serializer write.1

theorem sendTo_follows (follows : connection.Follows server serializer) {packet : Packet}
    {buf : Bytes} {answer : Option Nat} (frame : IsFrame server serializer buf) :
    (sendTo packet buf answer connection).Follows server serializer := by
  rw [sendTo]
  split
  · exact follows
  · obtain ⟨hello, stream, gets, live, greeting, run⟩ := follows.opened
    refine ⟨⟨hello, stream, gets, live, greeting, ?_⟩, fun write member => ?_⟩
    · rw [List.foldl_append, ← run]
      rfl
    · rcases List.mem_append.mp member with before | last
      · exact follows.frames write before
      · cases List.mem_singleton.mp last
        exact frame

/-- The connections of each format are as they should be. -/
def Outputs.Follow (server : Server) (outputs : Outputs) : Prop :=
  ∀ serializer, ∀ connection ∈ outputs.sendHead serializer, connection.Follows server serializer

/-- Other connections of one format, that are as they should be, take the place of those there. -/
theorem Outputs.Follow.update (follow : outputs.Follow server) {connections : List Connection}
    (each : ∀ connection ∈ connections, connection.Follows server serializer) :
    ({ outputs with
      sendHead := Function.update outputs.sendHead serializer connections } : Outputs).Follow
        server := by
  intro other connection member
  by_cases here : other = serializer
  · subst here
    simp only [Function.update_self] at member
    exact each connection member
  · simp only [Function.update_of_ne here] at member
    exact follow other connection member

theorem sendFormat_follow {now : Int64} {packet : Packet}
    {answers : Serializer → Nat → Option Nat} (follow : outputs.Follow server)
    (sent : sendFormat server now packet answers outputs serializer = .ok next) :
    next.Follow server := by
  rw [sendFormat] at sent
  split at sent
  · cases sent
    exact follow
  · obtain ⟨⟨buf, stats⟩, serialized, sent⟩ := Except.bind_eq_ok.mp sent
    dsimp only at sent
    split at sent
    · cases sent
      exact follow
    · next nonempty =>
        cases sent
        have frame : IsFrame server serializer buf :=
          ⟨fun empty => nonempty (empty ▸ rfl), now, packet, _, _, serialized⟩
        refine Outputs.Follow.update
          (show Outputs.Follow server { outputs with statsState := stats } from follow)
          fun connection member => ?_
        obtain ⟨index, inside, same⟩ := List.mem_mapIdx.mp member
        subst same
        exact sendTo_follows (follow serializer _ (List.getElem_mem inside)) frame

theorem sendWrite_follow {now : Int64} {packet : Packet}
    {answers : Serializer → Nat → Option Nat} (follow : outputs.Follow server)
    (sent : sendWrite server now packet answers outputs = .ok next) : next.Follow server := by
  obtain ⟨_, _, sent⟩ := Except.bind_eq_ok.mp sent
  have formats : ∀ formats : List Serializer, ∀ outputs : Outputs, outputs.Follow server →
      formats.foldlM (sendFormat server now packet answers) outputs = .ok next →
        next.Follow server := by
    intro formats
    induction formats with
    | nil =>
        intro outputs follow sent
        cases sent
        exact follow
    | cons format formats ih =>
        intro outputs follow sent
        rw [List.foldlM_cons] at sent
        obtain ⟨middle, first, rest⟩ := Except.bind_eq_ok.mp sent
        exact ih middle (sendFormat_follow follow first) rest
  exact formats _ outputs follow sent

/-- In every state of a run the connections are what was opened and written. -/
theorem follow_of_run {trace : List (Outputs × Event)}
    (run : OutputRun server statsState trace outputs) : outputs.Follow server := by
  refine run.invariant (fun serializer connection member => absurd member List.not_mem_nil)
    fun {outputs event next} follow taken => ?_
  cases event with
  | connect serializer stat opener world =>
      obtain ⟨hello, gets, taken⟩ := Except.bind_eq_ok.mp taken
      cases live : opener.connect hello world with
      | none =>
          rw [live] at taken
          cases taken
          exact follow
      | some stream =>
          rw [live] at taken
          cases taken
          refine follow.update fun connection member => ?_
          rcases List.mem_append.mp member with before | last
          · exact follow serializer connection before
          · cases List.mem_singleton.mp last
            exact ⟨⟨hello, stream, gets, live, rfl, rfl⟩, fun write member =>
              absurd member List.not_mem_nil⟩
  | sendDel serializer index =>
      cases taken
      exact follow.update fun connection member =>
        follow serializer connection (List.mem_of_mem_eraseIdx member)
  | sendWrite now packet answers => exact sendWrite_follow follow taken

/-- What the events lead to. -/
def outputsAfter (server : Server) (outputs : Outputs) (events : List Event) :
    Except Fault Outputs :=
  events.foldlM (fun outputs event => Outputs.step server outputs event) outputs

theorem run_of_outputsAfter {events : List Event} {trace : List (Outputs × Event)}
    (run : OutputRun server statsState trace outputs)
    (after : outputsAfter server outputs events = .ok next) :
    ∃ trace', OutputRun server statsState trace' next := by
  induction events generalizing outputs trace with
  | nil =>
      cases after
      exact ⟨trace, run⟩
  | cons event events ih =>
      rw [outputsAfter, List.foldlM_cons] at after
      obtain ⟨middle, taken, rest⟩ := Except.bind_eq_ok.mp after
      exact ih (run.step taken) rest

/-- What is seen of the only connection of a format that some events lead to. -/
theorem of_outputsAfter {α : Type} {view : Connection → α} {value : α} {events : List Event}
    (seen : (outputsAfter server (outputsInit statsState) events).toOption.map
      (fun next => (next.sendHead serializer).map view) = some [value]) :
    ∃ trace next connection, OutputRun server statsState trace next ∧
      connection ∈ next.sendHead serializer ∧ view connection = value := by
  obtain ⟨next, after, only⟩ := Option.map_eq_some_iff.mp seen
  cases reached : outputsAfter server (outputsInit statsState) events with
  | error fault =>
      rw [reached] at after
      cases after
  | ok outputs =>
      rw [reached] at after
      cases after
      obtain ⟨trace, run⟩ := run_of_outputsAfter .start reached
      obtain ⟨connection, connections, same⟩ := List.map_eq_singleton_iff.mp only
      exact ⟨trace, next, connection, run, connections ▸ List.mem_cons_self, same⟩

/-- A packet of a transponder, received by the server itself. -/
def modeAcPacket : Packet where
  sourceId := .ofAscii "me"
  inputStat := ⟨1, 1⟩
  type := .modeAc
  hops := 1
  payload := Cells.fill packetPayloadLenMax 0
  mlatTimestamp := 7
  rssi := 5

/-- No packet has been counted. -/
def statsNone : StatsState := ⟨0, fun _ => 0, 0⟩

end Adsbus.Output

import Adsbus.Flow.Receive
import Adsbus.Formats.Stats

/-! # Sending

Each packet that a receive connection passes on is serialized once for each
format that some send connection uses, and written to all of them but the one on
the socket it came from. The process is the receive and the send connections
together, with a step for each thing that happens to one of them.
-/

namespace Adsbus

open Reader

/-- The send formats, in the order of `serializers`. -/
inductive Serializer
  | airspyAdsb
  | beast
  | json
  | proto
  | raw
  | stats
  deriving DecidableEq, Repr

/-- The formats in the order of `serializers`. -/
def Serializer.all : List Serializer := [.airspyAdsb, .beast, .json, .proto, .raw, .stats]

variable (server : Server)

/-- `serializer->serialize` into an empty buffer, at a time. -/
def Serializer.serialize (now : Int64) (packet : Packet) (stats : StatsState) :
    Serializer → Except Fault (Bytes × StatsState)
  | .airspyAdsb => (airspyAdsbSerialize packet).map fun buf => (buf, stats)
  | .beast => (beastSerialize packet).map fun buf => (buf, stats)
  | .json => (jsonSerialize server.jansson packet []).map fun buf => (buf, stats)
  | .proto => (protoSerialize server.protobuf packet []).map fun buf => (buf, stats)
  | .raw => .ok (rawSerialize packet, stats)
  | .stats => statsSerialize server.jansson now (some packet) stats []

/-- The fields of `struct send` that `send_write` reads. -/
structure Send where
  fd : Nat
  stat : Stat
  deriving DecidableEq

/-- What the outside does: the time at each call of `send_write`, and whether each `write` takes
all its bytes. -/
structure Outside where
  clock : Nat → Int64
  takes : Nat → Bool

/-- The state of sending: the lists of `serializers`, the counts of stats, and what was done: the
packets given to `send_write`, the bytes given to `write`, and the sockets given to `shutdown`. -/
structure Sending where
  sendHead : Serializer → List Send
  statsState : StatsState
  packets : List Packet
  written : List (Nat × Bytes)
  shutDown : List Nat

variable (outside : Outside)

/-- The inner loop's body in `send_write`. -/
def sendTo (packet : Packet) (buf : Bytes) (sending : Sending) (iter : Send) : Sending :=
  if iter.stat = packet.inputStat then
    sending
  else
    { sending with
      written := sending.written ++ [(iter.fd, buf)]
      shutDown := if outside.takes sending.written.length then sending.shutDown
        else sending.shutDown ++ [iter.fd] }

/-- The outer loop's body in `send_write`. -/
def sendFormat (now : Int64) (packet : Packet) (sending : Sending) (serializer : Serializer) :
    Except Fault Sending :=
  if sending.sendHead serializer = [] then
    .ok sending
  else do
    let (buf, statsState) ← serializer.serialize server now packet sending.statsState
    let sending := { sending with statsState := statsState }
    if buf.length = 0 then
      return sending
    else
      return (sending.sendHead serializer).foldl (sendTo outside packet buf) sending

/-- `send_write`. -/
def sendWrite (sending : Sending) (packet : Packet) : Except Fault Sending := do
  let now := outside.clock sending.packets.length
  let sending := { sending with packets := sending.packets ++ [packet] }
  packetSanityCheck packet
  Serializer.all.foldlM (sendFormat server outside now packet) sending

/-! ## The process -/

/-- The connections of the process. -/
structure Process where
  receives : List (Connection Receive)
  sending : Sending

/-- What happens to the process: a new connection of either kind, a send connection that is closed,
and a `read` from a receive connection, where nothing read stands for the end of the file or an
error. -/
inductive Event
  | receiveNew (random : Cells UInt8 16) (stat : Stat) (memory : Cells UInt8 bufLenMax)
  | sendNew (serializer : Serializer) (send : Send)
  | sendDel (serializer : Serializer) (send : Send)
  | read (index : Nat) (input : Bytes)

/-- One event. -/
def Process.step (process : Process) : Event → Except Fault Process
  | .receiveNew random stat memory => .ok { process with
      receives := process.receives ++ [⟨Adsbus.receiveNew random stat memory, .live⟩] }
  | .sendNew serializer send => .ok { process with
      sending := { process.sending with
        sendHead := Function.update process.sending.sendHead serializer
          (process.sending.sendHead serializer ++ [send]) } }
  | .sendDel serializer send => .ok { process with
      sending := { process.sending with
        sendHead := Function.update process.sending.sendHead serializer
          ((process.sending.sendHead serializer).erase send) } }
  | .read index input =>
      match process.receives[index]? with
      | none => .ok process
      | some connection => do
          let (connection, sending) ←
            receiveRead server (sendWrite server outside) connection process.sending input
          return { receives := process.receives.set index connection, sending := sending }

/-- Event after event. -/
def Process.run (process : Process) (events : List Event) : Except Fault Process :=
  events.foldlM (fun process event => process.step server outside event) process

/-- No `read` gives more than the space offered to it. -/
def Process.Possible (process : Process) : Event → Prop
  | .read index input => ∀ receive, process.receives[index]? = some ⟨receive, .live⟩ →
      ∀ moved, bufCompact receive.buf = .ok moved → input.length ≤ bufSpace moved
  | _ => True

/-- Each event is possible when it happens. -/
def Process.Happens (process : Process) : List Event → Prop
  | [] => True
  | event :: events => process.Possible event ∧
      ∀ next, process.step server outside event = .ok next → next.Happens events

end Adsbus

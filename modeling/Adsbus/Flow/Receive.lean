import Adsbus.Core.Uuid
import Adsbus.Formats.AirspyAdsb
import Adsbus.Formats.Beast
import Adsbus.Formats.Proto
import Adsbus.Foundation.Reader

/-! # Receiving

A receive connection reads its socket into a buffer and parses records from the
front of the buffer until there is no complete one. Which format the socket
speaks is decided by the first parser that finds a record; until then all of
them are tried in turn.

`receive_read` passes each packet to `send_write`. It is given here over any
function that takes the packets (`Adsbus.receiveRead`), and it is a reader in
the sense of `Reader` (`Adsbus.receiveRun_log`).
-/

namespace Adsbus

open Reader

/-- What a connection depends on besides its own state: the identifier of the server, its limit on
hops, and the libraries. -/
structure Server where
  serverId : CString
  receiveMaxHops : UInt32
  jansson : Jansson
  protobuf : Protobuf

/-- A server with libraries that read what they write. -/
def flatServer : Server where
  serverId := .ofAscii "me"
  receiveMaxHops := 10
  jansson := .flat
  protobuf := .reading

theorem flatServer_star : flatServer.jansson.Rejects '*'.toUInt8 :=
  Jansson.flat_opens _ (by decide) (by decide) (by decide)

theorem flatServer_marker : flatServer.jansson.Rejects beastMarker :=
  Jansson.flat_opens _ (by decide) (by decide) (by decide)

/-- The formats in the order of `parsers`. -/
def Format.all : List Format := [.airspyAdsb, .beast, .json, .proto, .raw]

variable (server : Server)

/-- The parser of a format. -/
def Format.parse : Format → Parse
  | .airspyAdsb => airspyAdsbParse
  | .beast => beastParse
  | .json => jsonParse server.jansson server.serverId
  | .proto => protoParse server.protobuf server.serverId
  | .raw => rawParse

/-- `struct receive`; no parser stands for `receive_autodetect_parse` as its parser wrapper. -/
structure Receive where
  id : CString
  stat : Stat
  buf : Buf UInt8
  parserState : ParserState
  parser : Option Format
  deriving DecidableEq

/-- `receive_new`, with the random bytes of the identifier and whatever the new memory holds. -/
def receiveNew (random : Cells UInt8 16) (stat : Stat) (memory : Cells UInt8 bufLenMax) :
    Receive where
  id := uuidGen random
  stat := stat
  buf := bufInit memory
  parserState := parserStateInit
  parser := none

/-- The loop of `receive_autodetect_parse` over the formats left: the first that finds a record.
The packet is restored after every failed attempt but the last. -/
def receiveAutodetectLoop (origPacket : Packet) :
    List Format → Attempt → Except Fault (Option Format × Attempt)
  | [], attempt => .ok (none, attempt)
  | format :: formats, attempt => do
      let (found, attempt) ← format.parse server attempt
      if found then
        return (some format, attempt)
      else if formats ≠ [] then
        receiveAutodetectLoop origPacket formats { attempt with packet := origPacket }
      else
        return (none, attempt)

/-- `receive_autodetect_parse`. -/
def receiveAutodetectParse (receive : Receive) (packet : Packet) :
    Except Fault (Bool × Receive × Packet) := do
  let (format, attempt) ← receiveAutodetectLoop server packet Format.all
    { buf := receive.buf, packet := packet, state := receive.parserState }
  return (format.isSome,
    { receive with buf := attempt.buf, parserState := attempt.state, parser := format },
    attempt.packet)

/-- `receive_parse_wrapper`. -/
def receiveParseWrapper (format : Format) (receive : Receive) (packet : Packet) :
    Except Fault (Bool × Receive × Packet) := do
  let (found, attempt) ← format.parse server
    { buf := receive.buf, packet := packet, state := receive.parserState }
  return (found, { receive with buf := attempt.buf, parserState := attempt.state }, attempt.packet)

/-- `receive->parser_wrapper`. -/
def receiveParse (receive : Receive) (packet : Packet) : Except Fault (Bool × Receive × Packet) :=
  match receive.parser with
  | none => receiveAutodetectParse server receive packet
  | some format => receiveParseWrapper server format receive packet

/-- The packet that `receive_read` gives to a parser. -/
def receivePacket (receive : Receive) : Packet where
  sourceId := receive.id
  inputStat := receive.stat
  type := .none
  hops := 0
  payload := Cells.fill packetPayloadLenMax 0
  mlatTimestamp := 0
  rssi := 0

/-- The body of the loop of `receive_read`: whether to go on, and the packet to send. -/
def receiveTurn (receive : Receive) : Except Fault (Bool × Receive × Option Packet) := do
  let (found, receive, packet) ← receiveParse server receive (receivePacket receive)
  if !found then
    return (false, receive, none)
  else if packet.type = .none then
    return (true, receive, none)
  else
    let packet := { packet with hops := packet.hops + 1 }
    if packet.hops > server.receiveMaxHops then
      return (true, receive, none)
    else
      return (true, receive, some packet)

variable {τ : Type} (sendWrite : τ → Packet → Except Fault τ)

/-- The loop of `receive_read`, which passes its packets to `send_write`. -/
def receiveLoop : (turns : Nat) → Receive → τ → Except Fault (Receive × τ)
  | 0, _, _ => .error .turns
  | turns + 1, receive, sent =>
      if receive.buf.length = 0 then
        .ok (receive, sent)
      else do
        let (found, receive, packet) ← receiveTurn server receive
        if !found then
          return (receive, sent)
        else
          let sent ← match packet with
            | none => .ok sent
            | some packet => sendWrite sent packet
          receiveLoop turns receive sent

/-- `receive_read` when `read` gives `input`; nothing stands for the end of the file and for an
error. The connection is closed there, and when its buffer is full. -/
def receiveRead (connection : Connection Receive) (sent : τ) (input : Bytes) :
    Except Fault (Connection Receive × τ) :=
  match connection.status with
  | .live => do
      let buf ← bufFill connection.reader.buf input
      let receive := { connection.reader with buf := buf }
      if input = [] then
        return (⟨receive, .ended⟩, sent)
      else
        let (receive, sent) ← receiveLoop server sendWrite (receive.buf.length + 1) receive sent
        if receive.buf.length = bufLenMax then
          return (⟨receive, .overrun⟩, sent)
        else
          return (⟨receive, .live⟩, sent)
  | _ => .ok (connection, sent)

/-- A connection that reads input after input. -/
def receiveRun : Connection Receive → τ → List Bytes → Except Fault (Connection Receive × τ)
  | connection, sent, [] => .ok (connection, sent)
  | connection, sent, input :: inputs => do
      let (connection, sent) ← receiveRead server sendWrite connection sent input
      receiveRun connection sent inputs

/-- A `send_write` that only lists its packets. -/
def sendLog (sent : List Packet) (packet : Packet) : Except Fault (List Packet) :=
  .ok (sent ++ [packet])

/-! ## The connection as a reader -/

/-- A receive connection as a reader of bytes that emits packets. -/
def receiveReader : Reader Receive UInt8 Packet Fault where
  capacity := bufLenMax
  exhausted := .turns
  window receive := receive.buf.window
  unread receive := receive.buf.length
  room receive := receive.buf.room
  fill receive input := do
    let buf ← bufFill receive.buf input
    return { receive with buf := buf }
  turn receive := do
    let (found, receive, packet) ← receiveTurn server receive
    return (found, receive, packet.toList)

/-- What a turn passes on of a packet that was found. -/
def passedOn (packet : Packet) : List Packet :=
  if packet.type = .none then []
  else if packet.hops + 1 > server.receiveMaxHops then []
  else [{ packet with hops := packet.hops + 1 }]

variable {server}

theorem turn_of_found {receive after : Receive} {packet : Packet}
    (parsed : receiveParse server receive (receivePacket receive) = .ok (true, after, packet)) :
    (receiveReader server).turn receive = .ok (true, after, passedOn server packet) := by
  change (receiveTurn server receive >>= _) = _
  simp only [receiveTurn, parsed, Except.ok_bind, Bool.not_true, Bool.false_eq_true, ↓reduceIte,
    passedOn]
  split_ifs <;> rfl

theorem turn_of_not_found {receive after : Receive} {packet : Packet}
    (parsed : receiveParse server receive (receivePacket receive) = .ok (false, after, packet)) :
    (receiveReader server).turn receive = .ok (false, after, []) := by
  change (receiveTurn server receive >>= _) = _
  simp only [receiveTurn, parsed, Except.ok_bind, Bool.not_false, ↓reduceIte, Except.pure_eq_ok]
  rfl

/-- A turn that finds no record has no packet. -/
theorem receiveTurn_not_found {receive after : Receive} {packet : Option Packet}
    (turned : receiveTurn server receive = .ok (false, after, packet)) : packet = none := by
  simp only [receiveTurn, Except.bind_eq_ok] at turned
  obtain ⟨⟨found, after', packet'⟩, _, turned⟩ := turned
  cases found with
  | false =>
      cases turned
      rfl
  | true =>
      simp only [Bool.not_true, Bool.false_eq_true, ↓reduceIte] at turned
      split at turned
      · cases turned
      · split at turned <;> cases turned

variable {sendWrite}

/-- Draining the reader gives the packets that the loop sends. -/
theorem receiveLoop_of_drain {turns : Nat} {receive final : Receive} {packets : List Packet}
    (drained : (receiveReader server).drain turns receive = .ok (final, packets)) (sent : τ) :
    receiveLoop server sendWrite turns receive sent =
      (packets.foldlM sendWrite sent).map fun sent => (final, sent) := by
  induction turns generalizing receive packets sent with
  | zero => cases drained
  | succ turns ih =>
      rw [receiveLoop]
      rw [drain] at drained
      change (if receive.buf.length = 0 then _ else _) = _ at drained
      by_cases empty : receive.buf.length = 0
      · rw [if_pos empty] at drained
        cases drained
        rw [if_pos empty]
        rfl
      · rw [if_neg empty, Except.bind_eq_ok] at drained
        rw [if_neg empty]
        obtain ⟨⟨more, state, first⟩, turned, drained⟩ := drained
        change (receiveTurn server receive >>= _) = _ at turned
        rw [Except.bind_eq_ok] at turned
        obtain ⟨⟨found, after, packet⟩, turned, same⟩ := turned
        cases same
        rw [turned, Except.ok_bind]
        cases more with
        | false =>
            cases receiveTurn_not_found turned
            cases drained
            rfl
        | true =>
            simp only [↓reduceIte, Except.bind_eq_ok] at drained
            obtain ⟨⟨last, rest⟩, drained, same⟩ := drained
            cases same
            simp only [Bool.not_true, Bool.false_eq_true, ↓reduceIte, ih drained]
            cases packet with
            | none => rfl
            | some packet =>
                simp only [Option.toList_some, List.cons_append, List.nil_append,
                  List.foldlM_cons]
                cases sendWrite sent packet <;> rfl

/-- Reading an input gives the packets that the connection sends. -/
theorem receiveRead_of_read {connection final : Connection Receive} {input : Bytes}
    {packets : List Packet}
    (done : (receiveReader server).read connection input = .ok (final, packets)) (sent : τ) :
    receiveRead server sendWrite connection sent input =
      (packets.foldlM sendWrite sent).map fun sent => (final, sent) := by
  obtain ⟨receive, status⟩ := connection
  cases status with
  | ended =>
      cases done
      rfl
  | overrun =>
      cases done
      rfl
  | live =>
      obtain ⟨filled, fill, how⟩ := of_read done
      change (bufFill receive.buf input >>= _) = _ at fill
      obtain ⟨buf, bufFilled, same⟩ := Except.bind_eq_ok.mp fill
      cases same
      simp only [receiveRead, bufFilled, Except.ok_bind]
      rcases how with ⟨ended, rfl, rfl⟩ | ⟨more, drained, drain, rfl⟩
      · rw [if_pos ended]
        rfl
      · rw [if_neg more]
        change (receiveReader server).drain (buf.length + 1) _ = _ at drain
        rw [receiveLoop_of_drain drain]
        cases packets.foldlM sendWrite sent with
        | error _ => rfl
        | ok sent =>
            simp only [Except.map, Except.ok_bind]
            change _ = Except.ok (Connection.mk drained
              (if drained.buf.length = bufLenMax then _ else _), sent)
            split <;> rfl

/-- Running the reader gives the packets that the connection sends. -/
theorem receiveRun_of_run {connection final : Connection Receive} {inputs : List Bytes}
    {packets : List Packet}
    (ran : (receiveReader server).run connection inputs = .ok (final, packets)) (sent : τ) :
    receiveRun server sendWrite connection sent inputs =
      (packets.foldlM sendWrite sent).map fun sent => (final, sent) := by
  induction inputs generalizing connection packets sent with
  | nil =>
      cases ran
      rfl
  | cons input inputs ih =>
      simp only [run, Except.bind_eq_ok] at ran
      obtain ⟨⟨next, first⟩, done, ⟨last, rest⟩, ran, same⟩ := ran
      cases same
      rw [receiveRun, receiveRead_of_read done, List.foldlM_append]
      cases first.foldlM sendWrite sent with
      | error _ => rfl
      | ok sent =>
          simp only [Except.map, Except.ok_bind]
          exact ih ran sent

theorem foldlM_sendLog (packets sent : List Packet) :
    packets.foldlM sendLog sent = .ok (sent ++ packets) := by
  induction packets generalizing sent with
  | nil => rw [List.append_nil]; rfl
  | cons packet packets ih =>
      rw [List.foldlM_cons, sendLog, Except.ok_bind, ih, List.append_assoc, List.singleton_append]

/-- **The connection as a reader.** A connection that lists its packets does what its reader
does. -/
theorem receiveRun_log {connection final : Connection Receive} {inputs : List Bytes}
    {packets : List Packet}
    (ran : (receiveReader server).run connection inputs = .ok (final, packets)) :
    receiveRun server sendLog connection [] inputs = .ok (final, packets) := by
  rw [receiveRun_of_run ran, foldlM_sendLog]
  rfl

end Adsbus

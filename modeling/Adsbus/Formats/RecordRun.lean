import Adsbus.Core.Mlat
import Adsbus.Formats.Record

/-! # Runs of records

What a connection makes of a header and the packets behind it, in json or in
proto. The state of the parser keeps the header and counts the decreases of the
timestamps, of whichever source (`Adsbus.SentHeader.decode_eq`).
-/

namespace Adsbus

/-- The packets of records that arrive one after another. A record that is not taken stays in
front of the others. -/
def parseRecords (serverId : CString) (base : Packet) :
    ParserState → List Record → Except Fault (List Packet)
  | _, [] => .ok []
  | state, record :: records => do
      let (found, packet, state) ← record.parse serverId base state
      if found then
        let packets ← parseRecords serverId base state records
        return packet :: packets
      else
        return []

/-- A header with a record that says it. -/
structure SentHeader where
  header : AdsbHeader
  record : Record
  encoded : (Content.header header).Encoded record
  natural : ∀ obj, record = .json obj → header.mlatTimestampMax.toNat < 2 ^ 63

/-- A valid packet with a record that says it. -/
structure SentPacket where
  type : PacketType
  packet : AdsbPacket
  record : Record
  typed : type ≠ .none
  encoded : (Content.packet type packet).Encoded record
  natural : ∀ obj, record = .json obj →
    ∀ timestamp ∈ packet.mlatTimestamp, timestamp.toNat < 2 ^ 63
  sourceId : packetValidateId (some packet.sourceId) = true
  payload : packet.payload.length = packetPayloadLen type

/-- The signal strength of a json packet has to be within the bound of the header. -/
def SentPacket.Within (sent : SentPacket) (rssiMax : UInt32) : Prop :=
  ∀ obj, sent.record = .json obj → ∀ rssi ∈ sent.packet.rssi, rssi ≤ rssiMax

/-- The timestamp of a packet, where it has one. -/
def SentPacket.timestamp (sent : SentPacket) : Option Nat :=
  sent.packet.mlatTimestamp.map UInt64.toNat

/-- What the timestamp of a packet is decoded to after a number of wraps. -/
def SentPacket.time (header : AdsbHeader) (base : Packet) (sent : SentPacket) (wraps : Nat) : Nat :=
  match sent.timestamp with
  | none => base.mlatTimestamp.toNat
  | some timestamp =>
      mlatScaled header.mlatTimestampMax header.mlatTimestampMhz.toUInt16 wraps timestamp

/-- An accepted header is taken in every state. -/
theorem SentHeader.parse (sent : SentHeader) {serverId : CString}
    (accepted : sent.header.Accepted serverId) (base : Packet) (state : ParserState) :
    sent.record.parse serverId base state =
      .ok (true, { base with type := .none }, state.withHeader sent.header) := by
  obtain ⟨header, record, encoded, natural⟩ := sent
  cases encoded with
  | json holds =>
      exact (jsonParseObject_header serverId holds (natural _ rfl) base _ state _).mpr
        ⟨accepted, rfl, rfl⟩
  | proto => exact (protoParseRecord_header serverId base _ state _).mpr ⟨accepted, rfl, rfl⟩

/-- What is stored of a packet is what its record is parsed to. -/
theorem SentPacket.parse (sent : SentPacket) (serverId : CString) {base packet : Packet}
    {state after : ParserState} (header : state.haveHeader = true)
    (within : sent.Within state.rssiMax)
    (stored : sent.packet.stored sent.type base state = .ok (packet, after)) :
    sent.record.parse serverId base state = .ok (true, packet, after) := by
  obtain ⟨type, input, record, typed, encoded, natural, sourceId, payload⟩ := sent
  cases encoded with
  | json holds =>
      exact (jsonParseObject_packet serverId typed holds (natural _ rfl) base packet state
        after).mpr ⟨⟨header, sourceId, payload⟩, within _ rfl, stored⟩
  | proto =>
      exact (protoParseRecord_packet serverId typed input base packet state after).mpr
        ⟨⟨header, sourceId, payload⟩, stored⟩

/-- The state behind a header and packets with the given count of wraps. -/
structure ParserState.Greeted (state : ParserState) (header : AdsbHeader) (counted : Nat × Nat) :
    Prop where
  haveHeader : state.haveHeader = true
  mhz : state.mlatTimestampMhz = header.mlatTimestampMhz.toUInt16
  max : state.mlatTimestampMax = header.mlatTimestampMax
  rssiMax : state.rssiMax = header.rssiMax
  counts : state.mlatState.Counts header.mlatTimestampMax counted.1 counted.2

/-- Behind the header of a fresh connection, nothing is counted. -/
theorem ParserState.greeted_withHeader (header : AdsbHeader) :
    (parserStateInit.withHeader header).Greeted header (0, 0) :=
  ⟨rfl, rfl, rfl, rfl, MlatState.counts_fresh _⟩

theorem AdsbHeader.Accepted.mhz {header : AdsbHeader} {serverId : CString}
    (accepted : header.Accepted serverId) : header.mlatTimestampMhz.toUInt16 ≠ 0 := by
  intro zero
  have low := congrArg UInt16.toNat zero
  have small := UInt32.le_iff_toNat_le.mp accepted.mhzSmall
  rw [UInt32.toNat_toUInt16] at low
  change header.mlatTimestampMhz.toNat ≤ 65535 at small
  change header.mlatTimestampMhz.toNat % 2 ^ 16 = 0 at low
  exact accepted.mhzPositive (UInt32.toNat_inj.mp (by
    change _ = 0
    omega))

theorem ParserState.Greeted.scaledTimestamp {state : ParserState} {header : AdsbHeader}
    {counted : Nat × Nat} (greeted : state.Greeted header counted)
    (ticking : header.mlatTimestampMhz.toUInt16 ≠ 0) (base : Packet) (sent : SentPacket) :
    ∃ time mlatState,
      sent.packet.scaledTimestamp base.mlatTimestamp state = .ok (time, mlatState) ∧
      time.toNat = sent.time header base (Unwrap.advance counted sent.timestamp).2 ∧
      mlatState.Counts header.mlatTimestampMax (Unwrap.advance counted sent.timestamp).1
        (Unwrap.advance counted sent.timestamp).2 := by
  simp only [AdsbPacket.scaledTimestamp, SentPacket.time, SentPacket.timestamp]
  cases sent.packet.mlatTimestamp with
  | none => exact ⟨_, _, rfl, rfl, greeted.counts⟩
  | some timestamp =>
      rw [greeted.mhz, greeted.max]
      exact ⟨_, _, packetMlatTimestampScaleIn_of_pos ticking _ _ _,
        greeted.counts.scaled timestamp _, (greeted.counts.widthIn timestamp).2⟩

/-- What a packet is received as after a number of wraps. -/
structure SentPacket.ReadAs (sent : SentPacket) (header : AdsbHeader) (base : Packet) (wraps : Nat)
    (packet : Packet) : Prop where
  type : packet.type = sent.type
  sourceId : packet.sourceId = sent.packet.sourceId
  hops : packet.hops = sent.packet.hops.toUInt16.toUInt32
  payload : packet.payload = base.payload.overwrite 0 sent.packet.payload
  mlatTimestamp : packet.mlatTimestamp.toNat = sent.time header base wraps
  rssi : sent.packet.scaledRssi base.rssi header.rssiMax = .ok packet.rssi

/-- **One packet.** Behind a header, a packet is taken and counted. -/
theorem ParserState.Greeted.parse {state : ParserState} {header : AdsbHeader}
    {counted : Nat × Nat} (greeted : state.Greeted header counted) {serverId : CString}
    (accepted : header.Accepted serverId) (base : Packet) {sent : SentPacket}
    (within : sent.Within header.rssiMax) :
    ∃ packet after, sent.record.parse serverId base state = .ok (true, packet, after) ∧
      sent.ReadAs header base (Unwrap.advance counted sent.timestamp).2 packet ∧
      after.Greeted header (Unwrap.advance counted sent.timestamp) := by
  obtain ⟨time, mlatState, timed, same, counts⟩ :=
    greeted.scaledTimestamp accepted.mhz base sent
  obtain ⟨rssi, strong⟩ : ∃ rssi, sent.packet.scaledRssi base.rssi state.rssiMax = .ok rssi := by
    rw [AdsbPacket.scaledRssi, greeted.rssiMax]
    cases sent.packet.rssi with
    | none => exact ⟨_, rfl⟩
    | some rssi =>
        exact ⟨_, packetRssiScaleIn_of_pos (UInt32.pos_iff_ne_zero.mpr accepted.rssiMax) rssi⟩
  rw [← greeted.rssiMax] at within
  have parsed := sent.parse serverId greeted.haveHeader within
    (AdsbPacket.stored_eq timed strong sent.type)
  rw [greeted.rssiMax] at strong
  exact ⟨_, _, parsed, ⟨rfl, rfl, rfl, rfl, same, strong⟩, greeted.haveHeader, greeted.mhz,
    greeted.max, greeted.rssiMax, counts⟩

/-- **A run of packets.** Behind a header, all packets are taken and counted. -/
theorem parseRecords_packets {header : AdsbHeader} {serverId : CString}
    (accepted : header.Accepted serverId) (base : Packet) {state : ParserState}
    {counted : Nat × Nat} (greeted : state.Greeted header counted) {packets : List SentPacket}
    (within : ∀ sent ∈ packets, sent.Within header.rssiMax) :
    ∃ received, parseRecords serverId base state (packets.map SentPacket.record) = .ok received ∧
      (received.map fun packet => packet.mlatTimestamp.toNat) =
        (Unwrap.countSome SentPacket.timestamp counted packets).map fun counted =>
          counted.1.time header base counted.2 := by
  induction packets generalizing state counted with
  | nil => exact ⟨[], rfl, rfl⟩
  | cons sent packets ih =>
      obtain ⟨here, later⟩ := List.forall_mem_cons.mp within
      obtain ⟨packet, after, parsed, read, next⟩ := greeted.parse accepted base here
      obtain ⟨received, rest, times⟩ := ih next later
      refine ⟨packet :: received, ?_, ?_⟩
      · simp only [List.map_cons, parseRecords, parsed, Except.ok_bind, ↓reduceIte, rest,
          Except.pure_eq_ok]
      · rw [List.map_cons, read.mlatTimestamp, times, Unwrap.countSome, List.map_cons]

namespace SentHeader

/-- The timestamps of the packets behind a header, on a fresh connection. -/
def decode (greeting : SentHeader) (serverId : CString) (base : Packet)
    (packets : List SentPacket) : Except Fault (List Nat) :=
  (parseRecords serverId base parserStateInit
    (greeting.record :: packets.map SentPacket.record)).map fun received =>
      received.tail.map fun packet => packet.mlatTimestamp.toNat

/-- **Decoding records.** Every timestamp is scaled with the decreases of all those before it. -/
theorem decode_eq (greeting : SentHeader) {serverId : CString}
    (accepted : greeting.header.Accepted serverId) (base : Packet) {packets : List SentPacket}
    (within : ∀ sent ∈ packets, sent.Within greeting.header.rssiMax) :
    greeting.decode serverId base packets =
      .ok ((Unwrap.countSome SentPacket.timestamp (0, 0) packets).map fun counted =>
        counted.1.time greeting.header base counted.2) := by
  have greeted := ParserState.greeted_withHeader greeting.header
  obtain ⟨received, parsed, times⟩ := parseRecords_packets accepted base greeted within
  simp only [decode, parseRecords, greeting.parse accepted, Except.ok_bind, ↓reduceIte, parsed,
    Except.pure_eq_ok, Except.map, List.tail_cons, times]

end SentHeader

end Adsbus

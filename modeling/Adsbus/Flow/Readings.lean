import Adsbus.Flow.Receive
import Adsbus.Formats.Agree

/-! # What the parsers scale

The parser of a format reads a counter and a signal strength, and passes them with
their bounds to the scaling functions. Most of the ranges are checked before; what
each parser leaves unchecked is told by `Adsbus.AcceptedPacket.Guarded`, and it is
what the numbers need to be in their ranges (`Adsbus.AcceptedPacket.inRange_iff`).
-/

namespace Adsbus

/-- The numbers that a parser reads, before they are cast, and what it scales them by. -/
structure Readings where
  mlatTimestamp : Option Int
  mlatTimestampMax : UInt64
  mlatTimestampMhz : UInt16
  rssi : Option Int
  rssiMax : UInt32

namespace Readings

/-- Nothing was read. -/
def empty : Readings where
  mlatTimestamp := none
  mlatTimestampMax := 0
  mlatTimestampMhz := 0
  rssi := none
  rssiMax := 0

/-- The numbers are within their bounds. -/
def InRange (readings : Readings) : Prop :=
  (∀ timestamp ∈ readings.mlatTimestamp,
    0 ≤ timestamp ∧ timestamp ≤ readings.mlatTimestampMax.toNat) ∧
  ∀ rssi ∈ readings.rssi, 0 ≤ rssi ∧ rssi ≤ readings.rssiMax.toNat

/-- The product in `packet_rssi_scale_in` does not wrap. -/
def Unwrapped (readings : Readings) : Prop :=
  ∀ rssi ∈ readings.rssi, rssi * (packetRssiMax / readings.rssiMax).toNat < 2 ^ 32

/-- A packet and a state have what `packet_mlat_timestamp_scale_in` and `packet_rssi_scale_in`
return for the numbers, and are as before where nothing was read. -/
structure Scaled (readings : Readings) (packet : Packet) (state : ParserState) (after : Packet)
    (left : ParserState) : Prop where
  mlatTimestamp : readings.mlatTimestamp.elim
    (after.mlatTimestamp = packet.mlatTimestamp ∧ left.mlatState = state.mlatState)
    fun timestamp => packetMlatTimestampScaleIn (UInt64.ofInt timestamp)
      readings.mlatTimestampMax readings.mlatTimestampMhz state.mlatState =
        .ok (after.mlatTimestamp, left.mlatState)
  rssi : readings.rssi.elim (after.rssi = packet.rssi) fun rssi =>
    packetRssiScaleIn (UInt32.ofInt rssi) readings.rssiMax = .ok after.rssi

/-- What a frame's reception tells was scaled. -/
theorem scaled_of_accepted {readings : Readings} {attempt after : Attempt} {frame : Frame}
    {count : Nat} (accepted : attempt.Accepted after frame count) {reception : Reception}
    (received : frame.reception = some reception) {timestamp rssi : Int}
    (timestampRead : readings.mlatTimestamp = some timestamp)
    (timestampCast : UInt64.ofInt timestamp = reception.timestamp)
    (max : readings.mlatTimestampMax = reception.max)
    (mhz : readings.mlatTimestampMhz = reception.mhz) (rssiRead : readings.rssi = some rssi)
    (positive : 0 < readings.rssiMax)
    (rssiCast : UInt32.ofInt rssi * (packetRssiMax / readings.rssiMax) = reception.rssi) :
    readings.Scaled attempt.packet attempt.state after.packet after.state where
  mlatTimestamp := by
    rw [timestampRead, Option.elim_some, timestampCast, max, mhz,
      packetMlatTimestampScaleIn_of_pos reception.ticking, accepted.packet, accepted.state,
      Frame.store, received]
  rssi := by
    rw [rssiRead, Option.elim_some, packetRssiScaleIn_of_pos positive, rssiCast, accepted.packet,
      Frame.store, received]

/-- Numbers in their ranges are scaled without a wrap. -/
theorem InRange.unwrapped {readings : Readings} (inRange : readings.InRange) :
    readings.Unwrapped := by
  intro rssi read
  obtain ⟨natural, small⟩ := inRange.2 rssi read
  obtain ⟨value, rfl⟩ := Int.eq_ofNat_of_zero_le natural
  have step := Nat.mul_le_mul_right (packetRssiMax / readings.rssiMax).toNat
    (Int.ofNat_le.mp small)
  have whole : readings.rssiMax.toNat * (packetRssiMax / readings.rssiMax).toNat ≤
      packetRssiMax.toNat := by
    rw [UInt32.toNat_div]
    exact Nat.mul_div_le _ _
  exact_mod_cast Nat.lt_of_le_of_lt (step.trans whole) (by decide)

/-- A signal strength in its range is multiplied as it is. -/
theorem Scaled.rssi_eq {readings : Readings} {packet after : Packet} {state left : ParserState}
    (scaled : readings.Scaled packet state after left) (inRange : readings.InRange) {rssi : Int}
    (read : readings.rssi = some rssi) :
    (after.rssi.toNat : Int) = rssi * (packetRssiMax / readings.rssiMax).toNat := by
  have product := scaled.rssi
  have unwrapped := inRange.unwrapped rssi read
  obtain ⟨natural, small⟩ := inRange.2 rssi read
  obtain ⟨value, rfl⟩ := Int.eq_ofNat_of_zero_le natural
  rw [read, Option.elim_some] at product
  simp only [packetRssiScaleIn, Except.bind_eq_ok, Except.pure_eq_ok, Except.ok.injEq] at product
  obtain ⟨_, _, product⟩ := product
  have bound := readings.rssiMax.toNat_lt
  have cast : (UInt32.ofInt value).toNat = value := by
    rw [UInt32.ofInt, Int.emod_eq_of_lt natural (by omega), Int.toNat_natCast,
      UInt32.toNat_ofNat_of_lt' (by change value < 2 ^ 32; omega)]
  rw [← product, UInt32.toNat_mul, cast, Nat.mod_eq_of_lt (by exact_mod_cast unwrapped)]
  exact Int.natCast_mul _ _

end Readings

/-! ## The formats -/

/-- The numbers on an airspy_adsb line. -/
def airspyAdsbReadings (type : PacketType) (line : Bytes) : Readings where
  mlatTimestamp := some (hexToInt ((line.drop (1 + packetPayloadLen type * 2 + 1)).take 8))
  mlatTimestampMax := airspyAdsbMlatMax
  mlatTimestampMhz :=
    2 * UInt16.ofInt (hexToInt ((line.drop (1 + packetPayloadLen type * 2 + 10)).take 2))
  rssi := some (hexToInt ((line.drop (1 + packetPayloadLen type * 2 + 13)).take 4))
  rssiMax := airspyAdsbRssiMax

/-- The numbers in the unescaped bytes of a beast frame. -/
def beastReadings (buf2 : Bytes) : Readings where
  mlatTimestamp := some (bigEndian ((buf2.drop 2).take 6))
  mlatTimestampMax := beastMlatMax
  mlatTimestampMhz := beastMlatMhz
  rssi := some (buf2.getD 8 0).toNat
  rssiMax := beastRssiMax

/-- The numbers in a json object. -/
def jsonReadings (obj : Json) (state : ParserState) : Readings where
  mlatTimestamp := (obj.getInteger? (ascii "mlat_timestamp")).map Int64.toInt
  mlatTimestampMax := state.mlatTimestampMax
  mlatTimestampMhz := state.mlatTimestampMhz
  rssi := (obj.getInteger? (ascii "rssi")).map Int64.toInt
  rssiMax := state.rssiMax

/-- The numbers in a proto packet. -/
def protoReadings (input : AdsbPacket) (state : ParserState) : Readings where
  mlatTimestamp := input.mlatTimestamp.map fun timestamp => timestamp.toNat
  mlatTimestampMax := state.mlatTimestampMax
  mlatTimestampMhz := state.mlatTimestampMhz
  rssi := input.rssi.map fun rssi => rssi.toNat
  rssiMax := state.rssiMax

/-- The packet of a proto record. -/
def Adsb.packet? (msg : Adsb) : Option AdsbPacket :=
  msg.modeAc.or (msg.modeSShort.or msg.modeSLong)

/-- What the parser of a format reads from the front of the buffer for a packet of a type. -/
def Format.readings (server : Server) (attempt : Attempt) (type : PacketType) : Format → Readings
  | .airspyAdsb => airspyAdsbReadings type attempt.buf.window
  | .beast =>
      (beastUnescape attempt.buf (beastOverlayLen + packetPayloadLen type)).elim .empty
        fun unescaped => beastReadings unescaped.2
  | .json =>
      (server.jansson.loadb attempt.buf.window).elim .empty fun loaded =>
        jsonReadings loaded.1 attempt.state
  | .proto =>
      ((protoUnwrap server.protobuf attempt.buf).bind fun unwrapped => unwrapped.1.packet?).elim
        .empty fun input => protoReadings input attempt.state
  | .raw => .empty

/-! ## Json and proto packets -/

/-- What `json_parse_common` makes of the timestamp of an accepted object. -/
theorem jsonParseTimestamp_read {obj : Json} {packet after : Packet} {state left : ParserState}
    (done : jsonParseTimestamp obj packet state = .ok (true, after, left)) :
    (∀ timestamp ∈ (jsonReadings obj state).mlatTimestamp, 0 ≤ timestamp) ∧
      (jsonReadings obj state).mlatTimestamp.elim
        (after.mlatTimestamp = packet.mlatTimestamp ∧ left.mlatState = state.mlatState)
        (fun timestamp => packetMlatTimestampScaleIn (UInt64.ofInt timestamp)
          state.mlatTimestampMax state.mlatTimestampMhz state.mlatState =
            .ok (after.mlatTimestamp, left.mlatState)) ∧
      after.rssi = packet.rssi ∧ left.rssiMax = state.rssiMax := by
  simp only [jsonParseTimestamp] at done
  split at done
  · rename_i val found
    simp only [jsonReadings, Json.getInteger?_of_get? found, Option.map_some, Option.mem_some_iff,
      forall_eq', Option.elim_some, ofInt_toInt]
    split at done
    · cases done
    · rename_i natural
      simp only [Except.bind_eq_ok, Except.pure_eq_ok, Except.ok.injEq, Prod.mk.injEq,
        true_and] at done
      obtain ⟨⟨timestamp, mlatState⟩, scaled, rfl, rfl⟩ := done
      rw [Int64.lt_iff_toInt_lt, Int.not_lt] at natural
      exact ⟨natural, scaled, rfl, rfl⟩
  · rename_i other
    cases done
    simp only [jsonReadings, Json.getInteger?_eq_none other, Option.map_none, Option.not_mem_none,
      IsEmpty.forall_iff, implies_true, Option.elim_none, and_self]

/-- What `json_parse_common` makes of the signal strength of an accepted object. -/
theorem jsonParseRssi_read {obj : Json} {packet after : Packet} {state : ParserState}
    (done : jsonParseRssi obj packet state = .ok (true, after)) :
    (∀ rssi ∈ (jsonReadings obj state).rssi, rssi ≤ state.rssiMax.toNat) ∧
      (jsonReadings obj state).rssi.elim (after.rssi = packet.rssi)
        (fun rssi => packetRssiScaleIn (UInt32.ofInt rssi) state.rssiMax = .ok after.rssi) ∧
      after.mlatTimestamp = packet.mlatTimestamp := by
  simp only [jsonParseRssi] at done
  split at done
  · rename_i val found
    simp only [jsonReadings, Json.getInteger?_of_get? found, Option.map_some, Option.mem_some_iff,
      forall_eq', Option.elim_some, ← toUInt32_ofInt, ofInt_toInt]
    split at done
    · cases done
    · rename_i small
      simp only [Except.bind_eq_ok, Except.pure_eq_ok, Except.ok.injEq, Prod.mk.injEq,
        true_and] at done
      obtain ⟨rssi, scaled, rfl⟩ := done
      rw [gt_iff_lt, Int64.lt_iff_toInt_lt, Int.not_lt, toInt_toUInt64_toInt64] at small
      exact ⟨small, scaled, rfl⟩
  · rename_i other
    cases done
    simp only [jsonReadings, Json.getInteger?_eq_none other, Option.map_none, Option.not_mem_none,
      IsEmpty.forall_iff, implies_true, Option.elim_none, and_self]

/-- What `json_parse_common` checks and scales. -/
theorem jsonParseCommon_read {obj : Json} {packet after : Packet} {state left : ParserState}
    (done : jsonParseCommon obj packet state = .ok (true, after, left)) :
    ((∀ timestamp ∈ (jsonReadings obj state).mlatTimestamp, 0 ≤ timestamp) ∧
      ∀ rssi ∈ (jsonReadings obj state).rssi, rssi ≤ state.rssiMax.toNat) ∧
      (jsonReadings obj state).Scaled packet state after left := by
  simp only [jsonParseCommon] at done
  split at done
  · cases done
  split at done
  · cases done
  split at done
  · cases done
  split_ifs at done
  · cases done
  · cases done
  obtain ⟨⟨found, timed, state'⟩, timestampDone, done⟩ := Except.bind_eq_ok.mp done
  cases found with
  | false => cases done
  | true =>
      obtain ⟨⟨found, strong⟩, rssiDone, done⟩ := Except.bind_eq_ok.mp done
      simp only [Except.pure_eq_ok, Except.ok.injEq, Prod.mk.injEq] at done
      obtain ⟨rfl, rfl, rfl⟩ := done
      obtain ⟨natural, timestamp, rssiKept, maxKept⟩ := jsonParseTimestamp_read timestampDone
      obtain ⟨small, rssi, timestampKept⟩ := jsonParseRssi_read rssiDone
      rw [maxKept] at small rssi
      rw [← timestampKept] at timestamp
      rw [rssiKept] at rssi
      exact ⟨⟨natural, small⟩, timestamp, rssi⟩

/-- What `json_parse` checks and scales of a packet object. -/
theorem jsonParseObject_read {serverId : CString} {obj : Json} {packet after : Packet}
    {state left : ParserState}
    (done : jsonParseObject serverId obj packet state = .ok (true, after, left))
    (typed : after.type ≠ .none) :
    ((∀ timestamp ∈ (jsonReadings obj state).mlatTimestamp, 0 ≤ timestamp) ∧
      ∀ rssi ∈ (jsonReadings obj state).rssi, rssi ≤ state.rssiMax.toNat) ∧
      (jsonReadings obj state).Scaled packet state after left := by
  have payload : ∀ type, jsonParsePayload obj packet state type = .ok (true, after, left) →
      ((∀ timestamp ∈ (jsonReadings obj state).mlatTimestamp, 0 ≤ timestamp) ∧
        ∀ rssi ∈ (jsonReadings obj state).rssi, rssi ≤ state.rssiMax.toNat) ∧
        (jsonReadings obj state).Scaled packet state after left := by
    intro type parsed
    obtain ⟨⟨found, packet', state'⟩, common, parsed⟩ := Except.bind_eq_ok.mp parsed
    cases found with
    | false => cases parsed
    | true =>
        simp only [Bool.not_true, Bool.false_eq_true, ↓reduceIte] at parsed
        split at parsed
        · cases parsed
        split_ifs at parsed
        · cases parsed
        · cases parsed
        · cases parsed
          obtain ⟨checks, scaled⟩ := jsonParseCommon_read common
          exact ⟨checks, scaled.mlatTimestamp, scaled.rssi⟩
  simp only [jsonParseObject, jsonParser] at done
  split at done
  · cases done
  split at done
  · cases done
  · rename_i parser chosen
    split_ifs at chosen
    · cases chosen
      simp only [jsonParseHeader] at done
      split at done
      · split_ifs at done
        · cases done
        · cases done
        · cases done
        · cases done
          exact (typed rfl).elim
      · cases done
    · cases chosen
      exact payload _ done
    · cases chosen
      exact payload _ done
    · cases chosen
      exact payload _ done

/-- What `proto_parse_packet` makes of the timestamp. -/
theorem protoParseTimestamp_read {input : AdsbPacket} {packet after : Packet}
    {state left : ParserState} (done : protoParseTimestamp input packet state = .ok (after, left)) :
    (protoReadings input state).mlatTimestamp.elim
        (after.mlatTimestamp = packet.mlatTimestamp ∧ left.mlatState = state.mlatState)
        (fun timestamp => packetMlatTimestampScaleIn (UInt64.ofInt timestamp)
          state.mlatTimestampMax state.mlatTimestampMhz state.mlatState =
            .ok (after.mlatTimestamp, left.mlatState)) ∧
      after.rssi = packet.rssi ∧ left.rssiMax = state.rssiMax := by
  simp only [protoParseTimestamp] at done
  split at done
  · rename_i absent
    cases done
    simp only [protoReadings, absent, Option.map_none, Option.elim_none, and_self]
  · rename_i timestamp present
    simp only [Except.bind_eq_ok, Except.pure_eq_ok, Except.ok.injEq, Prod.mk.injEq] at done
    obtain ⟨⟨value, mlatState⟩, scaled, rfl, rfl⟩ := done
    refine ⟨?_, rfl, rfl⟩
    simp only [protoReadings, present, Option.map_some, Option.elim_some, ofInt_toNat]
    exact scaled

/-- What `proto_parse_packet` makes of the signal strength. -/
theorem protoParseRssi_read {input : AdsbPacket} {packet after : Packet} {state : ParserState}
    (done : protoParseRssi input packet state = .ok after) :
    (protoReadings input state).rssi.elim (after.rssi = packet.rssi)
        (fun rssi => packetRssiScaleIn (UInt32.ofInt rssi) state.rssiMax = .ok after.rssi) ∧
      after.mlatTimestamp = packet.mlatTimestamp := by
  simp only [protoParseRssi] at done
  split at done
  · rename_i absent
    cases done
    simp only [protoReadings, absent, Option.map_none, Option.elim_none, and_self]
  · rename_i rssi present
    simp only [Except.bind_eq_ok, Except.pure_eq_ok, Except.ok.injEq] at done
    obtain ⟨value, scaled, rfl⟩ := done
    refine ⟨?_, rfl⟩
    simp only [protoReadings, present, Option.map_some, Option.elim_some, uInt32OfInt_toNat]
    exact scaled

/-- What `proto_parse_packet` scales of an accepted packet. -/
theorem protoParsePacket_read {input : AdsbPacket} {packet after : Packet}
    {state left : ParserState} {len : Nat}
    (done : protoParsePacket input packet state len = .ok (true, after, left)) :
    (protoReadings input state).Scaled packet state after left := by
  simp only [protoParsePacket] at done
  split_ifs at done
  · cases done
  · cases done
  · cases done
  obtain ⟨⟨timed, state'⟩, timestampDone, done⟩ := Except.bind_eq_ok.mp done
  obtain ⟨strong, rssiDone, done⟩ := Except.bind_eq_ok.mp done
  simp only [Except.pure_eq_ok, Except.ok.injEq, Prod.mk.injEq, true_and] at done
  obtain ⟨rfl, rfl⟩ := done
  obtain ⟨timestamp, rssiKept, maxKept⟩ := protoParseTimestamp_read timestampDone
  obtain ⟨rssi, timestampKept⟩ := protoParseRssi_read rssiDone
  rw [maxKept, rssiKept] at rssi
  rw [← timestampKept] at timestamp
  exact ⟨timestamp, rssi⟩

/-- What `proto_parse` scales of a packet record. -/
theorem protoParseRecord_read {serverId : CString} {msg : Adsb} {packet after : Packet}
    {state left : ParserState}
    (done : protoParseRecord serverId msg packet state = .ok (true, after, left))
    (typed : after.type ≠ .none) :
    ∃ input, msg.packet? = some input ∧
      (protoReadings input state).Scaled packet state after left := by
  have parsed : ∀ (input : AdsbPacket) (len : Nat) (type : PacketType),
      (protoParsePacket input packet state len >>= fun parsed =>
        Except.ok (parsed.1, if parsed.1 then { parsed.2.1 with type := type } else parsed.2.1,
          parsed.2.2)) = .ok (true, after, left) →
      (protoReadings input state).Scaled packet state after left := by
    intro input len type done
    obtain ⟨⟨found, stored, state'⟩, first, rest⟩ := Except.bind_eq_ok.mp done
    cases found with
    | false => cases rest
    | true =>
        cases rest
        have scaled := protoParsePacket_read first
        exact ⟨scaled.mlatTimestamp, scaled.rssi⟩
  obtain ⟨header, modeAc, modeSShort, modeSLong⟩ := msg
  cases header with
  | some header =>
      simp only [protoParseRecord, Except.ok.injEq, Prod.mk.injEq] at done
      obtain ⟨accepted, rfl, _⟩ := done
      rw [if_pos accepted] at typed
      exact (typed rfl).elim
  | none =>
      cases modeAc with
      | some input => exact ⟨input, rfl, parsed input _ _ done⟩
      | none =>
          cases modeSShort with
          | some input => exact ⟨input, rfl, parsed input _ _ done⟩
          | none =>
              cases modeSLong with
              | some input => exact ⟨input, rfl, parsed input _ _ done⟩
              | none => cases done

/-! ## Accepted packets -/

/-- A packet that the parser of a format has accepted, from any buffer and in any state. -/
structure AcceptedPacket (server : Server) (format : Format) where
  attempt : Attempt
  after : Attempt
  valid : attempt.buf.Valid
  found : format.parse server attempt = .ok (true, after)
  typed : after.packet.type ≠ .none

namespace AcceptedPacket

variable {server : Server} {format : Format}

/-- What was read for the packet. -/
def readings (accepted : AcceptedPacket server format) : Readings :=
  format.readings server accepted.attempt accepted.after.packet.type

/-- The packet holds what the scaling functions make of the readings. -/
def Scaled (accepted : AcceptedPacket server format) : Prop :=
  accepted.readings.Scaled accepted.attempt.packet accepted.attempt.state accepted.after.packet
    accepted.after.state

/-- The packet is within what its parser does not check. -/
def Guarded (accepted : AcceptedPacket server format) : Prop :=
  match format with
  | .airspyAdsb =>
      ∀ c ∈ (accepted.attempt.buf.window.drop
        (1 + packetPayloadLen accepted.after.packet.type * 2 + 13)).take 4, IsHex c
  | .beast | .raw => True
  | .json =>
      (∀ timestamp ∈ accepted.readings.mlatTimestamp,
        timestamp ≤ accepted.readings.mlatTimestampMax.toNat) ∧
      ∀ rssi ∈ accepted.readings.rssi, 0 ≤ rssi
  | .proto =>
      (∀ timestamp ∈ accepted.readings.mlatTimestamp,
        timestamp ≤ accepted.readings.mlatTimestampMax.toNat) ∧
      ∀ rssi ∈ accepted.readings.rssi, rssi ≤ accepted.readings.rssiMax.toNat

theorem airspyAdsb_inRange (accepted : AcceptedPacket server .airspyAdsb) :
    accepted.Scaled ∧
      (accepted.readings.InRange ↔ accepted.Guarded) := by
  obtain ⟨attempt, after, valid, found, typed⟩ := accepted
  obtain ⟨frame, count, front, stored⟩ :=
    @Parses.found _ _ _ airspyAdsbParse_parses _ _ valid found
  obtain ⟨type, _, here⟩ := front_airspyAdsbCode.mp front
  obtain ⟨_, data, reception, _, received, rfl⟩ := front_airspyAdsbTypeCode.mp here
  have same : after.packet.type = type := by
    rw [stored.packet]
    rfl
  simp only [airspyAdsbReception] at received
  split at received
  · rename_i marks
    obtain ⟨_, _, mark, natural⟩ := marks
    split at received
    · rename_i ticking
      have long := (List.getElem?_eq_some_iff.mp mark).1
      simp only [Scaled, readings, Format.readings, Guarded, same]
      constructor
      · refine Readings.scaled_of_accepted stored rfl rfl ?_ ?_ ?_ rfl
          (by decide : 0 < airspyAdsbRssiMax) ?_ <;>
          cases received <;> rfl
      · have mlatLength :
            ((attempt.buf.window.drop (1 + packetPayloadLen type * 2 + 1)).take 8).length = 8 := by
          rw [List.length_take, List.length_drop]
          omega
        have rssiLength :
            ((attempt.buf.window.drop (1 + packetPayloadLen type * 2 + 13)).take 4).length = 4 := by
          rw [List.length_take, List.length_drop]
          omega
        have rssiShort :
            ((attempt.buf.window.drop (1 + packetPayloadLen type * 2 + 13)).take 4).length ≤ 15 :=
          (Nat.le_of_eq rssiLength).trans (by decide)
        have mlatBound := hexToInt_lt ((Nat.le_of_eq mlatLength).trans (by decide))
        have rssiBound := hexToInt_lt rssiShort
        rw [mlatLength] at mlatBound
        rw [rssiLength] at rssiBound
        rw [← hexToInt_nonneg_iff rssiShort]
        have mlatMax : airspyAdsbMlatMax.toNat = 4294967295 := rfl
        have rssiMax : airspyAdsbRssiMax.toNat = 65535 := rfl
        simp only [Readings.InRange, airspyAdsbReadings, Option.mem_some_iff, forall_eq', mlatMax,
          rssiMax]
        omega
    · cases received
  · cases received

theorem beast_inRange (accepted : AcceptedPacket server .beast) :
    accepted.Scaled ∧ accepted.readings.InRange := by
  obtain ⟨attempt, after, valid, found, typed⟩ := accepted
  obtain ⟨frame, count, front, stored⟩ := @Parses.found _ _ _ beastParse_parses _ _ valid found
  obtain ⟨first, byte, type, stop, bytes, _, _, read, rfl, rfl⟩ := beastFront_eq_some.mp front
  have same : after.packet.type = type := by
    rw [stored.packet]
    rfl
  have nonempty : 0 < attempt.buf.length := (valid.window_eq_some.mp first).1
  have unescaped := valid.beastUnescape_eq (8 + packetPayloadLen type) nonempty
  rw [read, Option.map_some, Nat.add_right_comm] at unescaped
  have length := (Stuffing.unstuff_bounds read).1
  have mlatLength : ((bytes.drop 1).take 6).length = 6 := by
    rw [List.length_take, List.length_drop]
    omega
  simp only [Scaled, readings, Format.readings, same, beastOverlayLen, unescaped, Option.elim_some]
  constructor
  · refine Readings.scaled_of_accepted stored rfl rfl ?_ rfl rfl rfl
      (by decide : 0 < beastRssiMax) ?_
    · change UInt64.ofInt (bigEndian ((bytes.drop 1).take 6)) = beastParseMlat _
      rw [← toNat_beastParseMlat mlatLength, ofInt_toNat]
    · change UInt32.ofInt (bytes.getD 7 0).toNat * _ = _
      rw [← UInt8.toNat_toUInt32, uInt32OfInt_toNat]
      rfl
  · have mlatBound := bigEndian_lt ((bytes.drop 1).take 6)
    have rssiBound := (bytes.getD 7 0).toNat_lt
    have mlatMax : beastMlatMax.toNat = 281474976710655 := rfl
    have rssiMax : beastRssiMax.toNat = 255 := rfl
    rw [mlatLength] at mlatBound
    constructor
    · rintro _ ⟨⟩
      change (0 : Int) ≤ bigEndian ((bytes.drop 1).take 6) ∧
        (bigEndian ((bytes.drop 1).take 6) : Int) ≤ beastMlatMax.toNat
      omega
    · rintro _ ⟨⟩
      change (0 : Int) ≤ (bytes.getD 7 0).toNat ∧
        ((bytes.getD 7 0).toNat : Int) ≤ beastRssiMax.toNat
      omega

theorem raw_inRange (accepted : AcceptedPacket server .raw) :
    accepted.Scaled ∧ (accepted.readings.InRange ↔ accepted.Guarded) := by
  obtain ⟨attempt, after, valid, found, typed⟩ := accepted
  obtain ⟨frame, count, front, stored⟩ := @Parses.found _ _ _ rawParse_parses _ _ valid found
  have timeless := (rawCode_marked front).2.2
  rw [Option.isSome_eq_false_iff, Option.isNone_iff_eq_none] at timeless
  have packet := stored.packet
  have state := stored.state
  rw [Frame.store, timeless] at packet state
  refine ⟨⟨⟨?_, ?_⟩, ?_⟩, fun _ => trivial, fun _ => ⟨?_, ?_⟩⟩
  · rw [packet]
  · rw [state]
  · change after.packet.rssi = attempt.packet.rssi
    rw [packet]
  · rintro _ ⟨⟩
  · rintro _ ⟨⟩

theorem json_inRange (accepted : AcceptedPacket server .json) :
    accepted.Scaled ∧ (accepted.readings.InRange ↔ accepted.Guarded) := by
  obtain ⟨attempt, after, valid, found, typed⟩ := accepted
  have whole : bufAt attempt.buf 0 attempt.buf.length = attempt.buf.window := rfl
  simp only [Format.parse, jsonParse, whole] at found
  split at found
  · rename_i fields position loaded
    obtain ⟨⟨accepted, packet, state⟩, parsed, rest⟩ := Except.bind_eq_ok.mp found
    cases accepted with
    | false => cases rest
    | true =>
        simp only [Bool.not_true, Bool.false_eq_true, ↓reduceIte, Except.bind_eq_ok,
          Except.pure_eq_ok, Except.ok.injEq, Prod.mk.injEq, true_and] at rest
        obtain ⟨_, _, _, _, _, _, rfl⟩ := rest
        obtain ⟨⟨natural, small⟩, scaled⟩ := jsonParseObject_read parsed typed
        simp only [Scaled, Guarded, readings, Format.readings, loaded, Option.elim_some,
          Readings.InRange]
        refine ⟨scaled, ?_⟩
        constructor
        · rintro ⟨timestamp, rssi⟩
          exact ⟨fun value read => (timestamp value read).2,
            fun value read => (rssi value read).1⟩
        · rintro ⟨timestamp, rssi⟩
          exact ⟨fun value read => ⟨natural value read, timestamp value read⟩,
            fun value read => ⟨rssi value read, small value read⟩⟩
  · cases found

theorem proto_inRange (accepted : AcceptedPacket server .proto) :
    accepted.Scaled ∧ (accepted.readings.InRange ↔ accepted.Guarded) := by
  obtain ⟨attempt, after, valid, found, typed⟩ := accepted
  simp only [Format.parse, protoParse] at found
  split at found
  · cases found
  · rename_i msg len unwrapped
    obtain ⟨⟨accepted, packet, state⟩, parsed, rest⟩ := Except.bind_eq_ok.mp found
    cases accepted with
    | false => cases rest
    | true =>
        simp only [Bool.not_true, Bool.false_eq_true, ↓reduceIte, Except.bind_eq_ok,
          Except.pure_eq_ok, Except.ok.injEq, Prod.mk.injEq, true_and] at rest
        obtain ⟨_, _, rfl⟩ := rest
        obtain ⟨input, carried, scaled⟩ := protoParseRecord_read parsed typed
        simp only [Scaled, Guarded, readings, Format.readings, unwrapped, Option.bind_some, carried,
          Option.elim_some, Readings.InRange]
        refine ⟨scaled, ?_⟩
        constructor
        · rintro ⟨timestamp, rssi⟩
          exact ⟨fun value read => (timestamp value read).2,
            fun value read => (rssi value read).2⟩
        · rintro ⟨timestamp, rssi⟩
          refine ⟨fun value read => ⟨?_, timestamp value read⟩,
            fun value read => ⟨?_, rssi value read⟩⟩
          · obtain ⟨_, _, rfl⟩ := Option.map_eq_some_iff.mp read
            exact Int.natCast_nonneg _
          · obtain ⟨_, _, rfl⟩ := Option.map_eq_some_iff.mp read
            exact Int.natCast_nonneg _

/-- Whatever parser accepted the packet, it holds what was scaled of it, and the numbers are in
their ranges when the packet is within what the parser leaves open. -/
theorem scaled_inRange (accepted : AcceptedPacket server format) :
    accepted.Scaled ∧ (accepted.readings.InRange ↔ accepted.Guarded) := by
  cases format with
  | airspyAdsb => exact accepted.airspyAdsb_inRange
  | beast =>
      obtain ⟨scaled, inRange⟩ := accepted.beast_inRange
      exact ⟨scaled, fun _ => trivial, fun _ => inRange⟩
  | json => exact accepted.json_inRange
  | proto => exact accepted.proto_inRange
  | raw => exact accepted.raw_inRange

/-- **Numbers in range.** The numbers that a parser scales for a packet that it accepts are in
their ranges exactly when the packet is within what the parser does not check. Then the product
of the signal strength does not wrap, and the signal strengths of such packets are ordered as
those that were read. -/
theorem inRange_iff (accepted : AcceptedPacket server format) :
    accepted.Scaled ∧
      (accepted.readings.InRange ∧ accepted.readings.Unwrapped ↔ accepted.Guarded) ∧
      ∀ other : AcceptedPacket server format, accepted.Guarded → other.Guarded →
        accepted.readings.rssiMax = other.readings.rssiMax →
        ∀ weaker ∈ accepted.readings.rssi, ∀ stronger ∈ other.readings.rssi,
          weaker ≤ stronger → accepted.after.packet.rssi ≤ other.after.packet.rssi := by
  obtain ⟨scaled, inRange⟩ := accepted.scaled_inRange
  refine ⟨scaled, ⟨fun both => inRange.mp both.1, fun guarded => ?_⟩, ?_⟩
  · exact ⟨inRange.mpr guarded, (inRange.mpr guarded).unwrapped⟩
  · intro other guarded guarded' max weaker read stronger read' ordered
    obtain ⟨scaled', inRange'⟩ := other.scaled_inRange
    have product := Readings.Scaled.rssi_eq scaled (inRange.mpr guarded) read
    have product' := Readings.Scaled.rssi_eq scaled' (inRange'.mpr guarded') read'
    have step : 0 ≤ ((packetRssiMax / other.readings.rssiMax).toNat : Int) := Int.natCast_nonneg _
    have least := Int.mul_le_mul_of_nonneg_right ordered step
    rw [max] at product
    rw [← product, ← product', Int.ofNat_le] at least
    exact UInt32.le_iff_toNat_le.mpr least

end AcceptedPacket

/-- A packet with a signal strength. -/
def rssiPacket (rssi : UInt32) : AdsbPacket := { loudPacket with rssi := some rssi }

/-- A proto packet with any signal strength, behind a header with some bound. -/
theorem rssiPacket_accepted {rssi rssiMax : UInt32} (positive : 0 < rssiMax)
    (fits : (Wire.blob 1 (Content.packet .modeAc (rssiPacket rssi)).message.wire).length ≤
      bufLenMax) :
    ∃ accepted : AcceptedPacket flatServer .proto,
      accepted.readings = protoReadings (rssiPacket rssi) (stateBounded rssiMax) := by
  have valid := Buf.valid_bufHolding (Cells.fill bufLenMax 0) fits
  have wrapped : (attemptOn (Wire.blob 1 (Content.packet .modeAc (rssiPacket rssi)).message.wire)
      (stateBounded rssiMax)).buf.window =
        Wire.blob 1 (Content.packet .modeAc (rssiPacket rssi)).message.wire ++ [] := by
    rw [attemptOn, Buf.window_bufHolding _ fits, List.append_nil]
  have typed : PacketType.modeAc ≠ .none := by decide
  have stored := @AdsbPacket.stored_eq (rssiPacket rssi)
    (attemptOn [] (stateBounded rssiMax)).packet (stateBounded rssiMax) _ _ _ rfl
    (packetRssiScaleIn_of_pos positive rssi) .modeAc
  have sourceId : packetValidateId (some loudPacket.sourceId) = true := by decide
  have taken := (protoParseRecord_packet (.ofAscii "me") typed (rssiPacket rssi) _ _ _ _).mpr
    ⟨⟨rfl, sourceId, rfl⟩, stored⟩
  obtain ⟨buf, parsed⟩ := (@takes_protoParse Protobuf.reading (.ofAscii "me") _ valid _ _ _
    wrapped (Protobuf.reading_unpacks _) _ _).mpr taken
  have unwrapped := @protoUnwrap_blob Protobuf.reading
    (attemptOn (Wire.blob 1 (Content.packet .modeAc (rssiPacket rssi)).message.wire)
      (stateBounded rssiMax)).buf valid _ _ wrapped
  rw [Protobuf.reading_unpacks] at unwrapped
  refine ⟨⟨_, _, valid, parsed, typed⟩, ?_⟩
  simp only [AcceptedPacket.readings, Format.readings, flatServer, unwrapped]
  rfl

/-- Two signal strengths within the bound are in their range, and in order. -/
theorem loud_inRange :
    ∃ quiet loud : AcceptedPacket flatServer .proto,
      quiet.readings.rssi = some 7 ∧ loud.readings.rssi = some 1001 ∧
        quiet.readings.InRange ∧ loud.readings.InRange ∧
          quiet.after.packet.rssi ≤ loud.after.packet.rssi := by
  obtain ⟨quiet, read⟩ := @rssiPacket_accepted 7 2000 (by decide) (by decide +kernel)
  obtain ⟨loud, read'⟩ := @rssiPacket_accepted 1001 2000 (by decide) (by decide +kernel)
  obtain ⟨_, inRange, ordered⟩ := quiet.inRange_iff
  obtain ⟨_, inRange', _⟩ := loud.inRange_iff
  have guarded : quiet.Guarded := by
    simp only [AcceptedPacket.Guarded, read]
    exact ⟨nofun, by rintro _ ⟨⟩; decide⟩
  have guarded' : loud.Guarded := by
    simp only [AcceptedPacket.Guarded, read']
    exact ⟨nofun, by rintro _ ⟨⟩; decide⟩
  have weak : quiet.readings.rssi = some 7 := by
    rw [read]
    rfl
  have strong : loud.readings.rssi = some 1001 := by
    rw [read']
    rfl
  have bound : quiet.readings.rssiMax = loud.readings.rssiMax := by
    rw [read, read']
    rfl
  exact ⟨quiet, loud, weak, strong, (inRange.mpr guarded).1, (inRange'.mpr guarded').1,
    ordered loud guarded guarded' bound 7 weak 1001 strong (by decide)⟩

/-- A signal strength above the bound is accepted as well. -/
theorem loud_outOfRange :
    ¬ ∀ accepted : AcceptedPacket flatServer .proto,
      accepted.readings.InRange ∧ accepted.readings.Unwrapped := by
  intro inRange
  obtain ⟨accepted, read⟩ := @rssiPacket_accepted 1001 1000 (by decide) (by decide +kernel)
  have bounded := (inRange accepted).1.2 1001 (by rw [read]; rfl)
  rw [read] at bounded
  exact absurd bounded.2 (by decide)

end Adsbus

import Adsbus.Formats.JsonText
import Adsbus.Formats.ProtoText

/-! # Records

A json object and a proto message say the same (`Adsbus.Content`): a header, or a
packet. Both parsers take a packet when they have a header, its source is valid
and its payload has the length of its type, and they store the same
(`Adsbus.AdsbPacket.stored`); only the json parser looks at the bound of the
signal strength (`Adsbus.jsonParseObject_packet`, `Adsbus.protoParseRecord_packet`).
-/

namespace Adsbus

/-- A record, as its library has decoded it. -/
inductive Record
  | json (obj : Json)
  | proto (msg : Adsb)

/-- What `json_parse` and `proto_parse` do with a record. -/
def Record.parse (serverId : CString) :
    Record → Packet → ParserState → Except Fault (Bool × Packet × ParserState)
  | .json obj => jsonParseObject serverId obj
  | .proto msg => protoParseRecord serverId msg

/-- What a record says in either format: a header, or a packet of a type. -/
inductive Content
  | header (header : AdsbHeader)
  | packet (type : PacketType) (packet : AdsbPacket)

/-- The members of a json object that says this. -/
def Content.fields : Content → List (Bytes × Json)
  | .header sent =>
      [(ascii "type", .string (ascii "header")),
        (ascii "magic", .string sent.magic.bytes),
        (ascii "server_version", .string sent.serverVersion.bytes),
        (ascii "server_id", .string sent.serverId.bytes),
        (ascii "mlat_timestamp_mhz", .integer sent.mlatTimestampMhz.toUInt64.toInt64),
        (ascii "mlat_timestamp_max", .integer sent.mlatTimestampMax.toInt64),
        (ascii "rssi_max", .integer sent.rssiMax.toUInt64.toInt64)]
  | .packet type sent =>
      [(ascii "payload", .string (hexFromBinUpper sent.payload)),
        (ascii "hops", .integer sent.hops.toUInt64.toInt64),
        (ascii "type", .string (packetTypeNames type).bytes),
        (ascii "source_id", .string sent.sourceId.bytes)] ++
      ((sent.mlatTimestamp.toList.map fun timestamp =>
          (ascii "mlat_timestamp", .integer timestamp.toInt64)) ++
        sent.rssi.toList.map fun rssi => (ascii "rssi", .integer rssi.toUInt64.toInt64))

/-- The proto message that says this. -/
def Content.message : Content → Adsb
  | .header sent => { adsbInit with header := some sent }
  | .packet .none _ => adsbInit
  | .packet .modeAc sent => { adsbInit with modeAc := some sent }
  | .packet .modeSShort sent => { adsbInit with modeSShort := some sent }
  | .packet .modeSLong sent => { adsbInit with modeSLong := some sent }

/-- A record that says this. -/
inductive Content.Encoded (content : Content) : Record → Prop
  | json {obj : Json} (holds : obj.Holds content.fields) : Encoded content (.json obj)
  | proto : Encoded content (.proto content.message)

/-! ## What a packet stores -/

/-- The timestamp of a packet, scaled in. -/
def AdsbPacket.scaledTimestamp (input : AdsbPacket) (base : UInt64) (state : ParserState) :
    Except Fault (UInt64 × MlatState) :=
  match input.mlatTimestamp with
  | none => .ok (base, state.mlatState)
  | some timestamp =>
      packetMlatTimestampScaleIn timestamp state.mlatTimestampMax state.mlatTimestampMhz
        state.mlatState

/-- The signal strength of a packet, scaled in. -/
def AdsbPacket.scaledRssi (input : AdsbPacket) (base max : UInt32) : Except Fault UInt32 :=
  match input.rssi with
  | none => .ok base
  | some rssi => packetRssiScaleIn rssi max

/-- What both parsers store of a packet that they take. -/
def AdsbPacket.stored (input : AdsbPacket) (type : PacketType) (base : Packet)
    (state : ParserState) : Except Fault (Packet × ParserState) := do
  let (timestamp, mlatState) ← input.scaledTimestamp base.mlatTimestamp state
  let rssi ← input.scaledRssi base.rssi state.rssiMax
  return (
    { base with
      type := type
      sourceId := input.sourceId
      hops := input.hops.toUInt16.toUInt32
      payload := base.payload.overwrite 0 input.payload
      mlatTimestamp := timestamp
      rssi := rssi },
    { state with mlatState := mlatState })

theorem AdsbPacket.stored_eq {input : AdsbPacket} {base : Packet} {state : ParserState}
    {timestamp : UInt64} {mlatState : MlatState} {rssi : UInt32}
    (timed : input.scaledTimestamp base.mlatTimestamp state = .ok (timestamp, mlatState))
    (strong : input.scaledRssi base.rssi state.rssiMax = .ok rssi) (type : PacketType) :
    input.stored type base state = .ok (
      { base with
        type := type
        sourceId := input.sourceId
        hops := input.hops.toUInt16.toUInt32
        payload := base.payload.overwrite 0 input.payload
        mlatTimestamp := timestamp
        rssi := rssi },
      { state with mlatState := mlatState }) := by
  simp only [AdsbPacket.stored, timed, strong, Except.ok_bind, Except.pure_eq_ok]

/-- What both parsers check of a packet. -/
structure AdsbPacket.Checked (input : AdsbPacket) (type : PacketType) (state : ParserState) :
    Prop where
  haveHeader : state.haveHeader = true
  sourceId : packetValidateId (some input.sourceId) = true
  payload : input.payload.length = packetPayloadLen type

/-! ## Proto -/

theorem protoParseTimestamp_eq (input : AdsbPacket) (packet : Packet) (state : ParserState) :
    protoParseTimestamp input packet state =
      (input.scaledTimestamp packet.mlatTimestamp state).map fun scaled =>
        ({ packet with mlatTimestamp := scaled.1 }, { state with mlatState := scaled.2 }) := by
  rw [protoParseTimestamp, AdsbPacket.scaledTimestamp]
  cases input.mlatTimestamp with
  | none => rfl
  | some timestamp =>
      cases packetMlatTimestampScaleIn timestamp state.mlatTimestampMax state.mlatTimestampMhz
        state.mlatState <;> rfl

theorem protoParseRssi_eq (input : AdsbPacket) (packet : Packet) (state : ParserState) :
    protoParseRssi input packet state =
      (input.scaledRssi packet.rssi state.rssiMax).map fun scaled => { packet with rssi := scaled } := by
  rw [protoParseRssi, AdsbPacket.scaledRssi]
  cases input.rssi with
  | none => rfl
  | some rssi => cases packetRssiScaleIn rssi state.rssiMax <;> rfl

theorem protoParsePacket_eq (input : AdsbPacket) (base : Packet) (state : ParserState)
    (type : PacketType) :
    (do
      let (found, packet, state) ← protoParsePacket input base state (packetPayloadLen type)
      return (found, if found then { packet with type := type } else packet, state)) =
    if state.haveHeader = true ∧ input.payload.length = packetPayloadLen type ∧
        packetValidateId (some input.sourceId) = true then
      (input.stored type base state).map fun stored => (true, stored)
    else .ok (false, base, state) := by
  rw [protoParsePacket]
  by_cases header : state.haveHeader = true
  · by_cases length : input.payload.length = packetPayloadLen type
    · by_cases valid : packetValidateId (some input.sourceId) = true
      · simp only [header, length, valid, Bool.not_true, Bool.false_eq_true, ↓reduceIte, ne_eq,
          not_true_eq_false, and_self, protoParseTimestamp_eq, protoParseRssi_eq,
          AdsbPacket.stored]
        cases input.scaledTimestamp base.mlatTimestamp state with
        | error _ => rfl
        | ok scaled =>
            simp only [Except.map, Except.ok_bind]
            cases input.scaledRssi base.rssi state.rssiMax <;> rfl
      · simp only [header, length, valid, Bool.not_true, Bool.false_eq_true, ↓reduceIte, ne_eq,
          not_true_eq_false, and_false]
        rfl
    · simp only [header, length, Bool.not_true, Bool.false_eq_true, ↓reduceIte, ne_eq,
        not_false_eq_true, false_and, and_false]
      rfl
  · simp only [header, Bool.not_false, ↓reduceIte, false_and, Bool.false_eq_true]
    rfl

/-- **Proto packets.** The proto parser takes the packets that pass its checks. -/
theorem protoParseRecord_packet (serverId : CString) {type : PacketType} (typed : type ≠ .none)
    (input : AdsbPacket) (base packet : Packet) (state after : ParserState) :
    protoParseRecord serverId (Content.packet type input).message base state =
        .ok (true, packet, after) ↔
      input.Checked type state ∧ input.stored type base state = .ok (packet, after) := by
  have parsed : protoParseRecord serverId (Content.packet type input).message base state =
      if state.haveHeader = true ∧ input.payload.length = packetPayloadLen type ∧
          packetValidateId (some input.sourceId) = true then
        (input.stored type base state).map fun stored => (true, stored)
      else .ok (false, base, state) := by
    rw [← protoParsePacket_eq]
    cases type with
    | none => exact absurd rfl typed
    | modeAc => rfl
    | modeSShort => rfl
    | modeSLong => rfl
  rw [parsed]
  split
  · rename_i checks
    cases input.stored type base state with
    | error _ =>
        simp only [Except.map, reduceCtorEq, and_false]
    | ok stored =>
        obtain ⟨header, length, valid⟩ := checks
        simp only [Except.map, Except.ok.injEq, Prod.mk.injEq, true_and]
        exact ⟨fun same => ⟨⟨header, valid, length⟩, same⟩, And.right⟩
  · rename_i checks
    simp only [Except.ok.injEq, Prod.mk.injEq, Bool.false_eq_true, false_and, false_iff]
    rintro ⟨⟨header, valid, length⟩, _⟩
    exact checks ⟨header, length, valid⟩

/-! ## Json -/

/-- What a packet's members are. -/
structure AdsbPacket.Members (input : AdsbPacket) (type : PacketType) (obj : Json) : Prop where
  payload : obj.getString? (ascii "payload") = some (hexFromBinUpper input.payload)
  hops : obj.getInteger? (ascii "hops") = some input.hops.toUInt64.toInt64
  type : obj.getString? (ascii "type") = some (packetTypeNames type).bytes
  sourceId : obj.getString? (ascii "source_id") = some input.sourceId.bytes
  mlatTimestamp : obj.get? (ascii "mlat_timestamp") =
    input.mlatTimestamp.map fun timestamp => .integer timestamp.toInt64
  rssi : obj.get? (ascii "rssi") = input.rssi.map fun rssi => .integer rssi.toUInt64.toInt64

theorem AdsbPacket.members {input : AdsbPacket} {type : PacketType} {obj : Json}
    (holds : obj.Holds (Content.packet type input).fields) : input.Members type obj where
  payload := Json.getString?_of_get? (holds _)
  hops := Json.getInteger?_of_get? (holds _)
  type := Json.getString?_of_get? (holds _)
  sourceId := Json.getString?_of_get? (holds _)
  mlatTimestamp := by
    rw [holds, Content.fields]
    cases input.mlatTimestamp with
    | none => cases input.rssi <;> rfl
    | some timestamp => rfl
  rssi := by
    rw [holds, Content.fields]
    cases input.mlatTimestamp <;> cases input.rssi <;> rfl

variable {input : AdsbPacket} {type : PacketType} {obj : Json}

theorem jsonParseTimestamp_eq (members : input.Members type obj)
    (natural : ∀ timestamp ∈ input.mlatTimestamp, timestamp.toNat < 2 ^ 63)
    (packet : Packet) (state : ParserState) :
    jsonParseTimestamp obj packet state =
      (input.scaledTimestamp packet.mlatTimestamp state).map fun scaled =>
        (true, { packet with mlatTimestamp := scaled.1 },
          { state with mlatState := scaled.2 }) := by
  rw [jsonParseTimestamp, members.mlatTimestamp, AdsbPacket.scaledTimestamp]
  cases timed : input.mlatTimestamp with
  | none => rfl
  | some timestamp =>
      have small := natural timestamp timed
      have positive : ¬ timestamp.toInt64 < 0 := by
        rw [Int64.lt_iff_toInt_lt, toInt_toInt64 small]
        exact Int.not_lt.mpr (Int.natCast_nonneg _)
      simp only [Option.map_some, positive, ↓reduceIte, UInt64.toUInt64_toInt64]
      cases packetMlatTimestampScaleIn timestamp state.mlatTimestampMax state.mlatTimestampMhz
        state.mlatState <;> rfl

theorem jsonParseRssi_eq (members : input.Members type obj) (packet : Packet)
    (state : ParserState) :
    jsonParseRssi obj packet state =
      if ∃ rssi ∈ input.rssi, rssi > state.rssiMax then .ok (false, packet)
      else (input.scaledRssi packet.rssi state.rssiMax).map fun scaled =>
        (true, { packet with rssi := scaled }) := by
  rw [jsonParseRssi, members.rssi, AdsbPacket.scaledRssi]
  cases strong : input.rssi with
  | none =>
      rw [if_neg (by simp only [Option.mem_def, reduceCtorEq, false_and, exists_false,
        not_false_eq_true])]
      rfl
  | some rssi =>
      have compared : rssi.toUInt64.toInt64 > state.rssiMax.toUInt64.toInt64 ↔
          rssi > state.rssiMax := by
        rw [gt_iff_lt, Int64.lt_iff_toInt_lt, toInt_toUInt64_toInt64, toInt_toUInt64_toInt64,
          gt_iff_lt, UInt32.lt_iff_toNat_lt, Int.ofNat_lt]
      simp only [Option.map_some, compared, Option.mem_some_iff, exists_eq_left',
        UInt64.toUInt64_toInt64, UInt32.toUInt32_toUInt64]
      split
      · rfl
      · cases packetRssiScaleIn rssi state.rssiMax <;> rfl

/-- The payload of a packet is decoded from its digits. -/
theorem hexToBin_hexFromBinUpper {bytes : Bytes} (short : bytes.length ≤ packetPayloadLenMax)
    (payload : Cells UInt8 packetPayloadLenMax) :
    hexToBin payload (hexFromBinUpper bytes) = (true, payload.overwrite 0 bytes) := by
  rcases hexToBinLoop_eq (hexFromBin_length hexUpperTable bytes) payload (i := 0)
      (by rw [Nat.zero_add]; exact short) with
    ⟨decoded, same, stored⟩ | ⟨_, failed, _⟩
  · rw [← hexFromBinUpper, unhex_hexFromBinUpper, Option.some.injEq] at same
    rw [← same] at stored
    exact stored
  · rw [← hexFromBinUpper, unhex_hexFromBinUpper] at failed
    cases failed

/-- What `json_parse_common` takes. -/
theorem jsonParseCommon_eq_ok (members : input.Members type obj)
    (natural : ∀ timestamp ∈ input.mlatTimestamp, timestamp.toNat < 2 ^ 63)
    (base packet : Packet) (state after : ParserState) :
    jsonParseCommon obj base state = .ok (true, packet, after) ↔
      state.haveHeader = true ∧ packetValidateId (some input.sourceId) = true ∧
      (∀ rssi ∈ input.rssi, rssi ≤ state.rssiMax) ∧
      ∃ timestamp mlatState rssi,
        input.scaledTimestamp base.mlatTimestamp state = .ok (timestamp, mlatState) ∧
        input.scaledRssi base.rssi state.rssiMax = .ok rssi ∧
        packet = { base with
          sourceId := input.sourceId, hops := input.hops.toUInt16.toUInt32,
          mlatTimestamp := timestamp, rssi := rssi } ∧
        after = { state with mlatState := mlatState } := by
  have inside : ¬ (input.hops.toUInt64.toInt64 < 0 ∨ input.hops.toUInt64.toInt64 > 0xffffffff) := by
    have small : input.hops.toNat < 4294967296 := input.hops.toNat_lt
    rw [gt_iff_lt, Int64.lt_iff_toInt_lt, Int64.lt_iff_toInt_lt, toInt_toUInt64_toInt64]
    change ¬ ((input.hops.toNat : Int) < 0 ∨ (4294967295 : Int) < input.hops.toNat)
    omega
  have hops : input.hops.toUInt64.toInt64.toUInt64.toUInt16 = input.hops.toUInt16 := by
    rw [UInt64.toUInt64_toInt64, UInt32.toUInt16_toUInt64]
  rw [jsonParseCommon]
  by_cases header : state.haveHeader = true
  swap
  · simp only [header, Bool.not_false, ↓reduceIte, Except.ok.injEq, Prod.mk.injEq,
      Bool.false_eq_true, false_and]
  by_cases valid : packetValidateId (some input.sourceId) = true
  swap
  · simp only [header, Bool.not_true, Bool.false_eq_true, ↓reduceIte, members.sourceId,
      members.hops, CString.ofBytes_bytes, valid, Bool.not_false, Except.ok.injEq, Prod.mk.injEq,
      false_and, and_false]
  simp only [header, Bool.not_true, Bool.false_eq_true, ↓reduceIte, members.sourceId,
    members.hops, CString.ofBytes_bytes, valid, inside, hops, true_and,
    jsonParseTimestamp_eq members natural, jsonParseRssi_eq members]
  cases input.scaledTimestamp base.mlatTimestamp state with
  | error _ => simp only [Except.map, Except.error_bind, reduceCtorEq, false_and, exists_false,
      and_false]
  | ok scaled =>
      simp only [Except.map, Except.ok_bind, Bool.not_true, Bool.false_eq_true, ↓reduceIte]
      by_cases beyond : ∃ rssi ∈ input.rssi, rssi > state.rssiMax
      · obtain ⟨rssi, member, large⟩ := beyond
        rw [if_pos ⟨rssi, member, large⟩]
        simp only [Except.ok_bind, Except.pure_eq_ok, Except.ok.injEq, Prod.mk.injEq,
          Bool.false_eq_true, false_and, false_iff, not_and]
        exact fun bound => absurd (bound rssi member) (UInt32.not_le.mpr large)
      · have bound : ∀ rssi ∈ input.rssi, rssi ≤ state.rssiMax := fun rssi member =>
          UInt32.not_lt.mp fun large => beyond ⟨rssi, member, large⟩
        rw [if_neg beyond]
        cases input.scaledRssi base.rssi state.rssiMax with
        | error _ => simp only [Except.error_bind, reduceCtorEq, false_and, exists_false, and_false]
        | ok strong =>
            simp only [Except.ok_bind, Except.pure_eq_ok, Except.ok.injEq, Prod.mk.injEq, true_and]
            constructor
            · rintro ⟨rfl, rfl⟩
              exact ⟨bound, scaled.1, scaled.2, strong, rfl, rfl, rfl, rfl⟩
            · rintro ⟨_, timestamp, mlatState, rssi, rfl, rfl, rfl, rfl⟩
              exact ⟨rfl, rfl⟩

/-- What `json_parse_payload` takes. -/
theorem jsonParsePayload_eq_ok (members : input.Members type obj)
    (natural : ∀ timestamp ∈ input.mlatTimestamp, timestamp.toNat < 2 ^ 63)
    (base packet : Packet) (state after : ParserState) :
    jsonParsePayload obj base state type = .ok (true, packet, after) ↔
      input.Checked type state ∧ (∀ rssi ∈ input.rssi, rssi ≤ state.rssiMax) ∧
        input.stored type base state = .ok (packet, after) := by
  have common := jsonParseCommon_eq_ok members natural base
  rw [jsonParsePayload, Except.bind_eq_ok]
  constructor
  · rintro ⟨⟨found, packet', state'⟩, parsed, rest⟩
    cases found with
    | false =>
        simp only [Bool.not_false, ↓reduceIte, Except.pure_eq_ok, Except.ok.injEq,
          Prod.mk.injEq, Bool.false_eq_true, false_and] at rest
    | true =>
        obtain ⟨header, valid, bound, timestamp, mlatState, rssi, timed, strong, rfl, rfl⟩ :=
          (common packet' state state').mp parsed
        simp only [Bool.not_true, Bool.false_eq_true, ↓reduceIte, members.payload] at rest
        split at rest
        · simp only [Except.pure_eq_ok, Except.ok.injEq, Prod.mk.injEq, Bool.false_eq_true,
            false_and] at rest
        · rename_i same
          have length : input.payload.length = packetPayloadLen type := by
            rw [ne_eq, not_not, hexFromBinUpper, hexFromBin_length] at same
            omega
          rw [hexToBin_hexFromBinUpper (by rw [length]; exact packetPayloadLen_le type)] at rest
          simp only [Bool.not_true, Bool.false_eq_true, ↓reduceIte, Except.pure_eq_ok,
            Except.ok.injEq, Prod.mk.injEq, true_and] at rest
          obtain ⟨rfl, rfl⟩ := rest
          refine ⟨⟨header, valid, length⟩, bound, ?_⟩
          simp only [AdsbPacket.stored, timed, strong, Except.ok_bind, Except.pure_eq_ok]
  · rintro ⟨⟨header, valid, length⟩, bound, stored⟩
    simp only [AdsbPacket.stored, Except.bind_eq_ok, Except.pure_eq_ok, Except.ok.injEq,
      Prod.mk.injEq] at stored
    obtain ⟨⟨timestamp, mlatState⟩, timed, rssi, strong, rfl, rfl⟩ := stored
    refine ⟨_, (common _ state _).mpr
      ⟨header, valid, bound, timestamp, mlatState, rssi, timed, strong, rfl, rfl⟩, ?_⟩
    have same : ¬ (hexFromBinUpper input.payload).length ≠ packetPayloadLen type * 2 := by
      rw [ne_eq, not_not, hexFromBinUpper, hexFromBin_length, length, Nat.mul_comm]
    have short : input.payload.length ≤ packetPayloadLenMax := by
      rw [length]
      exact packetPayloadLen_le type
    simp only [Bool.not_true, Bool.false_eq_true, ↓reduceIte, members.payload, same,
      hexToBin_hexFromBinUpper short, Except.pure_eq_ok]

/-- **Json packets.** The json parser takes the packets that pass its checks. -/
theorem jsonParseObject_packet (serverId : CString) (typed : type ≠ .none)
    (holds : obj.Holds (Content.packet type input).fields)
    (natural : ∀ timestamp ∈ input.mlatTimestamp, timestamp.toNat < 2 ^ 63)
    (base packet : Packet) (state after : ParserState) :
    jsonParseObject serverId obj base state = .ok (true, packet, after) ↔
      input.Checked type state ∧ (∀ rssi ∈ input.rssi, rssi ≤ state.rssiMax) ∧
        input.stored type base state = .ok (packet, after) := by
  have members := AdsbPacket.members holds
  have chosen : jsonParser serverId (packetTypeNames type).bytes = some fun obj packet state =>
      jsonParsePayload obj packet state type := by
    cases type with
    | none => exact absurd rfl typed
    | modeAc => rfl
    | modeSShort => rfl
    | modeSLong => rfl
  rw [← jsonParsePayload_eq_ok members natural]
  simp only [jsonParseObject, members.type, chosen]

/-! ## Headers -/

/-- What both parsers check of a header. -/
structure AdsbHeader.Accepted (sent : AdsbHeader) (serverId : CString) : Prop where
  magic : sent.magic = protoMagic
  mhzPositive : sent.mlatTimestampMhz ≠ 0
  mhzSmall : sent.mlatTimestampMhz ≤ 0xffff
  max : sent.mlatTimestampMax ≠ 0
  rssiMax : sent.rssiMax ≠ 0
  other : sent.serverId ≠ serverId

/-- The state behind a header. -/
def ParserState.withHeader (state : ParserState) (sent : AdsbHeader) : ParserState :=
  { state with
    mlatTimestampMhz := sent.mlatTimestampMhz.toUInt16
    mlatTimestampMax := sent.mlatTimestampMax
    rssiMax := sent.rssiMax
    haveHeader := true }

variable {sent : AdsbHeader}

theorem protoParseHeader_eq_true (serverId : CString) (state after : ParserState) :
    protoParseHeader serverId sent state = (true, after) ↔
      sent.Accepted serverId ∧ after = state.withHeader sent := by
  unfold protoParseHeader
  by_cases magic : sent.magic = protoMagic
  swap
  · simp only [magic, ne_eq, not_false_eq_true, ↓reduceIte, Prod.mk.injEq, Bool.false_eq_true,
      false_and, false_iff]
    exact fun accepted => magic accepted.1.magic
  by_cases range : sent.mlatTimestampMhz = 0 ∨ sent.mlatTimestampMhz > 0xffff ∨
      sent.mlatTimestampMax = 0 ∨ sent.rssiMax = 0
  · simp only [magic, ne_eq, not_true_eq_false, range, ↓reduceIte, Prod.mk.injEq,
      Bool.false_eq_true, false_and, false_iff]
    rintro ⟨accepted, _⟩
    rcases range with zero | large | zero | zero
    · exact accepted.mhzPositive zero
    · exact UInt32.not_lt.mpr accepted.mhzSmall large
    · exact accepted.max zero
    · exact accepted.rssiMax zero
  by_cases own : sent.serverId = serverId
  · simp only [magic, ne_eq, not_true_eq_false, range, own, ↓reduceIte, Prod.mk.injEq,
      Bool.false_eq_true, false_and, false_iff]
    exact fun accepted => accepted.1.other own
  · simp only [magic, ne_eq, not_true_eq_false, range, own, ↓reduceIte, Prod.mk.injEq, true_and]
    simp only [not_or, gt_iff_lt, UInt32.not_lt] at range
    obtain ⟨mhzPositive, mhzSmall, max, rssiMax⟩ := range
    constructor
    · rintro rfl
      exact ⟨⟨magic, mhzPositive, mhzSmall, max, rssiMax, own⟩, rfl⟩
    · rintro ⟨_, rfl⟩
      rfl

/-- **Proto headers.** The proto parser takes the headers that pass its checks. -/
theorem protoParseRecord_header (serverId : CString) (base packet : Packet)
    (state after : ParserState) :
    protoParseRecord serverId (Content.header sent).message base state =
        .ok (true, packet, after) ↔
      sent.Accepted serverId ∧ packet = { base with type := .none } ∧
        after = state.withHeader sent := by
  have parsed : protoParseRecord serverId (Content.header sent).message base state =
      .ok ((protoParseHeader serverId sent state).1,
        if (protoParseHeader serverId sent state).1 = true then { base with type := .none }
        else base, (protoParseHeader serverId sent state).2) := rfl
  have header := @protoParseHeader_eq_true sent serverId state after
  rw [parsed, Except.ok.injEq, Prod.mk.injEq, Prod.mk.injEq]
  generalize protoParseHeader serverId sent state = result at header
  constructor
  · rintro ⟨found, rfl, rfl⟩
    obtain ⟨accepted, same⟩ := header.mp (Prod.ext found rfl)
    exact ⟨accepted, if_pos found, same⟩
  · rintro ⟨accepted, rfl, same⟩
    rw [header.mpr ⟨accepted, same⟩]
    exact ⟨rfl, rfl, rfl⟩

/-- **Json headers.** The json parser takes the headers that pass its checks. -/
theorem jsonParseObject_header (serverId : CString)
    (holds : obj.Holds (Content.header sent).fields)
    (natural : sent.mlatTimestampMax.toNat < 2 ^ 63) (base packet : Packet)
    (state after : ParserState) :
    jsonParseObject serverId obj base state = .ok (true, packet, after) ↔
      sent.Accepted serverId ∧ packet = { base with type := .none } ∧
        after = state.withHeader sent := by
  have type : obj.getString? (ascii "type") = some (ascii "header") :=
    Json.getString?_of_get? (holds _)
  have magic : obj.getString? (ascii "magic") = some sent.magic.bytes :=
    Json.getString?_of_get? (holds _)
  have server : obj.getString? (ascii "server_id") = some sent.serverId.bytes :=
    Json.getString?_of_get? (holds _)
  have mhz : obj.getInteger? (ascii "mlat_timestamp_mhz") =
      some sent.mlatTimestampMhz.toUInt64.toInt64 := Json.getInteger?_of_get? (holds _)
  have max : obj.getInteger? (ascii "mlat_timestamp_max") =
      some sent.mlatTimestampMax.toInt64 := Json.getInteger?_of_get? (holds _)
  have rssiMax : obj.getInteger? (ascii "rssi_max") = some sent.rssiMax.toUInt64.toInt64 :=
    Json.getInteger?_of_get? (holds _)
  have header : jsonParser serverId (ascii "header") = some fun obj packet state =>
      .ok (jsonParseHeader serverId obj packet state) := by
    rw [jsonParser]
    exact if_pos rfl
  have ranges : (sent.mlatTimestampMhz.toUInt64.toInt64 > 0xffff ∨
      sent.mlatTimestampMhz.toUInt64.toInt64 ≤ 0 ∨ sent.mlatTimestampMax.toInt64 ≤ 0 ∨
      sent.rssiMax.toUInt64.toInt64 > 0xffffffff ∨ sent.rssiMax.toUInt64.toInt64 ≤ 0) ↔
      ¬ (sent.mlatTimestampMhz ≠ 0 ∧ sent.mlatTimestampMhz ≤ 0xffff ∧
        sent.mlatTimestampMax ≠ 0 ∧ sent.rssiMax ≠ 0) := by
    have small : sent.rssiMax.toNat < 4294967296 := sent.rssiMax.toNat_lt
    simp only [gt_iff_lt, Int64.lt_iff_toInt_lt, Int64.le_iff_toInt_le, toInt_toUInt64_toInt64,
      toInt_toInt64 natural, ne_eq, ← UInt32.toNat_inj, ← UInt64.toNat_inj,
      UInt32.le_iff_toNat_le]
    change ((65535 : Int) < _ ∨ _ ≤ (0 : Int) ∨ _ ≤ (0 : Int) ∨ (4294967295 : Int) < _ ∨
      _ ≤ (0 : Int)) ↔ ¬ (¬ _ = 0 ∧ _ ≤ 65535 ∧ ¬ _ = 0 ∧ ¬ _ = 0)
    omega
  simp only [jsonParseObject, type, header, jsonParseHeader, magic, server, mhz, max, rssiMax,
    CString.ofBytes_bytes, ranges]
  by_cases same : sent.magic = jsonMagic
  swap
  · simp only [same, ne_eq, not_false_eq_true, ↓reduceIte, Except.ok.injEq, Prod.mk.injEq,
      Bool.false_eq_true, false_and, false_iff]
    exact fun accepted => same accepted.1.magic
  by_cases range : sent.mlatTimestampMhz ≠ 0 ∧ sent.mlatTimestampMhz ≤ 0xffff ∧
      sent.mlatTimestampMax ≠ 0 ∧ sent.rssiMax ≠ 0
  swap
  · simp only [same, ne_eq, not_true_eq_false, range, not_false_eq_true, ↓reduceIte,
      Except.ok.injEq, Prod.mk.injEq, Bool.false_eq_true, false_and, false_iff]
    exact fun accepted => range ⟨accepted.1.mhzPositive, accepted.1.mhzSmall, accepted.1.max,
      accepted.1.rssiMax⟩
  by_cases own : sent.serverId = serverId
  · simp only [same, ne_eq, not_true_eq_false, range, not_false_eq_true, and_self, own,
      ↓reduceIte, Except.ok.injEq, Prod.mk.injEq, Bool.false_eq_true, false_and, false_iff]
    exact fun accepted => accepted.1.other own
  · simp only [same, ne_eq, not_true_eq_false, range, not_false_eq_true, and_self, own,
      ↓reduceIte, Except.ok.injEq, Prod.mk.injEq, true_and, UInt64.toUInt64_toInt64,
      UInt32.toUInt32_toUInt64,
      UInt32.toUInt16_toUInt64]
    obtain ⟨mhzPositive, mhzSmall, maxPositive, rssiPositive⟩ := range
    constructor
    · rintro ⟨rfl, rfl⟩
      exact ⟨⟨same, mhzPositive, mhzSmall, maxPositive, rssiPositive, own⟩, rfl, rfl⟩
    · rintro ⟨_, rfl, rfl⟩
      exact ⟨rfl, rfl⟩

/-! ## Flat objects -/

theorem packetValidateId_plain {id : CString} (valid : packetValidateId (some id) = true) :
    ∀ c ∈ id.bytes, Json.IsPlain c :=
  (packetValidateId_iff.mp valid).2

/-- The members of a packet are written and read as they are. -/
theorem Content.flat_packet (type : PacketType)
    (valid : packetValidateId (some input.sourceId) = true) :
    Json.Flat (Content.packet type input).fields where
  keys := by
    have all : ∀ key ∈ ["payload", "hops", "type", "source_id", "mlat_timestamp", "rssi"].map ascii,
        ∀ c ∈ key, Json.IsPlain c := by decide +kernel
    intro field member
    refine all field.1 ?_
    simp only [Content.fields, List.mem_append, List.mem_cons, List.mem_map, Option.mem_toList,
      List.not_mem_nil, or_false] at member
    rcases member with (rfl | rfl | rfl | rfl) | ⟨_, _, rfl⟩ | ⟨_, _, rfl⟩ <;> dsimp only <;> decide
  scalars := by
    intro field member
    simp only [Content.fields, List.mem_append, List.mem_cons, List.mem_map, Option.mem_toList,
      List.not_mem_nil, or_false] at member
    rcases member with (rfl | rfl | rfl | rfl) | ⟨_, _, rfl⟩ | ⟨_, _, rfl⟩
    · exact fun c inside => (hexFromBinUpper_plain _ c inside).1
    · exact trivial
    · exact fun c inside => (packetTypeNames_plain _ c inside).1
    · exact packetValidateId_plain valid
    · exact trivial
    · exact trivial
  distinct := by
    rw [Content.fields]
    cases input.mlatTimestamp <;> cases input.rssi <;>
      simp only [Option.toList_none, Option.toList_some, List.map_nil, List.map_cons,
        List.map_append] <;> decide

/-- The members of a header with plain strings are written and read as they are. -/
theorem Content.flat_header (magic : ∀ c ∈ sent.magic.bytes, Json.IsPlain c)
    (version : ∀ c ∈ sent.serverVersion.bytes, Json.IsPlain c)
    (server : ∀ c ∈ sent.serverId.bytes, Json.IsPlain c) :
    Json.Flat (Content.header sent).fields where
  keys := by
    have all : ∀ key ∈ ["type", "magic", "server_version", "server_id", "mlat_timestamp_mhz",
        "mlat_timestamp_max", "rssi_max"].map ascii, ∀ c ∈ key, Json.IsPlain c := by decide +kernel
    intro field member
    refine all field.1 ?_
    simp only [Content.fields, List.mem_cons, List.not_mem_nil, or_false] at member
    rcases member with rfl | rfl | rfl | rfl | rfl | rfl | rfl <;> dsimp only <;> decide +kernel
  scalars := by
    have header : ∀ c ∈ ascii "header", Json.IsPlain c := by decide +kernel
    intro field member
    simp only [Content.fields, List.mem_cons, List.not_mem_nil, or_false] at member
    rcases member with rfl | rfl | rfl | rfl | rfl | rfl | rfl
    · exact header
    · exact magic
    · exact version
    · exact server
    · exact trivial
    · exact trivial
    · exact trivial
  distinct := by
    simp only [Content.fields, List.map_cons, List.map_nil]
    decide

/-! ## What this program sends -/

/-- What the json serializer says of a packet. -/
def jsonPacket (packet : Packet) : AdsbPacket :=
  { protoPacket packet with
    mlatTimestamp := (protoPacket packet).mlatTimestamp.map fun timestamp =>
      timestamp % packetMlatMax }

theorem jsonPacketObject_fields (packet : Packet) :
    jsonPacketObject packet = (Content.packet packet.type (jsonPacket packet)).fields := by
  rw [jsonPacketObject_eq, jsonPacketFields, Content.fields]
  simp only [jsonPacket, protoPacket, protoSerializePacket]
  split_ifs <;> rfl

theorem jsonHelloObject_fields (senderId : CString) :
    jsonHelloObject senderId = (Content.header (protoHelloHeader senderId)).fields := rfl

theorem protoMessage_message {packet : Packet} (typed : packet.type ≠ .none) :
    protoMessage packet = (Content.packet packet.type (protoPacket packet)).message := by
  rw [protoMessage, protoPacket]
  cases kind : packet.type with
  | none => exact absurd kind typed
  | modeAc => rfl
  | modeSShort => rfl
  | modeSLong => rfl

/-- The hello of another server passes the checks of a header. -/
theorem protoHelloHeader_accepted {senderId serverId : CString} (other : senderId ≠ serverId) :
    (protoHelloHeader senderId).Accepted serverId where
  magic := rfl
  mhzPositive := (by decide : packetMlatMhz ≠ 0)
  mhzSmall := (by decide : packetMlatMhz ≤ 0xffff)
  max := (by decide : packetMlatMax ≠ 0)
  rssiMax := (by decide : packetRssiMax ≠ 0)
  other := other

end Adsbus

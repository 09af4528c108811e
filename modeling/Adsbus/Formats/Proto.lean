import Adsbus.Formats.Json
import Adsbus.Formats.Protobuf

/-! # The proto format

A proto stream is a sequence of protocol buffer records with the contents of the
objects of a json stream, each behind a tag and its length. -/

namespace Adsbus

/-- `PROTO_MAGIC`. -/
def protoMagic : CString := .ofAscii "aDsB"

/-- `SSIZE_MAX`, as an unsigned number. -/
def protoLengthMax : UInt64 := 0x7fffffffffffffff

variable (protobuf : Protobuf) (serverId : CString)

/-! ## Serializing -/

/-- `proto_obj_to_buf`. -/
def protoObjToBuf (obj : AdsbStream) (buf : Bytes) : Except Fault Bytes := do
  check (buf.length = 0) .protoBufLength
  check (protobuf.packedSize obj ≤ bufLenMax) .protoPackedSize
  let buf := protobuf.pack obj
  check (buf.length ≠ 0) .protoBufLength
  return buf

/-- `proto_wrap_to_buf`. -/
def protoWrapToBuf (msg : Adsb) (buf : Bytes) : Except Fault Bytes :=
  protoObjToBuf protobuf { msg := [msg] } buf

/-- `proto_serialize_packet`. -/
def protoSerializePacket (packet : Packet) (len : Nat) : AdsbPacket where
  sourceId := packet.sourceId
  hops := packet.hops
  mlatTimestamp := if packet.mlatTimestamp ≠ 0 then some packet.mlatTimestamp else none
  rssi := if packet.rssi ≠ 0 then some packet.rssi else none
  payload := packet.payload.slice 0 len

/-- `proto_serialize_mode_ac`. -/
def protoSerializeModeAc (packet : Packet) (buf : Bytes) : Except Fault Bytes :=
  protoWrapToBuf protobuf { adsbInit with modeAc := some (protoSerializePacket packet 2) } buf

/-- `proto_serialize_mode_s_short`. -/
def protoSerializeModeSShort (packet : Packet) (buf : Bytes) : Except Fault Bytes :=
  protoWrapToBuf protobuf { adsbInit with modeSShort := some (protoSerializePacket packet 7) } buf

/-- `proto_serialize_mode_s_long`. -/
def protoSerializeModeSLong (packet : Packet) (buf : Bytes) : Except Fault Bytes :=
  protoWrapToBuf protobuf { adsbInit with modeSLong := some (protoSerializePacket packet 14) } buf

/-- `proto_serialize`. -/
def protoSerialize (packet : Packet) (buf : Bytes) : Except Fault Bytes :=
  match packet.type with
  | .none => .ok buf
  | .modeAc => protoSerializeModeAc protobuf packet buf
  | .modeSShort => protoSerializeModeSShort protobuf packet buf
  | .modeSLong => protoSerializeModeSLong protobuf packet buf

/-- The header of `proto_init`. -/
def protoHelloHeader : AdsbHeader where
  magic := protoMagic
  serverVersion := serverVersion
  serverId := serverId
  mlatTimestampMhz := packetMlatMhz
  mlatTimestampMax := packetMlatMax
  rssiMax := packetRssiMax

/-- `proto_hello`: the contents of `proto_hello_buf`. -/
def protoHello : Except Fault Bytes :=
  protoWrapToBuf protobuf { adsbInit with header := some (protoHelloHeader serverId) } []

/-! ## Parsing -/

/-- The loop of `proto_parse_varint` over the rest of the buffer: the value and the index behind
it. -/
def protoParseVarintLoop : Bytes → (start : Nat) → (value shift : UInt64) → Option (UInt64 × Nat)
  | [], _, _, _ => none
  | c :: rest, start, value, shift =>
      let value := value ||| (c.toUInt64 &&& 0x7f) <<< shift
      if value > protoLengthMax then
        none
      else if c &&& 0x80 = 0 then
        some (value, start + 1)
      else
        let shift := shift + 7
        if shift > 21 then none else protoParseVarintLoop rest (start + 1) value shift

/-- `proto_parse_varint`; nothing is its result -1. -/
def protoParseVarint (buf : Buf UInt8) (start : Nat) : Option (UInt64 × Nat) :=
  protoParseVarintLoop (bufAt buf start (buf.length - start)) start 0 0

/-- `proto_unwrap`: the record and its length; nothing is its result -1. -/
def protoUnwrap (wrapper : Buf UInt8) : Option (Adsb × Nat) :=
  if wrapper.length < 1 then
    none
  else if bufChr wrapper 0 ≠ (1 : UInt8) <<< 3 ||| 2 then
    none
  else
    match protoParseVarint wrapper 1 with
    | none => none
    | some (msgLen, start) =>
        if start + msgLen.toNat > wrapper.length then
          none
        else
          (protobuf.unpack (bufAt wrapper start msgLen.toNat)).map fun msg =>
            (msg, start + msgLen.toNat)

/-- `proto_parse_header`. It stores the ranges before it looks at the server. -/
def protoParseHeader (header : AdsbHeader) (state : ParserState) : Bool × ParserState :=
  if header.magic ≠ protoMagic then
    (false, state)
  else if header.mlatTimestampMhz = 0 ∨ header.mlatTimestampMhz > 0xffff ∨
      header.mlatTimestampMax = 0 ∨ header.rssiMax = 0 then
    (false, state)
  else
    let state := { state with
      mlatTimestampMhz := header.mlatTimestampMhz.toUInt16
      mlatTimestampMax := header.mlatTimestampMax
      rssiMax := header.rssiMax }
    if header.serverId = serverId then
      (false, state)
    else
      (true, { state with haveHeader := true })

/-- The timestamp in `proto_parse_packet`. -/
def protoParseTimestamp (input : AdsbPacket) (packet : Packet) (state : ParserState) :
    Except Fault (Packet × ParserState) :=
  match input.mlatTimestamp with
  | none => .ok (packet, state)
  | some timestamp => do
      let (timestamp, mlatState) ← packetMlatTimestampScaleIn timestamp state.mlatTimestampMax
        state.mlatTimestampMhz state.mlatState
      return ({ packet with mlatTimestamp := timestamp }, { state with mlatState := mlatState })

/-- The signal strength in `proto_parse_packet`. -/
def protoParseRssi (input : AdsbPacket) (packet : Packet) (state : ParserState) :
    Except Fault Packet :=
  match input.rssi with
  | none => .ok packet
  | some rssi => do
      let rssi ← packetRssiScaleIn rssi state.rssiMax
      return { packet with rssi := rssi }

/-- `proto_parse_packet`. -/
def protoParsePacket (input : AdsbPacket) (packet : Packet) (state : ParserState) (len : Nat) :
    Except Fault (Bool × Packet × ParserState) :=
  if !state.haveHeader then
    .ok (false, packet, state)
  else if input.payload.length ≠ len then
    .ok (false, packet, state)
  else if !packetValidateId (some input.sourceId) then
    .ok (false, packet, state)
  else do
    let packet := { packet with
      sourceId := input.sourceId
      hops := input.hops.toUInt16.toUInt32
      payload := packet.payload.overwrite 0 input.payload }
    let (packet, state) ← protoParseTimestamp input packet state
    let packet ← protoParseRssi input packet state
    return (true, packet, state)

/-- The parsers of `proto_parse` on a record. -/
def protoParseRecord (msg : Adsb) (packet : Packet) (state : ParserState) :
    Except Fault (Bool × Packet × ParserState) :=
  let parsePacket (input : AdsbPacket) (len : Nat) (type : PacketType) := do
    let (found, packet, state) ← protoParsePacket input packet state len
    return (found, if found then { packet with type := type } else packet, state)
  match msg.header, msg.modeAc, msg.modeSShort, msg.modeSLong with
  | some header, _, _, _ =>
      let (found, state) := protoParseHeader serverId header state
      .ok (found, if found then { packet with type := .none } else packet, state)
  | none, some input, _, _ => parsePacket input 2 .modeAc
  | none, none, some input, _ => parsePacket input 7 .modeSShort
  | none, none, none, some input => parsePacket input 14 .modeSLong
  -- A "oneof" may be empty.
  | none, none, none, none => .ok (false, packet, state)

/-- `proto_parse`. -/
def protoParse : Parse := fun attempt =>
  match protoUnwrap protobuf attempt.buf with
  | none => .ok (false, attempt)
  | some (msg, len) => do
      let (found, packet, state) ← protoParseRecord serverId msg attempt.packet attempt.state
      let attempt := { attempt with packet := packet, state := state }
      if !found then
        return (false, attempt)
      else
        let buf ← bufConsume attempt.buf len
        return (true, { attempt with buf := buf })

variable {protobuf} {serverId}

/-- What does not start with the tag of a record is not unwrapped. -/
theorem protoUnwrap_of_ne {buf : Buf UInt8} (tag : bufChr buf 0 ≠ (1 : UInt8) <<< 3 ||| 2) :
    protoUnwrap protobuf buf = none := by
  rw [protoUnwrap, if_pos tag]
  split <;> rfl

/-- Where nothing is unwrapped, nothing is found. -/
theorem protoParse_of_none {attempt : Attempt} (nothing : protoUnwrap protobuf attempt.buf = none) :
    protoParse protobuf serverId attempt = .ok (false, attempt) := by
  simp only [protoParse, nothing]

end Adsbus

import Adsbus.Core.Bytes
import Adsbus.Foundation.WireReader

/-! # The messages of the proto format

The messages that `adsb.proto` declares, their encodings as the generated
descriptors give them, and the functions of the protocol buffer library on them.
-/

namespace Adsbus

/-- `AdsbHeader`. -/
structure AdsbHeader where
  magic : CString
  serverVersion : CString
  serverId : CString
  mlatTimestampMhz : UInt32
  mlatTimestampMax : UInt64
  rssiMax : UInt32
  deriving DecidableEq

/-- `AdsbPacket`; an optional field and its `has_` field are one. -/
structure AdsbPacket where
  sourceId : CString
  hops : UInt32
  mlatTimestamp : Option UInt64
  rssi : Option UInt32
  payload : Bytes
  deriving DecidableEq

/-- `Adsb`. -/
structure Adsb where
  header : Option AdsbHeader
  modeAc : Option AdsbPacket
  modeSShort : Option AdsbPacket
  modeSLong : Option AdsbPacket
  deriving DecidableEq

/-- `ADSB__INIT`. -/
def adsbInit : Adsb where
  header := none
  modeAc := none
  modeSShort := none
  modeSLong := none

/-- `AdsbStream`. -/
structure AdsbStream where
  msg : List Adsb
  deriving DecidableEq

/-- The encoding of a header. -/
def AdsbHeader.wire (header : AdsbHeader) : Bytes :=
  Wire.blob 1 header.magic.bytes ++ Wire.blob 2 header.serverVersion.bytes ++
    Wire.blob 3 header.serverId.bytes ++ Wire.fixed32 4 header.mlatTimestampMhz ++
    Wire.fixed64 5 header.mlatTimestampMax ++ Wire.fixed32 6 header.rssiMax

/-- The encoding of a packet. -/
def AdsbPacket.wire (packet : AdsbPacket) : Bytes :=
  Wire.blob 1 packet.sourceId.bytes ++ Wire.integer 2 packet.hops.toNat ++
    Wire.optional (Wire.fixed64 3) packet.mlatTimestamp ++
    Wire.optional (Wire.fixed32 4) packet.rssi ++ Wire.blob 5 packet.payload

/-- The encoding of a record. -/
def Adsb.wire (msg : Adsb) : Bytes :=
  Wire.optional (fun header => Wire.blob 1 header.wire) msg.header ++
    Wire.optional (fun packet => Wire.blob 2 packet.wire) msg.modeAc ++
    Wire.optional (fun packet => Wire.blob 3 packet.wire) msg.modeSShort ++
    Wire.optional (fun packet => Wire.blob 4 packet.wire) msg.modeSLong

/-- The encoding of a stream. -/
def AdsbStream.wire (stream : AdsbStream) : Bytes :=
  stream.msg.flatMap fun msg => Wire.blob 1 msg.wire

/-- `protobuf_c_message_get_packed_size` and `protobuf_c_message_pack` on streams, and
`adsb__unpack`. -/
structure Protobuf where
  packedSize : AdsbStream → Nat
  pack : AdsbStream → Bytes
  unpack : Bytes → Option Adsb

namespace Protobuf

variable (protobuf : Protobuf)

/-- Packing writes the encoding, of the size given before. -/
structure Packs : Prop where
  pack : ∀ stream, protobuf.pack stream = stream.wire
  packedSize : ∀ stream, protobuf.packedSize stream = stream.wire.length

/-- Unpacking reads the encoding. -/
def Unpacks : Prop := ∀ msg : Adsb, protobuf.unpack msg.wire = some msg

end Protobuf

/-! ## A library

What is assumed of the protocol buffer library holds of the reader of fields. -/

/-- The fields of a header. -/
def AdsbHeader.toFields (header : AdsbHeader) : List Wire.Field :=
  [(1, .blob header.magic.bytes), (2, .blob header.serverVersion.bytes),
    (3, .blob header.serverId.bytes), (4, .fixed32 header.mlatTimestampMhz),
    (5, .fixed64 header.mlatTimestampMax), (6, .fixed32 header.rssiMax)]

/-- The header with these fields, all of which are required. -/
def AdsbHeader.ofFields (fields : List Wire.Field) : Option AdsbHeader :=
  match Wire.find fields 1, Wire.find fields 2, Wire.find fields 3, Wire.find fields 4,
    Wire.find fields 5, Wire.find fields 6 with
  | some (.blob magic), some (.blob serverVersion), some (.blob serverId),
    some (.fixed32 mlatTimestampMhz), some (.fixed64 mlatTimestampMax),
    some (.fixed32 rssiMax) =>
      some
        { magic := .ofBytes magic
          serverVersion := .ofBytes serverVersion
          serverId := .ofBytes serverId
          mlatTimestampMhz := mlatTimestampMhz
          mlatTimestampMax := mlatTimestampMax
          rssiMax := rssiMax }
  | _, _, _, _, _, _ => none

/-- The fields of a packet. -/
def AdsbPacket.toFields (packet : AdsbPacket) : List Wire.Field :=
  [(1, .blob packet.sourceId.bytes), (2, .integer packet.hops.toNat)] ++
    (packet.mlatTimestamp.toList.map fun value => (3, .fixed64 value)) ++
    (packet.rssi.toList.map fun value => (4, .fixed32 value)) ++
    [(5, .blob packet.payload)]

/-- The packet with these fields, of which the counter and the signal strength are optional. -/
def AdsbPacket.ofFields (fields : List Wire.Field) : Option AdsbPacket :=
  match Wire.find fields 1, Wire.find fields 2, Wire.find fields 5 with
  | some (.blob sourceId), some (.integer hops), some (.blob payload) =>
      some
        { sourceId := .ofBytes sourceId
          hops := UInt32.ofNat hops
          mlatTimestamp := match Wire.find fields 3 with
            | some (.fixed64 value) => some value
            | _ => none
          rssi := match Wire.find fields 4 with
            | some (.fixed32 value) => some value
            | _ => none
          payload := payload }
  | _, _, _ => none

/-- The fields of a record. -/
def Adsb.toFields (msg : Adsb) : List Wire.Field :=
  (msg.header.toList.map fun header => (1, .blob header.wire)) ++
    (msg.modeAc.toList.map fun packet => (2, .blob packet.wire)) ++
    (msg.modeSShort.toList.map fun packet => (3, .blob packet.wire)) ++
    (msg.modeSLong.toList.map fun packet => (4, .blob packet.wire))

/-- The message in the field of a number, if there is one. -/
def unpackField {α : Type} (ofFields : List Wire.Field → Option α) (fields : List Wire.Field)
    (number : Nat) : Option (Option α) :=
  match Wire.find fields number with
  | none => some none
  | some (.blob bytes) => ((Wire.read bytes).bind ofFields).map some
  | some _ => none

/-- The record with these fields. -/
def Adsb.ofFields (fields : List Wire.Field) : Option Adsb := do
  let header ← unpackField AdsbHeader.ofFields fields 1
  let modeAc ← unpackField AdsbPacket.ofFields fields 2
  let modeSShort ← unpackField AdsbPacket.ofFields fields 3
  let modeSLong ← unpackField AdsbPacket.ofFields fields 4
  return { header := header, modeAc := modeAc, modeSShort := modeSShort, modeSLong := modeSLong }

theorem AdsbHeader.wire_eq (header : AdsbHeader) :
    header.wire = header.toFields.flatMap Wire.Field.write := by
  simp only [AdsbHeader.wire, AdsbHeader.toFields, List.flatMap_cons, List.flatMap_nil,
    Wire.Field.write, List.append_assoc, List.append_nil]

theorem AdsbPacket.wire_eq (packet : AdsbPacket) :
    packet.wire = packet.toFields.flatMap Wire.Field.write := by
  rw [AdsbPacket.wire, AdsbPacket.toFields]
  cases packet.mlatTimestamp <;> cases packet.rssi <;>
    simp only [Wire.optional, Option.elim_none, Option.elim_some, Option.toList_none,
      Option.toList_some, List.map_nil, List.map_cons, List.flatMap_append, List.flatMap_cons,
      List.flatMap_nil, Wire.Field.write, List.append_assoc, List.append_nil]

theorem Adsb.wire_eq (msg : Adsb) : msg.wire = msg.toFields.flatMap Wire.Field.write := by
  obtain ⟨header, modeAc, modeSShort, modeSLong⟩ := msg
  have field : ∀ {α : Type} (number : Nat) (write : α → Bytes) (value : Option α),
      Wire.optional (fun value => Wire.blob number (write value)) value =
        (value.toList.map fun value => ((number, .blob (write value)) : Wire.Field)).flatMap
          Wire.Field.write := by
    intro α number write value
    cases value with
    | none => rfl
    | some value => exact (List.append_nil _).symm
  simp only [Adsb.wire, Adsb.toFields, field, List.flatMap_append]

theorem AdsbHeader.ofFields_toFields (header : AdsbHeader) :
    AdsbHeader.ofFields header.toFields = some header := by
  change some _ = _
  simp only [CString.ofBytes_bytes]

theorem AdsbPacket.ofFields_toFields (packet : AdsbPacket) :
    AdsbPacket.ofFields packet.toFields = some packet := by
  obtain ⟨sourceId, hops, mlatTimestamp, rssi, payload⟩ := packet
  cases mlatTimestamp <;> cases rssi <;>
    (change some _ = _
     simp only [CString.ofBytes_bytes, UInt32.ofNat_toNat]
     rfl)

theorem unpackField_eq {α : Type} {ofFields : List Wire.Field → Option α}
    {toFields : α → List Wire.Field} (back : ∀ value, ofFields (toFields value) = some value)
    {fields : List Wire.Field} {number : Nat} {write : α → Bytes}
    (wire : ∀ value, write value = (toFields value).flatMap Wire.Field.write) {value : Option α}
    (found : Wire.find fields number = value.map fun value => .blob (write value)) :
    unpackField ofFields fields number = some value := by
  cases value with
  | none => simp only [unpackField, found, Option.map_none]
  | some value =>
      simp only [unpackField, found, Option.map_some, wire, Wire.read_write, Option.bind_some, back]

theorem Adsb.ofFields_toFields (msg : Adsb) : Adsb.ofFields msg.toFields = some msg := by
  obtain ⟨header, modeAc, modeSShort, modeSLong⟩ := msg
  have first := @unpackField_eq _ _ _ AdsbHeader.ofFields_toFields
    (toFields ⟨header, modeAc, modeSShort, modeSLong⟩) 1 _ AdsbHeader.wire_eq header (by
      cases header <;> cases modeAc <;> cases modeSShort <;> cases modeSLong <;> rfl)
  have second := @unpackField_eq _ _ _ AdsbPacket.ofFields_toFields
    (toFields ⟨header, modeAc, modeSShort, modeSLong⟩) 2 _ AdsbPacket.wire_eq modeAc (by
      cases header <;> cases modeAc <;> cases modeSShort <;> cases modeSLong <;> rfl)
  have third := @unpackField_eq _ _ _ AdsbPacket.ofFields_toFields
    (toFields ⟨header, modeAc, modeSShort, modeSLong⟩) 3 _ AdsbPacket.wire_eq modeSShort (by
      cases header <;> cases modeAc <;> cases modeSShort <;> cases modeSLong <;> rfl)
  have fourth := @unpackField_eq _ _ _ AdsbPacket.ofFields_toFields
    (toFields ⟨header, modeAc, modeSShort, modeSLong⟩) 4 _ AdsbPacket.wire_eq modeSLong (by
      cases header <;> cases modeAc <;> cases modeSShort <;> cases modeSLong <;> rfl)
  simp only [Adsb.ofFields, first, second, third, fourth, Option.bind_eq_bind, Option.bind_some,
    Option.pure_def]

namespace Protobuf

/-- The library that reads fields. -/
def reading : Protobuf where
  packedSize stream := stream.wire.length
  pack stream := stream.wire
  unpack bytes := (Wire.read bytes).bind Adsb.ofFields

theorem reading_packs : reading.Packs := ⟨fun _ => rfl, fun _ => rfl⟩

theorem reading_unpacks : reading.Unpacks := by
  intro msg
  change (Wire.read msg.wire).bind Adsb.ofFields = some msg
  rw [Adsb.wire_eq, Wire.read_write, Option.bind_some, Adsb.ofFields_toFields]

end Protobuf

end Adsbus

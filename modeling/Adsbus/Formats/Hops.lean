import Adsbus.Formats.Front
import Adsbus.Formats.Verdict

/-! # Hops

A packet counts the instances that it has passed through. Json objects and proto messages carry
the count with 32 bits; both parsers read it into 16 of them (`Adsbus.Record.parse_hops`). The
serializers write the count that the packet has (`Adsbus.RecordFormat.front_serialized`).
-/

namespace Adsbus

/-- The formats whose packets carry a count of hops. -/
inductive RecordFormat
  | json
  | proto
  deriving DecidableEq, Repr

/-- The hops that a record carries, when it is not a header. -/
def Record.hops : Record → Option Nat
  | .json obj =>
      if (obj.getString? (ascii "type")).map CString.ofBytes = some (.ofAscii "header") then none
      else (obj.getInteger? (ascii "hops")).map fun hops => hops.toInt.toNat
  | .proto msg =>
      if msg.header.isSome then none
      else (msg.modeAc <|> msg.modeSShort <|> msg.modeSLong).map fun input => input.hops.toNat

/-! ## Parsing -/

/-- What a parser has made of the hops of a record: it has taken a header, or a packet whose hops
are cut to 16 bits. -/
inductive Record.Counted (record : Record) (packet : Packet) : Prop
  | header (headed : record.hops = none) (type : packet.type = .none)
  | packet (hops : Nat) (carried : record.hops = some hops) (small : hops < 2 ^ 32)
      (type : packet.type ≠ .none) (cut : packet.hops.toNat = hops % 2 ^ 16)

variable {obj : Json} {base packet : Packet} {state after : ParserState}

theorem jsonParseTimestamp_packet {found : Bool}
    (parsed : jsonParseTimestamp obj base state = .ok (found, packet, after)) :
    packet = { base with mlatTimestamp := packet.mlatTimestamp } := by
  unfold jsonParseTimestamp at parsed
  split at parsed
  · split at parsed
    · cases parsed
      rfl
    · obtain ⟨_, _, same⟩ := Except.bind_eq_ok.mp parsed
      cases same
      rfl
  · cases parsed
    rfl

theorem jsonParseRssi_packet {found : Bool}
    (parsed : jsonParseRssi obj base state = .ok (found, packet)) :
    packet = { base with rssi := packet.rssi } := by
  unfold jsonParseRssi at parsed
  split at parsed
  · split at parsed
    · cases parsed
      rfl
    · obtain ⟨_, _, same⟩ := Except.bind_eq_ok.mp parsed
      cases same
      rfl
  · cases parsed
    rfl

/-- The hops that `json_parse_common` takes. -/
theorem jsonParseCommon_hops
    (parsed : jsonParseCommon obj base state = .ok (true, packet, after)) :
    ∃ hops, obj.getInteger? (ascii "hops") = some hops ∧ ¬ (hops < 0 ∨ hops > 0xffffffff) ∧
      packet.hops = hops.toUInt64.toUInt16.toUInt32 := by
  unfold jsonParseCommon at parsed
  split at parsed
  · cases parsed
  · split at parsed
    · cases parsed
    · dsimp only at parsed
      split at parsed
      · cases parsed
      · rename_i hops carried
        split_ifs at parsed with _ outside
        · cases parsed
        · cases parsed
        · obtain ⟨⟨timed, between, state'⟩, timestamp, parsed⟩ := Except.bind_eq_ok.mp parsed
          cases timed with
          | false => cases parsed
          | true =>
              obtain ⟨⟨strong, last⟩, rssi, same⟩ := Except.bind_eq_ok.mp parsed
              cases same
              refine ⟨hops, carried, outside, ?_⟩
              rw [jsonParseRssi_packet rssi, jsonParseTimestamp_packet timestamp]

theorem jsonParsePayload_hops {type : PacketType}
    (parsed : jsonParsePayload obj base state type = .ok (true, packet, after)) :
    packet.type = type ∧ ∃ hops, obj.getInteger? (ascii "hops") = some hops ∧
      ¬ (hops < 0 ∨ hops > 0xffffffff) ∧ packet.hops = hops.toUInt64.toUInt16.toUInt32 := by
  obtain ⟨⟨common, between, state'⟩, commonParsed, parsed⟩ := Except.bind_eq_ok.mp parsed
  cases common with
  | false => cases parsed
  | true =>
      have counted := jsonParseCommon_hops commonParsed
      simp only [Bool.not_true, Bool.false_eq_true, ↓reduceIte] at parsed
      split at parsed
      · cases parsed
      · split_ifs at parsed
        · cases parsed
        · cases parsed
        · cases parsed
          exact ⟨rfl, counted⟩

/-- A count of at most 32 bits is cut to 16. -/
theorem toNat_cut {hops : Int64} (inside : ¬ (hops < 0 ∨ hops > 0xffffffff)) :
    hops.toInt.toNat < 2 ^ 32 ∧
      hops.toUInt64.toUInt16.toUInt32.toNat = hops.toInt.toNat % 2 ^ 16 := by
  rw [gt_iff_lt, Int64.lt_iff_toInt_lt, Int64.lt_iff_toInt_lt] at inside
  change ¬ (hops.toInt < 0 ∨ (4294967295 : Int) < hops.toInt) at inside
  refine ⟨by omega, ?_⟩
  rw [UInt16.toNat_toUInt32, UInt64.toNat_toUInt16, toNat_toUInt64 (by omega)]

theorem jsonParsePayload_counted {type : PacketType} (typed : type ≠ .none)
    (plain : (obj.getString? (ascii "type")).map CString.ofBytes ≠ some (.ofAscii "header"))
    (parsed : jsonParsePayload obj base state type = .ok (true, packet, after)) :
    (Record.json obj).Counted packet := by
  obtain ⟨rfl, hops, carried, inside, same⟩ := jsonParsePayload_hops parsed
  obtain ⟨small, cut⟩ := toNat_cut inside
  refine .packet hops.toInt.toNat ?_ small typed (by rw [same, cut])
  simp only [Record.hops, plain, ↓reduceIte, carried, Option.map_some]

theorem jsonParseObject_counted {serverId : CString}
    (parsed : jsonParseObject serverId obj base state = .ok (true, packet, after)) :
    (Record.json obj).Counted packet := by
  unfold jsonParseObject at parsed
  split at parsed
  · cases parsed
  · rename_i type named
    unfold jsonParser at parsed
    dsimp only at parsed
    have plain : CString.ofBytes type ≠ .ofAscii "header" →
        (obj.getString? (ascii "type")).map CString.ofBytes ≠ some (.ofAscii "header") := by
      rw [named]
      exact fun other same => other (Option.some.inj same)
    by_cases header : CString.ofBytes type = .ofAscii "header"
    · rw [if_pos header] at parsed
      refine .header ?_ ?_
      · simp only [Record.hops, named, Option.map_some, header, ↓reduceIte]
      · rcases jsonParseHeader_cases serverId obj with refused | ⟨_, _, _, _, taken⟩
        · simp only [refused] at parsed
          cases parsed
        · simp only [taken] at parsed
          cases parsed
          rfl
    · rw [if_neg header] at parsed
      split at parsed
      · cases parsed
      · rename_i parser chosen
        split_ifs at chosen
        · cases chosen
          exact @jsonParsePayload_counted _ _ _ _ _ .modeAc nofun (plain header) parsed
        · cases chosen
          exact @jsonParsePayload_counted _ _ _ _ _ .modeSShort nofun (plain header) parsed
        · cases chosen
          exact @jsonParsePayload_counted _ _ _ _ _ .modeSLong nofun (plain header) parsed

theorem AdsbPacket.stored_counted {input : AdsbPacket} {type : PacketType}
    (stored : input.stored type base state = .ok (packet, after)) :
    packet.type = type ∧ packet.hops.toNat = input.hops.toNat % 2 ^ 16 := by
  obtain ⟨_, _, stored⟩ := Except.bind_eq_ok.mp stored
  obtain ⟨_, _, stored⟩ := Except.bind_eq_ok.mp stored
  cases stored
  refine ⟨rfl, ?_⟩
  rw [UInt16.toNat_toUInt32, UInt32.toNat_toUInt16]

/-- What `proto_parse_packet` takes of the packet in a message. -/
theorem protoParsePacket_counted {msg : Adsb} {input : AdsbPacket} {type : PacketType}
    (typed : type ≠ .none) (carried : (Record.proto msg).hops = some input.hops.toNat)
    (parsed : (do
      let (found, packet, state) ← protoParsePacket input base state (packetPayloadLen type)
      return (found, if found then { packet with type := type } else packet, state)) =
        .ok (true, packet, after)) :
    (Record.proto msg).Counted packet := by
  rw [protoParsePacket_eq] at parsed
  split at parsed
  · cases stored : input.stored type base state with
    | error _ =>
        rw [stored] at parsed
        cases parsed
    | ok result =>
        rw [stored] at parsed
        cases parsed
        obtain ⟨rfl, cut⟩ := AdsbPacket.stored_counted stored
        exact .packet _ carried input.hops.toNat_lt typed cut
  · cases parsed

theorem protoParseRecord_counted {serverId : CString} {msg : Adsb}
    (parsed : protoParseRecord serverId msg base state = .ok (true, packet, after)) :
    (Record.proto msg).Counted packet := by
  obtain ⟨header, modeAc, modeSShort, modeSLong⟩ := msg
  cases header with
  | some header =>
      refine .header rfl ?_
      have whole : protoParseRecord serverId ⟨some header, modeAc, modeSShort, modeSLong⟩ base
          state = .ok ((protoParseHeader serverId header state).1,
            if (protoParseHeader serverId header state).1 then { base with type := .none }
            else base, (protoParseHeader serverId header state).2) := rfl
      rw [whole, Except.ok.injEq, Prod.mk.injEq, Prod.mk.injEq] at parsed
      obtain ⟨found, same, _⟩ := parsed
      rw [if_pos found] at same
      rw [← same]
  | none =>
      cases modeAc with
      | some input =>
          exact @protoParsePacket_counted _ _ _ _ _ input .modeAc nofun rfl parsed
      | none =>
          cases modeSShort with
          | some input =>
              exact @protoParsePacket_counted _ _ _ _ _ input .modeSShort nofun rfl parsed
          | none =>
              cases modeSLong with
              | some input =>
                  exact @protoParsePacket_counted _ _ _ _ _ input .modeSLong nofun rfl parsed
              | none => cases parsed

/-- **Parsing.** A parser that finds something has taken a header, or a packet with the hops of its
record cut to 16 bits. -/
theorem Record.parse_counted {serverId : CString} {record : Record}
    (parsed : record.parse serverId base state = .ok (true, packet, after)) :
    record.Counted packet := by
  cases record with
  | json obj => exact jsonParseObject_counted parsed
  | proto msg => exact protoParseRecord_counted parsed

/-! ## Serializing -/

namespace RecordFormat

/-- The record at the front of the unread bytes. -/
def front (jansson : Jansson) (protobuf : Protobuf) : RecordFormat → Bytes → Option Record
  | .json, window =>
      match jansson.loadb window with
      | some (.object fields, _) => some (.json (.object fields))
      | _ => none
  | .proto, window => (protoFront protobuf window).map fun front => .proto front.1

/-- The serializer of a format, into an empty buffer. -/
def serialize (jansson : Jansson) (protobuf : Protobuf) :
    RecordFormat → Packet → Except Fault Bytes
  | .json, packet => jsonSerialize jansson packet []
  | .proto, packet => protoSerialize protobuf packet []

variable {jansson : Jansson} {protobuf : Protobuf} {format : RecordFormat}

/-- A record stays at the front when more is read. -/
theorem front_append (stable : jansson.Stable) {window : Bytes} {record : Record}
    (found : format.front jansson protobuf window = some record) (more : Bytes) :
    format.front jansson protobuf (window ++ more) = some record := by
  cases format with
  | json =>
      simp only [front] at found ⊢
      split at found
      · rename_i fields position loaded
        rw [stable loaded _ ((List.take_prefix _ _).trans (List.prefix_append _ _))]
        exact found
      · cases found
  | proto =>
      obtain ⟨result, front, same⟩ := Option.map_eq_some_iff.mp found
      exact Option.map_eq_some_iff.mpr ⟨result, protoFront_append front more, same⟩

/-- The text of a packet is read as an object with the members of the packet. -/
theorem json_written (stable : jansson.Stable) (loads : jansson.Loads) (dumps : jansson.Dumps)
    {packet : Packet} (sane : packet.Sane) :
    ∃ text obj, jsonSerialize jansson packet [] = .ok text ∧
      json.front jansson protobuf text = some (.json obj) ∧
      (jsonPacket packet).Members packet.type obj := by
  have flat : Json.Flat (Content.packet packet.type (jsonPacket packet)).fields :=
    Content.flat_packet packet.type sane.sourceId
  obtain ⟨loaded, holds, whole⟩ := loads flat
  have behind := stable.append whole ['\n'.toUInt8]
  rw [← jsonPacketObject_fields] at behind
  refine ⟨_, .object loaded, jsonSerialize_eq dumps sane, ?_, AdsbPacket.members holds⟩
  simp only [front, behind]

/-- The text of a packet is read as the message of the packet. -/
theorem proto_written (packs : protobuf.Packs) (unpacks : protobuf.Unpacks) {packet : Packet}
    (sane : packet.Sane) :
    ∃ text, protoSerialize protobuf packet [] = .ok text ∧
      proto.front jansson protobuf text = some (.proto (protoMessage packet)) := by
  have short := protoMessage_length sane
  have length := (protoWrapToBuf_eq packs (show (protoMessage packet).wire.length < 128 by omega)).2
  have fits : (Wire.blob 1 (protoMessage packet).wire).length ≤ bufLenMax := by
    rw [bufLenMax]
    omega
  have window := Buf.window_bufHolding (Cells.fill bufLenMax 0) fits
  have valid := Buf.valid_bufHolding (Cells.fill bufLenMax 0) fits
  have unwrapped := @protoUnwrap_blob protobuf _ valid (protoMessage packet).wire []
    (by rw [window, List.append_nil])
  rw [protoUnwrap_eq_front valid, window, unpacks] at unwrapped
  refine ⟨_, protoSerialize_eq packs sane, ?_⟩
  rw [front, unwrapped]
  rfl

theorem json_serialized (stable : jansson.Stable) (loads : jansson.Loads) (dumps : jansson.Dumps)
    {packet : Packet} (sane : packet.Sane) :
    ∃ text record, jsonSerialize jansson packet [] = .ok text ∧
      json.front jansson protobuf text = some record ∧ record.hops = some packet.hops.toNat := by
  obtain ⟨text, obj, serialized, front, members⟩ := json_written stable loads dumps sane
  have plain : packetTypeNames packet.type ≠ .ofAscii "header" := by
    cases packet.type <;> decide
  refine ⟨text, .json obj, serialized, front, ?_⟩
  simp only [Record.hops, members.type, Option.map_some, CString.ofBytes_bytes,
    Option.some.injEq, plain, ↓reduceIte, members.hops, toInt_toUInt64_toInt64]
  rfl

theorem proto_serialized (packs : protobuf.Packs) (unpacks : protobuf.Unpacks) {packet : Packet}
    (sane : packet.Sane) :
    ∃ text record, protoSerialize protobuf packet [] = .ok text ∧
      proto.front jansson protobuf text = some record ∧ record.hops = some packet.hops.toNat := by
  obtain ⟨text, serialized, front⟩ := @proto_written jansson _ packs unpacks _ sane
  refine ⟨text, _, serialized, front, ?_⟩
  rw [protoMessage]
  cases kind : packet.type with
  | none => exact absurd kind sane.type
  | modeAc => rfl
  | modeSShort => rfl
  | modeSLong => rfl

/-- **Serializing.** The text of a packet is read as a record with the packet's hops. -/
theorem front_serialized (stable : jansson.Stable) (loads : jansson.Loads) (dumps : jansson.Dumps)
    (packs : protobuf.Packs) (unpacks : protobuf.Unpacks) (format : RecordFormat) {packet : Packet}
    (sane : packet.Sane) :
    ∃ text record, format.serialize jansson protobuf packet = .ok text ∧
      format.front jansson protobuf text = some record ∧ record.hops = some packet.hops.toNat := by
  cases format with
  | json => exact json_serialized stable loads dumps sane
  | proto => exact proto_serialized packs unpacks sane

end RecordFormat

end Adsbus

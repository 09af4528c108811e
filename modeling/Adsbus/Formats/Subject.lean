import Adsbus.Formats.Hops

/-! # What a packet is about

Type, source and payload of a packet do not depend on the instance that reads it: a json object or
a proto message determines them (`Adsbus.Record.parse_subject`), and what a serializer writes
determines those of the packet (`Adsbus.RecordFormat.subject_serialized`).
-/

namespace Adsbus

/-- What all instances make of a packet. -/
structure Subject where
  type : PacketType
  sourceId : CString
  data : Bytes
  deriving DecidableEq

def Packet.subject (packet : Packet) : Subject where
  type := packet.type
  sourceId := packet.sourceId
  data := packet.data

def AdsbPacket.subject (input : AdsbPacket) (type : PacketType) : Subject where
  type := type
  sourceId := input.sourceId
  data := input.payload

/-- The packet type that a name stands for. -/
def packetTypeNamed (name : CString) : Option PacketType :=
  PacketType.frames.find? fun type => packetTypeNames type = name

theorem packetTypeNamed_names {type : PacketType} (typed : type ≠ .none) :
    packetTypeNamed (packetTypeNames type) = some type := by
  cases type with
  | none => exact absurd rfl typed
  | modeAc => decide
  | modeSShort => decide
  | modeSLong => decide

/-- What a record is about, when it is not a header. -/
def Record.subject : Record → Option Subject
  | .json obj => do
      let type ← packetTypeNamed (.ofBytes (← obj.getString? (ascii "type")))
      let sourceId ← obj.getString? (ascii "source_id")
      let data ← unhex (← obj.getString? (ascii "payload"))
      return { type := type, sourceId := .ofBytes sourceId, data := data }
  | .proto { header := some _, .. } => none
  | .proto { modeAc := some input, .. } => some (input.subject .modeAc)
  | .proto { modeSShort := some input, .. } => some (input.subject .modeSShort)
  | .proto { modeSLong := some input, .. } => some (input.subject .modeSLong)
  | .proto _ => none

/-! ## Parsing -/

variable {obj : Json} {base packet : Packet} {state after : ParserState} {type : PacketType}

theorem jsonParseCommon_source
    (parsed : jsonParseCommon obj base state = .ok (true, packet, after)) :
    ∃ sourceId, obj.getString? (ascii "source_id") = some sourceId ∧
      packet.sourceId = .ofBytes sourceId := by
  unfold jsonParseCommon at parsed
  split at parsed
  · cases parsed
  · split at parsed
    · cases parsed
    · rename_i sourceId named
      dsimp only at parsed
      split at parsed
      · cases parsed
      · split_ifs at parsed
        · cases parsed
        · cases parsed
        · obtain ⟨⟨timed, between, state'⟩, timestamp, parsed⟩ := Except.bind_eq_ok.mp parsed
          cases timed with
          | false => cases parsed
          | true =>
              obtain ⟨⟨strong, last⟩, rssi, same⟩ := Except.bind_eq_ok.mp parsed
              cases same
              refine ⟨sourceId, named, ?_⟩
              rw [jsonParseRssi_packet rssi, jsonParseTimestamp_packet timestamp]

theorem jsonParsePayload_subject (named : (obj.getString? (ascii "type")).map CString.ofBytes =
      some (packetTypeNames type)) (typed : type ≠ .none)
    (parsed : jsonParsePayload obj base state type = .ok (true, packet, after)) :
    (Record.json obj).subject = some packet.subject := by
  obtain ⟨⟨common, between, state'⟩, commonParsed, parsed⟩ := Except.bind_eq_ok.mp parsed
  cases common with
  | false => cases parsed
  | true =>
      obtain ⟨sourceId, source, stored⟩ := jsonParseCommon_source commonParsed
      obtain ⟨name, typeName, isName⟩ := Option.map_eq_some_iff.mp named
      simp only [Bool.not_true, Bool.false_eq_true, ↓reduceIte] at parsed
      split at parsed
      · cases parsed
      · rename_i payload carried
        split_ifs at parsed with length decoded
        · cases parsed
        · cases parsed
        · have twice : payload.length = 2 * packetPayloadLen type := by omega
          have fits : 0 + packetPayloadLen type ≤ packetPayloadLenMax := by
            rw [Nat.zero_add]
            exact packetPayloadLen_le type
          rcases hexToBinLoop_eq twice between.payload fits with ⟨data, decodes, whole⟩ | ⟨_, _, _, failed⟩
          · have count : data.length = packetPayloadLen type := (unhex_isHex twice decodes).1
            cases parsed
            have slice : ((hexToBin between.payload payload).2.slice 0 (packetPayloadLen type)) =
                data := by
              rw [hexToBin, whole, ← count]
              exact Cells.slice_overwrite_same _ _ _ (by omega)
            simp only [Record.subject, typeName, isName, packetTypeNamed_names typed, source,
              carried, decodes, Option.bind_eq_bind, Option.bind_some, Option.pure_def]
            rw [Packet.subject, Packet.data]
            simp only [slice, stored]
          · rw [hexToBin, failed] at decoded
            exact absurd rfl decoded

theorem jsonParseObject_subject {serverId : CString} (typed : packet.type ≠ .none)
    (parsed : jsonParseObject serverId obj base state = .ok (true, packet, after)) :
    (Record.json obj).subject = some packet.subject := by
  unfold jsonParseObject at parsed
  split at parsed
  · cases parsed
  · rename_i name named
    unfold jsonParser at parsed
    dsimp only at parsed
    by_cases header : CString.ofBytes name = .ofAscii "header"
    · rw [if_pos header] at parsed
      rcases jsonParseHeader_cases serverId obj with refused | ⟨_, _, _, _, taken⟩
      · simp only [refused] at parsed
        cases parsed
      · simp only [taken] at parsed
        cases parsed
        exact absurd rfl typed
    · rw [if_neg header] at parsed
      split at parsed
      · cases parsed
      · rename_i parser chosen
        have known : ∀ kind, CString.ofBytes name = packetTypeNames kind →
            (obj.getString? (ascii "type")).map CString.ofBytes = some (packetTypeNames kind) := by
          intro kind same
          rw [named, Option.map_some, same]
        split_ifs at chosen with modeAc modeSShort modeSLong
        · cases chosen
          exact jsonParsePayload_subject (known .modeAc modeAc) (fun same => by cases same) parsed
        · cases chosen
          exact jsonParsePayload_subject (known .modeSShort modeSShort) (fun same => by cases same)
            parsed
        · cases chosen
          exact jsonParsePayload_subject (known .modeSLong modeSLong) (fun same => by cases same)
            parsed

theorem AdsbPacket.stored_subject {input : AdsbPacket}
    (length : input.payload.length = packetPayloadLen type)
    (stored : input.stored type base state = .ok (packet, after)) :
    packet.subject = input.subject type := by
  obtain ⟨_, _, stored⟩ := Except.bind_eq_ok.mp stored
  obtain ⟨_, _, stored⟩ := Except.bind_eq_ok.mp stored
  cases stored
  have slice : (base.payload.overwrite 0 input.payload).slice 0 (packetPayloadLen type) =
      input.payload := by
    rw [← length]
    refine Cells.slice_overwrite_same _ _ _ ?_
    rw [Nat.zero_add, length]
    exact packetPayloadLen_le type
  rw [Packet.subject, Packet.data, AdsbPacket.subject]
  simp only [slice]

/-- What `proto_parse_packet` takes of the packet in a message. -/
theorem protoParsePacket_subject {input : AdsbPacket}
    (parsed : (do
      let (found, packet, state) ← protoParsePacket input base state (packetPayloadLen type)
      return (found, if found then { packet with type := type } else packet, state)) =
        .ok (true, packet, after)) :
    packet.subject = input.subject type := by
  rw [protoParsePacket_eq] at parsed
  split at parsed
  · rename_i checked
    cases stored : input.stored type base state with
    | error _ =>
        rw [stored] at parsed
        cases parsed
    | ok result =>
        rw [stored] at parsed
        cases parsed
        exact AdsbPacket.stored_subject checked.2.1 stored
  · cases parsed

theorem protoParseRecord_subject {serverId : CString} {msg : Adsb} (typed : packet.type ≠ .none)
    (parsed : protoParseRecord serverId msg base state = .ok (true, packet, after)) :
    (Record.proto msg).subject = some packet.subject := by
  obtain ⟨header, modeAc, modeSShort, modeSLong⟩ := msg
  cases header with
  | some header =>
      have whole : protoParseRecord serverId ⟨some header, modeAc, modeSShort, modeSLong⟩ base
          state = .ok ((protoParseHeader serverId header state).1,
            if (protoParseHeader serverId header state).1 then { base with type := .none }
            else base, (protoParseHeader serverId header state).2) := rfl
      rw [whole, Except.ok.injEq, Prod.mk.injEq, Prod.mk.injEq] at parsed
      obtain ⟨found, same, _⟩ := parsed
      rw [if_pos found] at same
      rw [← same] at typed
      exact absurd rfl typed
  | none =>
      cases modeAc with
      | some input => rw [@protoParsePacket_subject _ _ _ _ .modeAc input parsed]; rfl
      | none =>
          cases modeSShort with
          | some input => rw [@protoParsePacket_subject _ _ _ _ .modeSShort input parsed]; rfl
          | none =>
              cases modeSLong with
              | some input => rw [@protoParsePacket_subject _ _ _ _ .modeSLong input parsed]; rfl
              | none => cases parsed

/-- **Reading.** The record that a packet was read from determines what the packet is about. -/
theorem Record.parse_subject {serverId : CString} {record : Record} (typed : packet.type ≠ .none)
    (parsed : record.parse serverId base state = .ok (true, packet, after)) :
    record.subject = some packet.subject := by
  cases record with
  | json obj => exact jsonParseObject_subject typed parsed
  | proto msg => exact protoParseRecord_subject typed parsed

/-! ## Writing -/

namespace RecordFormat

variable {jansson : Jansson} {protobuf : Protobuf}

/-- **Writing.** The text of a packet is read as a record that is about the packet. -/
theorem subject_serialized (stable : jansson.Stable) (loads : jansson.Loads)
    (dumps : jansson.Dumps) (packs : protobuf.Packs) (unpacks : protobuf.Unpacks)
    (format : RecordFormat) {packet : Packet} (sane : packet.Sane) :
    ∃ text record, format.serialize jansson protobuf packet = .ok text ∧
      format.front jansson protobuf text = some record ∧ record.subject = some packet.subject := by
  cases format with
  | json =>
      obtain ⟨text, obj, serialized, front, members⟩ := json_written stable loads dumps sane
      refine ⟨text, .json obj, serialized, front, ?_⟩
      have decodes : unhex (hexFromBinUpper packet.data) = some packet.data :=
        unhex_hexFromBinUpper packet.data
      have payload : (jsonPacket packet).payload = packet.data := rfl
      simp only [Record.subject, members.type, members.sourceId, members.payload, payload, decodes,
        CString.ofBytes_bytes, packetTypeNamed_names sane.type, Option.bind_eq_bind,
        Option.bind_some, Option.pure_def]
      rfl
  | proto =>
      obtain ⟨text, serialized, front⟩ := @proto_written jansson _ packs unpacks _ sane
      refine ⟨text, _, serialized, front, ?_⟩
      rw [protoMessage, Packet.subject, Packet.data]
      cases kind : packet.type with
      | none => exact absurd kind sane.type
      | modeAc => rfl
      | modeSShort => rfl
      | modeSLong => rfl

end RecordFormat

end Adsbus

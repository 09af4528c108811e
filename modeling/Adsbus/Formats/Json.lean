import Adsbus.Core.Hex
import Adsbus.Formats.Attempt
import Adsbus.Formats.Jansson

/-! # The json format

A json stream is a sequence of objects. A header object sets the ranges of the
clock and of the signal strength of the packet objects behind it. -/

namespace Adsbus

/-- `server_version`. -/
def serverVersion : CString := .ofAscii "https://github.com/flamingcowtv/adsb-tools#1"

/-- `JSON_MAGIC`. -/
def jsonMagic : CString := .ofAscii "aDsB"

variable (jansson : Jansson) (serverId : CString)

/-! ## Serializing -/

/-- `json_buf_append_callback` on a buffer that holds some bytes; nothing is its result -1. -/
def jsonBufAppendCallback (buf buffer : Bytes) : Option Bytes :=
  if buf.length + buffer.length + 1 > bufLenMax then none else some (buf ++ buffer)

/-- `json_dump_callback` appending to a buffer. -/
def jsonDumpCallback (obj : Json) (buf : Bytes) : Option Bytes :=
  (jansson.dump obj).foldlM jsonBufAppendCallback buf

/-- `json_serialize_to_buf`. -/
def jsonSerializeToBuf (obj : Json) (buf : Bytes) : Except Fault Bytes :=
  match jsonDumpCallback jansson obj buf with
  | some buf => .ok (buf ++ ['\n'.toUInt8])
  | none => .error .jsonDump

/-- `json_object_set_new` on the members of an object. -/
def jsonObjectSet (fields : List (Bytes × Json)) (key : Bytes) (value : Json) :
    List (Bytes × Json) :=
  if fields.any fun field => field.1 == key then
    fields.map fun field => if field.1 = key then (key, value) else field
  else
    fields ++ [(key, value)]

/-- `json_add_common`. -/
def jsonAddCommon (packet : Packet) (obj : List (Bytes × Json)) : List (Bytes × Json) :=
  let obj := jsonObjectSet obj (ascii "hops") (.integer packet.hops.toUInt64.toInt64)
  let obj := jsonObjectSet obj (ascii "type") (.string (packetTypeNames packet.type).bytes)
  let obj := jsonObjectSet obj (ascii "source_id") (.string packet.sourceId.bytes)
  let obj :=
    if packet.mlatTimestamp ≠ 0 then
      jsonObjectSet obj (ascii "mlat_timestamp")
        (.integer (packet.mlatTimestamp % packetMlatMax).toInt64)
    else obj
  if packet.rssi ≠ 0 then
    jsonObjectSet obj (ascii "rssi") (.integer packet.rssi.toUInt64.toInt64)
  else obj

/-- The members of the object that `json_serialize_payload` writes. -/
def jsonPacketObject (packet : Packet) : List (Bytes × Json) :=
  jsonAddCommon packet [(ascii "payload", .string (hexFromBinUpper packet.data))]

/-- `json_serialize_payload`. -/
def jsonSerializePayload (packet : Packet) (buf : Bytes) : Except Fault Bytes :=
  jsonSerializeToBuf jansson (.object (jsonPacketObject packet)) buf

/-- `json_serialize`. -/
def jsonSerialize (packet : Packet) (buf : Bytes) : Except Fault Bytes :=
  match packet.type with
  | .none => .ok buf
  | .modeAc | .modeSShort | .modeSLong => jsonSerializePayload jansson packet buf

/-- The members of the hello object of `json_init`. -/
def jsonHelloObject : List (Bytes × Json) :=
  [(ascii "type", .string (ascii "header")),
    (ascii "magic", .string jsonMagic.bytes),
    (ascii "server_version", .string serverVersion.bytes),
    (ascii "server_id", .string serverId.bytes),
    (ascii "mlat_timestamp_mhz", .integer packetMlatMhz.toUInt64.toInt64),
    (ascii "mlat_timestamp_max", .integer packetMlatMax.toInt64),
    (ascii "rssi_max", .integer packetRssiMax.toUInt64.toInt64)]

/-- `json_hello`: the contents of `json_hello_buf`. -/
def jsonHello : Except Fault Bytes :=
  jsonSerializeToBuf jansson (.object (jsonHelloObject serverId)) []

/-! ## Parsing -/

/-- `json_parse_header`. -/
def jsonParseHeader (obj : Json) (packet : Packet) (state : ParserState) :
    Bool × Packet × ParserState :=
  match obj.getString? (ascii "magic"), obj.getString? (ascii "server_id"),
    obj.getInteger? (ascii "mlat_timestamp_mhz"), obj.getInteger? (ascii "mlat_timestamp_max"),
    obj.getInteger? (ascii "rssi_max") with
  | some magic, some jsonServerId, some mlatTimestampMhz, some mlatTimestampMax, some rssiMax =>
      if CString.ofBytes magic ≠ jsonMagic then
        (false, packet, state)
      else if mlatTimestampMhz > 0xffff ∨ mlatTimestampMhz ≤ 0 ∨ mlatTimestampMax ≤ 0 ∨
          rssiMax > 0xffffffff ∨ rssiMax ≤ 0 then
        (false, packet, state)
      else if CString.ofBytes jsonServerId = serverId then
        (false, packet, state)
      else
        (true, { packet with type := .none },
          { state with
            mlatTimestampMhz := mlatTimestampMhz.toUInt64.toUInt16
            mlatTimestampMax := mlatTimestampMax.toUInt64
            rssiMax := rssiMax.toUInt64.toUInt32
            haveHeader := true })
  | _, _, _, _, _ => (false, packet, state)

/-- The timestamp in `json_parse_common`. -/
def jsonParseTimestamp (obj : Json) (packet : Packet) (state : ParserState) :
    Except Fault (Bool × Packet × ParserState) :=
  match obj.get? (ascii "mlat_timestamp") with
  | some (.integer val) =>
      if val < 0 then
        .ok (false, packet, state)
      else do
        let (timestamp, mlatState) ← packetMlatTimestampScaleIn val.toUInt64
          state.mlatTimestampMax state.mlatTimestampMhz state.mlatState
        return (true, { packet with mlatTimestamp := timestamp },
          { state with mlatState := mlatState })
  | _ => .ok (true, packet, state)

/-- The signal strength in `json_parse_common`. -/
def jsonParseRssi (obj : Json) (packet : Packet) (state : ParserState) :
    Except Fault (Bool × Packet) :=
  match obj.get? (ascii "rssi") with
  | some (.integer val) =>
      if val > state.rssiMax.toUInt64.toInt64 then
        .ok (false, packet)
      else do
        let rssi ← packetRssiScaleIn val.toUInt64.toUInt32 state.rssiMax
        return (true, { packet with rssi := rssi })
  | _ => .ok (true, packet)

/-- `json_parse_common`. Its `json_unpack` stores the source before it looks for the hops. -/
def jsonParseCommon (obj : Json) (packet : Packet) (state : ParserState) :
    Except Fault (Bool × Packet × ParserState) :=
  if !state.haveHeader then
    .ok (false, packet, state)
  else
    match obj.getString? (ascii "source_id") with
    | none => .ok (false, packet, state)
    | some sourceId =>
        let packet := { packet with sourceId := CString.ofBytes sourceId }
        match obj.getInteger? (ascii "hops") with
        | none => .ok (false, packet, state)
        | some hops =>
            if !packetValidateId (some packet.sourceId) then
              .ok (false, packet, state)
            else if hops < 0 ∨ hops > 0xffffffff then
              .ok (false, packet, state)
            else do
              let packet := { packet with hops := hops.toUInt64.toUInt16.toUInt32 }
              let (found, packet, state) ← jsonParseTimestamp obj packet state
              if !found then
                return (false, packet, state)
              else
                let (found, packet) ← jsonParseRssi obj packet state
                return (found, packet, state)

/-- `json_parse_payload`. -/
def jsonParsePayload (obj : Json) (packet : Packet) (state : ParserState) (type : PacketType) :
    Except Fault (Bool × Packet × ParserState) := do
  let bytes := packetPayloadLen type
  let (found, packet, state) ← jsonParseCommon obj packet state
  if !found then
    return (false, packet, state)
  else
    match obj.getString? (ascii "payload") with
    | none => return (false, packet, state)
    | some payload =>
        if payload.length ≠ bytes * 2 then
          return (false, packet, state)
        else
          let (decoded, payload) := hexToBin packet.payload payload
          let packet := { packet with payload := payload }
          if !decoded then
            return (false, packet, state)
          else
            return (true, { packet with type := type }, state)

/-- The parser that `json_parse` chooses for a type: the header's, or that of a packet type. -/
def jsonParser (type : Bytes) :
    Option (Json → Packet → ParserState → Except Fault (Bool × Packet × ParserState)) :=
  let type := CString.ofBytes type
  if type = .ofAscii "header" then
    some fun obj packet state => .ok (jsonParseHeader serverId obj packet state)
  else if type = packetTypeNames .modeAc then
    some fun obj packet state => jsonParsePayload obj packet state .modeAc
  else if type = packetTypeNames .modeSShort then
    some fun obj packet state => jsonParsePayload obj packet state .modeSShort
  else if type = packetTypeNames .modeSLong then
    some fun obj packet state => jsonParsePayload obj packet state .modeSLong
  else
    none

/-- The parsers of `json_parse` on an object: nothing found when it has no type, or one that is
not known. -/
def jsonParseObject (obj : Json) (packet : Packet) (state : ParserState) :
    Except Fault (Bool × Packet × ParserState) :=
  match obj.getString? (ascii "type") with
  | none => .ok (false, packet, state)
  | some type =>
      match jsonParser serverId type with
      | none => .ok (false, packet, state)
      | some parser => parser obj packet state

/-- Carriage returns and line feeds. -/
def jsonSeparator (c : UInt8) : Bool := c = '\r'.toUInt8 || c = '\n'.toUInt8

/-- The loop of `json_parse` that consumes the separators behind an object. -/
def jsonSkipSeparators : (turns : Nat) → Buf UInt8 → Except Fault (Buf UInt8)
  | 0, _ => .error .turns
  | turns + 1, buf =>
      if buf.length ≠ 0 ∧ jsonSeparator (bufChr buf 0) then do
        let buf ← bufConsume buf 1
        jsonSkipSeparators turns buf
      else
        .ok buf

/-- `json_parse`. -/
def jsonParse : Parse := fun attempt =>
  match jansson.loadb (bufAt attempt.buf 0 attempt.buf.length) with
  | some (.object fields, position) => do
      let (found, packet, state) ←
        jsonParseObject serverId (.object fields) attempt.packet attempt.state
      let attempt := { attempt with packet := packet, state := state }
      if !found then
        return (false, attempt)
      else
        check (0 < position) .jsonPosition
        let buf ← bufConsume attempt.buf position
        let buf ← jsonSkipSeparators (buf.length + 1) buf
        return (true, { attempt with buf := buf })
  | _ => .ok (false, attempt)

/-! ## Separators -/

theorem jsonSeparator_isSpace {c : UInt8} (separator : jsonSeparator c = true) : Json.IsSpace c := by
  rcases (Bool.or_eq_true _ _).mp separator with same | same <;> rw [of_decide_eq_true same] <;>
    decide

/-- Skipping separators drops them from the window. -/
theorem jsonSkipSeparators_eq {turns : Nat} {buf : Buf UInt8} (valid : buf.Valid)
    (enough : buf.length < turns) :
    ∃ rest, jsonSkipSeparators turns buf = .ok rest ∧ rest.Valid ∧
      rest.window = buf.window.dropWhile jsonSeparator := by
  induction turns generalizing buf with
  | zero => exact (Nat.not_lt_zero _ enough).elim
  | succ turns ih =>
      rw [jsonSkipSeparators]
      by_cases empty : buf.length = 0
      · have nothing : buf.window = [] :=
          List.eq_nil_of_length_eq_zero (by rw [valid.window_length, empty])
        rw [if_neg fun both => both.1 empty, nothing]
        exact ⟨buf, rfl, valid, by rw [nothing, List.dropWhile_nil]⟩
      · have first := valid.drop_window (Nat.pos_of_ne_zero empty)
        rw [List.drop_zero] at first
        rw [first, List.dropWhile_cons]
        by_cases separator : jsonSeparator (bufChr buf 0) = true
        · obtain ⟨rest, consumed, valid', length, window⟩ :=
            Buf.consume valid.inside 1 (Nat.pos_of_ne_zero empty)
          rw [if_pos ⟨empty, separator⟩, consumed, Except.ok_bind, if_pos separator, ← window]
          exact ih valid' (by omega)
        · rw [if_neg fun both => separator both.2, if_neg separator, ← first]
          exact ⟨buf, rfl, valid, rfl⟩

/-! ## Objects at the front of the buffer -/

variable {jansson : Jansson} {serverId : CString} {attempt : Attempt}

/-- Where nothing is loaded, nothing is found. -/
theorem jsonParse_of_none (nothing : jansson.loadb attempt.buf.window = none) :
    jsonParse jansson serverId attempt = .ok (false, attempt) := by
  have whole : bufAt attempt.buf 0 attempt.buf.length = attempt.buf.window := rfl
  simp only [jsonParse, whole, nothing]

/-- An object that is loaded and found is consumed with the separators behind it. -/
theorem jsonParse_of_object (positions : jansson.Positions) (valid : attempt.buf.Valid)
    {fields : List (Bytes × Json)} {position : Nat}
    (loaded : jansson.loadb attempt.buf.window = some (.object fields, position))
    {packet : Packet} {state : ParserState}
    (parsed : jsonParseObject serverId (.object fields) attempt.packet attempt.state =
      .ok (true, packet, state)) :
    ∃ rest, jsonParse jansson serverId attempt =
        .ok (true, { buf := rest, packet := packet, state := state }) ∧
      rest.Valid ∧ rest.window = (attempt.buf.window.drop position).dropWhile jsonSeparator := by
  obtain ⟨positive, inside⟩ := positions loaded
  rw [valid.window_length] at inside
  have whole : bufAt attempt.buf 0 attempt.buf.length = attempt.buf.window := rfl
  obtain ⟨behind, consumed, valid', _, window⟩ := Buf.consume valid.inside position inside
  obtain ⟨rest, skipped, valid'', dropped⟩ := jsonSkipSeparators_eq valid' (Nat.lt_succ_self _)
  refine ⟨rest, ?_, valid'', by rw [dropped, window]⟩
  simp only [jsonParse, whole, loaded, parsed, Except.ok_bind, Bool.not_true, Bool.false_eq_true,
    ↓reduceIte, positive, decide_true, check_true, consumed, skipped, Except.pure_eq_ok]

end Adsbus

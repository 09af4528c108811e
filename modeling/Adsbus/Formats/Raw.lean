import Adsbus.Formats.Line

/-! # The raw format

A raw frame is the hexadecimal payload between an asterisk and a semicolon, on a
line of its own. -/

namespace Adsbus

/-- `sizeof(struct raw_overlay)`: a semicolon and the line ending. -/
def rawOverlayLen : Nat := 3

/-- `raw_parse_packet`. -/
def rawParsePacket (type : PacketType) (attempt : Attempt) : Except Fault (Bool × Attempt) :=
  let buf := attempt.buf
  let packet := attempt.packet
  let payloadBytes := packetPayloadLen type
  let overlayStart := 1 + payloadBytes * 2
  let semicolon := bufChr buf overlayStart
  let crLf := bufChr buf (overlayStart + 1)
  let lf := bufChr buf (overlayStart + 2)
  let totalLen := overlayStart + rawOverlayLen
  if ((buf.length < totalLen - 1 ∨ crLf ≠ '\n'.toUInt8) ∧
        (buf.length < totalLen ∨ crLf ≠ '\r'.toUInt8 ∨ lf ≠ '\n'.toUInt8)) ∨
      bufChr buf 0 ≠ '*'.toUInt8 ∨ semicolon ≠ ';'.toUInt8 then
    .ok (false, attempt)
  else
    let (decoded, payload) := hexToBin packet.payload (bufAt buf 1 (payloadBytes * 2))
    let packet := { packet with payload := payload }
    if !decoded then
      .ok (false, { attempt with packet := packet })
    else do
      let buf ← bufConsume buf (if crLf = '\r'.toUInt8 then totalLen else totalLen - 1)
      return (true, { attempt with buf := buf, packet := { packet with type := type } })

/-- `raw_parse`. -/
def rawParse : Parse := parseFirst (PacketType.frames.map rawParsePacket)

/-- `raw_serialize`: the bytes it stores in an empty buffer. -/
def rawSerialize (packet : Packet) : Bytes :=
  ['*'.toUInt8] ++ hexFromBinUpper packet.data ++ [';'.toUInt8, '\n'.toUInt8]

/-! ## Raw frames -/

/-- The body of a raw frame. -/
def rawFields (type : PacketType) (line : Bytes) : Option Frame :=
  (starPayload line (packetPayloadLen type)).map fun data =>
    { type := type, data := data, reception := none }

/-- The raw frames of a type. -/
def rawTypeCode (type : PacketType) : Recognizer UInt8 Frame :=
  lineCode (1 + packetPayloadLen type * 2 + 1) (rawFields type)

theorem front_rawTypeCode {type : PacketType} {input : Bytes} {frame : Frame} {count : Nat} :
    (rawTypeCode type).front input = some (frame, count) ↔
      lineEnd input (1 + packetPayloadLen type * 2 + 1) = some count ∧
        ∃ data, starPayload input (packetPayloadLen type) = some data ∧
          frame = { type := type, data := data, reception := none } := by
  rw [rawTypeCode, front_lineCode, rawFields, starPayload_take _ (by omega),
    Option.map_eq_some_iff]
  simp only [eq_comm]

/-- A raw frame of one type is none of another. -/
theorem rawTypeCode_apart {type type' : PacketType}
    (differ : packetPayloadLen type ≠ packetPayloadLen type') :
    (rawTypeCode type).Apart (rawTypeCode type') := by
  rintro input ⟨frame', count'⟩ found'
  cases found : (rawTypeCode type).front input with
  | none => rfl
  | some result =>
      obtain ⟨_, data, payload, _⟩ := front_rawTypeCode.mp found
      obtain ⟨_, data', payload', _⟩ := front_rawTypeCode.mp found'
      exact absurd (starPayload_unique payload payload') differ

/-- The raw frames. -/
def rawCode : Recognizer UInt8 Frame :=
  .oneOf (PacketType.frames.map rawTypeCode) <| by
    simp only [PacketType.frames, List.map_cons, List.map_nil, List.pairwise_cons,
      List.mem_cons, List.not_mem_nil, or_false, forall_eq_or_imp, forall_eq, IsEmpty.forall_iff,
      implies_true, List.Pairwise.nil, and_true]
    exact ⟨⟨rawTypeCode_apart (by decide), rawTypeCode_apart (by decide)⟩,
      rawTypeCode_apart (by decide)⟩

theorem front_rawCode {input : Bytes} {result : Frame × Nat} :
    rawCode.front input = some result ↔
      ∃ type ∈ PacketType.frames, (rawTypeCode type).front input = some result := by
  rw [rawCode, Recognizer.front_oneOf_eq_some]
  simp only [List.mem_map, exists_exists_and_eq_and]

theorem rawCode_marked : Marked rawCode '*'.toUInt8 false := by
  intro input frame count found
  obtain ⟨type, _, here⟩ := front_rawCode.mp found
  obtain ⟨ended, data, payload, rfl⟩ := front_rawTypeCode.mp here
  have bounds := lineEnd_bounds ended
  have length : packetPayloadLen type ≤ 14 := packetPayloadLen_le type
  exact ⟨starPayload_star payload, by rw [bufLenMax]; omega, rfl⟩

/-! ## Parsing -/

/-- What the first check of `raw_parse_packet` rejects. -/
def RawUnmarked (type : PacketType) (buf : Buf UInt8) : Prop :=
  NoLineEnd buf (1 + packetPayloadLen type * 2 + 1) ∨
    bufChr buf 0 ≠ '*'.toUInt8 ∨ bufChr buf (1 + packetPayloadLen type * 2) ≠ ';'.toUInt8

instance (type : PacketType) (buf : Buf UInt8) : Decidable (RawUnmarked type buf) :=
  inferInstanceAs (Decidable (_ ∨ _))

theorem rawParsePacket_of_unmarked {type : PacketType} {attempt : Attempt}
    (unmarked : RawUnmarked type attempt.buf) :
    rawParsePacket type attempt = .ok (false, attempt) := by
  rw [rawParsePacket, if_pos]
  exact unmarked

theorem rawParsePacket_of_decoded {type : PacketType} {attempt : Attempt}
    (marked : ¬ RawUnmarked type attempt.buf) {payload : Cells UInt8 packetPayloadLenMax}
    (decoded : hexToBin attempt.packet.payload
      (bufAt attempt.buf 1 (packetPayloadLen type * 2)) = (true, payload)) :
    rawParsePacket type attempt =
      (bufConsume attempt.buf
          (if bufChr attempt.buf (1 + packetPayloadLen type * 2 + 1) = '\r'.toUInt8 then
            1 + packetPayloadLen type * 2 + 1 + 2 else 1 + packetPayloadLen type * 2 + 1 + 1)).map
        fun buf => (true, { attempt with
          buf := buf, packet := { attempt.packet with payload := payload, type := type } }) := by
  rw [rawParsePacket, if_neg]
  · simp only [decoded]
    rfl
  · exact marked

theorem rawParsePacket_of_failed {type : PacketType} {attempt : Attempt}
    (marked : ¬ RawUnmarked type attempt.buf) {payload : Cells UInt8 packetPayloadLenMax}
    (failed : hexToBin attempt.packet.payload
      (bufAt attempt.buf 1 (packetPayloadLen type * 2)) = (false, payload)) :
    rawParsePacket type attempt =
      .ok (false, { attempt with packet := { attempt.packet with payload := payload } }) := by
  rw [rawParsePacket, if_neg]
  · simp only [failed]
    rfl
  · exact marked

/-- `raw_parse_packet` takes the frames of its type. -/
theorem rawParsePacket_parses (type : PacketType) (member : type ∈ PacketType.frames) :
    Parses (rawParsePacket type) (rawTypeCode type) rawCode fun _ => False where
  accept := by
    intro attempt frame count valid found
    obtain ⟨ended, data, payload, rfl⟩ := front_rawTypeCode.mp found
    have bounds := lineEnd_bounds ended
    rw [valid.window_length] at bounds
    rw [valid.starPayload_eq _ (by omega)] at payload
    split at payload
    · rename_i marks
      have marked : ¬ RawUnmarked type attempt.buf := by
        rw [RawUnmarked, valid.noLineEnd_iff, ended]
        simp only [reduceCtorEq, marks, ne_eq, not_true_eq_false, or_self, not_false_eq_true]
      obtain ⟨rest, consumed, restValid, _, window⟩ :=
        Buf.consume valid.inside count bounds.2.2
      refine ⟨{ attempt with
        buf := rest
        packet := { attempt.packet with
          payload := attempt.packet.payload.overwrite 0 data, type := type } }, ?_,
        restValid, window, rfl, rfl⟩
      rcases valid.hexToBin_payload type (by omega) attempt.packet.payload with
        ⟨data', decoded, stored⟩ | ⟨_, failed, _⟩
      · rw [payload, Option.some.injEq] at decoded
        rw [← decoded] at stored
        rw [rawParsePacket_of_decoded marked stored, ← valid.lineEnd_eq ended, consumed]
        rfl
      · rw [payload] at failed
        cases failed
    · cases payload
  reject := by
    intro attempt valid none
    by_cases unmarked : RawUnmarked type attempt.buf
    · exact ⟨attempt.packet, attempt.state.mlatState, rawParsePacket_of_unmarked unmarked, .inl rfl⟩
    · have marked := unmarked
      simp only [RawUnmarked, not_or, not_not, valid.noLineEnd_iff] at marked
      obtain ⟨ended, marks⟩ := marked
      obtain ⟨stop, ended⟩ := Option.ne_none_iff_exists'.mp ended
      have bounds := lineEnd_bounds ended
      rw [valid.window_length] at bounds
      rcases valid.hexToBin_payload type (by omega) attempt.packet.payload with
        ⟨data, decoded, _⟩ | ⟨part, _, stored⟩
      · have payload := valid.starPayload_eq (packetPayloadLen type) (by omega)
        rw [if_pos marks, decoded] at payload
        have found := front_rawCode.mpr
          ⟨type, member, front_rawTypeCode.mpr ⟨ended, data, payload, rfl⟩⟩
        rw [none] at found
        cases found
      · exact ⟨_, attempt.state.mlatState, rawParsePacket_of_failed unmarked stored, .inl rfl⟩

/-- `raw_parse_packet` skips the frames with a longer payload: the semicolon it looks for would
be one of their digits. -/
theorem rawParsePacket_skips {type type' : PacketType}
    (shorter : packetPayloadLen type < packetPayloadLen type') :
    Skips (rawParsePacket type) (rawTypeCode type') := by
  rintro attempt ⟨frame, count⟩ valid found
  obtain ⟨ended, data, payload, _⟩ := front_rawTypeCode.mp found
  refine rawParsePacket_of_unmarked (.inr (.inr fun mark => ?_))
  obtain ⟨_, _, digits⟩ := starPayload_digits payload
  obtain ⟨c, here, hex⟩ := digits (packetPayloadLen type * 2) (by omega)
  rw [valid.window_eq_some, mark] at here
  rw [← here.2] at hex
  exact not_isHex_semicolon hex

/-- **The raw parser.** `raw_parse` takes the raw frames. -/
theorem rawParse_parses : Parses rawParse rawCode rawCode fun _ => False := by
  refine Parses.first
    (PacketType.frames.map fun type => (rawParsePacket type, rawTypeCode type)) ?_ ?_ ?_
  · intro part member
    obtain ⟨type, frame, rfl⟩ := List.mem_map.mp member
    exact rawParsePacket_parses type frame
  · simp only [PacketType.frames, List.map_cons, List.map_nil, List.pairwise_cons,
      List.mem_cons, List.not_mem_nil, or_false, forall_eq_or_imp, forall_eq, IsEmpty.forall_iff,
      implies_true, List.Pairwise.nil, and_true]
    exact ⟨⟨rawParsePacket_skips (by decide), rawParsePacket_skips (by decide)⟩,
      rawParsePacket_skips (by decide)⟩
  · intro input result found
    obtain ⟨type, member, here⟩ := front_rawCode.mp found
    exact ⟨_, List.mem_map_of_mem member, here⟩

/-! ## Serializing -/

@[simp] theorem rawSerialize_length (packet : Packet) :
    (rawSerialize packet).length = packetPayloadLen packet.type * 2 + 3 := by
  simp only [rawSerialize, hexFromBinUpper, List.length_append, List.length_cons, List.length_nil,
    hexFromBin_length, Packet.data_length]
  omega

/-- A serialized packet is a raw frame. -/
theorem front_rawSerialize {packet : Packet} (type : packet.type ∈ PacketType.frames)
    (more : Bytes) :
    rawCode.front (rawSerialize packet ++ more) =
      some ({ type := packet.type, data := packet.data, reception := none },
        (rawSerialize packet).length) := by
  have shape : rawSerialize packet ++ more =
      '*'.toUInt8 :: (hexFromBinUpper packet.data ++ ';'.toUInt8 :: '\n'.toUInt8 :: more) := by
    simp only [rawSerialize, List.append_assoc, List.cons_append, List.nil_append]
  have payload := starPayload_hexFromBinUpper packet.data ('\n'.toUInt8 :: more)
  have digits : (hexFromBinUpper packet.data).length = packetPayloadLen packet.type * 2 := by
    rw [hexFromBinUpper, hexFromBin_length, Packet.data_length, Nat.mul_comm]
  rw [Packet.data_length] at payload
  refine front_rawCode.mpr ⟨_, type, front_rawTypeCode.mpr ⟨?_, _, by rw [shape, payload], rfl⟩⟩
  have line : rawSerialize packet ++ more =
      '*'.toUInt8 :: (hexFromBinUpper packet.data ++ [';'.toUInt8]) ++ '\n'.toUInt8 :: more := by
    simp only [rawSerialize, List.append_assoc, List.cons_append, List.nil_append]
  rw [rawSerialize_length, line, lineEnd_lf (by
    simp only [List.length_append, List.length_cons, digits, List.length_nil]
    omega)]
  congr 1
  omega

end Adsbus

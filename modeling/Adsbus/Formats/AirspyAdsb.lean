import Adsbus.Formats.Raw

/-! # The airspy_adsb format

An airspy_adsb frame is a raw frame with three more fields of hexadecimal digits
on its line: the counter, the clock rate it runs at, and the signal strength. The
parser stores the counter before it reads the payload, so that a frame with a bad
payload changes the MLAT state. -/

namespace Adsbus

/-- `SEND_MHZ`. -/
def airspyAdsbSendMhz : UInt16 := 20

/-- `sizeof(struct airspy_adsb_overlay)`: four semicolons, eight digits of the counter, two of its
precision, four of the signal strength, and the line ending. -/
def airspyAdsbOverlayLen : Nat := 20

/-- The bound of the counter, `UINT32_MAX`. -/
def airspyAdsbMlatMax : UInt64 := 0xffffffff

/-- The bound of the signal strength, `UINT16_MAX`. -/
def airspyAdsbRssiMax : UInt32 := 0xffff

/-- `airspy_adsb_parse_packet`. -/
def airspyAdsbParsePacket (type : PacketType) (attempt : Attempt) :
    Except Fault (Bool × Attempt) :=
  let buf := attempt.buf
  let packet := attempt.packet
  let payloadBytes := packetPayloadLen type
  let overlayStart := 1 + payloadBytes * 2
  let semicolon1 := bufChr buf overlayStart
  let mlatTimestamp := bufAt buf (overlayStart + 1) 8
  let semicolon2 := bufChr buf (overlayStart + 9)
  let mlatPrecision := bufAt buf (overlayStart + 10) 2
  let semicolon3 := bufChr buf (overlayStart + 12)
  let rssi := bufAt buf (overlayStart + 13) 4
  let semicolon4 := bufChr buf (overlayStart + 17)
  let crLf := bufChr buf (overlayStart + 18)
  let lf := bufChr buf (overlayStart + 19)
  let totalLen := overlayStart + airspyAdsbOverlayLen
  if ((buf.length < totalLen - 1 ∨ crLf ≠ '\n'.toUInt8) ∧
        (buf.length < totalLen ∨ crLf ≠ '\r'.toUInt8 ∨ lf ≠ '\n'.toUInt8)) ∨
      bufChr buf 0 ≠ '*'.toUInt8 ∨ semicolon1 ≠ ';'.toUInt8 ∨ semicolon2 ≠ ';'.toUInt8 ∨
      semicolon3 ≠ ';'.toUInt8 ∨ semicolon4 ≠ ';'.toUInt8 then
    .ok (false, attempt)
  else
    let mlatMhz : UInt16 := 2 * UInt16.ofInt (hexToInt mlatPrecision)
    if mlatMhz = 0 then
      .ok (false, attempt)
    else
      let mlatTimestampIn := hexToInt mlatTimestamp
      if mlatTimestampIn < 0 then
        .ok (false, attempt)
      else do
        let (timestamp, mlatState) ← packetMlatTimestampScaleIn (UInt64.ofInt mlatTimestampIn)
          airspyAdsbMlatMax mlatMhz attempt.state.mlatState
        let state := { attempt.state with mlatState := mlatState }
        let rssi ← packetRssiScaleIn (UInt32.ofInt (hexToInt rssi)) airspyAdsbRssiMax
        let (decoded, payload) := hexToBin packet.payload (bufAt buf 1 (payloadBytes * 2))
        let packet := { packet with
          mlatTimestamp := timestamp, rssi := rssi, type := type, payload := payload }
        if !decoded then
          return (false, { attempt with packet := packet, state := state })
        else
          let buf ← bufConsume buf (if crLf = '\r'.toUInt8 then totalLen else totalLen - 1)
          return (true, { buf := buf, packet := packet, state := state })

/-- `airspy_adsb_parse`. -/
def airspyAdsbParse : Parse := parseFirst (PacketType.frames.map airspyAdsbParsePacket)

/-- `airspy_adsb_serialize`: the bytes it stores in an empty buffer. -/
def airspyAdsbSerialize (packet : Packet) : Except Fault Bytes := do
  let timestamp ←
    packetMlatTimestampScaleOut packet.mlatTimestamp airspyAdsbMlatMax airspyAdsbSendMhz
  let rssi ← packetRssiScaleOut packet.rssi airspyAdsbRssiMax
  return ['*'.toUInt8] ++ hexFromBinUpper packet.data ++
    [';'.toUInt8] ++ hexFromIntUpper timestamp 4 ++
    [';'.toUInt8] ++ hexFromIntUpper (airspyAdsbSendMhz / 2).toUInt64 1 ++
    [';'.toUInt8] ++ hexFromIntUpper rssi.toUInt64 2 ++
    [';'.toUInt8, '\r'.toUInt8, '\n'.toUInt8]

/-! ## Airspy frames -/

/-- The fields behind the payload, from the index of the payload's semicolon on. -/
def airspyAdsbReception (input : Bytes) (start : Nat) : Option Reception :=
  let timestamp := hexToInt ((input.drop (start + 1)).take 8)
  let mhz : UInt16 := 2 * UInt16.ofInt (hexToInt ((input.drop (start + 10)).take 2))
  let rssi := UInt32.ofInt (hexToInt ((input.drop (start + 13)).take 4))
  if input[start + 9]? = some ';'.toUInt8 ∧ input[start + 12]? = some ';'.toUInt8 ∧
      input[start + 17]? = some ';'.toUInt8 ∧ ¬ timestamp < 0 then
    if ticking : mhz ≠ 0 then
      some
        { timestamp := UInt64.ofInt timestamp
          max := airspyAdsbMlatMax
          mhz := mhz
          rssi := rssi * (packetRssiMax / airspyAdsbRssiMax)
          ticking := ticking }
    else
      none
  else
    none

/-- The body of an airspy_adsb frame. -/
def airspyAdsbFields (type : PacketType) (line : Bytes) : Option Frame := do
  let data ← starPayload line (packetPayloadLen type)
  let reception ← airspyAdsbReception line (1 + packetPayloadLen type * 2)
  return { type := type, data := data, reception := some reception }

/-- The airspy_adsb frames of a type. -/
def airspyAdsbTypeCode (type : PacketType) : Recognizer UInt8 Frame :=
  lineCode (1 + packetPayloadLen type * 2 + 18) (airspyAdsbFields type)

theorem airspyAdsbReception_take (input : Bytes) (start : Nat) :
    airspyAdsbReception (input.take (start + 18)) start = airspyAdsbReception input start := by
  have slice : ∀ index count, index + count ≤ start + 18 →
      ((input.take (start + 18)).drop index).take count = (input.drop index).take count := by
    intro index count inside
    rw [List.drop_take, List.take_take, Nat.min_eq_left (by omega)]
  simp only [airspyAdsbReception]
  rw [slice _ _ (by omega), slice _ _ (by omega), slice _ _ (by omega),
    List.getElem?_take_of_lt (by omega), List.getElem?_take_of_lt (by omega),
    List.getElem?_take_of_lt (by omega)]

theorem front_airspyAdsbTypeCode {type : PacketType} {input : Bytes} {frame : Frame}
    {count : Nat} :
    (airspyAdsbTypeCode type).front input = some (frame, count) ↔
      lineEnd input (1 + packetPayloadLen type * 2 + 18) = some count ∧
        ∃ data reception, starPayload input (packetPayloadLen type) = some data ∧
          airspyAdsbReception input (1 + packetPayloadLen type * 2) = some reception ∧
          frame = { type := type, data := data, reception := some reception } := by
  rw [airspyAdsbTypeCode, front_lineCode, airspyAdsbFields, starPayload_take _ (by omega),
    airspyAdsbReception_take]
  simp only [Option.bind_eq_bind, Option.bind_eq_some_iff, Option.pure_def, Option.some.injEq,
    eq_comm (a := frame)]
  tauto

/-- An airspy_adsb frame of one type is none of another. -/
theorem airspyAdsbTypeCode_apart {type type' : PacketType}
    (differ : packetPayloadLen type ≠ packetPayloadLen type') :
    (airspyAdsbTypeCode type).Apart (airspyAdsbTypeCode type') := by
  rintro input ⟨frame', count'⟩ found'
  cases found : (airspyAdsbTypeCode type).front input with
  | none => rfl
  | some result =>
      obtain ⟨_, data, _, payload, _⟩ := front_airspyAdsbTypeCode.mp found
      obtain ⟨_, data', _, payload', _⟩ := front_airspyAdsbTypeCode.mp found'
      exact absurd (starPayload_unique payload payload') differ

/-- The airspy_adsb frames. -/
def airspyAdsbCode : Recognizer UInt8 Frame :=
  .oneOf (PacketType.frames.map airspyAdsbTypeCode) <| by
    simp only [PacketType.frames, List.map_cons, List.map_nil, List.pairwise_cons,
      List.mem_cons, List.not_mem_nil, or_false, forall_eq_or_imp, forall_eq, IsEmpty.forall_iff,
      implies_true, List.Pairwise.nil, and_true]
    exact ⟨⟨airspyAdsbTypeCode_apart (by decide), airspyAdsbTypeCode_apart (by decide)⟩,
      airspyAdsbTypeCode_apart (by decide)⟩

theorem front_airspyAdsbCode {input : Bytes} {result : Frame × Nat} :
    airspyAdsbCode.front input = some result ↔
      ∃ type ∈ PacketType.frames, (airspyAdsbTypeCode type).front input = some result := by
  rw [airspyAdsbCode, Recognizer.front_oneOf_eq_some]
  simp only [List.mem_map, exists_exists_and_eq_and]

theorem airspyAdsbCode_marked : Marked airspyAdsbCode '*'.toUInt8 true := by
  intro input frame count found
  obtain ⟨type, _, here⟩ := front_airspyAdsbCode.mp found
  obtain ⟨ended, data, reception, payload, _, rfl⟩ := front_airspyAdsbTypeCode.mp here
  have bounds := lineEnd_bounds ended
  have length : packetPayloadLen type ≤ 14 := packetPayloadLen_le type
  exact ⟨starPayload_star payload, by rw [bufLenMax]; omega, rfl⟩

/-- The counter behind the payload starts with a digit. -/
theorem airspyAdsbReception_digit {input : Bytes} {start : Nat} {reception : Reception}
    (found : airspyAdsbReception input start = some reception) :
    ∃ c, input[start + 1]? = some c ∧ IsHex c := by
  simp only [airspyAdsbReception] at found
  split at found
  · rename_i marks
    have long := (List.getElem?_eq_some_iff.mp marks.1).1
    have inside : start + 1 < input.length := by omega
    refine ⟨input[start + 1], List.getElem?_eq_getElem inside,
      isHex_of_hexToInt ?_ marks.2.2.2 _ (List.mem_of_getElem? (i := 0) ?_)⟩
    · rw [List.length_take]
      omega
    · rw [List.getElem?_take_of_lt (by decide), List.getElem?_drop]
      exact List.getElem?_eq_getElem inside
  · cases found

/-- **The textual formats exclude each other.** What follows the payload is the end of a raw
frame and a digit of an airspy_adsb frame. -/
theorem airspyAdsbCode_apart_rawCode : airspyAdsbCode.Apart rawCode := by
  rintro input ⟨frame', count'⟩ found'
  cases found : airspyAdsbCode.front input with
  | none => rfl
  | some result =>
      obtain ⟨type, _, here⟩ := front_airspyAdsbCode.mp found
      obtain ⟨type', _, here'⟩ := front_rawCode.mp found'
      obtain ⟨_, data, reception, payload, received, _⟩ := front_airspyAdsbTypeCode.mp here
      obtain ⟨ended, data', payload', _⟩ := front_rawTypeCode.mp here'
      rw [← starPayload_unique payload payload'] at ended
      obtain ⟨c, byte, hex⟩ := airspyAdsbReception_digit received
      simp only [lineEnd, byte, Option.some.injEq] at ended
      split at ended
      · rename_i lf
        rw [lf] at hex
        exact absurd hex (by decide)
      · split at ended
        · rename_i cr
          rw [cr.1] at hex
          exact absurd hex (by decide)
        · cases ended

/-! ## Parsing -/

/-- What the first check of `airspy_adsb_parse_packet` rejects. -/
def AirspyAdsbUnmarked (type : PacketType) (buf : Buf UInt8) : Prop :=
  let overlayStart := 1 + packetPayloadLen type * 2
  NoLineEnd buf (overlayStart + 18) ∨ bufChr buf 0 ≠ '*'.toUInt8 ∨
    bufChr buf overlayStart ≠ ';'.toUInt8 ∨ bufChr buf (overlayStart + 9) ≠ ';'.toUInt8 ∨
    bufChr buf (overlayStart + 12) ≠ ';'.toUInt8 ∨ bufChr buf (overlayStart + 17) ≠ ';'.toUInt8

theorem airspyAdsbParsePacket_of_unmarked {type : PacketType} {attempt : Attempt}
    (unmarked : AirspyAdsbUnmarked type attempt.buf) :
    airspyAdsbParsePacket type attempt = .ok (false, attempt) := by
  rw [airspyAdsbParsePacket, if_pos]
  exact unmarked

/-- The marks of a frame, seen in the window. -/
theorem Buf.Valid.airspyAdsb_marked {buf : Buf UInt8} (valid : buf.Valid) {type : PacketType}
    (marked : ¬ AirspyAdsbUnmarked type buf) :
    ∃ stop, lineEnd buf.window (1 + packetPayloadLen type * 2 + 18) = some stop ∧
      1 + packetPayloadLen type * 2 + 18 < buf.length ∧
      bufChr buf 0 = '*'.toUInt8 ∧ bufChr buf (1 + packetPayloadLen type * 2) = ';'.toUInt8 ∧
      buf.window[1 + packetPayloadLen type * 2 + 9]? = some ';'.toUInt8 ∧
      buf.window[1 + packetPayloadLen type * 2 + 12]? = some ';'.toUInt8 ∧
      buf.window[1 + packetPayloadLen type * 2 + 17]? = some ';'.toUInt8 := by
  simp only [AirspyAdsbUnmarked, not_or, not_not, valid.noLineEnd_iff] at marked
  obtain ⟨ended, star, mark1, mark2, mark3, mark4⟩ := marked
  obtain ⟨stop, ended⟩ := Option.ne_none_iff_exists'.mp ended
  have bounds := lineEnd_bounds ended
  rw [valid.window_length] at bounds
  refine ⟨stop, ended, by omega, star, mark1, ?_, ?_, ?_⟩ <;> rw [valid.window_eq_some]
  · exact ⟨by omega, mark2⟩
  · exact ⟨by omega, mark3⟩
  · exact ⟨by omega, mark4⟩

/-- A bad counter or clock rate is rejected before anything is stored. -/
theorem airspyAdsbParsePacket_of_unreceived {type : PacketType} {attempt : Attempt}
    (valid : attempt.buf.Valid) (marked : ¬ AirspyAdsbUnmarked type attempt.buf)
    (unreceived :
      airspyAdsbReception attempt.buf.window (1 + packetPayloadLen type * 2) = none) :
    airspyAdsbParsePacket type attempt = .ok (false, attempt) := by
  obtain ⟨stop, _, long, _, _, mark2, mark3, mark4⟩ := valid.airspyAdsb_marked marked
  simp only [airspyAdsbReception, mark2, mark3, mark4, true_and] at unreceived
  rw [← Buf.bufAt_eq (by omega), ← Buf.bufAt_eq (by omega)] at unreceived
  rw [airspyAdsbParsePacket, if_neg]
  · by_cases stopped : 2 * UInt16.ofInt (hexToInt
        (bufAt attempt.buf (1 + packetPayloadLen type * 2 + 10) 2)) = 0
    · simp only [stopped, ↓reduceIte]
    · by_cases negative : hexToInt
          (bufAt attempt.buf (1 + packetPayloadLen type * 2 + 1) 8) < 0
      · simp only [stopped, negative, ↓reduceIte]
      · simp only [negative, not_false_eq_true, ↓reduceIte, ne_eq, stopped, ↓reduceDIte,
          reduceCtorEq] at unreceived
  · exact marked

/-- A frame with its other fields is stored, and accepted with its payload. -/
theorem airspyAdsbParsePacket_of_received {type : PacketType} {attempt : Attempt}
    (valid : attempt.buf.Valid) (marked : ¬ AirspyAdsbUnmarked type attempt.buf)
    {reception : Reception}
    (received :
      airspyAdsbReception attempt.buf.window (1 + packetPayloadLen type * 2) = some reception)
    {decoded : Bool} {payload : Cells UInt8 packetPayloadLenMax}
    (read : hexToBin attempt.packet.payload
      (bufAt attempt.buf 1 (packetPayloadLen type * 2)) = (decoded, payload)) :
    airspyAdsbParsePacket type attempt =
      let wide := packetMlatTimestampScaleWidthIn reception.timestamp reception.max
        attempt.state.mlatState
      let state := { attempt.state with mlatState := wide.2 }
      let packet := { attempt.packet with
        type := type
        payload := payload
        mlatTimestamp :=
          wide.1 * (packetMlatMhz / reception.mhz.toUInt32).toUInt64 % packetMlatMax
        rssi := reception.rssi }
      if decoded then
        (bufConsume attempt.buf
          (if bufChr attempt.buf (1 + packetPayloadLen type * 2 + 18) = '\r'.toUInt8 then
            1 + packetPayloadLen type * 2 + 18 + 2
            else 1 + packetPayloadLen type * 2 + 18 + 1)).map
          fun buf => (true, { buf := buf, packet := packet, state := state })
      else
        .ok (false, { attempt with packet := packet, state := state }) := by
  obtain ⟨stop, _, long, _, _, mark2, mark3, mark4⟩ := valid.airspyAdsb_marked marked
  simp only [airspyAdsbReception, mark2, mark3, mark4, true_and] at received
  rw [← Buf.bufAt_eq (by omega), ← Buf.bufAt_eq (by omega), ← Buf.bufAt_eq (by omega)] at received
  split at received
  · rename_i nonnegative
    split at received
    · rename_i ticking
      cases received
      rw [airspyAdsbParsePacket, if_neg]
      · have ticks := packetMlatTimestampScaleIn_of_pos ticking
        have positive : 0 < airspyAdsbRssiMax := by decide
        simp only [ticking, nonnegative, ↓reduceIte, ticks, Except.ok_bind,
          packetRssiScaleIn_of_pos positive, read]
        cases decoded <;> rfl
      · exact marked
    · cases received
  · cases received

/-- A frame that was stored and then rejected for its payload stays rejected: every frame long
enough to end behind the window has the bad digit in its payload. -/
theorem airspyAdsbCode_dead {buf : Buf UInt8} (valid : buf.Valid) {type : PacketType}
    (long : 1 + packetPayloadLen type * 2 + 18 < buf.length)
    (failed : unhex (bufAt buf 1 (packetPayloadLen type * 2)) = none)
    (none : airspyAdsbCode.front buf.window = none) : Dead airspyAdsbCode buf.window := by
  intro more
  cases found : airspyAdsbCode.front (buf.window ++ more) with
  | none => rfl
  | some result =>
      obtain ⟨frame, count⟩ := result
      by_cases inside : count ≤ buf.length
      · rw [airspyAdsbCode.front_of_append found (by rwa [valid.window_length])] at none
        cases none
      · obtain ⟨type', _, here⟩ := front_airspyAdsbCode.mp found
        obtain ⟨ended, data, _, payload, _⟩ := front_airspyAdsbTypeCode.mp here
        have bounds := lineEnd_bounds ended
        obtain ⟨_, _, digits⟩ := starPayload_digits payload
        obtain ⟨bytes, decoded⟩ := unhex_of_isHex
          (bufAt buf 1 (packetPayloadLen type * 2)) fun c member => by
            obtain ⟨index, below, rfl⟩ := List.getElem_of_mem member
            rw [valid.bufAt_length (by omega)] at below
            obtain ⟨c, here, hex⟩ := digits index (by omega)
            rw [List.getElem?_append_left (by rw [valid.window_length]; omega)] at here
            have same : (bufAt buf 1 (packetPayloadLen type * 2))[index]? = some c := by
              rw [Buf.bufAt_eq (by omega), List.getElem?_take_of_lt below, List.getElem?_drop, here]
            rwa [(List.getElem?_eq_some_iff.mp same).2]
        rw [failed] at decoded
        cases decoded

/-- A window at which no frame will be found, although it starts like one. -/
def AirspyAdsbSpent (window : Bytes) : Prop :=
  window[0]? = some '*'.toUInt8 ∧ Dead airspyAdsbCode window

/-- `airspy_adsb_parse_packet` takes the frames of its type. -/
theorem airspyAdsbParsePacket_parses (type : PacketType) (member : type ∈ PacketType.frames) :
    Parses (airspyAdsbParsePacket type) (airspyAdsbTypeCode type) airspyAdsbCode
      AirspyAdsbSpent where
  accept := by
    intro attempt frame count valid found
    obtain ⟨ended, data, reception, payload, received, rfl⟩ := front_airspyAdsbTypeCode.mp found
    have bounds := lineEnd_bounds ended
    rw [valid.window_length] at bounds
    rw [valid.starPayload_eq _ (by omega)] at payload
    split at payload
    · rename_i marks
      have marked : ¬ AirspyAdsbUnmarked type attempt.buf := by
        simp only [airspyAdsbReception] at received
        split at received
        · rename_i marks'
          simp only [valid.window_eq_some] at marks'
          simp only [AirspyAdsbUnmarked, valid.noLineEnd_iff, ended, reduceCtorEq, marks,
            marks'.1.2, marks'.2.1.2, marks'.2.2.1.2, ne_eq, not_true_eq_false, or_self,
            not_false_eq_true]
        · cases received
      obtain ⟨rest, consumed, restValid, _, window⟩ :=
        Buf.consume valid.inside count bounds.2.2
      rcases valid.hexToBin_payload type (by omega) attempt.packet.payload with
        ⟨data', decoded, stored⟩ | ⟨_, failed, _⟩
      · rw [payload, Option.some.injEq] at decoded
        rw [← decoded] at stored
        have parsed := airspyAdsbParsePacket_of_received valid marked received stored
        rw [← valid.lineEnd_eq ended, consumed] at parsed
        exact ⟨_, parsed, restValid, window, rfl, rfl⟩
      · rw [payload] at failed
        cases failed
    · cases payload
  reject := by
    intro attempt valid none
    by_cases unmarked : AirspyAdsbUnmarked type attempt.buf
    · exact ⟨attempt.packet, attempt.state.mlatState, airspyAdsbParsePacket_of_unmarked unmarked, .inl rfl⟩
    · cases received :
        airspyAdsbReception attempt.buf.window (1 + packetPayloadLen type * 2) with
      | none =>
          exact ⟨attempt.packet, attempt.state.mlatState,
            airspyAdsbParsePacket_of_unreceived valid unmarked received, .inl rfl⟩
      | some reception =>
          obtain ⟨stop, ended, long, star, mark, _⟩ := valid.airspyAdsb_marked unmarked
          rcases valid.hexToBin_payload type (by omega) attempt.packet.payload with
            ⟨data, decoded, _⟩ | ⟨part, failed, stored⟩
          · have payload := valid.starPayload_eq (packetPayloadLen type) (by omega)
            rw [if_pos ⟨star, mark⟩, decoded] at payload
            have found := front_airspyAdsbCode.mpr ⟨type, member,
              front_airspyAdsbTypeCode.mpr ⟨ended, data, reception, payload, received, rfl⟩⟩
            rw [none] at found
            cases found
          · exact ⟨_, _, airspyAdsbParsePacket_of_received valid unmarked received stored,
              .inr ⟨valid.window_eq_some.mpr ⟨by omega, star⟩,
                airspyAdsbCode_dead valid long failed none⟩⟩

/-- `airspy_adsb_parse_packet` skips the frames with a longer payload: the semicolon it looks for
would be one of their digits. -/
theorem airspyAdsbParsePacket_skips {type type' : PacketType}
    (shorter : packetPayloadLen type < packetPayloadLen type') :
    Skips (airspyAdsbParsePacket type) (airspyAdsbTypeCode type') := by
  rintro attempt ⟨frame, count⟩ valid found
  obtain ⟨ended, data, _, payload, _⟩ := front_airspyAdsbTypeCode.mp found
  refine airspyAdsbParsePacket_of_unmarked (.inr (.inr (.inl fun mark => ?_)))
  obtain ⟨_, _, digits⟩ := starPayload_digits payload
  obtain ⟨c, here, hex⟩ := digits (packetPayloadLen type * 2) (by omega)
  rw [valid.window_eq_some, mark] at here
  rw [← here.2] at hex
  exact not_isHex_semicolon hex

/-- **The airspy_adsb parser.** `airspy_adsb_parse` takes the airspy_adsb frames. -/
theorem airspyAdsbParse_parses :
    Parses airspyAdsbParse airspyAdsbCode airspyAdsbCode AirspyAdsbSpent := by
  refine Parses.first (PacketType.frames.map fun type =>
    (airspyAdsbParsePacket type, airspyAdsbTypeCode type)) ?_ ?_ ?_
  · intro part member
    obtain ⟨type, frame, rfl⟩ := List.mem_map.mp member
    exact airspyAdsbParsePacket_parses type frame
  · simp only [PacketType.frames, List.map_cons, List.map_nil, List.pairwise_cons,
      List.mem_cons, List.not_mem_nil, or_false, forall_eq_or_imp, forall_eq, IsEmpty.forall_iff,
      implies_true, List.Pairwise.nil, and_true]
    exact ⟨⟨airspyAdsbParsePacket_skips (by decide), airspyAdsbParsePacket_skips (by decide)⟩,
      airspyAdsbParsePacket_skips (by decide)⟩
  · intro input result found
    obtain ⟨type, member, here⟩ := front_airspyAdsbCode.mp found
    exact ⟨_, List.mem_map_of_mem member, here⟩

/-! ## Serializing -/

/-- The reception that `airspy_adsb_serialize` writes for a packet. -/
def airspyAdsbSent (packet : Packet) : Reception where
  timestamp := packet.mlatTimestamp / 6 % airspyAdsbMlatMax
  max := airspyAdsbMlatMax
  mhz := airspyAdsbSendMhz
  rssi := packet.rssi / 65537 * 65537
  ticking := by decide

theorem airspyAdsbSerialize_eq (packet : Packet) :
    airspyAdsbSerialize packet = .ok
      ('*'.toUInt8 :: (hexFromBinUpper packet.data ++
        ';'.toUInt8 :: (hexFromIntUpper (packet.mlatTimestamp / 6 % airspyAdsbMlatMax) 4 ++
        ';'.toUInt8 :: (hexFromIntUpper 10 1 ++
        ';'.toUInt8 :: (hexFromIntUpper (packet.rssi / 65537).toUInt64 2 ++
        [';'.toUInt8, '\r'.toUInt8, '\n'.toUInt8]))))) := by
  have mhz : decide (0 < airspyAdsbSendMhz.toUInt64) = true := by decide
  have max : decide (0 < airspyAdsbMlatMax) = true := by decide
  have rssi : decide (0 < airspyAdsbRssiMax) = true := by decide
  have ratio : packetMlatMhz.toUInt64 / airspyAdsbSendMhz.toUInt64 = 6 := by decide
  have step : packetRssiMax / airspyAdsbRssiMax = 65537 := by decide
  have precision : (airspyAdsbSendMhz / 2).toUInt64 = 10 := by decide
  simp only [airspyAdsbSerialize, packetMlatTimestampScaleOut, packetMlatTimestampScaleMhzOut,
    packetMlatTimestampScaleWidthOut, packetRssiScaleOut, mhz, max, rssi, ratio, step, precision,
    check_true, Except.ok_bind, Except.pure_eq_ok, List.append_assoc, List.cons_append,
    List.nil_append]

/-- The fields behind a payload are read at their offsets. -/
theorem airspyAdsbReception_append {input : Bytes} {start : Nat} (length : input.length = start)
    (rest : Bytes) :
    airspyAdsbReception (input ++ rest) start = airspyAdsbReception rest 0 := by
  subst length
  simp only [airspyAdsbReception, List.drop_length_add_append, Nat.zero_add,
    List.getElem?_append_right (Nat.le_add_right _ _), Nat.add_sub_cancel_left]

/-- The fields written between semicolons are read back. -/
theorem airspyAdsbReception_of_fields {timestamp precision rssi : Bytes} (more : Bytes)
    (timestampLength : timestamp.length = 8) (precisionLength : precision.length = 2)
    (rssiLength : rssi.length = 4) {sent : Reception}
    (nonnegative : ¬ hexToInt timestamp < 0)
    (timestampSent : UInt64.ofInt (hexToInt timestamp) = sent.timestamp)
    (max : airspyAdsbMlatMax = sent.max)
    (precisionSent : 2 * UInt16.ofInt (hexToInt precision) = sent.mhz)
    (rssiSent : UInt32.ofInt (hexToInt rssi) * (packetRssiMax / airspyAdsbRssiMax) = sent.rssi) :
    airspyAdsbReception (';'.toUInt8 :: (timestamp ++ ';'.toUInt8 :: (precision ++
      ';'.toUInt8 :: (rssi ++ ';'.toUInt8 :: more)))) 0 = some sent := by
  generalize whole : ';'.toUInt8 :: (timestamp ++ ';'.toUInt8 :: (precision ++
    ';'.toUInt8 :: (rssi ++ ';'.toUInt8 :: more))) = input
  have behind : input.drop 9 = ';'.toUInt8 :: (precision ++ ';'.toUInt8 :: (rssi ++
      ';'.toUInt8 :: more)) := by
    rw [← whole, ← List.cons_append, List.drop_left' (by rw [List.length_cons, timestampLength])]
  have behind' : input.drop 12 = ';'.toUInt8 :: (rssi ++ ';'.toUInt8 :: more) := by
    change input.drop (9 + 3) = _
    rw [← List.drop_drop, behind, ← List.cons_append,
      List.drop_left' (by rw [List.length_cons, precisionLength])]
  have behind'' : input.drop 17 = ';'.toUInt8 :: more := by
    change input.drop (12 + 5) = _
    rw [← List.drop_drop, behind', ← List.cons_append,
      List.drop_left' (by rw [List.length_cons, rssiLength])]
  have head : ∀ index rest, input.drop index = ';'.toUInt8 :: rest →
      input[index]? = some ';'.toUInt8 ∧ input.drop (index + 1) = rest := by
    intro index rest here
    refine ⟨?_, ?_⟩
    · have := congrArg (fun list => list[0]?) here
      simpa only [List.getElem?_drop, Nat.add_zero, List.getElem?_cons_zero] using this
    · rw [← List.drop_drop, here, List.drop_one, List.tail_cons]
  have first : (input.drop 1).take 8 = timestamp := by
    rw [← whole, List.drop_one, List.tail_cons, List.take_left' timestampLength]
  have second : (input.drop 10).take 2 = precision := by
    rw [(head 9 _ behind).2, List.take_left' precisionLength]
  have third : (input.drop 13).take 4 = rssi := by
    rw [(head 12 _ behind').2, List.take_left' rssiLength]
  have ticking := sent.ticking
  simp only [airspyAdsbReception, Nat.zero_add, first, second, third, (head 9 _ behind).1,
    (head 12 _ behind').1, (head 17 _ behind'').1, nonnegative, not_false_eq_true, and_self,
    ↓reduceIte, timestampSent, precisionSent, rssiSent, max]
  rw [dif_pos ticking]

/-! ## Lines -/

/-- The fields of an airspy_adsb frame, with what its digits stand for. -/
structure AirspyAdsbLine where
  type : PacketType
  data : Bytes
  payload : Bytes
  timestamp : Nat
  mlat : Bytes
  precision : Bytes
  rssi : Bytes
  ending : Bytes
  framed : type ∈ PacketType.frames
  dataLength : data.length = packetPayloadLen type
  payloadLength : payload.length = packetPayloadLen type * 2
  decoded : unhex payload = some data
  mlatLength : mlat.length = 8
  counted : unhexNat 0 mlat = some timestamp
  precisionLength : precision.length = 2
  ticking : 2 * UInt16.ofInt (hexToInt precision) ≠ 0
  rssiLength : rssi.length = 4
  ended : ending = ['\n'.toUInt8] ∨ ending = ['\r'.toUInt8, '\n'.toUInt8]

namespace AirspyAdsbLine

/-- The line up to its ending. -/
def body (line : AirspyAdsbLine) : Bytes :=
  '*'.toUInt8 :: (line.payload ++ ';'.toUInt8 :: (line.mlat ++ ';'.toUInt8 :: (line.precision ++
    ';'.toUInt8 :: (line.rssi ++ [';'.toUInt8]))))

/-- The text of a line. -/
def text (line : AirspyAdsbLine) : Bytes := line.body ++ line.ending

/-- What the fields behind the payload tell. -/
def reception (line : AirspyAdsbLine) : Reception where
  timestamp := UInt64.ofNat line.timestamp
  max := airspyAdsbMlatMax
  mhz := 2 * UInt16.ofInt (hexToInt line.precision)
  rssi := UInt32.ofInt (hexToInt line.rssi) * (packetRssiMax / airspyAdsbRssiMax)
  ticking := line.ticking

/-- The frame that the fields make. -/
def frame (line : AirspyAdsbLine) : Frame where
  type := line.type
  data := line.data
  reception := some line.reception

theorem timestamp_lt (line : AirspyAdsbLine) : line.timestamp < 2 ^ 32 := by
  have bound := unhexNat_lt line.counted
  rwa [line.mlatLength, Nat.zero_add, Nat.one_mul] at bound

theorem hexToInt_mlat (line : AirspyAdsbLine) : hexToInt line.mlat = line.timestamp := by
  rw [hexToInt_eq (by rw [line.mlatLength]; decide), line.counted, Option.elim_some]

theorem ofInt_mlat (line : AirspyAdsbLine) :
    UInt64.ofInt (hexToInt line.mlat) = UInt64.ofNat line.timestamp := by
  have small := line.timestamp_lt
  rw [line.hexToInt_mlat, UInt64.ofInt, Int.emod_eq_of_lt (by omega) (by omega),
    Int.toNat_natCast]

theorem body_length (line : AirspyAdsbLine) :
    line.body.length = 1 + packetPayloadLen line.type * 2 + 18 := by
  simp only [body, List.length_cons, List.length_append, line.payloadLength, line.mlatLength,
    line.precisionLength, line.rssiLength, List.length_nil]
  omega

theorem text_length_le (line : AirspyAdsbLine) :
    line.text.length ≤ packetPayloadLen line.type * 2 + 21 := by
  rw [text, List.length_append, body_length]
  rcases line.ended with same | same <;> rw [same] <;>
    simp only [List.length_cons, List.length_nil] <;> omega

/-- The text of a line is recognized, whatever follows it. -/
theorem front (line : AirspyAdsbLine) (more : Bytes) :
    airspyAdsbCode.front (line.text ++ more) = some (line.frame, line.text.length) := by
  have spread : line.text ++ more = '*'.toUInt8 :: (line.payload ++ ';'.toUInt8 :: (line.mlat ++
      ';'.toUInt8 :: (line.precision ++ ';'.toUInt8 :: (line.rssi ++
        ';'.toUInt8 :: (line.ending ++ more))))) := by
    simp only [text, body, List.cons_append, List.append_assoc, List.nil_append]
  have ended : lineEnd (line.text ++ more) (1 + packetPayloadLen line.type * 2 + 18) =
      some line.text.length := by
    rw [text, List.append_assoc, List.length_append, body_length]
    rcases line.ended with same | same
    · rw [same]
      exact lineEnd_lf line.body_length more
    · rw [same]
      exact lineEnd_crLf line.body_length more
  refine front_airspyAdsbCode.mpr ⟨line.type, line.framed,
    front_airspyAdsbTypeCode.mpr ⟨ended, line.data, line.reception, ?_, ?_, rfl⟩⟩
  · rw [spread, starPayload_text line.payloadLength, line.decoded]
  · rw [spread, ← List.cons_append, airspyAdsbReception_append (by
      rw [List.length_cons, line.payloadLength, Nat.add_comm])]
    refine airspyAdsbReception_of_fields _ line.mlatLength line.precisionLength line.rssiLength
      ?_ line.ofInt_mlat rfl rfl rfl
    rw [line.hexToInt_mlat]
    exact Int.not_lt.mpr (Int.natCast_nonneg _)

/-- Every airspy_adsb frame is a line. -/
theorem of_front {input : Bytes} {frame : Frame} {count : Nat}
    (found : airspyAdsbCode.front input = some (frame, count)) :
    ∃ line : AirspyAdsbLine, input.take count = line.text ∧ frame = line.frame := by
  obtain ⟨type, framed, here⟩ := front_airspyAdsbCode.mp found
  obtain ⟨ended, data, reception, payload, received, rfl⟩ := front_airspyAdsbTypeCode.mp here
  have bounds := lineEnd_bounds ended
  have digits := starPayload_digits payload
  simp only [airspyAdsbReception] at received
  split at received
  · rename_i marks
    split at received
    · rename_i ticking
      cases received
      obtain ⟨mark2, mark3, mark4, nonnegative⟩ := marks
      have mlatLength :
          ((input.drop (1 + packetPayloadLen type * 2 + 1)).take 8).length = 8 := by
        rw [List.length_take, List.length_drop]
        omega
      obtain ⟨timestamp, counted⟩ := unhexNat_of_isHex
        (isHex_of_hexToInt (by rw [mlatLength]; decide) nonnegative) 0
      have payload' := payload
      simp only [starPayload] at payload
      split at payload
      · rename_i stars
        let line : AirspyAdsbLine :=
          { type := type
            data := data
            payload := (input.drop 1).take (packetPayloadLen type * 2)
            timestamp := timestamp
            mlat := (input.drop (1 + packetPayloadLen type * 2 + 1)).take 8
            precision := (input.drop (1 + packetPayloadLen type * 2 + 10)).take 2
            rssi := (input.drop (1 + packetPayloadLen type * 2 + 13)).take 4
            ending := (input.drop (1 + packetPayloadLen type * 2 + 18)).take
              (count - (1 + packetPayloadLen type * 2 + 18))
            framed := framed
            dataLength := digits.1
            payloadLength := by
              rw [List.length_take, List.length_drop]
              omega
            decoded := payload
            mlatLength := mlatLength
            counted := counted
            precisionLength := by
              rw [List.length_take, List.length_drop]
              omega
            ticking := ticking
            rssiLength := by
              rw [List.length_take, List.length_drop]
              omega
            ended := ending_of_lineEnd ended }
        have whole : input = line.body ++ input.drop (1 + packetPayloadLen type * 2 + 18) := by
          have star := drop_of_getElem? stars.1
          have field1 := drop_field 1 (packetPayloadLen type * 2) stars.2
          have field2 := drop_field (1 + packetPayloadLen type * 2 + 1) 8 mark2
          have field3 := drop_field (1 + packetPayloadLen type * 2 + 10) 2 mark3
          have field4 := drop_field (1 + packetPayloadLen type * 2 + 13) 4 mark4
          calc input = input.drop 0 := (List.drop_zero ..).symm
            _ = _ := star
            _ = _ := congrArg _ field1
            _ = _ := congrArg (fun rest => _ :: (_ ++ _ :: rest)) field2
            _ = _ := congrArg (fun rest => _ :: (_ ++ _ :: (_ ++ _ :: rest))) field3
            _ = _ := congrArg (fun rest => _ :: (_ ++ _ :: (_ ++ _ :: (_ ++ _ :: rest)))) field4
            _ = line.body ++ input.drop (1 + packetPayloadLen type * 2 + 18) := by
              simp only [body, line, List.cons_append, List.append_assoc, List.nil_append]
        refine ⟨line, ?_, ?_⟩
        · conv_lhs => rw [whole]
          rw [text, List.take_append, line.body_length, List.take_of_length_le]
          rw [line.body_length]
          exact Nat.le_of_lt bounds.1
        · have timestamp := line.ofInt_mlat
          simp only [frame, reception, ← timestamp]
          rfl
      · cases payload
    · cases received
  · cases received

end AirspyAdsbLine

/-- The line that `airspy_adsb_serialize` writes. -/
def AirspyAdsbLine.sent (packet : Packet) (framed : packet.type ∈ PacketType.frames) :
    AirspyAdsbLine where
  type := packet.type
  data := packet.data
  payload := hexFromBinUpper packet.data
  timestamp := packet.mlatTimestamp.toNat / 6 % airspyAdsbMlatMax.toNat
  mlat := hexFromIntUpper (packet.mlatTimestamp / 6 % airspyAdsbMlatMax) 4
  precision := hexFromIntUpper 10 1
  rssi := hexFromIntUpper (packet.rssi / 65537).toUInt64 2
  ending := ['\r'.toUInt8, '\n'.toUInt8]
  framed := framed
  dataLength := packet.data_length
  payloadLength := by rw [hexFromBinUpper, hexFromBin_length, Packet.data_length, Nat.mul_comm]
  decoded := unhex_hexFromBinUpper packet.data
  mlatLength := hexFromInt_length _ _ _
  counted := by
    have bound : packet.mlatTimestamp.toNat / 6 % airspyAdsbMlatMax.toNat < 16 ^ (4 * 2) :=
      Nat.lt_of_lt_of_le (Nat.mod_lt _ (by decide)) (by decide)
    rw [hexFromIntUpper, hexFromInt, unhexNat_hexFromIntLoop, UInt64.toNat_mod, UInt64.toNat_div]
    exact congrArg some (Nat.mod_eq_of_lt bound)
  precisionLength := hexFromInt_length _ _ _
  ticking := by decide
  rssiLength := hexFromInt_length _ _ _
  ended := .inr rfl

theorem airspyAdsbSerialize_sent {packet : Packet} (framed : packet.type ∈ PacketType.frames) :
    airspyAdsbSerialize packet = .ok (AirspyAdsbLine.sent packet framed).text := by
  rw [airspyAdsbSerialize_eq]
  simp only [AirspyAdsbLine.text, AirspyAdsbLine.body, AirspyAdsbLine.sent, List.cons_append,
    List.append_assoc, List.nil_append]

/-- What is written for a packet is its reception. -/
theorem AirspyAdsbLine.reception_sent {packet : Packet}
    (framed : packet.type ∈ PacketType.frames) :
    (AirspyAdsbLine.sent packet framed).reception = airspyAdsbSent packet := by
  have timestamp : UInt64.ofNat (AirspyAdsbLine.sent packet framed).timestamp =
      packet.mlatTimestamp / 6 % airspyAdsbMlatMax := by
    change UInt64.ofNat (packet.mlatTimestamp.toNat / 6 % airspyAdsbMlatMax.toNat) = _
    have same : packet.mlatTimestamp.toNat / 6 % airspyAdsbMlatMax.toNat =
        (packet.mlatTimestamp / 6 % airspyAdsbMlatMax).toNat := by
      rw [UInt64.toNat_mod, UInt64.toNat_div]
      rfl
    rw [same, UInt64.ofNat_toNat]
  have mhz : 2 * UInt16.ofInt (hexToInt (AirspyAdsbLine.sent packet framed).precision) =
      airspyAdsbSendMhz := by
    change 2 * UInt16.ofInt (hexToInt (hexFromIntUpper 10 1)) = _
    decide
  have rssi : UInt32.ofInt (hexToInt (AirspyAdsbLine.sent packet framed).rssi) =
      packet.rssi / 65537 := by
    have bound := packet.rssi.toNat_lt
    have quotient : (packet.rssi / 65537).toNat = packet.rssi.toNat / 65537 := UInt32.toNat_div _ _
    change UInt32.ofInt (hexToInt (hexFromIntUpper (packet.rssi / 65537).toUInt64 2)) = _
    rw [hexToInt_hexFromIntUpper_of_lt _ 2 (by decide) (by
      rw [UInt32.toNat_toUInt64, quotient]
      omega), UInt32.toNat_toUInt64, UInt32.ofInt, Int.emod_eq_of_lt (by omega) (by omega),
      Int.toNat_natCast, UInt32.ofNat_toNat]
  simp only [reception, timestamp, mhz, rssi, airspyAdsbSent]
  rfl

/-- **Serializing.** What `airspy_adsb_serialize` writes is an airspy_adsb frame. -/
theorem front_airspyAdsbSerialize {packet : Packet} (type : packet.type ∈ PacketType.frames) :
    ∃ out, airspyAdsbSerialize packet = .ok out ∧
      out.length = packetPayloadLen packet.type * 2 + 21 ∧
      ∀ more, airspyAdsbCode.front (out ++ more) =
        some ({ type := packet.type, data := packet.data,
                reception := some (airspyAdsbSent packet) }, out.length) := by
  refine ⟨_, airspyAdsbSerialize_sent type, ?_, fun more => ?_⟩
  · have length := (AirspyAdsbLine.sent packet type).body_length
    rw [AirspyAdsbLine.text, List.length_append, length]
    change 1 + packetPayloadLen packet.type * 2 + 18 + 2 = _
    omega
  · rw [(AirspyAdsbLine.sent packet type).front more, AirspyAdsbLine.frame,
      AirspyAdsbLine.reception_sent]
    rfl

end Adsbus

import Adsbus.Flow.Send
import Adsbus.Flow.Window
import Adsbus.Formats.ProtoText

/-! # No input stops the process

Whatever the peers send, no assertion on the way from a read to the writes
fails. A connection keeps an id that is valid and, once it has a header, ranges
that can be divided by (`Adsbus.ParserState.Scaled`); so what a parser finds
passes `packet_sanity_check`, and what the serializers make of such a packet
fits their buffer.
-/

namespace Adsbus

open Reader

variable {server : Server}

/-! ## Parsers -/

/-- The ranges that a header has set are positive. -/
structure ParserState.Scaled (state : ParserState) : Prop where
  mhz : state.haveHeader = true → state.mlatTimestampMhz ≠ 0
  rssi : state.haveHeader = true → 0 < state.rssiMax

/-- A packet that passes the checks but perhaps that of its type. -/
structure Packet.Passing (packet : Packet) : Prop where
  sourceId : packetValidateId (some packet.sourceId) = true
  mlatTimestamp : packet.mlatTimestamp ≤ packetMlatMax

/-- What an attempt is made on. -/
structure Attempt.Ready (attempt : Attempt) : Prop where
  valid : attempt.buf.Valid
  scaled : attempt.state.Scaled
  passing : attempt.packet.Passing

/-- What is left when an attempt has found something or not. -/
structure Attempt.Done (attempt : Attempt) (found : Bool) : Prop where
  valid : attempt.buf.Valid
  scaled : attempt.state.Scaled
  passing : found = true → attempt.packet.Passing

/-- A parser fails no assertion. -/
def Safe (parse : Parse) : Prop :=
  ∀ {attempt : Attempt}, attempt.Ready →
    ∃ found after, parse attempt = .ok (found, after) ∧ after.Done found

/-- Another MLAT state changes no range. -/
theorem ParserState.Scaled.mlatState {state : ParserState} (scaled : state.Scaled)
    (mlatState : MlatState) : { state with mlatState := mlatState : ParserState }.Scaled :=
  ⟨scaled.mhz, scaled.rssi⟩

/-- A stored frame has a timestamp in range. -/
theorem Packet.Passing.store {packet : Packet} (passing : packet.Passing) (frame : Frame)
    (state : MlatState) : (frame.store packet state).1.Passing := by
  obtain ⟨type, data, reception⟩ := frame
  cases reception with
  | none => exact ⟨passing.sourceId, passing.mlatTimestamp⟩
  | some reception =>
      refine ⟨passing.sourceId, ?_⟩
      change _ % packetMlatMax ≤ packetMlatMax
      rw [UInt64.le_iff_toNat_le, UInt64.toNat_mod]
      exact Nat.le_of_lt (Nat.mod_lt _ (by decide))

theorem Parses.safe {parse : Parse} {code : Recognizer UInt8 Frame} {spent : Bytes → Prop}
    (parses : Parses parse code code spent) : Safe parse := by
  intro attempt ready
  cases front : code.front attempt.buf.window with
  | none =>
      obtain ⟨packet, mlatState, rejected, _⟩ := parses.reject ready.valid front
      exact ⟨false, _, rejected, ready.valid, ready.scaled.mlatState _, nofun⟩
  | some result =>
      obtain ⟨frame, count⟩ := result
      obtain ⟨after, accepted, how⟩ := parses.accept ready.valid front
      refine ⟨true, after, accepted, how.valid, ?_, fun _ => ?_⟩
      · rw [how.state]
        exact ready.scaled.mlatState _
      · rw [how.packet]
        exact ready.passing.store frame _

/-- The result of one of the parsers of an object or of a record. -/
def Sound (result : Except Fault (Bool × Packet × ParserState)) : Prop :=
  ∃ found packet state, result = .ok (found, packet, state) ∧ state.Scaled ∧
    (found = true → packet.Passing)

theorem sound_false {packet : Packet} {state : ParserState} (scaled : state.Scaled) :
    Sound (.ok (false, packet, state)) :=
  ⟨false, packet, state, rfl, scaled, nofun⟩

theorem jsonParseHeader_sound (serverId : CString) (obj : Json) {packet : Packet}
    {state : ParserState} (scaled : state.Scaled) (passing : packet.Passing) :
    Sound (.ok (jsonParseHeader serverId obj packet state)) := by
  unfold jsonParseHeader
  split
  · rename_i magic jsonServerId mhz max rssiMax _ _ _ _ _
    split_ifs with wrong range own
    · exact sound_false scaled
    · exact sound_false scaled
    · exact sound_false scaled
    · simp only [not_or, gt_iff_lt, Int64.lt_iff_toInt_lt, Int64.le_iff_toInt_le,
        not_lt, not_le] at range
      obtain ⟨mhzHigh, mhzLow, _, rssiHigh, rssiLow⟩ := range
      exact ⟨true, _, _, rfl,
        ⟨fun _ => toUInt16_ne_zero mhzLow mhzHigh, fun _ => toUInt32_pos rssiLow rssiHigh⟩,
        fun _ => ⟨passing.sourceId, passing.mlatTimestamp⟩⟩
  · exact sound_false scaled

theorem jsonParseTimestamp_sound (obj : Json) {packet : Packet} {state : ParserState}
    (header : state.haveHeader = true) (scaled : state.Scaled) (passing : packet.Passing) :
    ∃ found after left, jsonParseTimestamp obj packet state = .ok (found, after, left) ∧
      left.Scaled ∧ left.haveHeader = true ∧ after.Passing := by
  unfold jsonParseTimestamp
  split
  · rename_i val _
    split
    · exact ⟨false, packet, state, rfl, scaled, header, passing⟩
    · have scaledIn := packetMlatTimestampScaleIn_of_pos (scaled.mhz header) val.toUInt64
        state.mlatTimestampMax state.mlatState
      rw [scaledIn]
      exact ⟨true, _, _, rfl, scaled.mlatState _, header,
        passing.sourceId, packetMlatTimestampScaleIn_le scaledIn⟩
  · exact ⟨true, packet, state, rfl, scaled, header, passing⟩

theorem jsonParseRssi_sound (obj : Json) {packet : Packet} {state : ParserState}
    (header : state.haveHeader = true) (scaled : state.Scaled) (passing : packet.Passing) :
    ∃ found after, jsonParseRssi obj packet state = .ok (found, after) ∧ after.Passing := by
  unfold jsonParseRssi
  split
  · rename_i val _
    split
    · exact ⟨false, packet, rfl, passing⟩
    · rw [packetRssiScaleIn_of_pos (scaled.rssi header)]
      exact ⟨true, _, rfl, passing.sourceId, passing.mlatTimestamp⟩
  · exact ⟨true, packet, rfl, passing⟩

theorem jsonParseCommon_sound (obj : Json) {packet : Packet} {state : ParserState}
    (scaled : state.Scaled) (passing : packet.Passing) :
    Sound (jsonParseCommon obj packet state) := by
  unfold jsonParseCommon
  split
  · exact sound_false scaled
  rename_i header
  rw [Bool.not_eq_true', Bool.not_eq_false] at header
  split
  · exact sound_false scaled
  rename_i sourceId _
  dsimp only
  split
  · exact sound_false scaled
  rename_i hops _
  split_ifs with invalid range
  · exact sound_false scaled
  · exact sound_false scaled
  · rw [Bool.not_eq_true', Bool.not_eq_false] at invalid
    obtain ⟨found, after, left, timed, scaled', header', passing'⟩ :=
      @jsonParseTimestamp_sound obj { packet with
        sourceId := CString.ofBytes sourceId, hops := hops.toUInt64.toUInt16.toUInt32 } state
        header scaled ⟨invalid, passing.mlatTimestamp⟩
    rw [timed, Except.ok_bind]
    cases found with
    | false => exact sound_false scaled'
    | true =>
        obtain ⟨found, after, strong, passing''⟩ :=
          jsonParseRssi_sound obj header' scaled' passing'
        simp only [Bool.not_true, Bool.false_eq_true, ↓reduceIte, strong, Except.ok_bind]
        exact ⟨found, after, left, rfl, scaled', fun _ => passing''⟩

theorem jsonParsePayload_sound (obj : Json) {packet : Packet} {state : ParserState}
    (scaled : state.Scaled) (passing : packet.Passing) (type : PacketType) :
    Sound (jsonParsePayload obj packet state type) := by
  unfold jsonParsePayload
  obtain ⟨found, after, left, common, scaled', passing'⟩ := jsonParseCommon_sound obj scaled passing
  rw [common, Except.ok_bind]
  cases found with
  | false => exact sound_false scaled'
  | true =>
      have passing' := passing' rfl
      simp only [Bool.not_true, Bool.false_eq_true, ↓reduceIte]
      split
      · exact sound_false scaled'
      · split_ifs
        · exact sound_false scaled'
        · exact sound_false scaled'
        · exact ⟨true, _, _, rfl, scaled', fun _ => ⟨passing'.sourceId, passing'.mlatTimestamp⟩⟩

theorem jsonParseObject_sound (serverId : CString) (obj : Json) {packet : Packet}
    {state : ParserState} (scaled : state.Scaled) (passing : packet.Passing) :
    Sound (jsonParseObject serverId obj packet state) := by
  unfold jsonParseObject
  split
  · exact sound_false scaled
  rename_i type _
  cases chosen : jsonParser serverId type with
  | none => exact sound_false scaled
  | some parser =>
      simp only [jsonParser] at chosen
      split_ifs at chosen <;> cases chosen
      · exact jsonParseHeader_sound serverId obj scaled passing
      all_goals exact jsonParsePayload_sound obj scaled passing _

/-- The json parser, when the positions it is given lie in the input. -/
theorem jsonParse_safe {jansson : Jansson} (positions : jansson.Positions) (serverId : CString) :
    Safe (jsonParse jansson serverId) := by
  intro attempt ready
  unfold jsonParse
  split
  · rename_i fields position loaded
    obtain ⟨positive, inside⟩ := positions loaded
    rw [ready.valid.bufAt_length (Nat.le_of_eq (Nat.zero_add _))] at inside
    obtain ⟨found, packet, state, parsed, scaled, passing⟩ :=
      jsonParseObject_sound serverId (.object fields) ready.scaled ready.passing
    rw [parsed, Except.ok_bind]
    cases found with
    | false => exact ⟨false, _, rfl, ready.valid, scaled, nofun⟩
    | true =>
        obtain ⟨buf, consumed, valid, _⟩ := Buf.consume ready.valid.inside position inside
        obtain ⟨rest, skipped, valid', _⟩ := jsonSkipSeparators_eq valid (Nat.lt_succ_self _)
        simp only [Bool.not_true, Bool.false_eq_true, ↓reduceIte, positive, decide_true,
          check_true, Except.ok_bind, consumed, skipped]
        exact ⟨true, _, rfl, valid', scaled, passing⟩
  · exact ⟨false, attempt, rfl, ready.valid, ready.scaled, nofun⟩

theorem protoParseHeader_sound (serverId : CString) (header : AdsbHeader) {state : ParserState}
    (scaled : state.Scaled) : (protoParseHeader serverId header state).2.Scaled := by
  unfold protoParseHeader
  split_ifs with magic range own
  · exact scaled
  · exact scaled
  all_goals
    simp only [not_or, gt_iff_lt, UInt32.not_lt] at range
    obtain ⟨mhzLow, mhzHigh, _, rssi⟩ := range
    have mhz : header.mlatTimestampMhz.toUInt16 ≠ 0 := fun zero => by
      have low := congrArg UInt16.toNat zero
      rw [UInt32.toNat_toUInt16] at low
      rw [UInt32.le_iff_toNat_le] at mhzHigh
      change header.mlatTimestampMhz.toNat ≤ 65535 at mhzHigh
      change header.mlatTimestampMhz.toNat % 2 ^ 16 = 0 at low
      exact mhzLow (UInt32.toNat_inj.mp (by
        change header.mlatTimestampMhz.toNat = 0
        omega))
    exact ⟨fun _ => mhz, fun _ => UInt32.pos_iff_ne_zero.mpr rssi⟩

theorem protoParsePacket_sound (input : AdsbPacket) {packet : Packet} {state : ParserState}
    (scaled : state.Scaled) (passing : packet.Passing) (len : Nat) :
    Sound (protoParsePacket input packet state len) := by
  unfold protoParsePacket
  split_ifs with header length invalid
  · exact sound_false scaled
  · exact sound_false scaled
  · exact sound_false scaled
  · rw [Bool.not_eq_true', Bool.not_eq_false] at header invalid
    dsimp only
    obtain ⟨after, left, timed, scaled', header', passing'⟩ :
        ∃ after left, protoParseTimestamp input { packet with
            sourceId := input.sourceId
            hops := input.hops.toUInt16.toUInt32
            payload := packet.payload.overwrite 0 input.payload } state = .ok (after, left) ∧
          left.Scaled ∧ left.haveHeader = true ∧ after.Passing := by
      unfold protoParseTimestamp
      split
      · exact ⟨_, _, rfl, scaled, header, invalid, passing.mlatTimestamp⟩
      · rename_i timestamp _
        have scaledIn := packetMlatTimestampScaleIn_of_pos (scaled.mhz header) timestamp
          state.mlatTimestampMax state.mlatState
        rw [scaledIn]
        exact ⟨_, _, rfl, scaled.mlatState _, header, invalid,
          packetMlatTimestampScaleIn_le scaledIn⟩
    rw [timed, Except.ok_bind]
    unfold protoParseRssi
    split
    · exact ⟨true, after, left, rfl, scaled', fun _ => passing'⟩
    · rw [packetRssiScaleIn_of_pos (scaled'.rssi header')]
      exact ⟨true, _, left, rfl, scaled', fun _ => ⟨passing'.sourceId, passing'.mlatTimestamp⟩⟩

theorem protoParseRecord_sound (serverId : CString) (msg : Adsb) {packet : Packet}
    {state : ParserState} (scaled : state.Scaled) (passing : packet.Passing) :
    Sound (protoParseRecord serverId msg packet state) := by
  have typed : ∀ (input : AdsbPacket) (len : Nat) (type : PacketType), Sound
      (protoParsePacket input packet state len >>= fun parsed =>
        Except.ok (parsed.1, if parsed.1 then { parsed.2.1 with type := type } else parsed.2.1,
          parsed.2.2)) := by
    intro input len type
    obtain ⟨found, after, left, parsed, scaled', passing'⟩ :=
      protoParsePacket_sound input scaled passing len
    rw [parsed]
    cases found with
    | false => exact sound_false scaled'
    | true =>
        have passing' := passing' rfl
        exact ⟨true, _, left, rfl, scaled', fun _ => ⟨passing'.sourceId, passing'.mlatTimestamp⟩⟩
  unfold protoParseRecord
  split
  · rename_i header _
    refine ⟨_, _, _, rfl, protoParseHeader_sound serverId header scaled, fun found => ?_⟩
    rw [if_pos found]
    exact ⟨passing.sourceId, passing.mlatTimestamp⟩
  · exact typed _ 2 .modeAc
  · exact typed _ 7 .modeSShort
  · exact typed _ 14 .modeSLong
  · exact sound_false scaled

/-- An unwrapped record lies in the buffer. -/
theorem protoUnwrap_inside {protobuf : Protobuf} {wrapper : Buf UInt8} {msg : Adsb} {len : Nat}
    (unwrapped : protoUnwrap protobuf wrapper = some (msg, len)) : len ≤ wrapper.length := by
  unfold protoUnwrap at unwrapped
  split_ifs at unwrapped
  split at unwrapped
  · cases unwrapped
  · split_ifs at unwrapped with outside
    obtain ⟨_, _, same⟩ := Option.map_eq_some_iff.mp unwrapped
    cases same
    omega

theorem protoParse_safe (protobuf : Protobuf) (serverId : CString) :
    Safe (protoParse protobuf serverId) := by
  intro attempt ready
  unfold protoParse
  split
  · exact ⟨false, attempt, rfl, ready.valid, ready.scaled, nofun⟩
  · rename_i msg len unwrapped
    obtain ⟨found, packet, state, parsed, scaled, passing⟩ :=
      protoParseRecord_sound serverId msg ready.scaled ready.passing
    rw [parsed, Except.ok_bind]
    cases found with
    | false => exact ⟨false, _, rfl, ready.valid, scaled, nofun⟩
    | true =>
        obtain ⟨buf, consumed, valid, _⟩ :=
          Buf.consume ready.valid.inside len (protoUnwrap_inside unwrapped)
        simp only [Bool.not_true, Bool.false_eq_true, ↓reduceIte, consumed, Except.ok_bind]
        exact ⟨true, _, rfl, valid, scaled, passing⟩

theorem Format.parse_safe (positions : server.jansson.Positions) (format : Format) :
    Safe (format.parse server) := by
  cases format with
  | airspyAdsb => exact airspyAdsbParse_parses.safe
  | beast => exact beastParse_parses.safe
  | json => exact jsonParse_safe positions _
  | proto => exact protoParse_safe _ _
  | raw => exact rawParse_parses.safe

/-! ## Connections -/

/-- A connection that has failed no assertion. -/
structure Receive.Sound (receive : Receive) : Prop where
  id : packetValidateId (some receive.id) = true
  valid : receive.buf.Valid
  scaled : receive.parserState.Scaled

theorem Receive.Sound.receiveNew (random : Cells UInt8 16) (stat : Stat)
    (memory : Cells UInt8 bufLenMax) : (receiveNew random stat memory).Sound :=
  ⟨packetValidateId_uuidGen random, Buf.valid_bufInit memory, nofun, nofun⟩

theorem Receive.Sound.passing {receive : Receive} (sound : receive.Sound) :
    (receivePacket receive).Passing :=
  ⟨sound.id, UInt64.zero_le⟩

theorem receiveAutodetectLoop_safe (positions : server.jansson.Positions) {origPacket : Packet}
    (passing : origPacket.Passing) (formats : List Format) {attempt : Attempt}
    (ready : attempt.Ready) :
    ∃ format after, receiveAutodetectLoop server origPacket formats attempt = .ok (format, after) ∧
      after.Done format.isSome := by
  induction formats generalizing attempt with
  | nil => exact ⟨none, attempt, rfl, ready.valid, ready.scaled, nofun⟩
  | cons format formats ih =>
      obtain ⟨found, after, parsed, done⟩ := format.parse_safe positions ready
      rw [receiveAutodetectLoop, parsed, Except.ok_bind]
      cases found with
      | true => exact ⟨some format, after, rfl, done⟩
      | false =>
          simp only [Bool.false_eq_true, ↓reduceIte]
          split
          · exact @ih { after with packet := origPacket } ⟨done.valid, done.scaled, passing⟩
          · exact ⟨none, after, rfl, done.valid, done.scaled, nofun⟩

theorem Receive.Sound.receiveParse (positions : server.jansson.Positions) {receive : Receive}
    (sound : receive.Sound) {packet : Packet} (passing : packet.Passing) :
    ∃ found after left, receiveParse server receive packet = .ok (found, after, left) ∧
      after.Sound ∧ (found = true → left.Passing) := by
  unfold Adsbus.receiveParse
  cases receive.parser with
  | none =>
      obtain ⟨format, after, looped, done⟩ :=
        @receiveAutodetectLoop_safe server positions packet passing Format.all
          { buf := receive.buf, packet := packet, state := receive.parserState }
          ⟨sound.valid, sound.scaled, passing⟩
      simp only [receiveAutodetectParse, looped, Except.ok_bind]
      exact ⟨_, _, _, rfl, ⟨sound.id, done.valid, done.scaled⟩, done.passing⟩
  | some format =>
      obtain ⟨found, after, parsed, done⟩ := @Format.parse_safe server positions format
        { buf := receive.buf, packet := packet, state := receive.parserState }
        ⟨sound.valid, sound.scaled, passing⟩
      simp only [receiveParseWrapper, parsed, Except.ok_bind]
      exact ⟨_, _, _, rfl, ⟨sound.id, done.valid, done.scaled⟩, done.passing⟩

/-- A turn fails no assertion, and its packet passes the checks of `send_write`. -/
theorem Receive.Sound.receiveTurn (positions : server.jansson.Positions) {receive : Receive}
    (sound : receive.Sound) :
    ∃ found after packet, receiveTurn server receive = .ok (found, after, packet) ∧
      after.Sound ∧ ∀ sane ∈ packet, Packet.Sane sane := by
  obtain ⟨found, after, left, parsed, sound', passing⟩ :=
    sound.receiveParse positions sound.passing
  simp only [Adsbus.receiveTurn, parsed, Except.ok_bind]
  cases found with
  | false => exact ⟨false, after, none, rfl, sound', fun _ none => by cases none⟩
  | true =>
      have passing := passing rfl
      simp only [Bool.not_true, Bool.false_eq_true, ↓reduceIte]
      split_ifs with typed beyond
      · exact ⟨true, after, none, rfl, sound', fun _ none => by cases none⟩
      · exact ⟨true, after, none, rfl, sound', fun _ none => by cases none⟩
      · refine ⟨true, after, _, rfl, sound', fun sane same => ?_⟩
        rw [← Option.mem_some_iff.mp same]
        exact ⟨passing.sourceId, typed, passing.mlatTimestamp⟩

section Reading

variable {τ : Type} {sendWrite : τ → Packet → Except Fault τ} {holds : τ → Prop}

theorem Receive.Sound.receiveLoop (positions : server.jansson.Positions)
    (sends : ∀ {sent packet}, holds sent → Packet.Sane packet →
      ∃ after, sendWrite sent packet = .ok after ∧ holds after)
    {turns : Nat} {receive : Receive} (sound : receive.Sound) (enough : receive.buf.length < turns)
    {sent : τ} (held : holds sent) :
    ∃ after sent', receiveLoop server sendWrite turns receive sent = .ok (after, sent') ∧
      after.Sound ∧ holds sent' := by
  induction turns generalizing receive sent with
  | zero => exact (Nat.not_lt_zero _ enough).elim
  | succ turns ih =>
      rw [Adsbus.receiveLoop]
      split
      · exact ⟨receive, sent, rfl, sound, held⟩
      · obtain ⟨found, after, packet, turned, sound', sane⟩ := sound.receiveTurn positions
        have attempted := (receiveTurn_windowed server sound.valid).2 _ _ _ turned
        rw [turned, Except.ok_bind]
        cases found with
        | false => exact ⟨after, sent, rfl, sound', held⟩
        | true =>
            have shorter := attempted.shorter
            simp only [Bool.not_true, Bool.false_eq_true, ↓reduceIte]
            cases packet with
            | none => exact ih sound' (by omega) held
            | some packet =>
                obtain ⟨sent', wrote, held'⟩ := sends held (sane packet rfl)
                simp only [wrote, Except.ok_bind]
                exact ih sound' (by omega) held'

/-- A connection that is read, or was. -/
structure Connected (connection : Connection Receive) : Prop where
  sound : connection.reader.Sound
  notFull : connection.status = .live → connection.reader.buf.length ≠ bufLenMax

/-- A read fails no assertion. -/
theorem Connected.receiveRead (positions : server.jansson.Positions)
    (sends : ∀ {sent packet}, holds sent → Packet.Sane packet →
      ∃ after, sendWrite sent packet = .ok after ∧ holds after)
    {connection : Connection Receive} (connected : Connected connection) {input : Bytes}
    (short : connection.status = .live → input.length ≤ connection.reader.buf.room)
    {sent : τ} (held : holds sent) :
    ∃ after sent', receiveRead server sendWrite connection sent input = .ok (after, sent') ∧
      Connected after ∧ holds sent' := by
  obtain ⟨receive, status⟩ := connection
  obtain ⟨sound, notFull⟩ := connected
  cases status with
  | ended => exact ⟨_, sent, rfl, ⟨sound, fun live => by cases live⟩, held⟩
  | overrun => exact ⟨_, sent, rfl, ⟨sound, fun live => by cases live⟩, held⟩
  | live =>
      obtain ⟨filled, fill, valid, _⟩ := sound.valid.fill (notFull rfl) input (short rfl)
      have sound' : { receive with buf := filled : Receive }.Sound := ⟨sound.id, valid, sound.scaled⟩
      simp only [Adsbus.receiveRead, fill, Except.ok_bind]
      split_ifs with ended
      · exact ⟨_, sent, rfl, ⟨sound', fun live => by cases live⟩, held⟩
      · obtain ⟨after, sent', looped, sound'', held'⟩ :=
          sound'.receiveLoop positions sends (Nat.lt_succ_self _) held
        have ran : Adsbus.receiveLoop server sendWrite (filled.length + 1)
            { receive with buf := filled } sent = .ok (after, sent') := looped
        rw [ran]
        simp only [Except.ok_bind, Except.pure_eq_ok]
        split_ifs with full
        · exact ⟨_, sent', rfl, ⟨sound'', fun live => by cases live⟩, held'⟩
        · exact ⟨_, sent', rfl, ⟨sound'', fun _ => full⟩, held'⟩

end Reading

/-! ## Serializers -/

/-- What the serializers make of a packet that passes the checks fits the buffer. -/
theorem Serializer.serialize_fits (dumps : server.jansson.Dumps) (packs : server.protobuf.Packs)
    (serializer : Serializer) {packet : Packet} (sane : packet.Sane) (now : Int64)
    (stats : StatsState) :
    ∃ out after, serializer.serialize server now packet stats = .ok (out, after) ∧
      out.length ≤ bufLenMax := by
  have payload : packetPayloadLen packet.type ≤ 14 := packetPayloadLen_le packet.type
  have frames : packet.type ∈ PacketType.frames := by
    cases kind : packet.type with
    | none => exact absurd kind sane.type
    | modeAc => decide
    | modeSShort => decide
    | modeSLong => decide
  have fits : ∀ {result : Except Fault Bytes} {out : Bytes}, result = .ok out → out.length ≤ 256 →
      ∃ out after, (result.map fun buf => (buf, stats)) = .ok (out, after) ∧
        out.length ≤ bufLenMax := by
    rintro _ out rfl short
    exact ⟨out, stats, rfl, short⟩
  cases serializer with
  | airspyAdsb =>
      obtain ⟨out, serialized, length, _⟩ := front_airspyAdsbSerialize frames
      exact fits serialized (by omega)
  | beast =>
      obtain ⟨out, _, serialized, length, _⟩ := front_beastSerialize frames
      exact fits serialized (by omega)
  | json =>
      have short := jsonPacketText_length dumps sane
      refine fits (jsonSerialize_eq dumps sane) ?_
      rw [List.length_append, List.length_singleton]
      omega
  | proto =>
      have short := protoMessage_length sane
      refine fits (protoSerialize_eq packs sane) ?_
      rw [Wire.blob_length (by decide) (by omega)]
      omega
  | raw =>
      refine ⟨_, _, rfl, ?_⟩
      rw [rawSerialize_length, bufLenMax]
      omega
  | stats => exact statsSerialize_fits dumps now (some packet) stats

/-! ## The process -/

/-- What was sent passed the checks and fitted. -/
structure Sending.Fitting (sending : Sending) : Prop where
  packets : ∀ packet ∈ sending.packets, packetSanityCheck packet = .ok ()
  written : ∀ write ∈ sending.written, write.2.length ≤ bufLenMax

theorem Sending.Fitting.sendTo {outside : Outside} {packet : Packet} {buf : Bytes}
    (short : buf.length ≤ bufLenMax) {sending : Sending} (fitting : sending.Fitting) (iter : Send) :
    (sendTo outside packet buf sending iter).Fitting := by
  unfold Adsbus.sendTo
  split
  · exact fitting
  · refine ⟨fitting.packets, fun write member => ?_⟩
    rcases List.mem_append.mp member with before | here
    · exact fitting.written write before
    · cases List.mem_singleton.mp here
      exact short

theorem Sending.Fitting.foldl_sendTo {outside : Outside} {packet : Packet} {buf : Bytes}
    (short : buf.length ≤ bufLenMax) (sends : List Send) {sending : Sending}
    (fitting : sending.Fitting) :
    (sends.foldl (Adsbus.sendTo outside packet buf) sending).Fitting := by
  induction sends generalizing sending with
  | nil => exact fitting
  | cons iter sends ih => exact ih (fitting.sendTo short iter)

theorem Sending.Fitting.sendFormat (dumps : server.jansson.Dumps) (packs : server.protobuf.Packs)
    (outside : Outside) (now : Int64) {packet : Packet} (sane : packet.Sane) {sending : Sending}
    (fitting : sending.Fitting) (serializer : Serializer) :
    ∃ after, sendFormat server outside now packet sending serializer = .ok after ∧
      after.Fitting := by
  unfold Adsbus.sendFormat
  split
  · exact ⟨sending, rfl, fitting⟩
  · obtain ⟨out, stats, serialized, short⟩ :=
      serializer.serialize_fits dumps packs sane now sending.statsState
    have fitting' : { sending with statsState := stats : Sending }.Fitting :=
      ⟨fitting.packets, fitting.written⟩
    simp only [serialized, Except.ok_bind]
    split
    · exact ⟨_, rfl, fitting'⟩
    · exact ⟨_, rfl, fitting'.foldl_sendTo short _⟩

/-- `send_write` fails no assertion on a packet that passes its checks. -/
theorem Sending.Fitting.sendWrite (dumps : server.jansson.Dumps) (packs : server.protobuf.Packs)
    (outside : Outside) {packet : Packet} (sane : packet.Sane) {sending : Sending}
    (fitting : sending.Fitting) :
    ∃ after, sendWrite server outside sending packet = .ok after ∧ after.Fitting := by
  have checked : packetSanityCheck packet = .ok () := packetSanityCheck_eq_ok.mpr sane
  unfold Adsbus.sendWrite
  rw [checked, Except.ok_bind]
  generalize outside.clock sending.packets.length = now
  have start : { sending with packets := sending.packets ++ [packet] : Sending }.Fitting := by
    refine ⟨fun other member => ?_, fitting.written⟩
    rcases List.mem_append.mp member with before | here
    · exact fitting.packets other before
    · cases List.mem_singleton.mp here
      exact checked
  exact Except.exists_foldlM (fun serializer fitting =>
    fitting.sendFormat dumps packs outside now sane serializer) Serializer.all start

/-- A process that has failed no assertion. -/
structure Process.Sound (process : Process) : Prop where
  receives : ∀ connection ∈ process.receives, Connected connection
  sending : process.sending.Fitting

/-- An event that can happen fails no assertion. -/
theorem Process.Sound.step (positions : server.jansson.Positions) (dumps : server.jansson.Dumps)
    (packs : server.protobuf.Packs) (outside : Outside) {process : Process}
    (sound : process.Sound) {event : Event} (possible : process.Possible event) :
    ∃ after, process.step server outside event = .ok after ∧ after.Sound := by
  cases event with
  | receiveNew random stat memory =>
      refine ⟨_, rfl, fun connection member => ?_, sound.sending⟩
      rcases List.mem_append.mp member with before | here
      · exact sound.receives connection before
      · rw [List.mem_singleton.mp here]
        exact ⟨.receiveNew random stat memory, fun _ => nofun⟩
  | sendNew serializer send =>
      exact ⟨_, rfl, sound.receives, sound.sending.packets, sound.sending.written⟩
  | sendDel serializer send =>
      exact ⟨_, rfl, sound.receives, sound.sending.packets, sound.sending.written⟩
  | read index input =>
      cases found : process.receives[index]? with
      | none =>
          refine ⟨process, ?_, sound⟩
          simp only [Process.step, found]
      | some connection =>
          have connected := sound.receives connection (List.mem_of_getElem? found)
          have short : connection.status = .live → input.length ≤ connection.reader.buf.room := by
            intro live
            obtain ⟨receive, status⟩ := connection
            cases live
            obtain ⟨moved, compact, space⟩ := connected.sound.valid.compact (connected.notFull rfl)
            rw [← space]
            exact possible receive found moved compact
          obtain ⟨after, sending, done, connected', fitting⟩ :=
            @Connected.receiveRead server Sending (sendWrite server outside) Sending.Fitting positions
              (fun fitting sane => fitting.sendWrite dumps packs outside sane) connection connected
              input short process.sending sound.sending
          refine ⟨{ receives := process.receives.set index after, sending := sending }, ?_,
            fun other member => ?_, fitting⟩
          · simp only [Process.step, found, done, Except.ok_bind, Except.pure_eq_ok]
          · rcases List.mem_or_eq_of_mem_set member with before | rfl
            · exact sound.receives other before
            · exact connected'

/-- **No input stops the process.** Whatever happens to a process that starts without receive
connections, no assertion fails; every packet that was given to `send_write` passed the checks, and
every text that was written fitted the buffer. So does each serializer's text of any such packet. -/
theorem process_safe (positions : server.jansson.Positions) (dumps : server.jansson.Dumps)
    (packs : server.protobuf.Packs) (outside : Outside) (sendHead : Serializer → List Send)
    (statsState : StatsState) (events : List Event)
    (happens : Process.Happens server outside
      ⟨[], ⟨sendHead, statsState, [], [], []⟩⟩ events) :
    (∃ final, Process.run server outside ⟨[], ⟨sendHead, statsState, [], [], []⟩⟩ events =
        .ok final ∧
      (∀ packet ∈ final.sending.packets, packetSanityCheck packet = .ok ()) ∧
      ∀ write ∈ final.sending.written, write.2.length ≤ bufLenMax) ∧
    ∀ packet, packetSanityCheck packet = .ok () → ∀ (serializer : Serializer) now stats,
      ∃ out after, serializer.serialize server now packet stats = .ok (out, after) ∧
        out.length ≤ bufLenMax := by
  constructor
  · have start : Process.Sound ⟨[], ⟨sendHead, statsState, [], [], []⟩⟩ := ⟨nofun, nofun, nofun⟩
    generalize Process.mk [] ⟨sendHead, statsState, [], [], []⟩ = process at start happens
    induction events generalizing process with
    | nil => exact ⟨process, rfl, start.sending.packets, start.sending.written⟩
    | cons event events ih =>
        obtain ⟨after, stepped, sound⟩ := start.step positions dumps packs outside happens.1
        obtain ⟨final, ran, passed⟩ := ih after sound (happens.2 after stepped)
        refine ⟨final, ?_, passed⟩
        rw [Process.run, List.foldlM_cons, stepped, Except.ok_bind]
        exact ran
  · intro packet checked serializer now stats
    exact serializer.serialize_fits dumps packs (packetSanityCheck_eq_ok.mp checked) now stats

/-- Whether an event is possible. -/
instance (process : Process) (event : Event) : Decidable (process.Possible event) :=
  match event with
  | .read index input =>
      match found : process.receives[index]? with
      | none => .isTrue fun _ there => by rw [found] at there; cases there
      | some ⟨receive, status⟩ =>
          decidable_of_iff (status = .live → ∀ moved, bufCompact receive.buf = .ok moved →
              input.length ≤ bufSpace moved) (by
            simp only [Process.Possible, found, Option.some.injEq, Reader.Connection.mk.injEq]
            constructor
            · rintro short other ⟨rfl, live⟩
              exact short live
            · rintro all rfl
              exact all receive ⟨rfl, rfl⟩)
  | .receiveNew .. | .sendNew .. | .sendDel .. => .isTrue trivial

/-- Whether each event is possible, by doing them. -/
def Process.decidableHappens (server : Server) (outside : Outside) :
    (process : Process) → (events : List Event) → Decidable (process.Happens server outside events)
  | _, [] => .isTrue trivial
  | _, _ :: events =>
      @instDecidableAnd _ _ inferInstance
        (@Except.decidableForallOk _ _ _ _ fun next =>
          next.decidableHappens server outside events)

instance (server : Server) (outside : Outside) (process : Process) (events : List Event) :
    Decidable (process.Happens server outside events) :=
  process.decidableHappens server outside events

/-- The time stands, and every write is taken. -/
def stillOutside : Outside where
  clock _ := 0
  takes _ := true

/-- A process with a connection to send raw to and one to send json to reads a frame in two
reads. -/
def sentOn : List Event :=
  [.sendNew .raw { fd := 7, stat := ⟨0, 7⟩ }, .sendNew .json { fd := 8, stat := ⟨0, 8⟩ },
    .receiveNew (Cells.fill 16 0) ⟨0, 0⟩ (Cells.fill bufLenMax 0),
    .read 0 (ascii "*00"), .read 0 (ascii "00;\n")]

/-- It sends the frame on to both. -/
theorem process_safe_sentOn :
    ∃ final, Process.run flatServer stillOutside
        ⟨[], ⟨fun _ => [], ⟨0, fun _ => 0, 0⟩, [], [], []⟩⟩ sentOn = .ok final ∧
      (∀ packet ∈ final.sending.packets, packetSanityCheck packet = .ok ()) ∧
      (∀ write ∈ final.sending.written, write.2.length ≤ bufLenMax) ∧
      final.sending.packets.length = 1 ∧ final.sending.written.map Prod.fst = [8, 7] ∧
      (7, ascii "*0000;\n") ∈ final.sending.written := by
  obtain ⟨⟨final, ran, checked, short⟩, _⟩ := @process_safe flatServer Jansson.flat_positions
    Jansson.flat_dumps Protobuf.reading_packs stillOutside (fun _ => []) ⟨0, fun _ => 0, 0⟩ sentOn
    (by decide +kernel)
  have sent : (Process.run flatServer stillOutside
      ⟨[], ⟨fun _ => [], ⟨0, fun _ => 0, 0⟩, [], [], []⟩⟩ sentOn).toOption.map (fun final =>
        (final.sending.packets.length, final.sending.written.map Prod.fst,
          final.sending.written.getLast?)) = some (1, [8, 7], some (7, ascii "*0000;\n")) := by
    decide +kernel
  rw [ran] at sent
  obtain ⟨packets, sockets, last⟩ := by
    simpa only [Except.toOption, Option.map_some, Option.some.injEq, Prod.mk.injEq] using sent
  exact ⟨final, ran, checked, short, packets, sockets, List.mem_of_getLast? last⟩

end Adsbus

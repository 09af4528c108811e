import Adsbus.Formats.Record

/-! # Json and proto agree

The two record formats are two encodings of one protocol. Their parsers take the
same records and make the same of them, but for one check: a signal strength
above the bound that the header has set is refused by the json parser only
(`Adsbus.json_proto_agree_iff`).
-/

namespace Adsbus

/-- A parser takes something at the front of the buffer, and leaves this packet and state. -/
def Takes (parse : Parse) (attempt : Attempt) (packet : Packet) (state : ParserState) : Prop :=
  ∃ buf, parse attempt = .ok (true, { buf := buf, packet := packet, state := state })

/-- A record that both formats can express: its json integers have 63 bits. -/
def Content.Representable : Content → Prop
  | .header sent => sent.mlatTimestampMax.toNat < 2 ^ 63
  | .packet type sent =>
      type ≠ .none ∧ ∀ timestamp ∈ sent.mlatTimestamp, timestamp.toNat < 2 ^ 63

/-- A packet that passes the checks of both formats and can be scaled has a signal strength within
the bound of the header. -/
def Content.Bounded (state : ParserState) : Content → Prop
  | .header _ => True
  | .packet type sent => sent.Checked type state →
      (sent.mlatTimestamp ≠ none → state.mlatTimestampMhz ≠ 0) → state.rssiMax ≠ 0 →
        ∀ rssi ∈ sent.rssi, rssi ≤ state.rssiMax

/-- Taking a json record is taking its object. -/
theorem takes_jsonParse {jansson : Jansson} (positions : jansson.Positions) (serverId : CString)
    {attempt : Attempt} (valid : attempt.buf.Valid) {fields : List (Bytes × Json)}
    {position : Nat}
    (loaded : jansson.loadb attempt.buf.window = some (.object fields, position))
    (packet : Packet) (state : ParserState) :
    Takes (jsonParse jansson serverId) attempt packet state ↔
      jsonParseObject serverId (.object fields) attempt.packet attempt.state =
        .ok (true, packet, state) := by
  have whole : bufAt attempt.buf 0 attempt.buf.length = attempt.buf.window := rfl
  constructor
  · rintro ⟨left, parsed⟩
    simp only [jsonParse, whole, loaded] at parsed
    obtain ⟨⟨found, packet', state'⟩, parsed', rest⟩ := Except.bind_eq_ok.mp parsed
    cases found with
    | false => cases rest
    | true =>
        simp only [Bool.not_true, Bool.false_eq_true, ↓reduceIte, Except.bind_eq_ok,
          Except.pure_eq_ok, Except.ok.injEq, Prod.mk.injEq, Attempt.mk.injEq, true_and] at rest
        obtain ⟨_, _, _, _, _, _, _, rfl, rfl⟩ := rest
        exact parsed'
  · intro parsed
    obtain ⟨rest, taken, _⟩ := jsonParse_of_object positions valid loaded parsed
    exact ⟨rest, taken⟩

/-- Taking a proto record is taking its message. -/
theorem takes_protoParse {protobuf : Protobuf} (serverId : CString) {attempt : Attempt}
    (valid : attempt.buf.Valid) {bytes more : Bytes} {msg : Adsb}
    (wrapped : attempt.buf.window = Wire.blob 1 bytes ++ more)
    (unpacked : protobuf.unpack bytes = some msg) (packet : Packet) (state : ParserState) :
    Takes (protoParse protobuf serverId) attempt packet state ↔
      protoParseRecord serverId msg attempt.packet attempt.state = .ok (true, packet, state) := by
  constructor
  · rintro ⟨left, parsed⟩
    have unwrapped := @protoUnwrap_blob protobuf _ valid bytes more wrapped
    rw [unpacked, Option.map_some] at unwrapped
    simp only [protoParse, unwrapped] at parsed
    obtain ⟨⟨found, packet', state'⟩, parsed', rest⟩ := Except.bind_eq_ok.mp parsed
    cases found with
    | false => cases rest
    | true =>
        simp only [Bool.not_true, Bool.false_eq_true, ↓reduceIte, Except.bind_eq_ok,
          Except.pure_eq_ok, Except.ok.injEq, Prod.mk.injEq, Attempt.mk.injEq, true_and] at rest
        obtain ⟨_, _, _, rfl, rfl⟩ := rest
        exact parsed'
  · intro parsed
    obtain ⟨rest, taken, _⟩ := protoParse_of_blob valid wrapped unpacked parsed
    exact ⟨rest, taken⟩

/-- A packet can be stored when the ranges that it needs are positive. -/
theorem AdsbPacket.stored_of_scaled (sent : AdsbPacket) (type : PacketType) (base : Packet)
    {state : ParserState} (mhz : sent.mlatTimestamp ≠ none → state.mlatTimestampMhz ≠ 0)
    (rssiMax : sent.rssi ≠ none → state.rssiMax ≠ 0) :
    ∃ packet after, sent.stored type base state = .ok (packet, after) := by
  obtain ⟨scaled, timed⟩ : ∃ scaled, sent.scaledTimestamp base.mlatTimestamp state = .ok scaled := by
    rw [AdsbPacket.scaledTimestamp]
    cases timed : sent.mlatTimestamp with
    | none => exact ⟨_, rfl⟩
    | some timestamp =>
        refine ⟨_, packetMlatTimestampScaleIn_of_pos (mhz ?_) _ _ _⟩
        rw [timed]
        exact Option.some_ne_none timestamp
  obtain ⟨rssi, strong⟩ : ∃ rssi, sent.scaledRssi base.rssi state.rssiMax = .ok rssi := by
    rw [AdsbPacket.scaledRssi]
    cases strong : sent.rssi with
    | none => exact ⟨_, rfl⟩
    | some rssi =>
        refine ⟨_, packetRssiScaleIn_of_pos (UInt32.pos_iff_ne_zero.mpr (rssiMax ?_)) _⟩
        rw [strong]
        exact Option.some_ne_none rssi
  simp only [AdsbPacket.stored, timed, strong, Except.ok_bind, Except.pure_eq_ok]
  exact ⟨_, _, rfl⟩

theorem AdsbPacket.scaled_of_stored {sent : AdsbPacket} {type : PacketType} {base packet : Packet}
    {state after : ParserState} (stored : sent.stored type base state = .ok (packet, after)) :
    (sent.mlatTimestamp ≠ none → state.mlatTimestampMhz ≠ 0) ∧
      (sent.rssi ≠ none → state.rssiMax ≠ 0) := by
  simp only [AdsbPacket.stored, Except.bind_eq_ok] at stored
  obtain ⟨scaled, timed, rssi, strong, _⟩ := stored
  constructor
  · intro present zero
    obtain ⟨timestamp, same⟩ := Option.ne_none_iff_exists'.mp present
    rw [AdsbPacket.scaledTimestamp, same, zero] at timed
    cases timed
  · intro present zero
    obtain ⟨value, same⟩ := Option.ne_none_iff_exists'.mp present
    rw [AdsbPacket.scaledRssi, same, zero] at strong
    cases strong

/-- **Json and proto agree.** The json parser takes a record exactly as the proto parser does,
unless the record is a packet with a signal strength above the bound of the header. -/
theorem json_proto_agree_iff {jansson : Jansson} (positions : jansson.Positions)
    {protobuf : Protobuf} (serverId : CString) {content : Content}
    (representable : content.Representable) {jsonBuf protoBuf : Buf UInt8} (jsonValid : jsonBuf.Valid)
    (protoValid : protoBuf.Valid) {fields : List (Bytes × Json)} {position : Nat}
    (loaded : jansson.loadb jsonBuf.window = some (.object fields, position))
    (holds : (Json.object fields).Holds content.fields) {more : Bytes}
    (wrapped : protoBuf.window = Wire.blob 1 content.message.wire ++ more)
    (unpacked : protobuf.unpack content.message.wire = some content.message) (base : Packet)
    (state : ParserState) :
    (∀ packet after,
      Takes (jsonParse jansson serverId) { buf := jsonBuf, packet := base, state := state }
          packet after ↔
        Takes (protoParse protobuf serverId) { buf := protoBuf, packet := base, state := state }
          packet after) ↔
      content.Bounded state := by
  have json := @takes_jsonParse jansson positions serverId
    { buf := jsonBuf, packet := base, state := state } jsonValid fields position loaded
  have proto := @takes_protoParse protobuf serverId
    { buf := protoBuf, packet := base, state := state } protoValid _ more _ wrapped unpacked
  simp only [json, proto]
  cases content with
  | header sent =>
      simp only [jsonParseObject_header serverId holds representable,
        protoParseRecord_header, Content.Bounded, implies_true]
  | packet type sent =>
      obtain ⟨typed, natural⟩ := representable
      simp only [jsonParseObject_packet serverId typed holds natural,
        protoParseRecord_packet serverId typed, Content.Bounded]
      constructor
      · intro agree checked mhz rssiMax
        obtain ⟨packet, after, stored⟩ := sent.stored_of_scaled type base mhz fun _ => rssiMax
        exact ((agree packet after).mpr ⟨checked, stored⟩).2.1
      · intro bounded packet after
        refine ⟨fun taken => ⟨taken.1, taken.2.2⟩, fun taken => ⟨taken.1, ?_, taken.2⟩⟩
        obtain ⟨checked, stored⟩ := taken
        obtain ⟨mhz, rssiMax⟩ := AdsbPacket.scaled_of_stored stored
        intro rssi member
        refine bounded checked mhz (rssiMax ?_) rssi member
        rw [Option.mem_def.mp member]
        exact Option.some_ne_none rssi

/-- A packet with a signal strength of 1001. -/
def loudPacket : AdsbPacket where
  sourceId := .ofAscii "a"
  hops := 0
  mlatTimestamp := none
  rssi := some 1001
  payload := [0, 0]

/-- The state behind a header with a given bound of the signal strength. -/
def stateBounded (rssiMax : UInt32) : ParserState :=
  { parserStateInit with
    mlatTimestampMhz := 120, mlatTimestampMax := 1, rssiMax := rssiMax, haveHeader := true }

theorem loudPacket_representable : (Content.packet .modeAc loudPacket).Representable :=
  ⟨by decide, fun timestamp member => absurd member (Option.not_mem_none timestamp)⟩

theorem loudPacket_flat : Json.Flat (Content.packet .modeAc loudPacket).fields :=
  Content.flat_packet .modeAc (by decide)

theorem loudPacket_fits :
    (Jansson.flat.text (.object (Content.packet .modeAc loudPacket).fields)).length ≤ bufLenMax ∧
      (Wire.blob 1 (Content.packet .modeAc loudPacket).message.wire).length ≤ bufLenMax := by
  decide +kernel

theorem loudPacket_loaded (state : ParserState) :
    Jansson.flat.loadb (attemptOn
      (Jansson.flat.text (.object (Content.packet .modeAc loudPacket).fields)) state).buf.window =
      some (.object (Content.packet .modeAc loudPacket).fields,
        (Jansson.flat.text (.object (Content.packet .modeAc loudPacket).fields)).length) := by
  rw [attemptOn, Buf.window_bufHolding _ loudPacket_fits.1]
  exact Jansson.flat_loadb loudPacket_flat

theorem loudPacket_wrapped (state : ParserState) :
    (attemptOn (Wire.blob 1 (Content.packet .modeAc loudPacket).message.wire) state).buf.window =
      Wire.blob 1 (Content.packet .modeAc loudPacket).message.wire ++ [] := by
  rw [attemptOn, Buf.window_bufHolding _ loudPacket_fits.2, List.append_nil]

/-- A signal strength within the bound is taken by both parsers or by none. -/
theorem json_proto_agree_loud :
    (1001 : UInt32) ≤ (stateBounded 2000).rssiMax ∧ ∀ packet after,
      Takes (jsonParse Jansson.flat (.ofAscii "me")) (attemptOn (Jansson.flat.text
          (.object (Content.packet .modeAc loudPacket).fields)) (stateBounded 2000)) packet after ↔
        Takes (protoParse Protobuf.reading (.ofAscii "me")) (attemptOn (Wire.blob 1
          (Content.packet .modeAc loudPacket).message.wire) (stateBounded 2000)) packet after := by
  have bounded : (1001 : UInt32) ≤ (stateBounded 2000).rssiMax := by decide
  refine ⟨bounded, (@json_proto_agree_iff _ Jansson.flat_positions _ _ _ loudPacket_representable
    _ _ (Buf.valid_bufHolding _ loudPacket_fits.1) (Buf.valid_bufHolding _ loudPacket_fits.2) _ _
    (loudPacket_loaded (stateBounded 2000)) (fun _ => rfl) _ (loudPacket_wrapped (stateBounded 2000))
    (Protobuf.reading_unpacks _) _ _).mpr ?_⟩
  intro _ _ _ rssi same
  rw [← Option.some.inj same]
  exact bounded

/-- A signal strength above the bound is taken by the proto parser only. -/
theorem json_proto_differ :
    ¬ ∀ packet after,
      Takes (jsonParse Jansson.flat (.ofAscii "me")) (attemptOn (Jansson.flat.text
          (.object (Content.packet .modeAc loudPacket).fields)) (stateBounded 1000)) packet after ↔
        Takes (protoParse Protobuf.reading (.ofAscii "me")) (attemptOn (Wire.blob 1
          (Content.packet .modeAc loudPacket).message.wire) (stateBounded 1000)) packet after := by
  intro agree
  have json := takes_jsonParse Jansson.flat_positions (.ofAscii "me")
    (Buf.valid_bufHolding _ loudPacket_fits.1) (loudPacket_loaded (stateBounded 1000))
  have proto := @takes_protoParse Protobuf.reading (.ofAscii "me") _
    (Buf.valid_bufHolding _ loudPacket_fits.2) _ _ _ (loudPacket_wrapped (stateBounded 1000))
    (Protobuf.reading_unpacks _)
  have typed : PacketType.modeAc ≠ .none := by decide
  obtain ⟨packet, after, stored⟩ := loudPacket.stored_of_scaled .modeAc
    (attemptOn [] (stateBounded 1000)).packet (fun _ => (by decide : (120 : UInt16) ≠ 0))
    fun _ => (by decide : (stateBounded 1000).rssiMax ≠ 0)
  have taken := (protoParseRecord_packet (.ofAscii "me") typed loudPacket _ packet _ after).mpr
    ⟨⟨rfl, by decide, rfl⟩, stored⟩
  have refused := (json packet after).mp ((agree packet after).mpr ((proto packet after).mpr taken))
  have bounded := ((jsonParseObject_packet (.ofAscii "me") typed (fun _ => rfl)
    loudPacket_representable.2 _ packet _
    after).mp refused).2.1 1001 rfl
  exact absurd bounded (by decide)

end Adsbus

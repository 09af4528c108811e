import Adsbus.Formats.ProtoPrefix

/-! # The texts of the proto format

The record of a packet is short, so that its length takes one byte, and it fits
the buffer. -/

namespace Adsbus

variable {protobuf : Protobuf}

/-- The record of a packet. -/
def protoMessage (packet : Packet) : Adsb :=
  match packet.type with
  | .none => adsbInit
  | .modeAc => { adsbInit with modeAc := some (protoSerializePacket packet 2) }
  | .modeSShort => { adsbInit with modeSShort := some (protoSerializePacket packet 7) }
  | .modeSLong => { adsbInit with modeSLong := some (protoSerializePacket packet 14) }

/-- The message of a packet in its record. -/
def protoPacket (packet : Packet) : AdsbPacket :=
  protoSerializePacket packet (packetPayloadLen packet.type)

theorem protoPacket_length {packet : Packet} (valid : packetValidateId (some packet.sourceId)) :
    (protoPacket packet).wire.length ≤ 74 := by
  have id := (packetValidateId_iff.mp valid).1
  rw [uuidLen] at id
  have source : (Wire.blob 1 packet.sourceId.bytes).length ≤ 38 := by
    rw [Wire.blob_length (by decide) (by omega)]
    omega
  have hops : (Wire.integer 2 packet.hops.toNat).length ≤ 6 := by
    have small := packet.hops.toNat_lt
    exact Wire.integer_length_le (by decide) (by omega)
  have timestamp :
      (Wire.optional (Wire.fixed64 3) (protoPacket packet).mlatTimestamp).length ≤ 9 :=
    Wire.optional_length_le fun value => (Wire.fixed64_length (by decide) value).le
  have rssi : (Wire.optional (Wire.fixed32 4) (protoPacket packet).rssi).length ≤ 5 :=
    Wire.optional_length_le fun value => (Wire.fixed32_length (by decide) value).le
  have payload : (Wire.blob 5 packet.data).length ≤ 16 := by
    have short : packetPayloadLen packet.type ≤ 14 := packetPayloadLen_le packet.type
    rw [Wire.blob_length (by decide) (by rw [Packet.data_length]; omega), Packet.data_length]
    omega
  change (Wire.blob 1 packet.sourceId.bytes ++ Wire.integer 2 packet.hops.toNat ++ _ ++ _ ++
    Wire.blob 5 packet.data).length ≤ 74
  simp only [List.length_append]
  omega

/-- A packet's record is its message behind a tag and a length. -/
theorem protoMessage_wire {packet : Packet} (typed : packet.type ≠ .none) :
    ∃ number < 15, (protoMessage packet).wire = Wire.blob number (protoPacket packet).wire := by
  rw [protoMessage, protoPacket]
  cases kind : packet.type with
  | none => exact absurd kind typed
  | modeAc => exact ⟨2, by decide, by simp [Adsb.wire, adsbInit, Wire.optional, packetPayloadLen]⟩
  | modeSShort =>
      exact ⟨3, by decide, by simp [Adsb.wire, adsbInit, Wire.optional, packetPayloadLen]⟩
  | modeSLong =>
      exact ⟨4, by decide, by simp [Adsb.wire, adsbInit, Wire.optional, packetPayloadLen]⟩

theorem protoMessage_length {packet : Packet} (sane : packet.Sane) :
    (protoMessage packet).wire.length ≤ 76 := by
  obtain ⟨number, small, wire⟩ := protoMessage_wire sane.type
  have := protoPacket_length sane.sourceId
  rw [wire, Wire.blob_length small (by omega)]
  omega

/-- A short message is wrapped behind a tag and a length of one byte. -/
theorem protoWrapToBuf_eq (packs : protobuf.Packs) {msg : Adsb} (short : msg.wire.length < 128) :
    protoWrapToBuf protobuf msg [] = .ok (Wire.blob 1 msg.wire) ∧
      (Wire.blob 1 msg.wire).length = msg.wire.length + 2 := by
  have wire : AdsbStream.wire { msg := [msg] } = Wire.blob 1 msg.wire :=
    List.append_nil _
  have length := Wire.blob_length (show 1 < 15 by decide) short
  refine ⟨?_, length⟩
  have small : msg.wire.length + 2 ≤ bufLenMax := by
    rw [bufLenMax]
    omega
  simp only [protoWrapToBuf, protoObjToBuf, packs.pack, packs.packedSize, wire, length, small,
    List.length_nil, decide_true, check_true, Except.ok_bind, ne_eq, Nat.add_eq_zero_iff,
    OfNat.ofNat_ne_zero, and_false, not_false_eq_true, Except.pure_eq_ok]

/-- A packet is serialized to its record, wrapped. -/
theorem protoSerialize_eq (packs : protobuf.Packs) {packet : Packet} (sane : packet.Sane) :
    protoSerialize protobuf packet [] = .ok (Wire.blob 1 (protoMessage packet).wire) := by
  have short := protoMessage_length sane
  have wrapped := (@protoWrapToBuf_eq _ packs (protoMessage packet) (by omega)).1
  rw [← wrapped, protoSerialize, protoMessage]
  cases kind : packet.type with
  | none => exact absurd kind sane.type
  | modeAc => rfl
  | modeSShort => rfl
  | modeSLong => rfl

/-! ## Unwrapping -/

/-- A length below 256 is read back, whatever follows it. -/
theorem protoParseVarintLoop_varint {value : Nat} (small : value < 256) (rest : Bytes)
    (start : Nat) :
    protoParseVarintLoop (Wire.varint value ++ rest) start 0 0 =
      some (UInt64.ofNat value, start + (Wire.varint value).length) := by
  refine protoParseVarintLoop_start.mpr ⟨_, ?_, Wire.varint_length_le (by omega), ⟨rest, rfl⟩, rfl⟩
  rw [UInt64.toNat_ofNat', Nat.mod_eq_of_lt (by omega)]
  exact Wire.base128_varint value

/-- A part of a length is not read. -/
theorem protoParseVarintLoop_part {value : Nat} {part : Bytes} (inside : part <+: Wire.varint value)
    (proper : part ≠ Wire.varint value) (start : Nat) :
    protoParseVarintLoop part start 0 0 = none := by
  refine Option.eq_none_iff_forall_ne_some.mpr fun ⟨result, stop⟩ parsed => ?_
  obtain ⟨bytes, spelled, -, front, -⟩ := protoParseVarintLoop_start.mp parsed
  obtain ⟨rfl, -⟩ := spelled.unique (Wire.base128_varint value) (front.trans inside)
    (List.prefix_refl _)
  exact proper (inside.eq_of_length_le front.length_le)

/-- **Unwrapping.** A wrapped record is found at the front of the buffer. -/
theorem protoUnwrap_blob {buf : Buf UInt8} (valid : buf.Valid) {bytes more : Bytes}
    (window : buf.window = Wire.blob 1 bytes ++ more) :
    protoUnwrap protobuf buf =
      (protobuf.unpack bytes).map fun msg => (msg, (Wire.blob 1 bytes).length) := by
  have length := valid.window_length
  have inside := valid.inside
  have text : buf.window = 10 :: (Wire.varint bytes.length ++ (bytes ++ more)) := by
    rw [window, Wire.blob_one, List.cons_append, List.append_assoc]
  have count : (Wire.blob 1 bytes).length = 1 + (Wire.varint bytes.length).length + bytes.length := by
    rw [Wire.blob_one, List.length_cons, List.length_append]
    omega
  have positive := Wire.varint_length_pos bytes.length
  rw [text, List.length_cons, List.length_append, List.length_append] at length
  rw [bufLenMax] at inside
  have small : bytes.length < 256 := by omega
  have first : bufChr buf 0 = 10 := by
    refine (valid.window_eq_some.mp ?_).2
    rw [text]
    rfl
  have header : protoParseVarint buf 1 =
      some (UInt64.ofNat bytes.length, 1 + (Wire.varint bytes.length).length) := by
    rw [protoParseVarint, Buf.bufAt_eq (by omega), text, List.drop_one, List.tail_cons,
      List.take_of_length_le (by simp only [List.length_append]; omega),
      protoParseVarintLoop_varint small]
  have msgLen : (UInt64.ofNat bytes.length).toNat = bytes.length := by
    rw [UInt64.toNat_ofNat']
    omega
  have body : bufAt buf (1 + (Wire.varint bytes.length).length) bytes.length = bytes := by
    rw [Buf.bufAt_eq (by omega), text, Nat.add_comm, List.drop_succ_cons, List.drop_left, List.take_left]
  rw [protoUnwrap, if_neg (by omega), if_neg (by rw [first]; decide), header]
  simp only [msgLen, body, count]
  rw [if_neg (by omega)]

/-- A part of a wrapped record is not unwrapped. -/
theorem protoUnwrap_part {buf : Buf UInt8} (valid : buf.Valid) {bytes : Bytes}
    (small : bytes.length < 256) (inside : buf.window <+: Wire.blob 1 bytes)
    (proper : buf.window ≠ Wire.blob 1 bytes) : protoUnwrap protobuf buf = none := by
  have length := valid.window_length
  generalize view : buf.window = window at inside proper length
  cases window with
  | nil =>
      rw [List.length_nil] at length
      rw [protoUnwrap, if_pos (by omega)]
  | cons c window =>
      rw [Wire.blob_one] at inside proper
      obtain ⟨rfl, behind⟩ := List.cons_prefix_cons.mp inside
      replace proper : window ≠ Wire.varint bytes.length ++ bytes := fun same =>
        proper (by rw [same])
      rw [List.length_cons] at length
      have header : protoParseVarint buf 1 = protoParseVarintLoop window 1 0 0 := by
        rw [protoParseVarint, Buf.bufAt_eq (by omega), view, List.drop_one, List.tail_cons,
          List.take_of_length_le (by omega)]
      have msgLen : (UInt64.ofNat bytes.length).toNat = bytes.length := by
        rw [UInt64.toNat_ofNat']
        omega
      rw [protoUnwrap, header]
      split
      · rfl
      · split
        · rfl
        · -- Either the length is not complete, or what it announces is not.
          by_cases complete : Wire.varint bytes.length <+: window
          · obtain ⟨body, rfl⟩ := complete
            rw [List.prefix_append_right_inj] at behind
            have missing : body.length ≠ bytes.length := fun same =>
              proper (by rw [behind.eq_of_length same])
            have shorter := behind.length_le
            rw [List.length_append] at length
            rw [protoParseVarintLoop_varint small]
            simp only [msgLen]
            rw [if_pos (by omega)]
          · have part := (List.prefix_or_prefix_of_prefix behind
              (List.prefix_append _ bytes)).resolve_right complete
            rw [protoParseVarintLoop_part part fun same => complete (by rw [same])]

/-! ## Records at the front of the buffer -/

variable {serverId : CString} {attempt : Attempt}

/-- A record that is unwrapped and found is consumed. -/
theorem protoParse_of_blob (valid : attempt.buf.Valid) {bytes more : Bytes} {msg : Adsb}
    (window : attempt.buf.window = Wire.blob 1 bytes ++ more)
    (unpacked : protobuf.unpack bytes = some msg) {packet : Packet} {state : ParserState}
    (parsed : protoParseRecord serverId msg attempt.packet attempt.state =
      .ok (true, packet, state)) :
    ∃ rest, protoParse protobuf serverId attempt =
        .ok (true, { buf := rest, packet := packet, state := state }) ∧
      rest.Valid ∧ rest.window = more := by
  have unwrapped := @protoUnwrap_blob protobuf _ valid bytes more window
  rw [unpacked, Option.map_some] at unwrapped
  have inside : (Wire.blob 1 bytes).length ≤ attempt.buf.length := by
    rw [← valid.window_length, window, List.length_append]
    exact Nat.le_add_right _ _
  obtain ⟨rest, consumed, valid', _, left⟩ := Buf.consume valid.inside _ inside
  refine ⟨rest, ?_, valid', by rw [left, window, List.drop_left]⟩
  simp only [protoParse, unwrapped, parsed, Except.ok_bind, Bool.not_true, Bool.false_eq_true,
    ↓reduceIte, consumed, Except.pure_eq_ok]

end Adsbus

import Adsbus.Core.Integers
import Adsbus.Formats.Json

/-! # The texts of the json format

The object of a packet has at most six members, and its text with a line feed
fits the buffer. -/

namespace Adsbus

variable {jansson : Jansson}

/-! ## Serializing to a buffer -/

/-- The pieces of a text are appended as long as a byte is left behind them. -/
theorem foldlM_jsonBufAppendCallback (pieces : List Bytes) (buf : Bytes)
    (fits : buf.length + pieces.flatten.length + 1 ≤ bufLenMax) :
    pieces.foldlM jsonBufAppendCallback buf = some (buf ++ pieces.flatten) := by
  induction pieces generalizing buf with
  | nil => simp only [List.foldlM_nil, Option.pure_def, List.flatten_nil, List.append_nil]
  | cons piece pieces ih =>
      rw [List.flatten_cons, List.length_append] at fits
      have here : jsonBufAppendCallback buf piece = some (buf ++ piece) :=
        if_neg (by omega)
      rw [List.foldlM_cons, here, List.flatten_cons, ← List.append_assoc]
      exact ih (buf ++ piece) (by rw [List.length_append]; omega)

/-- A text that fits the buffer with a line feed is serialized. -/
theorem jsonSerializeToBuf_eq {obj : Json} {buf : Bytes}
    (fits : buf.length + (jansson.text obj).length + 1 ≤ bufLenMax) :
    jsonSerializeToBuf jansson obj buf = .ok (buf ++ jansson.text obj ++ ['\n'.toUInt8]) := by
  rw [jsonSerializeToBuf, jsonDumpCallback, foldlM_jsonBufAppendCallback _ _ fits]
  rfl

/-- What is serialized is the text and a line feed. -/
theorem jsonSerializeToBuf_text {obj : Json} {buf out : Bytes}
    (ran : jsonSerializeToBuf jansson obj buf = .ok out) :
    out = buf ++ jansson.text obj ++ ['\n'.toUInt8] := by
  have appended : ∀ (pieces : List Bytes) (buf out : Bytes),
      pieces.foldlM jsonBufAppendCallback buf = some out → out = buf ++ pieces.flatten := by
    intro pieces
    induction pieces with
    | nil =>
        intro buf out ran
        cases ran
        rw [List.flatten_nil, List.append_nil]
    | cons piece pieces ih =>
        intro buf out ran
        rw [List.foldlM_cons] at ran
        obtain ⟨between, here, ran⟩ := Option.bind_eq_some_iff.mp ran
        rw [jsonBufAppendCallback] at here
        split at here
        · cases here
        · cases here
          rw [ih _ _ ran, List.flatten_cons, List.append_assoc]
  rw [jsonSerializeToBuf] at ran
  split at ran
  · next text dumped =>
      cases ran
      rw [appended _ _ _ dumped]
      rfl
  · cases ran

/-! ## The object of a packet -/

/-- The members of a packet's object in the order in which they are set. -/
def jsonPacketFields (packet : Packet) : List (Bytes × Json) :=
  [(ascii "payload", .string (hexFromBinUpper packet.data)),
    (ascii "hops", .integer packet.hops.toUInt64.toInt64),
    (ascii "type", .string (packetTypeNames packet.type).bytes),
    (ascii "source_id", .string packet.sourceId.bytes)] ++
  ((if packet.mlatTimestamp ≠ 0 then
      [(ascii "mlat_timestamp", .integer (packet.mlatTimestamp % packetMlatMax).toInt64)] else []) ++
    if packet.rssi ≠ 0 then
      [(ascii "rssi", .integer packet.rssi.toUInt64.toInt64)] else [])

theorem jsonObjectSet_new {fields : List (Bytes × Json)} {key : Bytes}
    (new : key ∉ fields.map Prod.fst) (value : Json) :
    jsonObjectSet fields key value = fields ++ [(key, value)] := by
  refine if_neg fun old => ?_
  obtain ⟨field, member, same⟩ := List.any_eq_true.mp old
  exact new (List.mem_map.mpr ⟨field, member, beq_iff_eq.mp same⟩)

theorem jsonPacketObject_eq (packet : Packet) :
    jsonPacketObject packet = jsonPacketFields packet := by
  have hops : ∀ p v, jsonObjectSet [(ascii "payload", p)] (ascii "hops") v =
      [(ascii "payload", p), (ascii "hops", v)] :=
    fun _ _ => jsonObjectSet_new (show _ ∉ [ascii "payload"] by decide) _
  have type : ∀ p h v, jsonObjectSet [(ascii "payload", p), (ascii "hops", h)] (ascii "type") v =
      [(ascii "payload", p), (ascii "hops", h), (ascii "type", v)] :=
    fun _ _ _ => jsonObjectSet_new (show _ ∉ [ascii "payload", ascii "hops"] by decide) _
  have source : ∀ p h t v, jsonObjectSet
      [(ascii "payload", p), (ascii "hops", h), (ascii "type", t)] (ascii "source_id") v =
      [(ascii "payload", p), (ascii "hops", h), (ascii "type", t), (ascii "source_id", v)] :=
    fun _ _ _ _ => jsonObjectSet_new
      (show _ ∉ [ascii "payload", ascii "hops", ascii "type"] by decide) _
  have timestamp : ∀ p h t s v, jsonObjectSet
      [(ascii "payload", p), (ascii "hops", h), (ascii "type", t), (ascii "source_id", s)]
        (ascii "mlat_timestamp") v =
      [(ascii "payload", p), (ascii "hops", h), (ascii "type", t), (ascii "source_id", s),
        (ascii "mlat_timestamp", v)] :=
    fun _ _ _ _ _ => jsonObjectSet_new
      (show _ ∉ [ascii "payload", ascii "hops", ascii "type", ascii "source_id"] by decide) _
  have rssi : ∀ p h t s v, jsonObjectSet
      [(ascii "payload", p), (ascii "hops", h), (ascii "type", t), (ascii "source_id", s)]
        (ascii "rssi") v =
      [(ascii "payload", p), (ascii "hops", h), (ascii "type", t), (ascii "source_id", s),
        (ascii "rssi", v)] :=
    fun _ _ _ _ _ => jsonObjectSet_new
      (show _ ∉ [ascii "payload", ascii "hops", ascii "type", ascii "source_id"] by decide) _
  have rssi' : ∀ p h t s m v, jsonObjectSet
      [(ascii "payload", p), (ascii "hops", h), (ascii "type", t), (ascii "source_id", s),
        (ascii "mlat_timestamp", m)] (ascii "rssi") v =
      [(ascii "payload", p), (ascii "hops", h), (ascii "type", t), (ascii "source_id", s),
        (ascii "mlat_timestamp", m), (ascii "rssi", v)] :=
    fun _ _ _ _ _ _ => jsonObjectSet_new (show _ ∉ [ascii "payload", ascii "hops", ascii "type",
      ascii "source_id", ascii "mlat_timestamp"] by decide) _
  simp only [jsonPacketObject, jsonAddCommon, jsonPacketFields, hops, type, source, timestamp]
  split_ifs
  · rw [rssi']
    rfl
  · rw [rssi]
    rfl
  · rfl
  · rfl

/-- The keys of a packet's object in the order in which they are set. -/
def jsonPacketKeys : List Bytes :=
  ["payload", "hops", "type", "source_id", "mlat_timestamp", "rssi"].map ascii

/-- Each member is under its own key. -/
theorem jsonPacketFields_keys (packet : Packet) :
    ((jsonPacketFields packet).map Prod.fst).Sublist jsonPacketKeys := by
  rw [jsonPacketFields, List.map_append, List.map_append]
  refine List.Sublist.append (List.Sublist.refl _) ?_
  change List.Sublist _ ([ascii "mlat_timestamp"] ++ [ascii "rssi"])
  refine List.Sublist.append ?_ ?_
  · split
    · exact List.Sublist.refl _
    · exact List.nil_sublist _
  · split
    · exact List.Sublist.refl _
    · exact List.nil_sublist _

theorem jsonPacketKeys_plain {key : Bytes} (member : key ∈ jsonPacketKeys) :
    ∀ c ∈ key, Json.IsPlain c := by
  have all : ∀ key ∈ jsonPacketKeys, ∀ c ∈ key, Json.IsPlain c := by decide +kernel
  exact all key member

theorem hexFromBinUpper_plain (data : Bytes) : ∀ c ∈ hexFromBinUpper data,
    Json.IsPlain c ∧ c ≠ Json.quotationMark ∧ c ≠ Json.backslash := by
  intro c member
  have all : ∀ value : Fin 256, IsHex (UInt8.ofNat value) →
      Json.IsPlain (UInt8.ofNat value) ∧ UInt8.ofNat value ≠ Json.quotationMark ∧
        UInt8.ofNat value ≠ Json.backslash := by decide +kernel
  have hex := (unhex_isHex (hexFromBin_length _ data) (unhex_hexFromBinUpper data)).2 c member
  have plain := all ⟨c.toNat, c.toNat_lt⟩
  simp only [UInt8.ofNat_toNat] at plain
  exact plain hex

/-- The length of a member's text. -/
theorem member_length (key text : Bytes) :
    (Json.member key text).length = (Json.quote key).length + 2 + text.length := by
  simp only [Json.member, List.length_append, List.length_cons, List.length_nil]

theorem packetTypeNames_plain (type : PacketType) : ∀ c ∈ (packetTypeNames type).bytes,
    Json.IsPlain c ∧ c ≠ Json.quotationMark ∧ c ≠ Json.backslash := by
  cases type <;> decide +kernel

theorem jsonPacketFields_plain (packet : Packet) :
    ∀ field ∈ jsonPacketFields packet, ∀ c ∈ field.1, Json.IsPlain c := fun _ member =>
  jsonPacketKeys_plain ((jsonPacketFields_keys packet).subset (List.mem_map_of_mem member))

/-- The text of a packet's object leaves room for more than its line feed. -/
theorem jsonPacketText_length (dumps : jansson.Dumps) {packet : Packet} (sane : packet.Sane) :
    (jansson.text (.object (jsonPacketObject packet))).length ≤ 235 := by
  obtain ⟨idLength, idPrintable⟩ := packetValidateId_iff.mp sane.sourceId
  have natural : ∀ {value : UInt64} {count : Nat}, 0 < count → value.toNat < 2 ^ 63 →
      value.toNat < 10 ^ count →
      (jansson.text (.integer value.toInt64)).length ≤ count := by
    intro value count positive half small
    have same := toInt_toInt64 half
    exact dumps.natural_length_le positive (by omega) (by rw [same]; exact_mod_cast small)
  have payload : (jansson.text (.string (hexFromBinUpper packet.data))).length ≤ 30 := by
    rw [dumps.string_length (fun c member => (hexFromBinUpper_plain _ c member).1)
      (fun c member => (hexFromBinUpper_plain _ c member).2), hexFromBinUpper, hexFromBin_length,
      Packet.data_length]
    have : packetPayloadLen packet.type ≤ 14 := packetPayloadLen_le packet.type
    omega
  have hops : (jansson.text (.integer packet.hops.toUInt64.toInt64)).length ≤ 10 := by
    have small := packet.hops.toNat_lt
    exact natural (by decide) (by rw [UInt32.toNat_toUInt64]; omega)
      (by rw [UInt32.toNat_toUInt64]; omega)
  have type : (jansson.text (.string (packetTypeNames packet.type).bytes)).length ≤ 14 := by
    rw [dumps.string_length (fun c member => (packetTypeNames_plain _ c member).1)
      (fun c member => (packetTypeNames_plain _ c member).2)]
    have short : (packetTypeNames packet.type).bytes.length ≤ 12 := by
      cases packet.type <;> decide
    omega
  have source : (jansson.text (.string packet.sourceId.bytes)).length ≤ 74 := by
    have := dumps.string_length_le idPrintable
    have short : packet.sourceId.bytes.length < 37 := idLength
    omega
  have timestamp : (jansson.text (.integer (packet.mlatTimestamp % packetMlatMax).toInt64)).length
      ≤ 19 := by
    have small : (packet.mlatTimestamp % packetMlatMax).toNat < 2 ^ 63 - 1 :=
      Nat.mod_lt _ (by decide)
    exact natural (by decide) (by omega) (by omega)
  have rssi : (jansson.text (.integer packet.rssi.toUInt64.toInt64)).length ≤ 10 := by
    have small := packet.rssi.toNat_lt
    exact natural (by decide) (by rw [UInt32.toNat_toUInt64]; omega)
      (by rw [UInt32.toNat_toUInt64]; omega)
  have keys : jsonPacketKeys.map (fun key => (Json.quote key).length) = [9, 6, 6, 11, 16, 6] := by
    decide
  simp only [jsonPacketKeys, List.map_cons, List.map_nil, List.cons.injEq, and_true] at keys
  obtain ⟨payloadKey, hopsKey, typeKey, sourceKey, timestampKey, rssiKey⟩ := keys
  rw [jsonPacketObject_eq, dumps.object_length (jsonPacketFields_plain packet), jsonPacketFields]
  split_ifs <;>
    simp only [List.map_append, List.map_cons, List.map_nil, List.sum_append, List.sum_cons,
      List.sum_nil, List.length_append, List.length_cons, List.length_nil, member_length,
      payloadKey, hopsKey, typeKey, sourceKey, timestampKey, rssiKey] <;>
    omega

/-- A packet is serialized to the text of its object and a line feed. -/
theorem jsonSerialize_eq (dumps : jansson.Dumps) {packet : Packet} (sane : packet.Sane) :
    jsonSerialize jansson packet [] =
      .ok (jansson.text (.object (jsonPacketObject packet)) ++ ['\n'.toUInt8]) := by
  have short := jsonPacketText_length dumps sane
  have serialized : jsonSerializeToBuf jansson (.object (jsonPacketObject packet)) [] = _ :=
    jsonSerializeToBuf_eq (by
      rw [List.length_nil, bufLenMax]
      omega)
  rw [jsonSerialize]
  cases kind : packet.type with
  | none => exact absurd kind sane.type
  | modeAc => exact serialized
  | modeSShort => exact serialized
  | modeSLong => exact serialized

end Adsbus

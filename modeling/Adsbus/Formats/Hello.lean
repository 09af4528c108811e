import Adsbus.Core.Uuid
import Adsbus.Formats.Record

/-! # Hellos

A sender of json or proto starts with a header that names its server. It fits the
buffer of a receiver: a generated identifier has a known length and needs no
escaping.
-/

namespace Adsbus

variable {jansson : Jansson} {protobuf : Protobuf}

/-- The characters of identifiers are written as they are. -/
theorem uuidChars_plain {c : UInt8} (member : c ∈ uuidChars) :
    Json.IsPlain c ∧ c ≠ Json.quotationMark ∧ c ≠ Json.backslash := by
  have all : ∀ c ∈ uuidChars, Json.IsPlain c ∧ c ≠ Json.quotationMark ∧ c ≠ Json.backslash := by
    decide +kernel
  exact all c member

theorem jsonMagic_plain : ∀ c ∈ jsonMagic.bytes,
    Json.IsPlain c ∧ c ≠ Json.quotationMark ∧ c ≠ Json.backslash := by decide +kernel

theorem serverVersion_plain : ∀ c ∈ serverVersion.bytes,
    Json.IsPlain c ∧ c ≠ Json.quotationMark ∧ c ≠ Json.backslash := by decide +kernel

/-- The members of the hello are written and read as they are. -/
theorem flat_jsonHelloObject (random : Cells UInt8 16) :
    Json.Flat (jsonHelloObject (uuidGen random)) := by
  rw [jsonHelloObject_fields]
  exact Content.flat_header (fun c member => (jsonMagic_plain c member).1)
    (fun c member => (serverVersion_plain c member).1)
    fun c member => (uuidChars_plain ((uuidGen_bytes random).2 c member)).1

/-- The text of the hello's object leaves room for its line feed. -/
theorem jsonHelloText_length (dumps : jansson.Dumps) (random : Cells UInt8 16) :
    (jansson.text (.object (jsonHelloObject (uuidGen random)))).length ≤ 248 := by
  obtain ⟨idLength, idChars⟩ := uuidGen_bytes random
  have length : ∀ {text : Bytes},
      (∀ c ∈ text, Json.IsPlain c ∧ c ≠ Json.quotationMark ∧ c ≠ Json.backslash) →
      (jansson.text (.string text)).length = text.length + 2 := fun plain =>
    dumps.string_length (fun c member => (plain c member).1) fun c member => (plain c member).2
  have type : (jansson.text (.string (ascii "header"))).length = 8 := length (by decide +kernel)
  have magic : (jansson.text (.string jsonMagic.bytes)).length = 6 := length jsonMagic_plain
  have version : (jansson.text (.string serverVersion.bytes)).length = 46 :=
    length serverVersion_plain
  have id : (jansson.text (.string (uuidGen random).bytes)).length = 36 + 2 := by
    rw [length fun c member => uuidChars_plain (idChars c member), idLength]
  have mhz : (jansson.text (.integer packetMlatMhz.toUInt64.toInt64)).length ≤ 3 :=
    dumps.natural_length_le (by decide) (by decide) (by decide)
  have max : (jansson.text (.integer packetMlatMax.toInt64)).length ≤ 19 :=
    dumps.natural_length_le (by decide) (by decide) (by decide)
  have rssiMax : (jansson.text (.integer packetRssiMax.toUInt64.toInt64)).length ≤ 10 :=
    dumps.natural_length_le (by decide) (by decide) (by decide)
  have keys : ["type", "magic", "server_version", "server_id", "mlat_timestamp_mhz",
      "mlat_timestamp_max", "rssi_max"].map (fun key => (Json.quote (ascii key)).length) =
        [6, 7, 16, 11, 20, 20, 10] := by decide
  simp only [List.map_cons, List.map_nil, List.cons.injEq, and_true] at keys
  obtain ⟨typeKey, magicKey, versionKey, idKey, mhzKey, maxKey, rssiKey⟩ := keys
  rw [dumps.object_length (flat_jsonHelloObject random).keys, jsonHelloObject]
  simp only [List.map_cons, List.map_nil, List.sum_cons, List.sum_nil, List.length_cons,
    List.length_nil, member_length, typeKey, magicKey, versionKey, idKey, mhzKey, maxKey, rssiKey,
    type, magic, version, id]
  omega

/-- The json hello is the text of its object and a line feed. -/
theorem jsonHello_eq (dumps : jansson.Dumps) (random : Cells UInt8 16) :
    jsonHello jansson (uuidGen random) =
      .ok (jansson.text (.object (jsonHelloObject (uuidGen random))) ++ ['\n'.toUInt8]) := by
  have short := jsonHelloText_length dumps random
  refine jsonSerializeToBuf_eq ?_
  rw [List.length_nil, bufLenMax]
  omega

/-- The message of the proto hello. -/
def protoHelloMessage (senderId : CString) : Adsb :=
  (Content.header (protoHelloHeader senderId)).message

theorem protoHelloMessage_length (random : Cells UInt8 16) :
    (protoHelloMessage (uuidGen random)).wire.length = 111 := by
  have idLength := (uuidGen_bytes random).1
  have magic : (Wire.blob 1 protoMagic.bytes).length = 6 := by
    rw [Wire.blob_length (by decide) (by decide)]
    rfl
  have version : (Wire.blob 2 serverVersion.bytes).length = 46 := by
    rw [Wire.blob_length (by decide) (by decide)]
    rfl
  have id : (Wire.blob 3 (uuidGen random).bytes).length = 38 := by
    rw [Wire.blob_length (by decide) (by omega), idLength]
  have header : (protoHelloHeader (uuidGen random)).wire.length = 109 := by
    simp only [AdsbHeader.wire, protoHelloHeader, List.length_append, magic, version, id,
      Wire.fixed32_length (show 4 < 15 by decide), Wire.fixed64_length (show 5 < 15 by decide),
      Wire.fixed32_length (show 6 < 15 by decide)]
  have wire : (protoHelloMessage (uuidGen random)).wire =
      Wire.blob 1 (protoHelloHeader (uuidGen random)).wire := by
    simp only [protoHelloMessage, Content.message, adsbInit, Adsb.wire, Wire.optional,
      Option.elim_none, Option.elim_some, List.append_nil]
  rw [wire, Wire.blob_length (by decide) (by omega), header]

/-- The proto hello is its message, wrapped. -/
theorem protoHello_eq (packs : protobuf.Packs) (random : Cells UInt8 16) :
    protoHello protobuf (uuidGen random) =
      .ok (Wire.blob 1 (protoHelloMessage (uuidGen random)).wire) := by
  refine (protoWrapToBuf_eq packs ?_).1
  rw [← Content.message, ← protoHelloMessage, protoHelloMessage_length]
  decide

end Adsbus

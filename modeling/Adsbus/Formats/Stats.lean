import Adsbus.Formats.JsonText

/-! # The stats format

The stats serializer counts packets by type, and writes the counts for every
thousandth. -/

namespace Adsbus

/-- `struct stats_state`; of the start time, the seconds. -/
structure StatsState where
  totalCount : UInt64
  typeCount : PacketType → UInt64
  start : Int64

/-- The packet types in the order of the counts. -/
def statsCounts (stats : StatsState) : List (Bytes × Json) :=
  PacketType.frames.map fun type =>
    ((packetTypeNames type).bytes, .integer (stats.typeCount type).toInt64)

/-- The object that `stats_serialize` writes at a time. -/
def statsObject (now : Int64) (stats : StatsState) : List (Bytes × Json) :=
  [(ascii "uptime_seconds", .integer (now - stats.start)),
    (ascii "packet_counts", .object (statsCounts stats))]

/-- `stats_serialize` with the time it reads; no packet is the null pointer. -/
def statsSerialize (jansson : Jansson) (now : Int64) (packet : Option Packet)
    (stats : StatsState) (buf : Bytes) : Except Fault (Bytes × StatsState) :=
  let stats := match packet with
    | none => stats
    | some packet =>
        { stats with
          totalCount := stats.totalCount + 1
          typeCount := Function.update stats.typeCount packet.type
            (stats.typeCount packet.type + 1) }
  if stats.totalCount % 1000 ≠ 0 then
    .ok (buf, stats)
  else do
    let buf ← jsonSerializeToBuf jansson (.object (statsObject now stats)) buf
    return (buf, stats)

variable {jansson : Jansson}

theorem statsCountsText_length (dumps : jansson.Dumps) (stats : StatsState) :
    (jansson.text (.object (statsCounts stats))).length ≤ 108 := by
  have keys : ∀ field ∈ statsCounts stats, ∀ c ∈ field.1, Json.IsPlain c := by
    intro field member
    obtain ⟨type, _, rfl⟩ := List.mem_map.mp member
    exact fun c member => (packetTypeNames_plain type c member).1
  have quotes : PacketType.frames.map
      (fun type => (Json.quote (packetTypeNames type).bytes).length) = [9, 14, 13] := by decide
  simp only [PacketType.frames, List.map_cons, List.map_nil, List.cons.injEq, and_true] at quotes
  have count := fun type => dumps.integer_length_le (stats.typeCount type).toInt64
  have modeAc := count .modeAc
  have modeSShort := count .modeSShort
  have modeSLong := count .modeSLong
  rw [dumps.object_length keys]
  simp only [statsCounts, PacketType.frames, List.map_cons, List.map_nil, List.sum_cons,
    List.sum_nil, List.length_cons, List.length_nil, member_length, quotes]
  omega

theorem statsText_length (dumps : jansson.Dumps) (now : Int64) (stats : StatsState) :
    (jansson.text (.object (statsObject now stats))).length ≤ 170 := by
  have keys : ∀ field ∈ statsObject now stats, ∀ c ∈ field.1, Json.IsPlain c := by
    have all : ∀ key ∈ [ascii "uptime_seconds", ascii "packet_counts"], ∀ c ∈ key,
        Json.IsPlain c := by decide +kernel
    exact fun field member => all field.1 (List.mem_map_of_mem member)
  have quotes : [ascii "uptime_seconds", ascii "packet_counts"].map
      (fun key => (Json.quote key).length) = [16, 15] := by decide
  simp only [List.map_cons, List.map_nil, List.cons.injEq, and_true] at quotes
  have uptime := dumps.integer_length_le (now - stats.start)
  have counts := statsCountsText_length dumps stats
  rw [dumps.object_length keys]
  simp only [statsObject, List.map_cons, List.map_nil, List.sum_cons, List.sum_nil,
    List.length_cons, List.length_nil, member_length, quotes]
  omega

/-- The counts are serialized whenever they are. -/
theorem statsSerialize_fits (dumps : jansson.Dumps) (now : Int64) (packet : Option Packet)
    (stats : StatsState) :
    ∃ out after, statsSerialize jansson now packet stats [] = .ok (out, after) ∧
      out.length ≤ bufLenMax := by
  simp only [statsSerialize]
  generalize (match packet with
    | none => stats
    | some packet => { stats with
        totalCount := stats.totalCount + 1
        typeCount := Function.update stats.typeCount packet.type
          (stats.typeCount packet.type + 1) }) = counted
  split
  · exact ⟨_, _, rfl, Nat.zero_le _⟩
  · have short := statsText_length dumps now counted
    rw [jsonSerializeToBuf_eq (by rw [List.length_nil, bufLenMax]; omega)]
    refine ⟨_, _, rfl, ?_⟩
    rw [List.length_append, List.length_append, List.length_nil, List.length_singleton, bufLenMax]
    omega

end Adsbus

import Adsbus.Flow.Records
import Adsbus.Formats.RecordRun

/-! # The json and proto formats as records

Json objects may have line endings between them, of which those behind an object
are consumed with it (`Adsbus.jsonRecords`). Proto records follow each other
directly (`Adsbus.protoRecords`). A line feed is also the tag of a proto record,
so a proto stream looks blank to the json library at first; the length behind the
tag is what it refuses (`Adsbus.alone_proto`).
-/

namespace Adsbus

variable (server : Server)

theorem eq_nil_of_unpadded {gap : Bytes} (padding : ∀ c ∈ gap, false = true) : gap = [] :=
  List.eq_nil_iff_forall_not_mem.mpr fun c member => Bool.false_ne_true (padding c member)

/-- The text of an object, from its brace on. -/
structure JsonText (jansson : Jansson) (text : Bytes) (fields : List (Bytes × Json)) : Prop where
  opens : ∃ rest, text = 123 :: rest
  loaded : jansson.loadb text = some (.object fields, text.length)

/-- Json objects as records. -/
def jsonRecords (positions : server.jansson.Positions) (stable : server.jansson.Stable)
    (skips : server.jansson.SkipsSpace) : Records server Record where
  format := .json
  opening := 123
  pad := jsonSeparator
  parseRecord record := record.parse server.serverId
  IsText text record := ∃ fields, record = .json (.object fields) ∧
    JsonText server.jansson text fields
  opens := by
    rintro text record ⟨_, _, isText⟩
    exact isText.opens
  unpadded := by decide
  accept := by
    rintro attempt text record gap more packet state valid ⟨fields, rfl, _, loaded⟩ padding
      window parsed
    have blank : ∀ c ∈ gap, Json.IsSpace c := fun c member => jsonSeparator_isSpace (padding c member)
    have found : server.jansson.loadb attempt.buf.window =
        some (.object fields, gap.length + text.length) := by
      rw [window, skips.append blank, stable.append loaded]
      rfl
    obtain ⟨rest, taken, valid', left⟩ := jsonParse_of_object positions valid found parsed
    refine ⟨rest, taken, valid', ?_⟩
    rw [left, window, ← List.append_assoc, ← List.length_append, List.drop_left]
  reject := by
    rintro attempt text record gap part valid ⟨fields, rfl, _, loaded⟩ padding inside proper
      window
    have blank : ∀ c ∈ gap, Json.IsSpace c := fun c member => jsonSeparator_isSpace (padding c member)
    refine jsonParse_of_none ?_
    rw [window, skips.append blank, stable.of_prefix positions loaded inside proper]
    rfl
  finish := by
    intro attempt valid padding
    have blank : ∀ c ∈ attempt.buf.window, Json.IsSpace c := fun c member =>
      jsonSeparator_isSpace (padding c member)
    refine jsonParse_of_none ?_
    rw [← List.append_nil attempt.buf.window, skips.append blank, positions.loadb_nil]
    rfl

/-- Proto records. -/
def protoRecords (unpacks : server.protobuf.Unpacks) : Records server Record where
  format := .proto
  opening := 10
  pad _ := false
  parseRecord record := record.parse server.serverId
  IsText text record := ∃ msg : Adsb, record = .proto msg ∧ text = Wire.blob 1 msg.wire ∧
    msg.wire.length < 256
  opens := by
    rintro text record ⟨msg, _, rfl, _⟩
    exact ⟨_, Wire.blob_one _⟩
  unpadded := rfl
  accept := by
    rintro attempt text record gap more packet state valid ⟨msg, rfl, rfl, _⟩ padding window parsed
    have tight := eq_nil_of_unpadded padding
    subst tight
    obtain ⟨rest, taken, valid', left⟩ := protoParse_of_blob valid window (unpacks msg) parsed
    refine ⟨rest, taken, valid', ?_⟩
    rw [left, List.dropWhile_eq_self_iff.mpr fun _ => Bool.false_ne_true]
  reject := by
    rintro attempt text record gap part valid ⟨msg, rfl, rfl, small⟩ padding inside proper window
    have tight := eq_nil_of_unpadded padding
    subst tight
    rw [List.nil_append] at window
    rw [← window] at inside proper
    exact protoParse_of_none (protoUnwrap_part valid small inside proper)
  finish := by
    intro attempt valid padding
    have empty : attempt.buf.length = 0 := by
      rw [← valid.window_length, eq_nil_of_unpadded padding, List.length_nil]
    refine protoParse_of_none ?_
    rw [protoUnwrap, if_pos (empty.trans_lt Nat.one_pos)]

/-! ## First records -/

variable {server}

/-- A window on a text starts as the text does. -/
theorem cons_of_prefix {window text : Bytes} {first : UInt8} (nonempty : window ≠ [])
    (inside : window <+: first :: text ∨ first :: text <+: window) :
    ∃ rest, window = first :: rest ∧ (rest <+: text ∨ text <+: rest) := by
  cases window with
  | nil => exact absurd rfl nonempty
  | cons c rest =>
      rcases inside with inside | inside <;>
        obtain ⟨rfl, behind⟩ := List.cons_prefix_cons.mp inside
      · exact ⟨rest, rfl, .inl behind⟩
      · exact ⟨rest, rfl, .inr behind⟩

/-- Only the json parser finds something where an object starts. -/
theorem alone_json (rest : Bytes) : Alone server .json (123 :: rest) := by
  intro other differs attempt valid nonempty inside
  obtain ⟨_, window, _⟩ := cons_of_prefix nonempty inside
  have begins : attempt.buf.window[0]? = some 123 := by rw [window, List.getElem?_cons_zero]
  cases other with
  | json => exact absurd rfl differs
  | proto =>
      refine ⟨attempt.packet, protoParse_of_none (protoUnwrap_of_ne ?_)⟩
      rw [(valid.window_eq_some.mp begins).2]
      decide
  | airspyAdsb => exact Format.parse_unmarked (by decide) valid begins (by decide) (by decide)
  | beast => exact Format.parse_unmarked (by decide) valid begins (by decide) (by decide)
  | raw => exact Format.parse_unmarked (by decide) valid begins (by decide) (by decide)

/-- Only the proto parser finds something in a record whose length no json text starts with. -/
theorem alone_proto (positions : server.jansson.Positions) (skips : server.jansson.SkipsSpace)
    {count : UInt8} (refused : server.jansson.Rejects count) (rest : Bytes) :
    Alone server .proto (10 :: count :: rest) := by
  intro other differs attempt valid nonempty inside
  obtain ⟨behind, window, inside⟩ := cons_of_prefix nonempty inside
  have begins : attempt.buf.window[0]? = some 10 := by rw [window, List.getElem?_cons_zero]
  cases other with
  | proto => exact absurd rfl differs
  | json =>
      refine ⟨attempt.packet, jsonParse_of_none ?_⟩
      have feed : Json.IsSpace 10 := by decide
      rw [window, skips feed]
      cases behind with
      | nil => rw [positions.loadb_nil, Option.map_none]
      | cons c behind =>
          obtain ⟨_, same, _⟩ := cons_of_prefix (List.cons_ne_nil c behind) inside
          rw [same, refused, Option.map_none]
  | airspyAdsb => exact Format.parse_unmarked (by decide) valid begins (by decide) (by decide)
  | beast => exact Format.parse_unmarked (by decide) valid begins (by decide) (by decide)
  | raw => exact Format.parse_unmarked (by decide) valid begins (by decide) (by decide)

end Adsbus

import Adsbus.Formats.AirspyAdsb
import Adsbus.Formats.Beast

/-! # The grammars of the framed formats

The frames of the textual formats and of beast are written down as grammars, the way the protocol
documents do: which characters a frame is made of, and in which order. The parsers of raw and beast
accept exactly the texts of theirs (`Adsbus.raw_exact`, `Adsbus.beast_exact`). The parser of
airspy_adsb also accepts lines with other characters than digits in two of their fields; where there
is no such line, it accepts exactly the grammar (`Adsbus.airspyAdsb_exact_iff`).
-/

namespace Adsbus

/-! ## Digits and line endings -/

/-- A hexadecimal digit of either case. -/
def IsHexDigit (c : UInt8) : Prop := c ∈ ascii "0123456789ABCDEFabcdef"

instance (c : UInt8) : Decidable (IsHexDigit c) := inferInstanceAs (Decidable (_ ∈ _))

/-- `hex_table` knows the digits. -/
theorem isHex_iff {c : UInt8} : IsHex c ↔ IsHexDigit c := by
  have all : ∀ value : Fin 256, IsHex (UInt8.ofNat value) ↔ IsHexDigit (UInt8.ofNat value) := by
    decide +kernel
  have := all ⟨c.toNat, c.toNat_lt⟩
  rwa [UInt8.ofNat_toNat] at this

/-- So many hexadecimal digits. -/
structure HexDigits (count : Nat) (digits : Bytes) : Prop where
  length : digits.length = count
  each : ∀ c ∈ digits, IsHexDigit c

/-- The ending of a line. -/
inductive LineEnding : Bytes → Prop
  | lf : LineEnding (ascii "\n")
  | crLf : LineEnding (ascii "\r\n")

theorem lineEnding_iff {ending : Bytes} :
    LineEnding ending ↔ ending = ['\n'.toUInt8] ∨ ending = ['\r'.toUInt8, '\n'.toUInt8] := by
  constructor
  · intro isEnding
    cases isEnding with
    | lf => exact .inl rfl
    | crLf => exact .inr rfl
  · rintro (rfl | rfl)
    · exact .lf
    · exact .crLf

theorem lineEnd_eq_some {input : Bytes} {index stop : Nat} :
    lineEnd input index = some stop ↔
      ∃ ending, LineEnding ending ∧ ending <+: input.drop index ∧ index + ending.length = stop := by
  constructor
  · intro ended
    have bounds := lineEnd_bounds ended
    refine ⟨(input.drop index).take (stop - index), lineEnding_iff.mpr (ending_of_lineEnd ended),
      List.take_prefix _ _, ?_⟩
    rw [List.length_take, List.length_drop]
    omega
  · rintro ⟨ending, isEnding, ⟨more, behind⟩, rfl⟩
    have inside : index ≤ input.length := by
      by_contra outside
      rw [List.drop_of_length_le (by omega)] at behind
      cases isEnding <;> cases behind
    have split : input = input.take index ++ (ending ++ more) := by
      rw [behind, List.take_append_drop]
    have length : (input.take index).length = index := List.length_take_of_le inside
    rw [split]
    cases isEnding with
    | lf => exact lineEnd_lf length more
    | crLf => exact lineEnd_crLf length more

theorem starPayload_eq_some {input data : Bytes} {count : Nat} :
    starPayload input count = some data ↔
      ∃ digits, HexDigits (2 * count) digits ∧ unhex digits = some data ∧
        ascii "*" ++ digits ++ ascii ";" <+: input := by
  constructor
  · intro found
    have digits := starPayload_digits found
    have long := (List.getElem?_eq_some_iff.mp digits.2.1).1
    simp only [starPayload] at found
    split at found
    · next marks =>
        have length : ((input.drop 1).take (count * 2)).length = 2 * count := by
          rw [List.length_take, List.length_drop]
          omega
        refine ⟨_, ⟨length, fun c member => isHex_iff.mp ((unhex_isHex length found).2 c member)⟩,
          found, ?_⟩
        have star := drop_of_getElem? marks.1
        have field := drop_field 1 (count * 2) marks.2
        rw [List.drop_zero, field] at star
        refine ⟨input.drop (1 + count * 2 + 1), Eq.trans ?_ star.symm⟩
        rw [List.append_assoc, List.append_assoc]
        rfl
    · cases found
  · rintro ⟨digits, ⟨length, _⟩, decoded, more, rfl⟩
    have shape : ascii "*" ++ digits ++ ascii ";" ++ more =
        '*'.toUInt8 :: (digits ++ ';'.toUInt8 :: more) := by
      simp only [List.append_assoc]
      rfl
    rw [shape, starPayload_text (by omega), decoded]

theorem unhex_of_hexDigits {count : Nat} {digits : Bytes} (each : HexDigits (2 * count) digits) :
    ∃ data, unhex digits = some data ∧ data.length = count := by
  obtain ⟨data, decoded⟩ := unhex_of_isHex digits fun c member => isHex_iff.mpr (each.each c member)
  exact ⟨data, decoded, (unhex_isHex each.length decoded).1⟩

/-! ## Raw -/

/-- A raw line with the digits of a payload. -/
structure RawText (fields : PacketType × Bytes) (text : Bytes) : Prop where
  framed : fields.1 ∈ PacketType.frames
  digits : HexDigits (2 * packetPayloadLen fields.1) fields.2
  line : ∃ ending, LineEnding ending ∧
    text = ascii "*" ++ fields.2 ++ ascii ";" ++ ending

theorem rawCode_spells : Spells rawCode RawText fun fields frame =>
    frame.type = fields.1 ∧ unhex fields.2 = some frame.data where
  front := by
    rintro ⟨type, digits⟩ text input ⟨framed, each, ending, isEnding, rfl⟩ there
    obtain ⟨data, decoded, _⟩ := unhex_of_hexDigits each
    obtain ⟨body, behind⟩ := append_prefix_iff.mp there
    refine ⟨{ type := type, data := data, reception := none }, front_rawCode.mpr ⟨type, framed,
      front_rawTypeCode.mpr ⟨lineEnd_eq_some.mpr ⟨ending, isEnding, ?_, ?_⟩, data,
        starPayload_eq_some.mpr ⟨digits, each, decoded, body⟩, rfl⟩⟩, rfl, decoded⟩
    · have length : (ascii "*" ++ digits ++ ascii ";").length =
          1 + packetPayloadLen type * 2 + 1 := by
        simp only [List.length_append, each.length]
        change 1 + 2 * packetPayloadLen type + 1 = _
        omega
      rwa [length] at behind
    · simp only [List.length_append, each.length]
      change _ = 1 + 2 * packetPayloadLen type + 1 + ending.length
      omega
  text := by
    intro input frame count found
    obtain ⟨type, framed, here⟩ := front_rawCode.mp found
    obtain ⟨ended, data, payload, rfl⟩ := front_rawTypeCode.mp here
    obtain ⟨ending, isEnding, behind, _⟩ := lineEnd_eq_some.mp ended
    obtain ⟨digits, each, _, body⟩ := starPayload_eq_some.mp payload
    refine ⟨(type, digits), _, ⟨framed, each, ending, isEnding, rfl⟩,
      append_prefix_iff.mpr ⟨body, ?_⟩⟩
    have length : (ascii "*" ++ digits ++ ascii ";").length =
        1 + packetPayloadLen type * 2 + 1 := by
      simp only [List.length_append, each.length]
      change 1 + 2 * packetPayloadLen type + 1 = _
      omega
    rwa [length]
  fields := by
    rintro ⟨type, digits⟩ ⟨type', digits'⟩ text frame ⟨_, each, ending, _, rfl⟩
      ⟨_, each', ending', _, same⟩ ⟨rfl, _⟩ ⟨rfl, _⟩
    rw [List.append_assoc, List.append_assoc, List.append_assoc, List.append_assoc] at same
    have behind := List.append_cancel_left same
    exact congrArg (Prod.mk frame.type)
      (List.append_inj behind (each.length.trans each'.length.symm)).1

/-- Two attempts that differ in what lies outside the window of the buffer at most. -/
structure Attempt.SameInput (attempt other : Attempt) : Prop where
  valid : attempt.buf.Valid
  valid' : other.buf.Valid
  window : other.buf.window = attempt.buf.window
  packet : other.packet = attempt.packet
  state : other.state = attempt.state

/-- A parser that looks at the window only. -/
def ReadsWindow (parse : Parse) : Prop :=
  ∀ {attempt other}, attempt.SameInput other → ∃ found after after',
    parse attempt = .ok (found, after) ∧ parse other = .ok (found, after') ∧ after.SameInput after'

theorem ReadsWindow.first {parses : List Parse} (reads : ∀ parse ∈ parses, ReadsWindow parse) :
    ReadsWindow (parseFirst parses) := by
  induction parses with
  | nil => exact fun {attempt other} same => ⟨false, attempt, other, rfl, rfl, same⟩
  | cons parse parses ih =>
      intro attempt other same
      obtain ⟨readsFirst, readsRest⟩ := List.forall_mem_cons.mp reads
      obtain ⟨found, after, after', parsed, parsed', same'⟩ := readsFirst same
      cases found with
      | true =>
          refine ⟨true, after, after', ?_, ?_, same'⟩ <;>
            simp only [parseFirst, parsed, parsed', Except.ok_bind, ↓reduceIte, Except.pure_eq_ok]
      | false =>
          obtain ⟨found, last, last', rest, rest', same''⟩ := ih readsRest same'
          refine ⟨found, last, last', ?_, ?_, same''⟩ <;>
            simp only [parseFirst, parsed, parsed', Except.ok_bind, Bool.false_eq_true, ↓reduceIte,
              rest, rest']

theorem Buf.Valid.rawUnmarked_iff {buf : Buf UInt8} (valid : buf.Valid) {type : PacketType} :
    RawUnmarked type buf ↔ lineEnd buf.window (1 + packetPayloadLen type * 2 + 1) = none ∨
      buf.window[0]? ≠ some '*'.toUInt8 ∨
        buf.window[1 + packetPayloadLen type * 2]? ≠ some ';'.toUInt8 := by
  rw [RawUnmarked, valid.noLineEnd_iff]
  cases ended : lineEnd buf.window (1 + packetPayloadLen type * 2 + 1) with
  | none => simp only [true_or]
  | some stop =>
      have bounds := lineEnd_bounds ended
      rw [valid.window_length] at bounds
      have first : 0 < buf.length := by omega
      have mark : 1 + packetPayloadLen type * 2 < buf.length := by omega
      simp only [valid.window_eq_some, first, mark, true_and, ne_eq]

theorem rawParsePacket_readsWindow (type : PacketType) : ReadsWindow (rawParsePacket type) := by
  intro attempt other same
  have length : other.buf.length = attempt.buf.length := by
    rw [← same.valid.window_length, ← same.valid'.window_length, same.window]
  by_cases unmarked : RawUnmarked type attempt.buf
  · have unmarked' : RawUnmarked type other.buf := by
      rw [same.valid'.rawUnmarked_iff, same.window]
      exact same.valid.rawUnmarked_iff.mp unmarked
    exact ⟨false, _, _, rawParsePacket_of_unmarked unmarked, rawParsePacket_of_unmarked unmarked',
      same⟩
  · have marked' : ¬ RawUnmarked type other.buf := by
      rw [same.valid'.rawUnmarked_iff, same.window]
      exact fun unmarked' => unmarked (same.valid.rawUnmarked_iff.mpr unmarked')
    have marks := unmarked
    rw [same.valid.rawUnmarked_iff, not_or] at marks
    obtain ⟨stop, ended⟩ := Option.ne_none_iff_exists'.mp marks.1
    have bounds := lineEnd_bounds ended
    rw [same.valid.window_length] at bounds
    have digits : bufAt other.buf 1 (packetPayloadLen type * 2) =
        bufAt attempt.buf 1 (packetPayloadLen type * 2) := by
      rw [Buf.bufAt_eq (by omega), Buf.bufAt_eq (by omega), same.window]
    cases read : hexToBin attempt.packet.payload
        (bufAt attempt.buf 1 (packetPayloadLen type * 2)) with
    | mk decoded payload =>
        have read' := read
        rw [← digits, ← same.packet] at read'
        cases decoded with
        | false =>
            exact ⟨false, _, _, rawParsePacket_of_failed unmarked read,
              rawParsePacket_of_failed marked' read',
              same.valid, same.valid', same.window, by rw [same.packet], same.state⟩
        | true =>
            have parsed := rawParsePacket_of_decoded unmarked read
            have parsed' := rawParsePacket_of_decoded marked' read'
            have ended' := ended
            rw [← same.window] at ended'
            rw [← same.valid.lineEnd_eq ended] at parsed
            rw [← same.valid'.lineEnd_eq ended'] at parsed'
            obtain ⟨rest, consumed, restValid, _, window⟩ :=
              Buf.consume same.valid.inside stop bounds.2.2
            obtain ⟨rest', consumed', restValid', _, window'⟩ :=
              Buf.consume same.valid'.inside stop (by omega)
            rw [consumed] at parsed
            rw [consumed'] at parsed'
            exact ⟨true, _, _, parsed, parsed', restValid, restValid',
              by rw [window, window', same.window], by rw [same.packet], same.state⟩

/-- What `raw_parse` stores of a line. -/
def RawStored (fields : PacketType × Bytes) (_attempt after : Attempt) : Prop :=
  after.packet.type = fields.1 ∧ unhex fields.2 = some after.packet.data

/-- **The raw grammar.** `raw_parse` accepts exactly the raw lines, and what lies outside the
unread bytes changes nothing. -/
theorem raw_exact {attempt : Attempt} (valid : attempt.buf.Valid) :
    AcceptsExactly RawText RawStored rawParse attempt ∧
      ∀ other, attempt.SameInput other → ∃ found after after',
        rawParse attempt = .ok (found, after) ∧ rawParse other = .ok (found, after') ∧
          after.SameInput after' := by
  refine ⟨rawParse_parses.acceptsExactly rawCode_spells valid ?_, fun other same => ?_⟩
  · rintro ⟨type, digits⟩ text frame after count spelled ⟨rfl, decoded⟩ accepted
    have length := (unhex_isHex spelled.digits.length decoded).1
    obtain ⟨stored, data⟩ := frame.store_fields length attempt.packet attempt.state.mlatState
    rw [RawStored, accepted.packet, stored, data]
    exact ⟨rfl, decoded⟩
  · refine ReadsWindow.first (fun parse member => ?_) same
    obtain ⟨type, _, rfl⟩ := List.mem_map.mp member
    exact rawParsePacket_readsWindow type

/-- A raw line with digits of both cases. -/
theorem raw_exact_line : ∃ after,
    rawParse (attemptOn (ascii "*aBcD;\r\n") parserStateInit) = .ok (true, after) ∧
      after.buf.window = [] ∧ after.packet.data = [0xab, 0xcd] := by
  have short : (ascii "*aBcD;\r\n").length ≤ bufLenMax := by decide +kernel
  have window : (attemptOn (ascii "*aBcD;\r\n") parserStateInit).buf.window = ascii "*aBcD;\r\n" :=
    Buf.window_bufHolding _ short
  have line : RawText (.modeAc, ascii "aBcD") (ascii "*aBcD;\r\n") :=
    ⟨by decide, ⟨rfl, by decide +kernel⟩, _, .crLf, rfl⟩
  have exact : AcceptsExactly RawText RawStored rawParse
      (attemptOn (ascii "*aBcD;\r\n") parserStateInit) :=
    (raw_exact (Buf.valid_bufHolding _ short)).1
  obtain ⟨after, parsed, left, _, data⟩ := exact.accepts line (by rw [window])
  refine ⟨after, parsed, by rw [left, window, List.drop_length], ?_⟩
  exact Option.some.inj (data.symm.trans (by decide))

/-! ## Beast -/

/-- A beast frame with the bytes behind its type: the marker, the type, and the bytes with each
marker among them doubled. -/
structure BeastText (fields : PacketType × Bytes) (text : Bytes) : Prop where
  framed : fields.1 ∈ PacketType.frames
  length : fields.2.length = 7 + packetPayloadLen fields.1
  escaped : ∃ doubled, Stuffing.Doubled beastMarker fields.2 doubled ∧
    text = beastMarker :: beastTypeByte fields.1 :: doubled

theorem beastTypeByte_ne_marker (type : PacketType) : beastTypeByte type ≠ beastMarker := by
  cases type <;> decide

/-- The bytes that are read at the front of an input with a type are those behind the type. -/
theorem beastUnstuff_eq_some {type : PacketType} {input bytes : Bytes} {stop : Nat} :
    Stuffing.unstuff beastMarker (8 + packetPayloadLen type) (beastTypeByte type :: input) =
        some (stop, bytes) ↔
      ∃ behind doubled, bytes = beastTypeByte type :: behind ∧
        behind.length = 7 + packetPayloadLen type ∧
        Stuffing.Doubled beastMarker behind doubled ∧ doubled <+: input ∧
        stop = doubled.length + 1 := by
  rw [Nat.add_right_comm 7 1, Stuffing.unstuff_of_ne (beastTypeByte_ne_marker type),
    Option.map_eq_some_iff]
  constructor
  · rintro ⟨⟨stop', behind⟩, read, same⟩
    cases same
    obtain ⟨doubled, escaped, there, length, rfl⟩ := Stuffing.unstuff_eq_some.mp read
    exact ⟨behind, doubled, rfl, length, escaped, there, rfl⟩
  · rintro ⟨behind, doubled, rfl, length, escaped, there, rfl⟩
    exact ⟨_, Stuffing.unstuff_eq_some.mpr ⟨doubled, escaped, there, length, rfl⟩, rfl⟩

theorem beastCode_spells : Spells beastCode BeastText fun fields frame =>
    frame = beastFrame fields.1 (beastTypeByte fields.1 :: fields.2) where
  front := by
    rintro ⟨type, bytes⟩ text input ⟨framed, length, doubled, escaped, rfl⟩ ⟨more, rfl⟩
    have read := beastUnstuff_eq_some.mpr
      ⟨bytes, doubled, rfl, length, escaped, List.prefix_append _ more, rfl⟩
    refine ⟨_, (front_beastCode _).trans (beastFront_eq_some.mpr ⟨rfl, _, type, _, _, rfl,
      beastType_beastTypeByte framed, read, rfl, ?_⟩), rfl⟩
    simp only [List.length_cons]
    omega
  text := by
    intro input frame count found
    obtain ⟨first, byte, type, stop, bytes, second, typed, read, rfl, rfl⟩ :=
      beastFront_eq_some.mp found
    obtain ⟨framed, rfl⟩ := beastTypeByte_of_beastType typed
    have front : input = beastMarker :: beastTypeByte type :: input.drop 2 := by
      rw [← drop_of_getElem? second, ← drop_of_getElem? first, List.drop_zero]
    rw [front, List.drop_one, List.tail_cons, beastUnstuff_eq_some] at read
    obtain ⟨behind, doubled, rfl, length, escaped, there, rfl⟩ := read
    refine ⟨(type, behind), _, ⟨framed, length, doubled, escaped, rfl⟩, ?_⟩
    rw [front]
    exact List.cons_prefix_cons.mpr ⟨rfl, List.cons_prefix_cons.mpr ⟨rfl, there⟩⟩
  fields := by
    rintro ⟨type, bytes⟩ ⟨type', bytes'⟩ text frame ⟨framed, length, doubled, escaped, rfl⟩
      ⟨_, length', doubled', escaped', same⟩ makes makes'
    have types : type = type' := congrArg Frame.type (makes.symm.trans makes')
    subst types
    obtain rfl : doubled = doubled' := (List.cons.inj (List.cons.inj same).2).2
    have read := Stuffing.unstuff_eq_some.mpr ⟨doubled, escaped, List.prefix_rfl, length, rfl⟩
    have read' := Stuffing.unstuff_eq_some.mpr ⟨doubled, escaped', List.prefix_rfl, length', rfl⟩
    cases read.symm.trans read'
    rfl

/-- What `beast_parse` stores of a frame. -/
def BeastStored (fields : PacketType × Bytes) (_attempt after : Attempt) : Prop :=
  after.packet.type = fields.1 ∧ after.packet.data = fields.2.drop 7

/-- **The beast grammar.** `beast_parse` accepts exactly the beast frames, which are what
`beast_escape` writes, and changes neither the buffer nor the counter's state where there is
none. -/
theorem beast_exact {attempt : Attempt} (valid : attempt.buf.Valid) :
    AcceptsExactly BeastText BeastStored beastParse attempt ∧
      (∀ fields text, BeastText fields text →
        text = beastEscape (beastMarker :: beastTypeByte fields.1 :: fields.2)) ∧
      ∀ after, beastParse attempt = .ok (false, after) →
        after.buf = attempt.buf ∧ after.state = attempt.state := by
  refine ⟨beastParse_parses.acceptsExactly beastCode_spells valid ?_, ?_, fun after missed => ?_⟩
  · rintro ⟨type, bytes⟩ text frame after count ⟨framed, length, doubled, escaped, rfl⟩ rfl accepted
    dsimp only at length
    have data : ((beastTypeByte type :: bytes).drop 8).take (packetPayloadLen type) =
        bytes.drop 7 := by
      refine List.take_of_length_le ?_
      rw [List.length_drop, List.length_cons, length]
      omega
    have fits : (beastFrame type (beastTypeByte type :: bytes)).data.length =
        packetPayloadLen type := by
      rw [beastFrame, data, List.length_drop, length]
      omega
    obtain ⟨stored, payload⟩ := (beastFrame type (beastTypeByte type :: bytes)).store_fields fits
      attempt.packet attempt.state.mlatState
    rw [BeastStored, accepted.packet, stored, payload]
    exact ⟨rfl, data⟩
  · rintro ⟨type, bytes⟩ text ⟨_, _, doubled, escaped, rfl⟩
    rw [beastEscape_cons, Stuffing.stuff, List.flatMap_cons, if_neg (beastTypeByte_ne_marker type),
      ← Stuffing.stuff, Stuffing.doubled_iff.mp escaped]
    rfl
  · cases front : beastCode.front attempt.buf.window with
    | some result =>
        obtain ⟨after', parsed, _⟩ := beastParse_parses.accept valid front
        cases missed.symm.trans parsed
    | none =>
        obtain ⟨packet, mlatState, rejected, same⟩ := beastParse_parses.reject valid front
        cases missed.symm.trans rejected
        rw [same.resolve_right id]
        exact ⟨rfl, rfl⟩

/-- A beast frame whose last byte is an escaped marker. -/
theorem beast_exact_frame : ∃ after,
    beastParse (attemptOn [0x1a, 0x31, 0, 0, 0, 0, 0, 0, 0, 0, 0x1a, 0x1a] parserStateInit) =
        .ok (true, after) ∧
      after.buf.window = [] ∧ after.packet.data = [0, 0x1a] := by
  have short : ([0x1a, 0x31, 0, 0, 0, 0, 0, 0, 0, 0, 0x1a, 0x1a] : Bytes).length ≤ bufLenMax := by
    decide
  have window := Buf.window_bufHolding (Cells.fill bufLenMax (0 : UInt8)) short
  have frame : BeastText (.modeAc, [0, 0, 0, 0, 0, 0, 0, 0, 0x1a])
      [0x1a, 0x31, 0, 0, 0, 0, 0, 0, 0, 0, 0x1a, 0x1a] :=
    ⟨by decide, rfl, _, Stuffing.doubled_iff.mpr rfl, rfl⟩
  have exact : AcceptsExactly BeastText BeastStored beastParse (attemptOn _ parserStateInit) :=
    (beast_exact (Buf.valid_bufHolding _ short)).1
  obtain ⟨after, parsed, left, _, data⟩ := exact.accepts frame (by rw [attemptOn, window])
  refine ⟨after, parsed, ?_, data⟩
  rw [left, attemptOn, window, List.drop_length]

/-! ## Airspy -/

/-- The fields of an airspy_adsb line, as they are written. -/
structure LineFields where
  type : PacketType
  payload : Bytes
  timestamp : Bytes
  precision : Bytes
  rssi : Bytes

/-- A line with the fields at their places, whatever they are made of. -/
structure AirspyAdsbLayout (fields : LineFields) (text : Bytes) : Prop where
  framed : fields.type ∈ PacketType.frames
  payload : fields.payload.length = 2 * packetPayloadLen fields.type
  timestamp : fields.timestamp.length = 8
  precision : fields.precision.length = 2
  rssi : fields.rssi.length = 4
  line : ∃ ending, LineEnding ending ∧ text = ascii "*" ++ fields.payload ++ ascii ";" ++
    fields.timestamp ++ ascii ";" ++ fields.precision ++ ascii ";" ++ fields.rssi ++ ascii ";" ++
      ending

/-- An airspy_adsb line: its fields are digits, and the precision is not zero. -/
structure AirspyAdsbText (fields : LineFields) (text : Bytes) : Prop
    extends AirspyAdsbLayout fields text where
  digits : ∀ c ∈ fields.payload ++ fields.timestamp ++ fields.precision ++ fields.rssi, IsHexDigit c
  ticking : fields.precision ≠ ascii "00"

/-- A line in which the precision and the signal strength may hold other characters. -/
structure AirspyAdsbLoose (fields : LineFields) (text : Bytes) : Prop
    extends AirspyAdsbLayout fields text where
  digits : ∀ c ∈ fields.payload ++ fields.timestamp, IsHexDigit c
  ticking : fields.precision ≠ ascii "00"

/-- The lines at the front of the unread bytes with other characters than digits are no lines for
another reason. -/
def DigitsOnly (window : Bytes) : Prop :=
  ∀ fields text, AirspyAdsbLoose fields text → text <+: window →
    ∀ c ∈ fields.precision ++ fields.rssi, IsHexDigit c

theorem hexTable_eq_zero {c : UInt8} (zero : hexTable c = 0) : c = '0'.toUInt8 := by
  have all : ∀ value : Fin 256, hexTable (UInt8.ofNat value) = 0 →
      UInt8.ofNat value = '0'.toUInt8 := by decide +kernel
  have := all ⟨c.toNat, c.toNat_lt⟩
  rw [UInt8.ofNat_toNat] at this
  exact this zero

/-- The clock rate is zero for one precision only: what is no number stands for a rate as well. -/
theorem airspyAdsb_ticking {precision : Bytes} (length : precision.length = 2) :
    2 * UInt16.ofInt (hexToInt precision) ≠ 0 ↔ precision ≠ ascii "00" := by
  rw [not_iff_not, hexToInt_eq (by rw [length]; decide)]
  cases decoded : unhexNat 0 precision with
  | none =>
      refine ⟨fun stopped => absurd stopped (by decide), fun zero => ?_⟩
      rw [zero] at decoded
      cases decoded
  | some value =>
      have bound := unhexNat_lt decoded
      rw [length] at bound
      have rate : (2 * UInt16.ofInt (value : Int)).toNat = 2 * value := by
        rw [UInt16.toNat_mul, UInt16.ofInt, Int.emod_eq_of_lt (by omega) (by omega),
          Int.toNat_natCast, UInt16.toNat_ofNat_of_lt' (by change _ < 2 ^ 16; omega)]
        change 2 * value % 2 ^ 16 = _
        omega
      rw [Option.elim_some, ← UInt16.toNat_inj, rate]
      constructor
      · intro stopped
        obtain rfl : value = 0 := by
          change 2 * value = 0 at stopped
          omega
        match precision, length with
        | [c1, c2], _ =>
            simp only [unhexNat] at decoded
            split at decoded
            · split at decoded
              · have sum := Option.some.inj decoded
                have first : (hexTable c1).toNat = 0 := by omega
                have second : (hexTable c2).toNat = 0 := by omega
                rw [hexTable_eq_zero (UInt8.toNat_inj.mp first),
                  hexTable_eq_zero (UInt8.toNat_inj.mp second)]
                rfl
              · cases decoded
            · cases decoded
      · intro zero
        rw [zero] at decoded
        cases decoded
        rfl

/-- The fields of a line that the recognizer knows. -/
def AirspyAdsbLine.fields (line : AirspyAdsbLine) : LineFields where
  type := line.type
  payload := line.payload
  timestamp := line.mlat
  precision := line.precision
  rssi := line.rssi

/-- The recognizer knows the lines that may hold other characters. -/
theorem airspyAdsbLoose_iff {fields : LineFields} {text : Bytes} :
    AirspyAdsbLoose fields text ↔
      ∃ line : AirspyAdsbLine, line.fields = fields ∧ line.text = text := by
  constructor
  · intro loose
    obtain ⟨ending, isEnding, line⟩ := loose.line
    have digits := fun c member => isHex_iff.mpr (loose.digits c member)
    obtain ⟨data, decoded⟩ := unhex_of_isHex fields.payload fun c member =>
      digits c (List.mem_append_left _ member)
    obtain ⟨timestamp, counted⟩ := @unhexNat_of_isHex fields.timestamp (fun c member =>
      digits c (List.mem_append_right _ member)) 0
    refine ⟨{
      type := fields.type, data := data, payload := fields.payload, timestamp := timestamp
      mlat := fields.timestamp, precision := fields.precision, rssi := fields.rssi
      ending := ending, framed := loose.framed
      dataLength := (unhex_isHex loose.payload decoded).1
      payloadLength := by rw [loose.payload, Nat.mul_comm]
      decoded := decoded, mlatLength := loose.timestamp, counted := counted
      precisionLength := loose.precision
      ticking := (airspyAdsb_ticking loose.precision).mpr loose.ticking
      rssiLength := loose.rssi, ended := lineEnding_iff.mp isEnding }, rfl, Eq.trans ?_ line.symm⟩
    rw [AirspyAdsbLine.text, AirspyAdsbLine.body]
    simp only [List.append_assoc, List.cons_append]
    rfl
  · rintro ⟨line, rfl, rfl⟩
    refine ⟨⟨line.framed, by rw [Nat.mul_comm]; exact line.payloadLength, line.mlatLength,
      line.precisionLength, line.rssiLength, line.ending, lineEnding_iff.mpr line.ended, ?_⟩,
      fun c member => ?_, ?_⟩
    · rw [AirspyAdsbLine.text, AirspyAdsbLine.body]
      simp only [List.append_assoc, List.cons_append]
      rfl
    · rcases List.mem_append.mp member with payload | timestamp
      · have length : line.payload.length = 2 * packetPayloadLen line.type := by
          rw [line.payloadLength, Nat.mul_comm]
        exact isHex_iff.mp ((unhex_isHex length line.decoded).2 c payload)
      · exact isHex_iff.mp (unhexNat_isHex line.counted c timestamp)
    · exact (airspyAdsb_ticking line.precisionLength).mp line.ticking

theorem airspyAdsbCode_spells : Spells airspyAdsbCode AirspyAdsbLoose fun fields frame =>
    ∃ line : AirspyAdsbLine, line.fields = fields ∧ line.frame = frame where
  front := by
    rintro fields text input loose ⟨more, rfl⟩
    obtain ⟨line, rfl, rfl⟩ := airspyAdsbLoose_iff.mp loose
    exact ⟨_, line.front more, line, rfl, rfl⟩
  text := by
    intro input frame count found
    obtain ⟨line, taken, rfl⟩ := AirspyAdsbLine.of_front found
    refine ⟨line.fields, line.text, airspyAdsbLoose_iff.mpr ⟨line, rfl, rfl⟩, ?_⟩
    rw [← taken]
    exact List.take_prefix _ _
  fields := by
    rintro fields fields' text frame loose loose' ⟨line, rfl, rfl⟩ ⟨line', rfl, framed⟩
    obtain ⟨ending, _, text⟩ := loose.line
    obtain ⟨ending', _, text'⟩ := loose'.line
    have type : line.type = line'.type := (congrArg Frame.type framed).symm
    have same := text.symm.trans text'
    simp only [List.append_assoc] at same
    obtain ⟨payload, same⟩ := List.append_inj (List.append_cancel_left same)
      (by rw [loose.payload, loose'.payload]; exact congrArg (2 * packetPayloadLen ·) type)
    obtain ⟨timestamp, same⟩ := List.append_inj (List.append_cancel_left same)
      (loose.timestamp.trans loose'.timestamp.symm)
    obtain ⟨precision, same⟩ := List.append_inj (List.append_cancel_left same)
      (loose.precision.trans loose'.precision.symm)
    obtain ⟨rssi, _⟩ := List.append_inj (List.append_cancel_left same)
      (loose.rssi.trans loose'.rssi.symm)
    dsimp only [AirspyAdsbLine.fields] at payload timestamp precision rssi
    rw [AirspyAdsbLine.fields, AirspyAdsbLine.fields, type, payload, timestamp, precision, rssi]

/-- What `airspy_adsb_parse` stores of a line, in terms of what the code reads in its fields. -/
def AirspyAdsbRead (fields : LineFields) (attempt after : Attempt) : Prop :=
  after.packet.type = fields.type ∧ unhex fields.payload = some after.packet.data ∧
    packetMlatTimestampScaleIn (UInt64.ofInt (hexToInt fields.timestamp)) airspyAdsbMlatMax
        (2 * UInt16.ofInt (hexToInt fields.precision)) attempt.state.mlatState =
      .ok (after.packet.mlatTimestamp, after.state.mlatState) ∧
    packetRssiScaleIn (UInt32.ofInt (hexToInt fields.rssi)) airspyAdsbRssiMax =
      .ok after.packet.rssi

/-- What the fields of a line stand for: the payload, and the numbers that are scaled. -/
def AirspyAdsbStored (fields : LineFields) (attempt after : Attempt) : Prop :=
  after.packet.type = fields.type ∧ unhex fields.payload = some after.packet.data ∧
    ∃ timestamp precision rssi, unhexNat 0 fields.timestamp = some timestamp ∧
      unhexNat 0 fields.precision = some precision ∧ unhexNat 0 fields.rssi = some rssi ∧
      packetMlatTimestampScaleIn (UInt64.ofNat timestamp) airspyAdsbMlatMax
          (UInt16.ofNat (2 * precision)) attempt.state.mlatState =
        .ok (after.packet.mlatTimestamp, after.state.mlatState) ∧
      packetRssiScaleIn (UInt32.ofNat rssi) airspyAdsbRssiMax = .ok after.packet.rssi

/-- `airspy_adsb_parse` accepts exactly the lines that may hold other characters. -/
theorem airspyAdsb_loose {attempt : Attempt} (valid : attempt.buf.Valid) :
    AcceptsExactly AirspyAdsbLoose AirspyAdsbRead airspyAdsbParse attempt := by
  refine airspyAdsbParse_parses.acceptsExactly airspyAdsbCode_spells valid ?_
  rintro _ text _ after count _ ⟨line, rfl, rfl⟩ accepted
  obtain ⟨stored, data⟩ := line.frame.store_fields line.dataLength attempt.packet
    attempt.state.mlatState
  have positive : 0 < airspyAdsbRssiMax := by decide
  rw [AirspyAdsbRead, accepted.packet, stored, data, accepted.state, AirspyAdsbLine.fields]
  refine ⟨rfl, line.decoded, ?_, packetRssiScaleIn_of_pos positive _⟩
  rw [packetMlatTimestampScaleIn_of_pos line.ticking, line.ofInt_mlat]
  rfl

theorem AirspyAdsbRead.stored {fields : LineFields} {text : Bytes} {attempt after : Attempt}
    (spelled : AirspyAdsbText fields text) (read : AirspyAdsbRead fields attempt after) :
    AirspyAdsbStored fields attempt after := by
  obtain ⟨type, payload, timestamp, rssi⟩ := read
  have number : ∀ digits, (∀ c ∈ digits, IsHexDigit c) → digits.length ≤ 8 →
      ∃ value : Nat, unhexNat 0 digits = some value ∧ hexToInt digits = value ∧
        value < 16 ^ digits.length := by
    intro digits each short
    obtain ⟨value, counted⟩ := unhexNat_of_isHex (fun c member => isHex_iff.mpr (each c member)) 0
    have bound := unhexNat_lt counted
    rw [Nat.zero_add, Nat.one_mul] at bound
    exact ⟨value, counted, by rw [hexToInt_eq (by omega), counted, Option.elim_some], bound⟩
  obtain ⟨mlat, counted, isMlat, small⟩ := number fields.timestamp (fun c member =>
    spelled.digits c (List.mem_append_left _ (List.mem_append_left _ (List.mem_append_right _
      member)))) spelled.timestamp.le
  obtain ⟨precision, counted', isPrecision, small'⟩ := number fields.precision (fun c member =>
    spelled.digits c (List.mem_append_left _ (List.mem_append_right _ member)))
    (by rw [spelled.precision]; decide)
  obtain ⟨strength, counted'', isStrength, small''⟩ := number fields.rssi (fun c member =>
    spelled.digits c (List.mem_append_right _ member)) (by rw [spelled.rssi]; decide)
  rw [spelled.timestamp] at small
  rw [spelled.precision] at small'
  rw [spelled.rssi] at small''
  rw [isMlat, isPrecision, UInt64.ofInt, UInt16.ofInt, Int.emod_eq_of_lt (by omega) (by omega),
    Int.emod_eq_of_lt (by omega) (by omega), Int.toNat_natCast, Int.toNat_natCast] at timestamp
  rw [isStrength, UInt32.ofInt, Int.emod_eq_of_lt (by omega) (by omega), Int.toNat_natCast] at rssi
  refine ⟨type, payload, mlat, precision, strength, counted, counted', counted'', ?_, rssi⟩
  rw [UInt16.ofNat_mul]
  exact timestamp

theorem AirspyAdsbText.loose {fields : LineFields} {text : Bytes}
    (spelled : AirspyAdsbText fields text) : AirspyAdsbLoose fields text where
  toAirspyAdsbLayout := spelled.toAirspyAdsbLayout
  digits := fun c member => spelled.digits c (List.mem_append_left _ (List.mem_append_left _ member))
  ticking := spelled.ticking

theorem AirspyAdsbLoose.text {fields : LineFields} {text : Bytes}
    (loose : AirspyAdsbLoose fields text)
    (digits : ∀ c ∈ fields.precision ++ fields.rssi, IsHexDigit c) : AirspyAdsbText fields text where
  toAirspyAdsbLayout := loose.toAirspyAdsbLayout
  digits := fun c member => by
    rw [List.append_assoc] at member
    rcases List.mem_append.mp member with first | second
    · exact loose.digits c first
    · exact digits c second
  ticking := loose.ticking

/-- A parser that accepts exactly the lines of digits was given no other line. -/
theorem digitsOnly_of_exact {attempt : Attempt} (valid : attempt.buf.Valid)
    (exact : AcceptsExactly AirspyAdsbText AirspyAdsbStored airspyAdsbParse attempt) :
    DigitsOnly attempt.buf.window := by
  intro fields text loose there
  obtain ⟨found, after, parsed, finds, _, _⟩ := exact
  obtain ⟨found', after', parsed', finds', unique, _⟩ := airspyAdsb_loose valid
  cases parsed.symm.trans parsed'
  obtain ⟨fields', text', spelled, there'⟩ := finds.mp (finds'.mpr ⟨fields, text, loose, there⟩)
  obtain ⟨rfl, _⟩ := (unique fields text loose there).1 fields' text' spelled.loose there'
  intro c member
  refine spelled.digits c ?_
  rw [List.append_assoc]
  exact List.mem_append_right _ member

/-- **The airspy_adsb grammar.** `airspy_adsb_parse` accepts exactly the airspy_adsb lines, unless
there is a line whose precision or signal strength is not made of digits. -/
theorem airspyAdsb_exact_iff {attempt : Attempt} (valid : attempt.buf.Valid) :
    AcceptsExactly AirspyAdsbText AirspyAdsbStored airspyAdsbParse attempt ↔
      DigitsOnly attempt.buf.window := by
  refine ⟨digitsOnly_of_exact valid, fun digits => ?_⟩
  obtain ⟨found, after, parsed, finds, stores, kept⟩ := airspyAdsb_loose valid
  have spelled : ∀ {fields text}, AirspyAdsbLoose fields text → text <+: attempt.buf.window →
      AirspyAdsbText fields text := fun loose there => loose.text (digits _ _ loose there)
  refine ⟨found, after, parsed, ?_, ?_, kept⟩
  · rw [finds]
    constructor
    · rintro ⟨fields, text, loose, there⟩
      exact ⟨fields, text, spelled loose there, there⟩
    · rintro ⟨fields, text, line, there⟩
      exact ⟨fields, text, line.loose, there⟩
  · intro fields text line there
    obtain ⟨unique, window, read⟩ := stores fields text line.loose there
    exact ⟨fun fields' text' line' => unique fields' text' line'.loose, window,
      AirspyAdsbRead.stored line read⟩

/-- A Mode-AC line with some precision and signal strength. -/
def modeAcLine (precision rssi : Bytes) : LineFields where
  type := .modeAc
  payload := ascii "0000"
  timestamp := ascii "00000000"
  precision := precision
  rssi := rssi

/-- The line as it is written. -/
def modeAcText (precision rssi : Bytes) : Bytes :=
  ascii "*0000;00000000;" ++ precision ++ ascii ";" ++ rssi ++ ascii ";\n"

theorem modeAcLine_loose {precision rssi : Bytes} (length : precision.length = 2)
    (length' : rssi.length = 4) (ticking : precision ≠ ascii "00") :
    AirspyAdsbLoose (modeAcLine precision rssi) (modeAcText precision rssi) where
  framed := show PacketType.modeAc ∈ PacketType.frames by decide
  payload := rfl
  timestamp := rfl
  precision := length
  rssi := length'
  line := ⟨_, .lf, by
    simp only [modeAcText, List.append_assoc]
    rfl⟩
  digits := show ∀ c ∈ ascii "000000000000", IsHexDigit c by decide +kernel
  ticking := ticking

/-- A line of digits. -/
theorem airspyAdsb_exact_line :
    AcceptsExactly AirspyAdsbText AirspyAdsbStored airspyAdsbParse
      (attemptOn (modeAcText (ascii "0A") (ascii "7AF3")) parserStateInit) := by
  have short : (modeAcText (ascii "0A") (ascii "7AF3")).length ≤ bufLenMax := by decide +kernel
  refine (airspyAdsb_exact_iff (Buf.valid_bufHolding _ short)).mpr fun fields text loose there => ?_
  rw [attemptOn, Buf.window_bufHolding _ short] at there
  obtain ⟨rfl, _⟩ := airspyAdsbCode_spells.unique (modeAcLine_loose rfl rfl (by decide))
    List.prefix_rfl loose there
  decide +kernel

/-- A line whose signal strength is made of other letters is accepted. -/
theorem airspyAdsb_letters :
    ¬ AcceptsExactly AirspyAdsbText AirspyAdsbStored airspyAdsbParse
      (attemptOn (modeAcText (ascii "0A") (ascii "zzzz")) parserStateInit) := by
  have short : (modeAcText (ascii "0A") (ascii "zzzz")).length ≤ bufLenMax := by decide +kernel
  intro exact
  have digits := digitsOnly_of_exact (Buf.valid_bufHolding _ short) exact
    (modeAcLine (ascii "0A") (ascii "zzzz")) _ (modeAcLine_loose rfl rfl (by decide))
    (by rw [attemptOn, Buf.window_bufHolding _ short])
  exact absurd (digits 'z'.toUInt8 (by decide)) (by decide)

end Adsbus

import Adsbus.Foundation.Stuffing
import Adsbus.Formats.Attempt
import Mathlib.Algebra.Group.Nat.Defs

/-! # The beast format

A beast frame is a marker byte, a type and a fixed number of further bytes, in
which the marker is doubled. -/

namespace Adsbus

/-- The marker byte. -/
def beastMarker : UInt8 := 0x1a

/-- `sizeof(struct beast_overlay)`: the marker, the type, six bytes of the counter and one of the
signal strength. -/
def beastOverlayLen : Nat := 9

/-- `BEAST_MLAT_MHZ`. -/
def beastMlatMhz : UInt16 := 12

/-- The bound of the counter. -/
def beastMlatMax : UInt64 := 0xffffffffffff

/-- The bound of the signal strength, `UINT8_MAX`. -/
def beastRssiMax : UInt32 := 0xff

/-- `beast_parse_mlat`. -/
def beastParseMlat (mlatTimestamp : Bytes) : UInt64 :=
  (mlatTimestamp.getD 0 0).toUInt64 <<< 40 ||| (mlatTimestamp.getD 1 0).toUInt64 <<< 32 |||
    (mlatTimestamp.getD 2 0).toUInt64 <<< 24 ||| (mlatTimestamp.getD 3 0).toUInt64 <<< 16 |||
    (mlatTimestamp.getD 4 0).toUInt64 <<< 8 ||| (mlatTimestamp.getD 5 0).toUInt64

/-- `beast_write_mlat`. -/
def beastWriteMlat (timestamp : UInt64) : Bytes :=
  [(timestamp >>> 40 &&& 0xff).toUInt8, (timestamp >>> 32 &&& 0xff).toUInt8,
    (timestamp >>> 24 &&& 0xff).toUInt8, (timestamp >>> 16 &&& 0xff).toUInt8,
    (timestamp >>> 8 &&& 0xff).toUInt8, (timestamp &&& 0xff).toUInt8]

/-- The loop of `beast_unescape` from index `i` on, with `left` bytes to write: the index behind
what it read, and what it wrote. -/
def beastUnescapeLoop (input : Buf UInt8) : (left i : Nat) → Option (Nat × Bytes)
  | 0, i => some (i, [])
  | left + 1, i =>
      if i < input.length then
        if 0 < i ∧ bufChr input i = beastMarker then
          if i = input.length - 1 ∨ bufChr input (i + 1) ≠ beastMarker then none
          else
            (beastUnescapeLoop input left (i + 2)).map fun (stop, out) =>
              (stop, bufChr input (i + 1) :: out)
        else
          (beastUnescapeLoop input left (i + 1)).map fun (stop, out) =>
            (stop, bufChr input i :: out)
      else none

/-- `beast_unescape`; nothing is its result -1. -/
def beastUnescape (input : Buf UInt8) (outBytes : Nat) : Option (Nat × Bytes) :=
  beastUnescapeLoop input outBytes 0

/-- The loop of `beast_escape` from index `i` on. -/
def beastEscapeLoop : (i : Nat) → Bytes → Bytes
  | _, [] => []
  | i, c :: input =>
      (if 0 < i ∧ c = beastMarker then [c, beastMarker] else [c]) ++ beastEscapeLoop (i + 1) input

/-- `beast_escape`. -/
def beastEscape (input : Bytes) : Bytes := beastEscapeLoop 0 input

/-- `beast_parse_packet`. -/
def beastParsePacket (type : PacketType) (attempt : Attempt) : Except Fault (Bool × Attempt) :=
  let payloadBytes := packetPayloadLen type
  match beastUnescape attempt.buf (beastOverlayLen + payloadBytes) with
  | none => .ok (false, attempt)
  | some (inBytes, buf2) => do
      let sourceMlat := beastParseMlat ((buf2.drop 2).take 6)
      let (timestamp, mlatState) ←
        packetMlatTimestampScaleIn sourceMlat beastMlatMax beastMlatMhz attempt.state.mlatState
      let rssi ← packetRssiScaleIn (buf2.getD 8 0).toUInt32 beastRssiMax
      let payload :=
        attempt.packet.payload.overwrite 0 ((buf2.drop beastOverlayLen).take payloadBytes)
      let buf ← bufConsume attempt.buf inBytes
      return (true,
        { buf := buf
          packet := { attempt.packet with
            type := type, mlatTimestamp := timestamp, rssi := rssi, payload := payload }
          state := { attempt.state with mlatState := mlatState } })

/-- The type bytes. -/
def beastType (type : UInt8) : Option PacketType :=
  if type = 0x31 then some .modeAc
  else if type = 0x32 then some .modeSShort
  else if type = 0x33 then some .modeSLong
  else none

/-- The byte that stands for a type. -/
def beastTypeByte : PacketType → UInt8
  | .none => 0
  | .modeAc => 0x31
  | .modeSShort => 0x32
  | .modeSLong => 0x33

theorem beastType_beastTypeByte {type : PacketType} (framed : type ∈ PacketType.frames) :
    beastType (beastTypeByte type) = some type := by
  cases type with
  | none => exact absurd framed (by decide)
  | modeAc => rfl
  | modeSShort => rfl
  | modeSLong => rfl

theorem beastTypeByte_of_beastType {byte : UInt8} {type : PacketType}
    (typed : beastType byte = some type) : type ∈ PacketType.frames ∧ byte = beastTypeByte type := by
  unfold beastType at typed
  split at typed
  · rename_i same
    cases typed
    exact ⟨by decide, same⟩
  · split at typed
    · rename_i same
      cases typed
      exact ⟨by decide, same⟩
    · split at typed
      · rename_i same
        cases typed
        exact ⟨by decide, same⟩
      · cases typed

/-- `beast_parse`. -/
def beastParse : Parse := fun attempt =>
  if attempt.buf.length < beastOverlayLen ∨ bufChr attempt.buf 0 ≠ beastMarker then
    .ok (false, attempt)
  else
    match beastType (bufChr attempt.buf 1) with
    | some type => beastParsePacket type attempt
    | none => .ok (false, attempt)

/-- `beast_serialize_packet`. -/
def beastSerializePacket (packet : Packet) (type : UInt8) : Except Fault Bytes := do
  let timestamp ← packetMlatTimestampScaleOut packet.mlatTimestamp beastMlatMax beastMlatMhz
  let rssi ←
    if packet.rssi ≠ 0 then
      (packetRssiScaleOut packet.rssi beastRssiMax).map UInt32.toUInt8
    else
      .ok 0xff
  return beastEscape ([beastMarker, type] ++ beastWriteMlat timestamp ++ [rssi] ++ packet.data)

/-- `beast_serialize`: the bytes it stores in an empty buffer. -/
def beastSerialize (packet : Packet) : Except Fault Bytes :=
  match packet.type with
  | .none => .ok []
  | .modeAc => beastSerializePacket packet 0x31
  | .modeSShort => beastSerializePacket packet 0x32
  | .modeSLong => beastSerializePacket packet 0x33

/-! ## The counter -/

/-- The number that bytes stand for, the first of them the highest. -/
def bigEndian (bytes : Bytes) : Nat := bytes.foldl (fun value c => value * 256 + c.toNat) 0

/-- Bytes of the same number are the same. -/
theorem bigEndian_inj {bytes bytes' : Bytes} (length : bytes.length = bytes'.length)
    (same : bigEndian bytes = bigEndian bytes') : bytes = bytes' := by
  induction bytes using List.reverseRecOn generalizing bytes' with
  | nil => exact (List.length_eq_zero_iff.mp length.symm).symm
  | append_singleton bytes c ih =>
      rcases List.eq_nil_or_concat' bytes' with rfl | ⟨bytes', c', rfl⟩
      · simp only [List.length_append, List.length_singleton, List.length_nil] at length
        omega
      · simp only [bigEndian, List.foldl_append, List.foldl_cons, List.foldl_nil] at same
        have b := c.toNat_lt
        have b' := c'.toNat_lt
        rw [ih (by simpa only [List.length_append, List.length_singleton, Nat.add_right_cancel_iff]
            using length) (by unfold bigEndian; omega),
          UInt8.toNat_inj.mp (by omega : c.toNat = c'.toNat)]

theorem bigEndian_lt (bytes : Bytes) : bigEndian bytes < 256 ^ bytes.length := by
  induction bytes using List.reverseRecOn with
  | nil => exact Nat.one_pos
  | append_singleton bytes c ih =>
      have b := c.toNat_lt
      rw [bigEndian, List.foldl_append, List.foldl_cons, List.foldl_nil, ← bigEndian,
        List.length_append, List.length_singleton, Nat.pow_succ]
      omega

/-- A byte above lower bits. -/
theorem toNat_shifted_or (c : UInt8) {shift low : UInt64} (place : Nat)
    (placed : shift.toNat = place) (inside : place ≤ 56) (below : low.toNat < 2 ^ place) :
    (c.toUInt64 <<< shift ||| low).toNat = c.toNat * 2 ^ place + low.toNat := by
  have bound : c.toNat * 2 ^ place < 2 ^ 64 :=
    calc c.toNat * 2 ^ place < 2 ^ 8 * 2 ^ place :=
          Nat.mul_lt_mul_of_pos_right c.toNat_lt (Nat.two_pow_pos place)
      _ = 2 ^ (8 + place) := (Nat.pow_add 2 8 place).symm
      _ ≤ 2 ^ 64 := Nat.pow_le_pow_right (by decide) (by omega)
  rw [UInt64.toNat_or, UInt64.toNat_shiftLeft, placed, UInt8.toNat_toUInt64,
    Nat.mod_eq_of_lt (by omega : place < 64), Nat.shiftLeft_eq, Nat.mod_eq_of_lt bound,
    ← Nat.shiftLeft_eq, ← Nat.shiftLeft_add_eq_or_of_lt below, Nat.shiftLeft_eq]

/-- `beast_parse_mlat` reads the six bytes of the counter. -/
theorem toNat_beastParseMlat {mlat : Bytes} (length : mlat.length = 6) :
    (beastParseMlat mlat).toNat = bigEndian mlat := by
  match mlat, length with
  | [c0, c1, c2, c3, c4, c5], _ =>
      have b0 := c0.toNat_lt
      have b1 := c1.toNat_lt
      have b2 := c2.toNat_lt
      have b3 := c3.toNat_lt
      have b4 := c4.toNat_lt
      have b5 := c5.toNat_lt
      change (c0.toUInt64 <<< 40 ||| c1.toUInt64 <<< 32 ||| c2.toUInt64 <<< 24 |||
        c3.toUInt64 <<< 16 ||| c4.toUInt64 <<< 8 ||| c5.toUInt64).toNat = _
      have s5 : c5.toUInt64.toNat = c5.toNat := UInt8.toNat_toUInt64 c5
      have s4 := @toNat_shifted_or c4 8 c5.toUInt64 8 rfl (by decide) (by omega)
      have s3 := @toNat_shifted_or c3 16 _ 16 rfl (by decide) (s4.trans_lt (by omega))
      have s2 := @toNat_shifted_or c2 24 _ 24 rfl (by decide) (s3.trans_lt (by omega))
      have s1 := @toNat_shifted_or c1 32 _ 32 rfl (by decide) (s2.trans_lt (by omega))
      have s0 := @toNat_shifted_or c0 40 _ 40 rfl (by decide) (s1.trans_lt (by omega))
      rw [UInt64.or_assoc, UInt64.or_assoc, UInt64.or_assoc, UInt64.or_assoc, s0, s1, s2, s3, s4,
        s5]
      change _ = (((((0 * 256 + c0.toNat) * 256 + c1.toNat) * 256 + c2.toNat) * 256 +
        c3.toNat) * 256 + c4.toNat) * 256 + c5.toNat
      omega

/-- `beast_write_mlat` writes the number into its six bytes. -/
theorem bigEndian_beastWriteMlat {timestamp : UInt64} (small : timestamp.toNat < 2 ^ 48) :
    bigEndian (beastWriteMlat timestamp) = timestamp.toNat := by
  have byte : ∀ (shift : UInt64) (place : Nat), shift.toNat = place → place < 64 →
      (timestamp >>> shift &&& 0xff).toUInt8.toNat = timestamp.toNat / 2 ^ place % 256 := by
    intro shift place placed inside
    rw [UInt64.toNat_toUInt8, UInt64.toNat_and, UInt64.toNat_shiftRight, placed,
      Nat.mod_eq_of_lt inside, Nat.shiftRight_eq_div_pow]
    change (_ &&& (2 ^ 8 - 1)) % 2 ^ 8 = _
    rw [Nat.and_two_pow_sub_one_eq_mod, Nat.mod_mod]
  have last : (timestamp &&& 0xff).toUInt8.toNat = timestamp.toNat % 256 := by
    rw [UInt64.toNat_toUInt8, UInt64.toNat_and]
    change (_ &&& (2 ^ 8 - 1)) % 2 ^ 8 = _
    rw [Nat.and_two_pow_sub_one_eq_mod, Nat.mod_mod]
  simp only [bigEndian, beastWriteMlat, List.foldl_cons, List.foldl_nil, last,
    byte 40 40 rfl (by decide),
    byte 32 32 rfl (by decide),
    byte 24 24 rfl (by decide),
    byte 16 16 rfl (by decide),
    byte 8 8 rfl (by decide)]
  omega

/-! ## Beast frames -/

/-- The frame of a type with the given bytes behind the marker. -/
def beastFrame (type : PacketType) (bytes : Bytes) : Frame where
  type := type
  data := (bytes.drop 8).take (packetPayloadLen type)
  reception := some
    { timestamp := beastParseMlat ((bytes.drop 1).take 6)
      max := beastMlatMax
      mhz := beastMlatMhz
      rssi := (bytes.getD 7 0).toUInt32 * (packetRssiMax / beastRssiMax)
      ticking := by decide }

/-- The beast frame at the front of an input, and its length. -/
def beastFront (input : Bytes) : Option (Frame × Nat) :=
  if input[0]? = some beastMarker then do
    let type ← input[1]?.bind beastType
    let (stop, bytes) ← Stuffing.unstuff beastMarker (8 + packetPayloadLen type) (input.drop 1)
    return (beastFrame type bytes, 1 + stop)
  else
    none

theorem beastFront_eq_some {input : Bytes} {frame : Frame} {count : Nat} :
    beastFront input = some (frame, count) ↔
      input[0]? = some beastMarker ∧ ∃ byte type stop bytes, input[1]? = some byte ∧
        beastType byte = some type ∧
        Stuffing.unstuff beastMarker (8 + packetPayloadLen type) (input.drop 1) =
          some (stop, bytes) ∧
        frame = beastFrame type bytes ∧ count = 1 + stop := by
  by_cases first : input[0]? = some beastMarker
  · simp only [beastFront, first, ↓reduceIte, Option.bind_eq_bind, Option.bind_eq_some_iff,
      Option.pure_def, Option.some.injEq, Prod.mk.injEq, true_and]
    constructor
    · rintro ⟨type, ⟨byte, second, typed⟩, ⟨stop, bytes⟩, read, rfl, rfl⟩
      exact ⟨byte, type, stop, bytes, second, typed, read, rfl, rfl⟩
    · rintro ⟨byte, type, stop, bytes, second, typed, read, rfl, rfl⟩
      exact ⟨type, ⟨byte, second, typed⟩, (stop, bytes), read, rfl, rfl⟩
  · simp only [beastFront, first, ↓reduceIte, reduceCtorEq, false_and]

/-- The beast frames. -/
def beastCode : Recognizer UInt8 Frame where
  front := beastFront
  nonempty := by
    intro input frame count found
    obtain ⟨_, _, _, _, _, _, _, _, _, rfl⟩ := beastFront_eq_some.mp found
    omega
  inside := by
    intro input frame count found
    obtain ⟨first, _, _, stop, _, _, _, read, _, rfl⟩ := beastFront_eq_some.mp found
    have bounds := Stuffing.unstuff_bounds read
    have nonempty := (List.getElem?_eq_some_iff.mp first).1
    rw [List.length_drop] at bounds
    omega
  determined := by
    intro input frame count found other common
    obtain ⟨first, byte, type, stop, bytes, second, typed, read, rfl, rfl⟩ :=
      beastFront_eq_some.mp found
    have bounds := Stuffing.unstuff_bounds read
    have nonempty := (List.getElem?_eq_some_iff.mp first).1
    rw [List.length_drop] at bounds
    refine beastFront_eq_some.mpr
      ⟨?_, byte, type, stop, bytes, ?_, typed, Stuffing.unstuff_determined read ?_, rfl, rfl⟩
    · rw [Recognizer.getElem?_eq_of_take_prefix common (by omega) (by omega), first]
    · rw [Recognizer.getElem?_eq_of_take_prefix common (by omega) (by omega), second]
    · have := common.drop 1
      rwa [List.drop_take, Nat.add_sub_cancel_left] at this

theorem front_beastCode (input : Bytes) : beastCode.front input = beastFront input := rfl

/-- Nothing but a frame that starts with the marker is a beast frame. -/
theorem beastCode_marked : Marked beastCode beastMarker true := by
  intro input frame count found
  obtain ⟨first, _, type, stop, _, _, _, read, rfl, rfl⟩ := beastFront_eq_some.mp found
  have bounds := Stuffing.unstuff_bounds read
  have length : packetPayloadLen type ≤ 14 := packetPayloadLen_le type
  exact ⟨first, by rw [bufLenMax]; omega, rfl⟩

/-! ## Parsing -/

/-- `beast_unescape` undoes the doubling in the window. -/
theorem Buf.Valid.beastUnescapeLoop_eq {buf : Buf UInt8} (valid : buf.Valid) {left i : Nat}
    (started : 0 < i) :
    beastUnescapeLoop buf left i =
      (Stuffing.unstuff beastMarker left (buf.window.drop i)).map fun (stop, out) =>
        (i + stop, out) := by
  have length := valid.window_length
  induction left generalizing i with
  | zero =>
      rw [beastUnescapeLoop, Stuffing.unstuff]
      rfl
  | succ left ih =>
      by_cases inside : i < buf.length
      · rw [beastUnescapeLoop, if_pos inside, valid.drop_window inside]
        by_cases marked : bufChr buf i = beastMarker
        · rw [if_pos ⟨started, marked⟩, marked]
          by_cases last : i = buf.length - 1
          · rw [if_pos (.inl last), List.drop_of_length_le (by omega)]
            simp only [Stuffing.unstuff, ↓reduceIte, Option.map_none]
          · rw [valid.drop_window (by omega : i + 1 < buf.length)]
            by_cases doubled : bufChr buf (i + 1) = beastMarker
            · rw [if_neg (by simp only [last, doubled, ne_eq, not_true_eq_false, or_self,
                not_false_eq_true]), doubled, Stuffing.unstuff_marker, ih (by omega)]
              cases Stuffing.unstuff beastMarker left (buf.window.drop (i + 2)) with
              | none => rfl
              | some result =>
                  simp only [Option.map_some, Option.some.injEq, Prod.mk.injEq, and_true]
                  omega
            · rw [if_pos (.inr doubled)]
              simp only [Stuffing.unstuff, ↓reduceIte, doubled, Option.map_none]
        · rw [if_neg (fun both => marked both.2), Stuffing.unstuff_of_ne marked, ih (by omega)]
          cases Stuffing.unstuff beastMarker left (buf.window.drop (i + 1)) with
          | none => rfl
          | some result =>
              simp only [Option.map_some, Option.some.injEq, Prod.mk.injEq, and_true]
              omega
      · rw [beastUnescapeLoop, if_neg inside, List.drop_of_length_le (by omega)]
        rfl

theorem Buf.Valid.beastUnescape_eq {buf : Buf UInt8} (valid : buf.Valid) (count : Nat)
    (nonempty : 0 < buf.length) :
    beastUnescape buf (count + 1) =
      (Stuffing.unstuff beastMarker count (buf.window.drop 1)).map fun (stop, out) =>
        (1 + stop, bufChr buf 0 :: out) := by
  rw [beastUnescape, beastUnescapeLoop, if_pos nonempty,
    if_neg (fun both => Nat.lt_irrefl 0 both.1), valid.beastUnescapeLoop_eq (by omega)]
  cases Stuffing.unstuff beastMarker count (buf.window.drop 1) <;> rfl

theorem beastParse_of_marked {attempt : Attempt} {type : PacketType}
    (long : beastOverlayLen ≤ attempt.buf.length)
    (marked : bufChr attempt.buf 0 = beastMarker)
    (typed : beastType (bufChr attempt.buf 1) = some type) :
    beastParse attempt = beastParsePacket type attempt := by
  rw [beastParse, if_neg (by
    simp only [marked, ne_eq, not_true_eq_false, or_false]
    omega), typed]

/-- **The beast parser.** `beast_parse` takes the beast frames, and changes nothing else. -/
theorem beastParse_parses : Parses beastParse beastCode beastCode fun _ => False where
  accept := by
    intro attempt frame count valid found
    obtain ⟨first, byte, type, stop, bytes, second, typed, read, rfl, rfl⟩ :=
      beastFront_eq_some.mp found
    have bounds := Stuffing.unstuff_bounds read
    rw [List.length_drop, valid.window_length] at bounds
    rw [valid.window_eq_some] at first second
    obtain ⟨rest, consumed, restValid, _, window⟩ :=
      Buf.consume valid.inside (1 + stop) (by omega)
    have unescaped := valid.beastUnescape_eq (8 + packetPayloadLen type) (by omega)
    rw [read, Option.map_some, Nat.add_right_comm] at unescaped
    have ticking : beastMlatMhz ≠ 0 := by decide
    have positive : 0 < beastRssiMax := by decide
    have parsed := beastParse_of_marked (by rw [beastOverlayLen]; omega) first.2
      (by rw [second.2, typed])
    simp only [beastParsePacket, beastOverlayLen, unescaped,
      packetMlatTimestampScaleIn_of_pos ticking, packetRssiScaleIn_of_pos positive, consumed,
      Except.ok_bind, Except.pure_eq_ok] at parsed
    exact ⟨_, parsed, restValid, window, rfl, rfl⟩
  reject := by
    intro attempt valid none
    refine ⟨attempt.packet, attempt.state.mlatState, ?_, .inl rfl⟩
    by_cases unmarked :
        attempt.buf.length < beastOverlayLen ∨ bufChr attempt.buf 0 ≠ beastMarker
    · rw [beastParse, if_pos unmarked]
    · obtain ⟨long, marked⟩ := not_or.mp unmarked
      rw [not_lt] at long
      rw [ne_eq, not_not] at marked
      have length : 9 ≤ attempt.buf.length := long
      cases typed : beastType (bufChr attempt.buf 1) with
      | none => rw [beastParse, if_neg unmarked, typed]
      | some type =>
          have unescaped := valid.beastUnescape_eq (8 + packetPayloadLen type) (by omega)
          rw [Nat.add_right_comm] at unescaped
          rw [beastParse_of_marked long marked typed]
          cases read : Stuffing.unstuff beastMarker (8 + packetPayloadLen type)
              (attempt.buf.window.drop 1) with
          | none =>
              rw [read, Option.map_none] at unescaped
              simp only [beastParsePacket, beastOverlayLen, unescaped]
          | some result =>
              have found := beastFront_eq_some.mpr
                ⟨valid.window_eq_some.mpr ⟨by omega, marked⟩, _, type, result.1, result.2,
                  valid.window_eq_some.mpr ⟨by omega, rfl⟩, typed, read, rfl, rfl⟩
              rw [front_beastCode] at none
              rw [none] at found
              cases found

/-! ## Serializing -/

theorem beastEscapeLoop_of_pos {i : Nat} (started : 0 < i) (input : Bytes) :
    beastEscapeLoop i input = Stuffing.stuff beastMarker input := by
  induction input generalizing i with
  | nil => rfl
  | cons c input ih =>
      rw [beastEscapeLoop, ih (Nat.succ_pos i)]
      simp only [started, true_and]
      rw [Stuffing.stuff, Stuffing.stuff, List.flatMap_cons]

theorem beastEscape_cons (c : UInt8) (input : Bytes) :
    beastEscape (c :: input) = c :: Stuffing.stuff beastMarker input := by
  rw [beastEscape, beastEscapeLoop, beastEscapeLoop_of_pos (Nat.succ_pos 0),
    if_neg (fun both => Nat.lt_irrefl 0 both.1)]
  rfl

/-- The byte `beast_serialize` writes for the signal strength. -/
def beastSentRssi (packet : Packet) : UInt8 :=
  if packet.rssi = 0 then 0xff else (packet.rssi / 0x1010101).toUInt8

/-- The bytes `beast_serialize_packet` writes behind the marker, before they are escaped. -/
def beastSent (packet : Packet) (type : UInt8) : Bytes :=
  type :: (beastWriteMlat (packet.mlatTimestamp / 10 % beastMlatMax) ++
    beastSentRssi packet :: packet.data)

theorem beastSerializePacket_eq (packet : Packet) (type : UInt8) :
    beastSerializePacket packet type =
      .ok (beastMarker :: Stuffing.stuff beastMarker (beastSent packet type)) := by
  have mhz : decide (0 < beastMlatMhz.toUInt64) = true := by decide
  have max : decide (0 < beastMlatMax) = true := by decide
  have rssi : decide (0 < beastRssiMax) = true := by decide
  have ratio : packetMlatMhz.toUInt64 / beastMlatMhz.toUInt64 = 10 := by decide
  have step : packetRssiMax / beastRssiMax = 0x1010101 := by decide
  by_cases silent : packet.rssi = 0
  · simp only [beastSerializePacket, packetMlatTimestampScaleOut, packetMlatTimestampScaleMhzOut,
      packetMlatTimestampScaleWidthOut, mhz, max, ratio, silent, ne_eq, not_true_eq_false,
      ↓reduceIte, check_true, Except.ok_bind, Except.pure_eq_ok, List.append_assoc,
      List.cons_append, List.nil_append, beastEscape_cons, beastSent, beastSentRssi]
  · simp only [beastSerializePacket, packetMlatTimestampScaleOut, packetMlatTimestampScaleMhzOut,
      packetMlatTimestampScaleWidthOut, packetRssiScaleOut, mhz, max, rssi, ratio, step, silent,
      ne_eq, not_false_eq_true, ↓reduceIte, check_true, Except.ok_bind, Except.pure_eq_ok,
      List.append_assoc, List.cons_append, List.nil_append, beastEscape_cons, beastSent,
      beastSentRssi, Except.map]

/-! ## Fields -/

/-- The fields of a beast frame. -/
structure BeastFields where
  type : PacketType
  mlat : Bytes
  rssi : UInt8
  data : Bytes
  framed : type ∈ PacketType.frames
  mlatLength : mlat.length = 6
  dataLength : data.length = packetPayloadLen type

namespace BeastFields

/-- What is escaped behind the marker. -/
def bytes (fields : BeastFields) (type : UInt8) : Bytes :=
  type :: (fields.mlat ++ fields.rssi :: fields.data)

/-- The text of a frame. -/
def text (fields : BeastFields) : Bytes :=
  beastMarker :: Stuffing.stuff beastMarker (fields.bytes (beastTypeByte fields.type))

/-- The frame that the fields make. -/
def frame (fields : BeastFields) : Frame where
  type := fields.type
  data := fields.data
  reception := some
    { timestamp := beastParseMlat fields.mlat
      max := beastMlatMax
      mhz := beastMlatMhz
      rssi := fields.rssi.toUInt32 * (packetRssiMax / beastRssiMax)
      ticking := by decide }

theorem bytes_length (fields : BeastFields) (type : UInt8) :
    (fields.bytes type).length = 8 + packetPayloadLen fields.type := by
  rw [bytes, List.length_cons, List.length_append, List.length_cons, fields.mlatLength,
    fields.dataLength]
  omega

theorem text_length_le (fields : BeastFields) :
    fields.text.length ≤ packetPayloadLen fields.type * 2 + 17 := by
  have doubled := Stuffing.stuff_length_le beastMarker (fields.bytes (beastTypeByte fields.type))
  rw [bytes_length] at doubled
  rw [text, List.length_cons]
  omega

theorem beastFrame_bytes (fields : BeastFields) (type : UInt8) :
    beastFrame fields.type (fields.bytes type) = fields.frame := by
  have mlat : ((fields.bytes type).drop 1).take 6 = fields.mlat := by
    rw [bytes, List.drop_one, List.tail_cons, List.take_left' fields.mlatLength]
  have behind : (fields.bytes type).drop 7 = fields.rssi :: fields.data := by
    change (fields.mlat ++ fields.rssi :: fields.data).drop 6 = _
    rw [List.drop_left' fields.mlatLength]
  have data : (fields.bytes type).drop 8 = fields.data := by
    change (fields.bytes type).drop (7 + 1) = _
    rw [← List.drop_drop, behind, List.drop_one, List.tail_cons]
  have rssi : (fields.bytes type).getD 7 0 = fields.rssi := by
    have head := congrArg (fun list => list[0]?) behind
    simp only [List.getElem?_drop, Nat.add_zero, List.getElem?_cons_zero] at head
    rw [List.getD_eq_getElem?_getD, head, Option.getD_some]
  simp only [beastFrame, mlat, data, rssi, List.take_of_length_le (Nat.le_of_eq fields.dataLength),
    frame]

/-- The text of a frame is recognized, whatever follows it. -/
theorem front (fields : BeastFields) (more : Bytes) :
    beastCode.front (fields.text ++ more) = some (fields.frame, fields.text.length) := by
  have read := Stuffing.unstuff_stuff beastMarker (fields.bytes (beastTypeByte fields.type)) more
  rw [bytes_length] at read
  have plain : beastTypeByte fields.type ≠ beastMarker := by cases fields.type <;> decide
  have typed := beastType_beastTypeByte fields.framed
  refine (front_beastCode _).trans (beastFront_eq_some.mpr
    ⟨rfl, _, fields.type, _, _, ?_, typed, read, (fields.beastFrame_bytes _).symm, ?_⟩)
  · rw [text, bytes, Stuffing.stuff, List.flatMap_cons, if_neg plain]
    rfl
  · rw [text, List.length_cons, Nat.add_comm]

/-- The text of a frame tells its fields. -/
theorem text_inj {fields other : BeastFields} (type : fields.type = other.type) :
    fields.text = other.text ↔
      fields.mlat = other.mlat ∧ fields.rssi = other.rssi ∧ fields.data = other.data := by
  constructor
  · intro same
    have read := Stuffing.unstuff_stuff beastMarker (fields.bytes (beastTypeByte fields.type)) []
    have read' := Stuffing.unstuff_stuff beastMarker (other.bytes (beastTypeByte other.type)) []
    rw [(List.cons.inj same).2, bytes_length, type, ← bytes_length other (beastTypeByte other.type),
      read', Option.some.injEq, Prod.mk.injEq] at read
    have behind := (List.cons.inj read.2).2
    obtain ⟨mlat, rest⟩ := List.append_inj behind (by rw [fields.mlatLength, other.mlatLength])
    obtain ⟨rssi, data⟩ := List.cons.inj rest
    exact ⟨mlat.symm, rssi.symm, data.symm⟩
  · rintro ⟨mlat, rssi, data⟩
    rw [text, text, bytes, bytes, type, mlat, rssi, data]

/-- Every beast frame has its fields. -/
theorem of_front {input : Bytes} {frame : Frame} {count : Nat}
    (found : beastCode.front input = some (frame, count)) :
    ∃ fields : BeastFields, input.take count = fields.text ∧ frame = fields.frame := by
  obtain ⟨first, byte, type, stop, read, second, typed, unstuffed, rfl, rfl⟩ :=
    beastFront_eq_some.mp found
  obtain ⟨framed, rfl⟩ := beastTypeByte_of_beastType typed
  have plain : beastTypeByte type ≠ beastMarker := by
    rintro same
    rw [same] at typed
    cases typed
  obtain ⟨rest, rfl⟩ : ∃ rest, input = beastMarker :: beastTypeByte type :: rest := by
    cases input with
    | nil => cases first
    | cons marker input =>
        cases input with
        | nil => cases second
        | cons byte rest =>
            rw [List.getElem?_cons_zero, Option.some.injEq] at first
            rw [List.getElem?_cons_succ, List.getElem?_cons_zero, Option.some.injEq] at second
            exact ⟨rest, by rw [first, second]⟩
  have doubled := Stuffing.stuff_unstuff unstuffed
  rw [List.drop_one, List.tail_cons, Nat.add_right_comm 7 1, Stuffing.unstuff_of_ne plain,
    Option.map_eq_some_iff] at unstuffed
  obtain ⟨⟨stop', tail⟩, unstuffed, same⟩ := unstuffed
  cases same
  have length := (Stuffing.unstuff_bounds unstuffed).1
  have split : tail = tail.take 6 ++ tail[6] :: tail.drop 7 := by
    rw [← List.drop_eq_getElem_cons, List.take_append_drop]
  let fields : BeastFields :=
    { type := type
      mlat := tail.take 6
      rssi := tail[6]
      data := tail.drop 7
      framed := framed
      mlatLength := by
        rw [List.length_take]
        omega
      dataLength := by
        rw [List.length_drop]
        omega }
  have whole : fields.bytes (beastTypeByte type) = beastTypeByte type :: tail :=
    congrArg _ split.symm
  refine ⟨fields, ?_, ?_⟩
  · rw [text, whole, doubled, Nat.add_comm, List.take_succ_cons]
    rfl
  · rw [← fields.beastFrame_bytes (beastTypeByte type), whole]

end BeastFields

/-- The fields that `beast_serialize` writes. -/
def BeastFields.sent (packet : Packet) (framed : packet.type ∈ PacketType.frames) : BeastFields where
  type := packet.type
  mlat := beastWriteMlat (packet.mlatTimestamp / 10 % beastMlatMax)
  rssi := beastSentRssi packet
  data := packet.data
  framed := framed
  mlatLength := rfl
  dataLength := packet.data_length

theorem beastSerialize_eq {packet : Packet} (framed : packet.type ∈ PacketType.frames) :
    beastSerialize packet = .ok (BeastFields.sent packet framed).text := by
  have written : beastSerialize packet =
      beastSerializePacket packet (beastTypeByte packet.type) := by
    rw [beastSerialize]
    cases kind : packet.type with
    | none =>
        rw [kind] at framed
        exact absurd framed (by decide)
    | modeAc => rfl
    | modeSShort => rfl
    | modeSLong => rfl
  rw [written, beastSerializePacket_eq]
  rfl

/-- **Serializing.** What `beast_serialize` writes is a beast frame. -/
theorem front_beastSerialize {packet : Packet} (type : packet.type ∈ PacketType.frames) :
    ∃ out reception, beastSerialize packet = .ok out ∧
      out.length ≤ packetPayloadLen packet.type * 2 + 17 ∧
      ∀ more, beastCode.front (out ++ more) =
        some ({ type := packet.type, data := packet.data, reception := reception },
          out.length) :=
  ⟨_, _, beastSerialize_eq type, (BeastFields.sent packet type).text_length_le,
    (BeastFields.sent packet type).front⟩

end Adsbus

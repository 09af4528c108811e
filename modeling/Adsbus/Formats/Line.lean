import Adsbus.Core.Hex
import Adsbus.Formats.Attempt

/-! # Frames that are lines of text

The frames of the two textual formats start with an asterisk, the digits of the
payload and a semicolon, have a fixed length for each length of the payload, and
end with a line feed or with a carriage return and a line feed. The payload's
semicolon tells the lengths apart.
-/

namespace Adsbus

/-- The index behind the line ending at an index. -/
def lineEnd (input : Bytes) (index : Nat) : Option Nat :=
  if input[index]? = some '\n'.toUInt8 then
    some (index + 1)
  else if input[index]? = some '\r'.toUInt8 ∧ input[index + 1]? = some '\n'.toUInt8 then
    some (index + 2)
  else
    none

theorem lineEnd_bounds {input : Bytes} {index stop : Nat} (found : lineEnd input index = some stop) :
    index < stop ∧ stop ≤ index + 2 ∧ stop ≤ input.length := by
  unfold lineEnd at found
  split at found
  · rename_i lf
    have := (List.getElem?_eq_some_iff.mp lf).1
    cases found
    omega
  · split at found
    · rename_i crLf
      have := (List.getElem?_eq_some_iff.mp crLf.2).1
      cases found
      omega
    · cases found

theorem lineEnd_determined {input other : Bytes} {index stop : Nat}
    (found : lineEnd input index = some stop) (common : input.take stop <+: other) :
    lineEnd other index = some stop := by
  obtain ⟨_, _, inside⟩ := lineEnd_bounds found
  unfold lineEnd at found ⊢
  split at found
  · rename_i lf
    cases found
    rw [if_pos]
    rw [Recognizer.getElem?_eq_of_take_prefix common inside (by omega)]
    exact lf
  · rename_i notLf
    split at found
    · rename_i crLf
      cases found
      rw [Recognizer.getElem?_eq_of_take_prefix common inside (by omega),
        Recognizer.getElem?_eq_of_take_prefix common inside (by omega), if_neg notLf, if_pos crLf]
    · cases found

theorem lineEnd_lf {body : Bytes} {index : Nat} (length : body.length = index) (more : Bytes) :
    lineEnd (body ++ '\n'.toUInt8 :: more) index = some (index + 1) := by
  rw [lineEnd, List.getElem?_append_right (Nat.le_of_eq length), length, Nat.sub_self,
    List.getElem?_cons_zero, if_pos rfl]

theorem lineEnd_crLf {body : Bytes} {index : Nat} (length : body.length = index) (more : Bytes) :
    lineEnd (body ++ '\r'.toUInt8 :: '\n'.toUInt8 :: more) index = some (index + 2) := by
  rw [lineEnd, List.getElem?_append_right (Nat.le_of_eq length),
    List.getElem?_append_right (by omega), length, Nat.sub_self, Nat.add_sub_cancel_left,
    List.getElem?_cons_zero, List.getElem?_cons_succ, List.getElem?_cons_zero,
    if_neg (by decide), if_pos ⟨rfl, rfl⟩]

/-- The frames with a body of a given length that a function reads, followed by a line ending. -/
def lineCode (body : Nat) (fields : Bytes → Option Frame) : Recognizer UInt8 Frame where
  front input := do
    let stop ← lineEnd input body
    let frame ← fields (input.take body)
    return (frame, stop)
  nonempty := by
    intro input frame count found
    simp only [Option.bind_eq_bind, Option.bind_eq_some_iff, Option.pure_def, Option.some.injEq,
      Prod.mk.injEq] at found
    obtain ⟨stop, ended, _, _, _, rfl⟩ := found
    have := lineEnd_bounds ended
    omega
  inside := by
    intro input frame count found
    simp only [Option.bind_eq_bind, Option.bind_eq_some_iff, Option.pure_def, Option.some.injEq,
      Prod.mk.injEq] at found
    obtain ⟨stop, ended, _, _, _, rfl⟩ := found
    exact (lineEnd_bounds ended).2.2
  determined := by
    intro input frame count found other common
    simp only [Option.bind_eq_bind, Option.bind_eq_some_iff, Option.pure_def, Option.some.injEq,
      Prod.mk.injEq] at found ⊢
    obtain ⟨stop, ended, frame, read, rfl, rfl⟩ := found
    obtain ⟨after, _, inside⟩ := lineEnd_bounds ended
    refine ⟨stop, lineEnd_determined ended common, frame, ?_, rfl, rfl⟩
    have same := Recognizer.slice_eq_of_take_prefix (by omega : 0 + body ≤ stop) common inside
    rw [List.drop_zero, List.drop_zero] at same
    rw [same]
    exact read

theorem front_lineCode {body : Nat} {fields : Bytes → Option Frame} {input : Bytes}
    {frame : Frame} {count : Nat} :
    (lineCode body fields).front input = some (frame, count) ↔
      lineEnd input body = some count ∧ fields (input.take body) = some frame := by
  simp only [lineCode, Option.bind_eq_bind, Option.bind_eq_some_iff, Option.pure_def,
    Option.some.injEq, Prod.mk.injEq]
  constructor
  · rintro ⟨stop, ended, frame', read, rfl, rfl⟩
    exact ⟨ended, read⟩
  · rintro ⟨ended, read⟩
    exact ⟨count, ended, frame, read, rfl, rfl⟩

/-! ## The payload -/

/-- The payload of a given length at the front of an input, between its asterisk and its
semicolon. -/
def starPayload (input : Bytes) (count : Nat) : Option Bytes :=
  if input[0]? = some '*'.toUInt8 ∧ input[1 + count * 2]? = some ';'.toUInt8 then
    unhex ((input.drop 1).take (count * 2))
  else
    none

theorem starPayload_star {input data : Bytes} {count : Nat}
    (found : starPayload input count = some data) : input[0]? = some '*'.toUInt8 := by
  unfold starPayload at found
  split at found
  · rename_i marks
    exact marks.1
  · cases found

/-- The digits of a payload are behind the asterisk. -/
theorem starPayload_digits {input data : Bytes} {count : Nat}
    (found : starPayload input count = some data) :
    data.length = count ∧ input[1 + count * 2]? = some ';'.toUInt8 ∧
      ∀ index < count * 2, ∃ c, input[1 + index]? = some c ∧ IsHex c := by
  unfold starPayload at found
  split at found
  · rename_i marks
    have long := (List.getElem?_eq_some_iff.mp marks.2).1
    have length : ((input.drop 1).take (count * 2)).length = 2 * count := by
      rw [List.length_take, List.length_drop]
      omega
    obtain ⟨dataLength, hex⟩ := unhex_isHex length found
    refine ⟨dataLength, marks.2, fun index below => ?_⟩
    have inside : 1 + index < input.length := by omega
    refine ⟨input[1 + index], List.getElem?_eq_getElem inside, hex _ ?_⟩
    refine List.mem_of_getElem? (i := index) ?_
    rw [List.getElem?_take_of_lt below, List.getElem?_drop, List.getElem?_eq_getElem inside]
  · cases found

/-- A payload has only one length. -/
theorem starPayload_unique {input data data' : Bytes} {count count' : Nat}
    (found : starPayload input count = some data)
    (found' : starPayload input count' = some data') : count = count' := by
  obtain ⟨_, mark, digits⟩ := starPayload_digits found
  obtain ⟨_, mark', digits'⟩ := starPayload_digits found'
  rcases Nat.lt_trichotomy count count' with less | same | more
  · obtain ⟨c, here, hex⟩ := digits' (count * 2) (by omega)
    rw [mark, Option.some.injEq] at here
    rw [← here] at hex
    exact absurd hex not_isHex_semicolon
  · exact same
  · obtain ⟨c, here, hex⟩ := digits (count' * 2) (by omega)
    rw [mark', Option.some.injEq] at here
    rw [← here] at hex
    exact absurd hex not_isHex_semicolon

/-- The payload lies in the body of the line. -/
theorem starPayload_take (input : Bytes) {count body : Nat} (inside : 1 + count * 2 < body) :
    starPayload (input.take body) count = starPayload input count := by
  unfold starPayload
  rw [List.getElem?_take_of_lt (by omega), List.getElem?_take_of_lt inside, List.drop_take,
    List.take_take, Nat.min_eq_left (by omega)]

/-- The payload is read between the asterisk and the semicolon. -/
theorem starPayload_text {payload : Bytes} {count : Nat} (length : payload.length = count * 2)
    (more : Bytes) :
    starPayload ('*'.toUInt8 :: (payload ++ ';'.toUInt8 :: more)) count = unhex payload := by
  have mark : ('*'.toUInt8 :: (payload ++ ';'.toUInt8 :: more))[1 + count * 2]? =
      some ';'.toUInt8 := by
    rw [Nat.add_comm, List.getElem?_cons_succ, ← length, List.getElem?_append_right (Nat.le_refl _),
      Nat.sub_self]
    rfl
  rw [starPayload, if_pos ⟨rfl, mark⟩, List.drop_one, List.tail_cons, ← length, List.take_left]

/-- Reading a serialized payload gives it back. -/
theorem starPayload_hexFromBinUpper (data more : Bytes) :
    starPayload ('*'.toUInt8 :: (hexFromBinUpper data ++ ';'.toUInt8 :: more)) data.length =
      some data := by
  rw [starPayload_text (by rw [hexFromBinUpper, hexFromBin_length, Nat.mul_comm]),
    unhex_hexFromBinUpper]

/-! ## The conditions of the parsers -/

/-- The condition under which a parser finds no line ending at an index of its buffer. -/
def NoLineEnd (buf : Buf UInt8) (index : Nat) : Prop :=
  (buf.length < index + 1 ∨ bufChr buf index ≠ '\n'.toUInt8) ∧
    (buf.length < index + 2 ∨ bufChr buf index ≠ '\r'.toUInt8 ∨
      bufChr buf (index + 1) ≠ '\n'.toUInt8)

instance (buf : Buf UInt8) (index : Nat) : Decidable (NoLineEnd buf index) :=
  inferInstanceAs (Decidable (_ ∧ _))

theorem Buf.Valid.noLineEnd_iff {buf : Buf UInt8} (valid : buf.Valid) {index : Nat} :
    NoLineEnd buf index ↔ lineEnd buf.window index = none := by
  simp only [NoLineEnd, lineEnd, valid.window_eq_some]
  have next : index + 1 < buf.length → index < buf.length := fun below => by omega
  split
  · rename_i lf
    simp only [lf, ne_eq, not_true_eq_false, or_false, reduceCtorEq, iff_false, not_and_or]
    exact .inl (by omega)
  · rename_i notLf
    split
    · rename_i crLf
      simp only [crLf, ne_eq, not_true_eq_false, or_false, reduceCtorEq, iff_false, not_and_or]
      exact .inr (by omega)
    · rename_i notCrLf
      simp only [iff_true]
      constructor
      · by_cases short : buf.length < index + 1
        · exact .inl short
        · exact .inr fun lf => notLf ⟨by omega, lf⟩
      · by_cases short : buf.length < index + 2
        · exact .inl short
        · by_cases cr : bufChr buf index = '\r'.toUInt8
          · exact .inr (.inr fun lf => notCrLf ⟨⟨by omega, cr⟩, by omega, lf⟩)
          · exact .inr (.inl cr)

/-- The end of a line is told by the carriage return. -/
theorem Buf.Valid.lineEnd_eq {buf : Buf UInt8} (valid : buf.Valid) {index stop : Nat}
    (found : lineEnd buf.window index = some stop) :
    stop = if bufChr buf index = '\r'.toUInt8 then index + 2 else index + 1 := by
  simp only [lineEnd, valid.window_eq_some] at found
  split at found
  · rename_i lf
    cases found
    rw [lf.2, if_neg (by decide)]
  · split at found
    · rename_i crLf
      cases found
      rw [if_pos crLf.1.2]
    · cases found

/-- A parser that finds the line ending, the asterisk and the semicolon reads the payload. -/
theorem Buf.Valid.starPayload_eq {buf : Buf UInt8} (valid : buf.Valid) (count : Nat)
    (long : 1 + count * 2 < buf.length) :
    starPayload buf.window count =
      if bufChr buf 0 = '*'.toUInt8 ∧ bufChr buf (1 + count * 2) = ';'.toUInt8 then
        unhex (bufAt buf 1 (count * 2))
      else none := by
  have start : 0 < buf.length := by omega
  rw [Buf.bufAt_eq (by omega)]
  simp only [starPayload, valid.window_eq_some, start, long, true_and]

/-- Reading the payload of a type: its bytes, or a failure that left a part of them. -/
theorem Buf.Valid.hexToBin_payload {buf : Buf UInt8} (valid : buf.Valid) (type : PacketType)
    (long : 1 + packetPayloadLen type * 2 ≤ buf.length)
    (payload : Cells UInt8 packetPayloadLenMax) :
    (∃ data, unhex (bufAt buf 1 (packetPayloadLen type * 2)) = some data ∧
      hexToBin payload (bufAt buf 1 (packetPayloadLen type * 2)) =
        (true, payload.overwrite 0 data)) ∨
    ∃ part, unhex (bufAt buf 1 (packetPayloadLen type * 2)) = none ∧
      hexToBin payload (bufAt buf 1 (packetPayloadLen type * 2)) =
        (false, payload.overwrite 0 part) := by
  have fits := packetPayloadLen_le type
  have length : (bufAt buf 1 (packetPayloadLen type * 2)).length = 2 * packetPayloadLen type := by
    rw [valid.bufAt_length long, Nat.mul_comm]
  rcases hexToBinLoop_eq length payload (i := 0) (by omega) with
    found | ⟨part, failed, _, stored⟩
  · exact .inl found
  · exact .inr ⟨part, failed, stored⟩

theorem drop_of_getElem? {input : Bytes} {index : Nat} {c : UInt8} (here : input[index]? = some c) :
    input.drop index = c :: input.drop (index + 1) := by
  obtain ⟨inside, rfl⟩ := List.getElem?_eq_some_iff.mp here
  exact List.drop_eq_getElem_cons inside

/-- A field and the mark behind it. -/
theorem drop_field {input : Bytes} (index count : Nat) {c : UInt8}
    (mark : input[index + count]? = some c) :
    input.drop index =
      (input.drop index).take count ++ c :: input.drop (index + count + 1) := by
  rw [← drop_of_getElem? mark, ← List.drop_drop, List.take_append_drop]

/-- The bytes of a line's ending. -/
theorem ending_of_lineEnd {input : Bytes} {index stop : Nat} (ended : lineEnd input index = some stop) :
    (input.drop index).take (stop - index) = ['\n'.toUInt8] ∨
      (input.drop index).take (stop - index) = ['\r'.toUInt8, '\n'.toUInt8] := by
  simp only [lineEnd] at ended
  split at ended
  · rename_i lf
    cases ended
    rw [drop_of_getElem? lf, Nat.add_sub_cancel_left]
    exact .inl rfl
  · split at ended
    · rename_i crLf
      cases ended
      rw [drop_of_getElem? crLf.1, drop_of_getElem? crLf.2, Nat.add_sub_cancel_left]
      exact .inr rfl
    · cases ended

end Adsbus

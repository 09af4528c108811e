import Adsbus.Formats.Proto
import Mathlib.Data.Nat.Bitwise

/-! # The prefix of a proto record

A record stands behind a tag and its length, a number of at most four bytes. The
length is read from the buffer as it stands there, and what is handed to the
protocol buffer library lies in the buffer, whatever length was announced.
-/

namespace Adsbus

/-! ## The next seven bits -/

/-- A byte ends a number where its continuation bit is clear. -/
theorem protoVarint_ends_iff (c : UInt8) : c &&& 0x80 = 0 ↔ c.toNat < 128 := by
  have byte := c.toNat_lt
  rw [← UInt8.toNat_inj, UInt8.toNat_and]
  change c.toNat &&& 2 ^ 7 = 0 ↔ _
  rw [Nat.and_two_pow, Nat.mul_eq_zero, Nat.testBit_eq_decide_div_mod_eq]
  simp only [Bool.toNat_eq_zero, decide_eq_false_iff_not, Nat.reducePow, OfNat.ofNat_ne_zero, or_false]
  omega

/-- The groups read so far lie below the next one, so that putting them together adds. -/
theorem protoVarint_toNat {read : Nat} (inside : read < 4) {value shift : UInt64}
    (shifted : shift.toNat = 7 * read) (below : value.toNat < 128 ^ read) (c : UInt8) :
    (value ||| (c.toUInt64 &&& 0x7f) <<< shift).toNat =
      value.toNat + 128 ^ read * (c.toNat % 128) := by
  have power : (128 : Nat) ^ read = 2 ^ (7 * read) := by
    rw [Nat.pow_mul]
  have group : (c.toUInt64 &&& 0x7f).toNat = c.toNat % 128 := by
    rw [UInt64.toNat_and, UInt8.toNat_toUInt64]
    exact Nat.and_two_pow_sub_one_eq_mod c.toNat 7
  have low : c.toNat % 128 < 128 := Nat.mod_lt _ (by decide)
  have small : c.toNat % 128 * 2 ^ (7 * read) < 2 ^ 64 := calc
    c.toNat % 128 * 2 ^ (7 * read) < 128 * 2 ^ (7 * read) :=
      Nat.mul_lt_mul_of_pos_right low (Nat.two_pow_pos _)
    _ ≤ 128 * 2 ^ 21 := Nat.mul_le_mul_left _ (Nat.pow_le_pow_right (by decide) (by omega))
    _ < 2 ^ 64 := by decide
  rw [power] at below ⊢
  rw [UInt64.toNat_or, UInt64.toNat_shiftLeft, group, shifted, Nat.mod_eq_of_lt (show _ < 64 by omega),
    Nat.shiftLeft_eq, Nat.mod_eq_of_lt small, Nat.mul_comm (c.toNat % 128), Nat.or_comm,
    ← Nat.two_pow_add_eq_or_of_lt below, Nat.add_comm]

/-! ## The number -/

/-- **The loop.** With `read` bytes behind it, the loop reads the rest of a number of at most four
bytes, and nothing else. -/
theorem protoParseVarintLoop_eq_some {rest : Bytes} {read start stop : Nat}
    {value shift result : UInt64} (inside : read < 4) (shifted : shift.toNat = 7 * read)
    (below : value.toNat < 128 ^ read) :
    protoParseVarintLoop rest start value shift = some (result, stop) ↔
      ∃ bytes number, Wire.Base128 bytes number ∧ bytes <+: rest ∧ read + bytes.length ≤ 4 ∧
        result.toNat = value.toNat + 128 ^ read * number ∧ stop = start + bytes.length := by
  induction rest generalizing read start value shift with
  | nil =>
      refine ⟨nofun, ?_⟩
      rintro ⟨bytes, number, spelled, front, -⟩
      rw [List.prefix_nil.mp front] at spelled
      cases spelled
  | cons c rest ih =>
      have next := protoVarint_toNat inside shifted below c
      have low : c.toNat % 128 < 128 := Nat.mod_lt _ (by decide)
      have limit : (128 : Nat) ^ (read + 1) ≤ 128 ^ 4 := Nat.pow_le_pow_right (by decide) inside
      have below' : value.toNat + 128 ^ read * (c.toNat % 128) < 128 ^ (read + 1) := calc
        value.toNat + 128 ^ read * (c.toNat % 128) < 128 ^ read + 128 ^ read * (c.toNat % 128) :=
          Nat.add_lt_add_right below _
        _ = 128 ^ read * (c.toNat % 128 + 1) := by rw [Nat.mul_succ, Nat.add_comm]
        _ ≤ 128 ^ read * 128 := Nat.mul_le_mul_left _ low
        _ = 128 ^ (read + 1) := (Nat.pow_succ ..).symm
      have positive : ¬ value ||| (c.toUInt64 &&& 0x7f) <<< shift > protoLengthMax := by
        rw [gt_iff_lt, UInt64.lt_iff_toNat_lt, next,
          show protoLengthMax.toNat = 2 ^ 63 - 1 from rfl]
        omega
      simp only [protoParseVarintLoop, positive, ↓reduceIte, protoVarint_ends_iff]
      by_cases ends : c.toNat < 128
      · simp only [ends, ↓reduceIte, Option.some.injEq, Prod.mk.injEq]
        constructor
        · rintro ⟨rfl, rfl⟩
          refine ⟨[c], c.toNat, .last ends, ⟨rest, rfl⟩, inside, ?_, rfl⟩
          rw [next, Nat.mod_eq_of_lt ends]
        · rintro ⟨bytes, number, spelled, front, -, same, rfl⟩
          cases spelled with
          | last _ =>
              obtain ⟨rfl, -⟩ := List.cons_prefix_cons.mp front
              refine ⟨UInt64.toNat_inj.mp ?_, rfl⟩
              rw [next, same, Nat.mod_eq_of_lt ends]
          | more goesOn _ =>
              obtain ⟨rfl, -⟩ := List.cons_prefix_cons.mp front
              omega
      · simp only [ends, ↓reduceIte]
        have shifted' : (shift + 7).toNat = 7 * (read + 1) := by
          rw [UInt64.toNat_add, shifted, show (7 : UInt64).toNat = 7 from rfl]
          omega
        have last : shift + 7 > 21 ↔ read = 3 := by
          rw [gt_iff_lt, UInt64.lt_iff_toNat_lt, shifted', show (21 : UInt64).toNat = 21 from rfl]
          omega
        -- A number that goes on takes this byte and at least one more.
        have behind : ∀ {bytes : Bytes} {number : Nat}, Wire.Base128 bytes number →
            bytes <+: c :: rest → ∃ bytes' number', Wire.Base128 bytes' number' ∧
              bytes' <+: rest ∧ bytes.length = bytes'.length + 1 ∧
              number = c.toNat % 128 + 128 * number' := by
          intro bytes number spelled front
          cases spelled with
          | last ends' =>
              obtain ⟨rfl, -⟩ := List.cons_prefix_cons.mp front
              exact absurd ends' ends
          | @more _ bytes' number' _ spelled' =>
              obtain ⟨rfl, front'⟩ := List.cons_prefix_cons.mp front
              exact ⟨bytes', number', spelled', front', rfl, rfl⟩
        have sum : ∀ number, value.toNat + 128 ^ read * (c.toNat % 128 + 128 * number) =
            value.toNat + 128 ^ read * (c.toNat % 128) + 128 ^ (read + 1) * number := by
          intro number
          rw [Nat.pow_succ, Nat.mul_add, Nat.mul_assoc, Nat.add_assoc]
        by_cases full : read = 3
        · rw [if_pos (last.mpr full)]
          refine ⟨nofun, ?_⟩
          rintro ⟨bytes, number, spelled, front, short, -⟩
          obtain ⟨bytes', number', spelled', -, length, -⟩ := behind spelled front
          have := spelled'.length_pos
          omega
        · rw [if_neg (mt last.mp full), ih (by omega) shifted' (by rw [next]; exact below'), next]
          constructor
          · rintro ⟨bytes, number, spelled, front, short, same, rfl⟩
            refine ⟨c :: bytes, _, .more (Nat.le_of_not_lt ends) spelled,
              List.cons_prefix_cons.mpr ⟨rfl, front⟩, ?_, same.trans (sum number).symm, ?_⟩
            · rw [List.length_cons]
              omega
            · rw [List.length_cons]
              omega
          · rintro ⟨bytes, number, spelled, front, short, same, rfl⟩
            obtain ⟨bytes', number', spelled', front', length, rfl⟩ := behind spelled front
            refine ⟨bytes', number', spelled', front', by omega, same.trans (sum number'), ?_⟩
            omega

/-- The number at the front of the bytes, whatever follows it. -/
theorem protoParseVarintLoop_start {rest : Bytes} {start stop : Nat} {result : UInt64} :
    protoParseVarintLoop rest start 0 0 = some (result, stop) ↔
      ∃ bytes, Wire.Base128 bytes result.toNat ∧ bytes.length ≤ 4 ∧ bytes <+: rest ∧
        stop = start + bytes.length := by
  rw [@protoParseVarintLoop_eq_some rest 0 start stop 0 0 result (by decide) rfl (by decide)]
  constructor
  · rintro ⟨bytes, number, spelled, front, short, same, rfl⟩
    rw [UInt64.toNat_zero, Nat.zero_add, Nat.pow_zero, Nat.one_mul] at same
    exact ⟨bytes, by rwa [same], by omega, front, rfl⟩
  · rintro ⟨bytes, spelled, short, front, rfl⟩
    refine ⟨bytes, _, spelled, front, by omega, ?_, rfl⟩
    rw [UInt64.toNat_zero, Nat.zero_add, Nat.pow_zero, Nat.one_mul]

/-- The loop looks at four bytes. -/
theorem protoParseVarintLoop_take (rest : Bytes) (start : Nat) :
    protoParseVarintLoop (rest.take 4) start 0 0 = protoParseVarintLoop rest start 0 0 := by
  refine Option.ext fun ⟨result, stop⟩ => ?_
  rw [protoParseVarintLoop_start, protoParseVarintLoop_start]
  refine exists_congr fun bytes => and_congr_right fun _ => and_congr_right fun short => ?_
  rw [List.prefix_take_iff, and_iff_left short]

/-! ## The buffer -/

section Prefix

variable {wrapper : Buf UInt8} (valid : wrapper.Valid)

include valid

theorem protoParseVarint_eq_loop (start : Nat) :
    protoParseVarint wrapper start =
      protoParseVarintLoop (wrapper.window.drop start) start 0 0 := by
  have length := valid.window_length
  rw [protoParseVarint]
  by_cases inside : start ≤ wrapper.length
  · rw [Buf.bufAt_eq (by omega), List.take_of_length_le (by rw [List.length_drop, length])]
  · rw [show wrapper.length - start = 0 by omega, bufAt, Cells.slice_zero,
      List.drop_eq_nil_of_le (by omega)]

/-- A number is read where one stands, in at most four bytes of the buffer. -/
theorem protoParseVarint_eq_some {start stop : Nat} {value : UInt64} :
    protoParseVarint wrapper start = some (value, stop) ↔
      ∃ bytes, Wire.Base128 bytes value.toNat ∧ bytes.length ≤ 4 ∧
        bytes <+: wrapper.window.drop start ∧ stop = start + bytes.length := by
  rw [protoParseVarint_eq_loop valid, protoParseVarintLoop_start]

/-- Only the next four bytes matter, and of these only those of the buffer. -/
theorem protoParseVarint_congr {other : Buf UInt8} (valid' : other.Valid)
    (length : other.length = wrapper.length) {start : Nat}
    (same : ∀ index, start ≤ index → index < start + 4 → index < wrapper.length →
      bufChr other index = bufChr wrapper index) :
    protoParseVarint other start = protoParseVarint wrapper start := by
  have view : (other.window.drop start).take 4 = (wrapper.window.drop start).take 4 := by
    refine List.ext_getElem? fun offset => ?_
    by_cases near : offset < 4
    · rw [List.getElem?_take_of_lt near, List.getElem?_take_of_lt near, List.getElem?_drop,
        List.getElem?_drop]
      by_cases inside : start + offset < wrapper.length
      · rw [valid.window_getElem? inside, valid'.window_getElem? (by omega),
          same _ (by omega) (by omega) inside]
      · rw [List.getElem?_eq_none (by rw [valid'.window_length]; omega),
          List.getElem?_eq_none (by rw [valid.window_length]; omega)]
    · rw [List.getElem?_eq_none (by rw [List.length_take]; omega),
        List.getElem?_eq_none (by rw [List.length_take]; omega)]
  rw [protoParseVarint_eq_loop valid, protoParseVarint_eq_loop valid',
    ← protoParseVarintLoop_take (other.window.drop start), view, protoParseVarintLoop_take]

/-- What is read of an untrusted length is too small for the sum to overflow. -/
theorem protoParseVarint_bounds {start stop : Nat} {value : UInt64}
    (parsed : protoParseVarint wrapper start = some (value, stop)) :
    start < stop ∧ stop ≤ start + 4 ∧ stop ≤ wrapper.length ∧ value.toNat < 2 ^ 28 := by
  obtain ⟨bytes, spelled, short, front, rfl⟩ := (protoParseVarint_eq_some valid).mp parsed
  have positive := spelled.length_pos
  have below := spelled.lt
  have limit : (128 : Nat) ^ bytes.length ≤ 128 ^ 4 := Nat.pow_le_pow_right (by decide) short
  have inside := front.length_le
  rw [List.length_drop, valid.window_length] at inside
  omega

/-- The shortest bytes of a length are read back, whatever follows them. -/
theorem protoParseVarint_varint {length start : Nat} (small : length < 2 ^ 28) {more : Bytes}
    (there : wrapper.window.drop start = Wire.varint length ++ more) :
    protoParseVarint wrapper start =
      some (UInt64.ofNat length, start + (Wire.varint length).length) := by
  refine (protoParseVarint_eq_some valid).mpr ⟨Wire.varint length, ?_, ?_, ⟨more, there.symm⟩, rfl⟩
  · rw [UInt64.toNat_ofNat', Nat.mod_eq_of_lt (by omega)]
    exact Wire.base128_varint length
  · exact Wire.varint_length_le (by omega)

/-- **Unwrapping** asks the library about one range of the buffer, if about any. -/
theorem protoUnwrap_request :
    ∃ request : Option (Nat × Nat),
      (∀ start len, request = some (start, len) → 2 ≤ start ∧ start + len ≤ wrapper.length) ∧
        ∀ protobuf, protoUnwrap protobuf wrapper = request.bind fun (start, len) =>
          (protobuf.unpack (bufAt wrapper start len)).map fun msg => (msg, start + len) := by
  have nothing : ∀ {result : Protobuf → Option (Adsb × Nat)}, (∀ protobuf, result protobuf = none) →
      ∃ request : Option (Nat × Nat),
        (∀ start len, request = some (start, len) → 2 ≤ start ∧ start + len ≤ wrapper.length) ∧
          ∀ protobuf, result protobuf = request.bind fun (start, len) =>
            (protobuf.unpack (bufAt wrapper start len)).map fun msg => (msg, start + len) :=
    fun refused => ⟨none, nofun, refused⟩
  unfold protoUnwrap
  split
  · exact nothing fun _ => rfl
  split
  · exact nothing fun _ => rfl
  cases parsed : protoParseVarint wrapper 1 with
  | none => exact nothing fun _ => rfl
  | some result =>
      obtain ⟨msgLen, start⟩ := result
      obtain ⟨behind, -⟩ := protoParseVarint_bounds valid parsed
      by_cases outside : start + msgLen.toNat > wrapper.length
      · exact nothing fun _ => if_pos outside
      · refine ⟨some (start, msgLen.toNat), ?_, fun _ => if_neg outside⟩
        intro _ _ same
        cases same
        exact ⟨behind, Nat.le_of_not_gt outside⟩

/-- A record is unwrapped where its tag, its length and as many bytes as that stand at the front,
and the library unpacks these. -/
theorem protoUnwrap_eq_some {protobuf : Protobuf} {msg : Adsb} {count : Nat} :
    protoUnwrap protobuf wrapper = some (msg, count) ↔
      ∃ digits body, Wire.Base128 digits body.length ∧ digits.length ≤ 4 ∧
        10 :: (digits ++ body) <+: wrapper.window ∧ protobuf.unpack body = some msg ∧
        count = 1 + digits.length + body.length := by
  have length := valid.window_length
  constructor
  · intro unwrapped
    unfold protoUnwrap at unwrapped
    split_ifs at unwrapped with empty tag
    cases parsed : protoParseVarint wrapper 1 with
    | none => simp only [parsed, reduceCtorEq] at unwrapped
    | some result =>
        obtain ⟨msgLen, start⟩ := result
        simp only [parsed] at unwrapped
        split_ifs at unwrapped with outside
        obtain ⟨_, unpacked, same⟩ := Option.map_eq_some_iff.mp unwrapped
        cases same
        obtain ⟨digits, spelled, short, front, rfl⟩ := (protoParseVarint_eq_some valid).mp parsed
        have bytes := valid.bufAt_length (Nat.le_of_not_gt outside)
        refine ⟨digits, _, by rwa [bytes], short, ?_, unpacked, by rw [bytes]⟩
        have first := valid.drop_window (show 0 < wrapper.length by omega)
        rw [List.drop_zero, not_not.mp tag] at first
        rw [first, Buf.bufAt_eq (Nat.le_of_not_gt outside)]
        refine List.cons_prefix_cons.mpr ⟨rfl, append_prefix_iff.mpr ⟨front, ?_⟩⟩
        rw [List.drop_drop]
        exact List.take_prefix _ _
  · rintro ⟨digits, body, spelled, short, front, unpacked, rfl⟩
    obtain ⟨more, window⟩ := front
    have inside := congrArg List.length window
    rw [length] at inside
    simp only [List.length_append, List.length_cons] at inside
    have tag : bufChr wrapper 0 = 10 := by
      refine (valid.window_eq_some.mp ?_).2
      rw [← window]
      rfl
    have bound := valid.inside
    rw [bufLenMax] at bound
    have bytes : (UInt64.ofNat body.length).toNat = body.length := by
      rw [UInt64.toNat_ofNat', Nat.mod_eq_of_lt (by omega)]
    have parsed : protoParseVarint wrapper 1 =
        some (UInt64.ofNat body.length, 1 + digits.length) := by
      refine (protoParseVarint_eq_some valid).mpr ⟨digits, by rwa [bytes], short, ⟨body ++ more, ?_⟩,
        rfl⟩
      rw [← window, List.cons_append, List.drop_one, List.tail_cons, List.append_assoc]
    have there : bufAt wrapper (1 + digits.length) body.length = body := by
      rw [Buf.bufAt_eq (by omega), ← window, Nat.add_comm, List.cons_append, List.drop_succ_cons,
        List.append_assoc, List.drop_left, List.take_left]
    rw [protoUnwrap, if_neg (by omega), if_neg (by rw [tag]; decide), parsed]
    simp only [bytes, there, unpacked, Option.map_some]
    rw [if_neg (by omega)]

end Prefix

/-- **The prefix of a record.** `proto_parse_varint` gives the number that stands at a position of
the buffer, and the position behind it, exactly where the number ends within four bytes and within
the buffer; it depends on no byte at or beyond the length, and not on what follows the number.
`proto_unwrap` hands one range of the buffer to the library at most. -/
theorem protoPrefix_exact (wrapper : Buf UInt8) (valid : wrapper.Valid) :
    (∀ start value stop, protoParseVarint wrapper start = some (value, stop) ↔
      ∃ bytes, Wire.Base128 bytes value.toNat ∧ bytes.length ≤ 4 ∧
        bytes <+: wrapper.window.drop start ∧ stop = start + bytes.length) ∧
    (∀ (other : Buf UInt8) (start : Nat), other.Valid → other.length = wrapper.length →
      (∀ index, start ≤ index → index < start + 4 → index < wrapper.length →
        bufChr other index = bufChr wrapper index) →
      protoParseVarint other start = protoParseVarint wrapper start) ∧
    (∀ length < 2 ^ 28, ∀ start more, wrapper.window.drop start = Wire.varint length ++ more →
      protoParseVarint wrapper start =
        some (UInt64.ofNat length, start + (Wire.varint length).length)) ∧
    (∀ start value stop, protoParseVarint wrapper start = some (value, stop) →
      start < stop ∧ stop ≤ start + 4 ∧ stop ≤ wrapper.length ∧ value.toNat < 2 ^ 28) ∧
    (∃ request : Option (Nat × Nat),
      (∀ start len, request = some (start, len) → 2 ≤ start ∧ start + len ≤ wrapper.length) ∧
        ∀ protobuf, protoUnwrap protobuf wrapper = request.bind fun (start, len) =>
          (protobuf.unpack (bufAt wrapper start len)).map fun msg => (msg, start + len)) ∧
    ∀ protobuf msg count, protoUnwrap protobuf wrapper = some (msg, count) →
      2 ≤ count ∧ count ≤ wrapper.length := by
  refine ⟨fun _ _ _ => protoParseVarint_eq_some valid,
    fun _ _ valid' length same => protoParseVarint_congr valid valid' length same,
    fun _ small _ _ there => protoParseVarint_varint valid small there,
    fun _ _ _ parsed => protoParseVarint_bounds valid parsed, protoUnwrap_request valid, ?_⟩
  intro protobuf msg count unwrapped
  obtain ⟨request, inside, asked⟩ := protoUnwrap_request valid
  rw [asked protobuf, Option.bind_eq_some_iff] at unwrapped
  obtain ⟨⟨start, len⟩, range, found⟩ := unwrapped
  obtain ⟨_, _, same⟩ := Option.map_eq_some_iff.mp found
  obtain ⟨behind, there⟩ := inside start len range
  cases same
  omega

/-- A length of two bytes at the end of the buffer. -/
theorem protoPrefix_exact_two :
    protoParseVarint (bufHolding (.fill bufLenMax 0) [10, 0x80, 1]) 1 = some (128, 3) := by
  have short : ([10, 0x80, 1] : Bytes).length ≤ bufLenMax := by decide
  have exact := (protoPrefix_exact _ (Buf.valid_bufHolding (.fill bufLenMax 0) short)).1
  refine (exact 1 128 3).mpr ⟨[0x80, 1], .more (by decide) (.last (by decide)), by decide, ?_, rfl⟩
  rw [Buf.window_bufHolding _ short]
  exact ⟨[], rfl⟩

end Adsbus

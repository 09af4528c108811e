import Adsbus.Foundation.Wire

/-! # Reading messages

A reader of the fields of a message, in any order. It reads the fields that are
written (`Wire.readFields_write`). -/

namespace Wire

/-- The value of a field, by its wire type. -/
inductive Value
  | integer (value : Nat)
  | fixed64 (value : UInt64)
  | blob (bytes : List UInt8)
  | fixed32 (value : UInt32)
  deriving DecidableEq

/-- A field with its number. -/
abbrev Field := Nat × Value

/-- The text of a field. -/
def Field.write : Field → List UInt8
  | (number, .integer value) => Wire.integer number value
  | (number, .fixed64 value) => Wire.fixed64 number value
  | (number, .blob bytes) => Wire.blob number bytes
  | (number, .fixed32 value) => Wire.fixed32 number value

/-- A number of variable length at the front of an input, and what is behind it. -/
def readVarint : List UInt8 → Option (Nat × List UInt8)
  | [] => none
  | c :: input =>
      if c.toNat < 128 then some (c.toNat, input)
      else (readVarint input).map fun (high, rest) => (high * 128 + (c.toNat - 128), rest)

/-- The number whose lowest bytes these are, the least significant first. -/
def ofLittleEndian : List UInt8 → Nat
  | [] => 0
  | c :: input => ofLittleEndian input * 256 + c.toNat

/-- The first values of an input and what is behind them, if there are as many. -/
def readBytes (count : Nat) (input : List UInt8) : Option (List UInt8 × List UInt8) :=
  if count ≤ input.length then some (input.take count, input.drop count) else none

/-- The value of a wire type at the front of an input, and what is behind it. -/
def readValue (wireType : Nat) (input : List UInt8) : Option (Value × List UInt8) :=
  match wireType with
  | 0 => (readVarint input).map fun (value, rest) => (.integer value, rest)
  | 1 => (readBytes 8 input).map fun (bytes, rest) =>
      (.fixed64 (UInt64.ofNat (ofLittleEndian bytes)), rest)
  | 2 => (readVarint input).bind fun (count, rest) =>
      (readBytes count rest).map fun (bytes, rest) => (.blob bytes, rest)
  | 5 => (readBytes 4 input).map fun (bytes, rest) =>
      (.fixed32 (UInt32.ofNat (ofLittleEndian bytes)), rest)
  | _ => none

/-- The field at the front of an input, and what is behind it. -/
def readField (input : List UInt8) : Option (Field × List UInt8) :=
  (readVarint input).bind fun (tag, input) =>
    (readValue (tag % 8) input).map fun (value, rest) => ((tag / 8, value), rest)

/-- The fields of an input that is nothing but fields, no more than a bound. -/
def readFields : (bound : Nat) → List UInt8 → Option (List Field)
  | _, [] => some []
  | 0, _ :: _ => none
  | bound + 1, input =>
      match readField input with
      | none => none
      | some (field, rest) => (readFields bound rest).map fun fields => field :: fields

/-- The fields of a message. -/
def read (input : List UInt8) : Option (List Field) := readFields input.length input

/-- The last field of a number. -/
def find (fields : List Field) (number : Nat) : Option Value := fields.reverse.lookup number

/-! ## Reading what is written -/

theorem readVarint_varint (value : Nat) (rest : List UInt8) :
    readVarint (varint value ++ rest) = some (value, rest) := by
  induction value using Nat.strongRecOn with
  | ind value ih =>
      by_cases small : value < 128
      · have byte : (UInt8.ofNat value).toNat = value := by
          rw [UInt8.toNat_ofNat']
          omega
        rw [varint_of_lt small, List.singleton_append, readVarint, byte, if_pos small]
      · have byte : (UInt8.ofNat (value % 128 + 128)).toNat = value % 128 + 128 := by
          rw [UInt8.toNat_ofNat']
          omega
        rw [varint_of_ge small, List.cons_append, readVarint, byte, if_neg (by omega),
          ih (value / 128) (by omega)]
        simp only [Option.map_some, Option.some.injEq, Prod.mk.injEq, and_true]
        omega

theorem ofLittleEndian_littleEndian (bytes value : Nat) :
    ofLittleEndian (littleEndian bytes value) = value % 256 ^ bytes := by
  induction bytes generalizing value with
  | zero => rw [littleEndian, ofLittleEndian, Nat.pow_zero, Nat.mod_one]
  | succ bytes ih =>
      have byte : (UInt8.ofNat (value % 256)).toNat = value % 256 := by
        rw [UInt8.toNat_ofNat']
        omega
      rw [littleEndian, ofLittleEndian, ih, byte, Nat.pow_succ, Nat.mul_comm (256 ^ bytes),
        Nat.mod_mul]
      omega

theorem readBytes_append {bytes : List UInt8} {count : Nat} (length : bytes.length = count)
    (rest : List UInt8) : readBytes count (bytes ++ rest) = some (bytes, rest) := by
  subst length
  rw [readBytes, if_pos (by rw [List.length_append]; omega), List.take_left, List.drop_left]

theorem readField_tag {number wireType : Nat} (small : wireType < 8) {value : Value}
    {text rest : List UInt8} (read : readValue wireType text = some (value, rest)) :
    readField (tag number wireType ++ text) = some ((number, value), rest) := by
  have high : (number * 8 + wireType) / 8 = number := by omega
  have low : (number * 8 + wireType) % 8 = wireType := by omega
  simp only [readField, tag, readVarint_varint, Option.bind_some, low, read, Option.map_some, high]

/-- **Fields.** A field is read back, whatever follows it. -/
theorem readField_write (field : Field) (rest : List UInt8) :
    readField (field.write ++ rest) = some (field, rest) := by
  obtain ⟨number, value⟩ := field
  cases value with
  | integer value =>
      rw [Field.write, integer, List.append_assoc]
      refine readField_tag (by decide) ?_
      rw [readValue, readVarint_varint, Option.map_some]
  | fixed64 value =>
      have fits : value.toNat % 256 ^ 8 = value.toNat := Nat.mod_eq_of_lt value.toNat_lt
      rw [Field.write, fixed64, List.append_assoc]
      refine readField_tag (by decide) ?_
      simp only [readValue, readBytes_append (littleEndian_length 8 value.toNat), Option.map_some,
        ofLittleEndian_littleEndian, fits, UInt64.ofNat_toNat]
  | blob bytes =>
      rw [Field.write, blob, List.append_assoc, List.append_assoc]
      refine readField_tag (by decide) ?_
      simp only [readValue, readVarint_varint, Option.bind_some, @readBytes_append bytes _ rfl,
        Option.map_some]
  | fixed32 value =>
      have fits : value.toNat % 256 ^ 4 = value.toNat := Nat.mod_eq_of_lt value.toNat_lt
      rw [Field.write, fixed32, List.append_assoc]
      refine readField_tag (by decide) ?_
      simp only [readValue, readBytes_append (littleEndian_length 4 value.toNat), Option.map_some,
        ofLittleEndian_littleEndian, fits, UInt32.ofNat_toNat]

theorem write_ne_nil (field : Field) : field.write ≠ [] := by
  intro empty
  have read := readField_write field []
  rw [empty] at read
  cases read

/-- **Messages.** The fields of a message are read back. -/
theorem readFields_write {bound : Nat} {fields : List Field} (enough : fields.length ≤ bound) :
    readFields bound (fields.flatMap Field.write) = some fields := by
  induction fields generalizing bound with
  | nil => cases bound <;> rfl
  | cons field fields ih =>
      rw [List.length_cons] at enough
      obtain ⟨bound, rfl⟩ : ∃ less, bound = less + 1 := ⟨bound - 1, by omega⟩
      rw [List.flatMap_cons]
      have first := readField_write field (fields.flatMap Field.write)
      generalize text : field.write ++ fields.flatMap Field.write = input at first
      cases input with
      | nil => exact absurd (List.append_eq_nil_iff.mp text).1 (write_ne_nil field)
      | cons c input => simp only [readFields, first, @ih bound (by omega), Option.map_some]

theorem read_write (fields : List Field) : read (fields.flatMap Field.write) = some fields := by
  refine readFields_write ?_
  induction fields with
  | nil => exact Nat.le_refl 0
  | cons field fields ih =>
      have positive := List.length_pos_iff.mpr (write_ne_nil field)
      rw [List.flatMap_cons, List.length_append, List.length_cons]
      omega

end Wire

import Mathlib.Algebra.Order.Group.Nat
import Mathlib.Data.List.Basic

/-! # The protocol buffer wire format

A message is a sequence of fields, each with a tag made of its number and its
wire type. Numbers of variable length have seven bits in each byte, the last of
which is the one without the continuation bit. -/

namespace Wire

/-- A number of variable length. -/
def varint (value : Nat) : List UInt8 :=
  if value < 128 then [UInt8.ofNat value]
  else UInt8.ofNat (value % 128 + 128) :: varint (value / 128)

/-- The lowest bytes of a number, the least significant first. -/
def littleEndian : (bytes value : Nat) → List UInt8
  | 0, _ => []
  | bytes + 1, value => UInt8.ofNat (value % 256) :: littleEndian bytes (value / 256)

/-- The tag of a field. -/
def tag (number wireType : Nat) : List UInt8 := varint (number * 8 + wireType)

/-- A field of variable length: a string, bytes or a message. -/
def blob (number : Nat) (value : List UInt8) : List UInt8 :=
  tag number 2 ++ varint value.length ++ value

/-- An integer field of variable length. -/
def integer (number value : Nat) : List UInt8 := tag number 0 ++ varint value

/-- A field of four bytes. -/
def fixed32 (number : Nat) (value : UInt32) : List UInt8 :=
  tag number 5 ++ littleEndian 4 value.toNat

/-- A field of eight bytes. -/
def fixed64 (number : Nat) (value : UInt64) : List UInt8 :=
  tag number 1 ++ littleEndian 8 value.toNat

/-- A field that may be absent. -/
def optional {α : Type} (field : α → List UInt8) (value : Option α) : List UInt8 :=
  value.elim [] field

theorem varint_of_lt {value : Nat} (small : value < 128) :
    varint value = [UInt8.ofNat value] := by
  rw [varint, if_pos small]

theorem varint_of_ge {value : Nat} (large : ¬ value < 128) :
    varint value = UInt8.ofNat (value % 128 + 128) :: varint (value / 128) := by
  rw [varint, if_neg large]

theorem varint_length_pos (value : Nat) : 0 < (varint value).length := by
  rw [varint]
  split <;> exact Nat.succ_pos _

/-- The number of bytes is that of the groups of seven bits. -/
theorem varint_length_le {value bytes : Nat} (small : value < 128 ^ (bytes + 1)) :
    (varint value).length ≤ bytes + 1 := by
  induction bytes generalizing value with
  | zero =>
      rw [varint_of_lt (by simpa using small)]
      exact Nat.le_refl 1
  | succ bytes ih =>
      by_cases short : value < 128
      · rw [varint_of_lt short]
        exact Nat.succ_le_succ (Nat.zero_le _)
      · rw [varint_of_ge short, List.length_cons]
        refine Nat.succ_le_succ (ih ?_)
        rw [pow_succ] at small
        exact Nat.div_lt_of_lt_mul (by rwa [Nat.mul_comm])

@[simp] theorem littleEndian_length (bytes value : Nat) :
    (littleEndian bytes value).length = bytes := by
  induction bytes generalizing value with
  | zero => rfl
  | succ bytes ih => rw [littleEndian, List.length_cons, ih]

theorem tag_length {number wireType : Nat} (small : number * 8 + wireType < 128) :
    (tag number wireType).length = 1 := by
  rw [tag, varint_of_lt small, List.length_singleton]

/-- A short field of variable length takes two bytes for its tag and its length. -/
theorem blob_length {number : Nat} {value : List UInt8} (small : number < 15)
    (short : value.length < 128) : (blob number value).length = value.length + 2 := by
  rw [blob, List.length_append, List.length_append, tag_length (by omega), varint_of_lt short,
    List.length_singleton]
  omega

theorem integer_length_le {number value bytes : Nat} (small : number < 15)
    (bound : value < 128 ^ (bytes + 1)) : (integer number value).length ≤ bytes + 2 := by
  rw [integer, List.length_append, tag_length (by omega)]
  have := varint_length_le bound
  omega

theorem fixed32_length {number : Nat} (small : number < 15) (value : UInt32) :
    (fixed32 number value).length = 5 := by
  rw [fixed32, List.length_append, tag_length (by omega), littleEndian_length]

theorem fixed64_length {number : Nat} (small : number < 15) (value : UInt64) :
    (fixed64 number value).length = 9 := by
  rw [fixed64, List.length_append, tag_length (by omega), littleEndian_length]

theorem optional_length_le {α : Type} {field : α → List UInt8} {value : Option α} {bound : Nat}
    (short : ∀ value, (field value).length ≤ bound) : (optional field value).length ≤ bound := by
  cases value with
  | none => exact Nat.zero_le _
  | some value => exact short value

theorem tag_of_lt {number wireType : Nat} (small : number * 8 + wireType < 128) :
    tag number wireType = [UInt8.ofNat (number * 8 + wireType)] :=
  varint_of_lt small

/-- The first field, where it is a blob, starts with a line feed. -/
theorem blob_one (value : List UInt8) : blob 1 value = 10 :: (varint value.length ++ value) := by
  rw [blob, tag_of_lt (by decide), List.append_assoc]
  rfl

/-! ## Numbers of variable length -/

/-- The bytes of a number, in any length: seven bits in each byte, the lowest first, and the
continuation bit in all but the last. -/
inductive Base128 : List UInt8 → Nat → Prop
  | last {c : UInt8} (ends : c.toNat < 128) : Base128 [c] c.toNat
  | more {c : UInt8} {bytes : List UInt8} {value : Nat} (goesOn : 128 ≤ c.toNat)
      (behind : Base128 bytes value) : Base128 (c :: bytes) (c.toNat % 128 + 128 * value)

theorem Base128.length_pos {bytes : List UInt8} {value : Nat} (number : Base128 bytes value) :
    0 < bytes.length := by
  cases number <;> exact Nat.succ_pos _

theorem Base128.lt {bytes : List UInt8} {value : Nat} (number : Base128 bytes value) :
    value < 128 ^ bytes.length := by
  induction number with
  | last ends => exact ends
  | @more c bytes value goesOn _ ih =>
      rw [List.length_cons, pow_succ]
      omega

/-- The shortest bytes of a number are bytes of it. -/
theorem base128_varint (value : Nat) : Base128 (varint value) value := by
  induction value using Nat.strongRecOn with
  | ind value ih =>
      by_cases small : value < 128
      · have byte : (UInt8.ofNat value).toNat = value := by
          rw [UInt8.toNat_ofNat']
          omega
        rw [varint_of_lt small]
        have last := @Base128.last (UInt8.ofNat value) (by rwa [byte])
        rwa [byte] at last
      · have byte : (UInt8.ofNat (value % 128 + 128)).toNat = value % 128 + 128 := by
          rw [UInt8.toNat_ofNat']
          omega
        rw [varint_of_ge small]
        have more := @Base128.more (UInt8.ofNat (value % 128 + 128)) _ _ (by rw [byte]; omega)
          (ih (value / 128) (by omega))
        rwa [byte, show (value % 128 + 128) % 128 + 128 * (value / 128) = value by omega] at more

/-- A number ends where it ends, whatever follows it. -/
theorem Base128.unique {bytes bytes' input : List UInt8} {value value' : Nat}
    (number : Base128 bytes value) (number' : Base128 bytes' value') (there : bytes <+: input)
    (there' : bytes' <+: input) : bytes = bytes' ∧ value = value' := by
  induction number generalizing bytes' input value' with
  | @last c ends =>
      cases input with
      | nil => cases List.prefix_nil.mp there
      | cons first input =>
          obtain ⟨rfl, _⟩ := List.cons_prefix_cons.mp there
          cases number' with
          | last _ =>
              obtain ⟨rfl, _⟩ := List.cons_prefix_cons.mp there'
              exact ⟨rfl, rfl⟩
          | more goesOn _ =>
              obtain ⟨rfl, _⟩ := List.cons_prefix_cons.mp there'
              omega
  | @more c bytes value goesOn _ ih =>
      cases input with
      | nil => cases List.prefix_nil.mp there
      | cons first input =>
          obtain ⟨rfl, behind⟩ := List.cons_prefix_cons.mp there
          cases number' with
          | last ends =>
              obtain ⟨rfl, _⟩ := List.cons_prefix_cons.mp there'
              omega
          | more goesOn' number' =>
              obtain ⟨rfl, behind'⟩ := List.cons_prefix_cons.mp there'
              obtain ⟨rfl, rfl⟩ := ih number' behind behind'
              exact ⟨rfl, rfl⟩

end Wire

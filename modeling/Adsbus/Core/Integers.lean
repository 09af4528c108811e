import Mathlib.Data.Int.Basic
import Mathlib.Algebra.Group.Nat.Defs

/-! # Signed and unsigned integers

Casts between the integer types of the same value. -/

namespace Adsbus

/-- A small unsigned integer keeps its value as a signed one. -/
theorem toInt_toInt64 {value : UInt64} (small : value.toNat < 2 ^ 63) :
    value.toInt64.toInt = value.toNat :=
  BitVec.toInt_eq_toNat_of_lt (by
    change 2 * value.toNat < 2 ^ 64
    omega)

/-- A small unsigned integer keeps its value in 64 bits, signed or not. -/
theorem toInt_toUInt64_toInt64 (value : UInt32) :
    value.toUInt64.toInt64.toInt = value.toNat := by
  have small : value.toNat < 4294967296 := value.toNat_lt
  rw [toInt_toInt64 (by rw [UInt32.toNat_toUInt64]; omega), UInt32.toNat_toUInt64]

/-- A natural number keeps its value as an unsigned integer. -/
theorem toNat_toUInt64 {value : Int64} (natural : 0 ≤ value.toInt) :
    value.toUInt64.toNat = value.toInt.toNat :=
  Int64.toNat_toUInt64_of_le (Int64.le_iff_toInt_le.mpr natural)

/-- A positive integer that fits 16 bits stays positive in them. -/
theorem toUInt16_ne_zero {value : Int64} (positive : 0 < value.toInt)
    (fits : value.toInt ≤ 0xffff) : value.toUInt64.toUInt16 ≠ 0 := by
  intro zero
  have same := toNat_toUInt64 (Int.le_of_lt positive)
  have low := congrArg UInt16.toNat zero
  rw [UInt64.toNat_toUInt16, same] at low
  change value.toInt.toNat % 2 ^ 16 = 0 at low
  omega

/-- A positive integer that fits 32 bits stays positive in them. -/
theorem toUInt32_pos {value : Int64} (positive : 0 < value.toInt)
    (fits : value.toInt ≤ 0xffffffff) : 0 < value.toUInt64.toUInt32 := by
  have same := toNat_toUInt64 (Int.le_of_lt positive)
  rw [UInt32.lt_iff_toNat_lt, UInt64.toNat_toUInt32, same]
  change 0 < value.toInt.toNat % 2 ^ 32
  omega

/-- Casting the value of a signed integer is casting that integer. -/
theorem ofInt_toInt (value : Int64) : UInt64.ofInt value.toInt = value.toUInt64 := by
  have signed : value.toInt = Int.bmod value.toUInt64.toNat (2 ^ 64) :=
    BitVec.toInt_eq_toNat_bmod _
  have bound : (value.toUInt64.toNat : Int) < (2 ^ 64 : Nat) := by
    exact_mod_cast value.toUInt64.toNat_lt
  have wrapped : Int.bmod (value.toUInt64.toNat : Int) (2 ^ 64) % 2 ^ 64 =
      value.toUInt64.toNat :=
    Int.bmod_emod.trans (Int.emod_eq_of_lt (Int.natCast_nonneg _) bound)
  rw [signed, UInt64.ofInt, wrapped, Int.toNat_natCast, UInt64.ofNat_toNat]

/-- The low half of a cast is the narrower cast. -/
theorem toUInt32_ofInt (value : Int) : (UInt64.ofInt value).toUInt32 = UInt32.ofInt value := by
  apply UInt32.toNat_inj.mp
  have natural64 := Int.emod_nonneg value (by decide : (2 ^ 64 : Int) ≠ 0)
  have natural32 := Int.emod_nonneg value (by decide : (2 ^ 32 : Int) ≠ 0)
  have bound64 := Int.emod_lt_of_pos value (by decide : (0 : Int) < 2 ^ 64)
  have bound32 := Int.emod_lt_of_pos value (by decide : (0 : Int) < 2 ^ 32)
  rw [UInt64.toNat_toUInt32, UInt64.ofInt, UInt32.ofInt,
    UInt64.toNat_ofNat_of_lt' (by change _ < 2 ^ 64; omega),
    UInt32.toNat_ofNat_of_lt' (by change _ < 2 ^ 32; omega)]
  omega

/-- Casting an integer that came from an unsigned one gives that one. -/
theorem ofInt_toNat (value : UInt64) : UInt64.ofInt (value.toNat : Int) = value := by
  have bound := value.toNat_lt
  rw [UInt64.ofInt, Int.emod_eq_of_lt (by omega) (by omega), Int.toNat_natCast,
    UInt64.ofNat_toNat]

theorem uInt32OfInt_toNat (value : UInt32) : UInt32.ofInt (value.toNat : Int) = value := by
  rw [← toUInt32_ofInt, ← UInt32.toNat_toUInt64, ofInt_toNat, UInt32.toUInt32_toUInt64]

end Adsbus

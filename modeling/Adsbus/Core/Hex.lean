import Adsbus.Core.Bytes
import Adsbus.Core.Integers
import Adsbus.Foundation.Cells
import Mathlib.Algebra.Order.Group.Nat
import Mathlib.Algebra.Group.Int.Defs

/-! # Hexadecimal digits

The functions that read digits take the digits at their input pointer as a list,
two for each byte of their byte count. `hex_to_bin` writes the bytes before the
first bad digit also when it fails.
-/

namespace Adsbus

/-- `HEX_INVALID`. -/
def hexInvalid : UInt8 := 0xff

/-- `hex_table`, as `hex_init` sets it up. -/
def hexTable (c : UInt8) : UInt8 :=
  if 'A'.toUInt8 ≤ c ∧ c ≤ 'F'.toUInt8 then 10 + c - 'A'.toUInt8
  else if 'a'.toUInt8 ≤ c ∧ c ≤ 'f'.toUInt8 then 10 + c - 'a'.toUInt8
  else if '0'.toUInt8 ≤ c ∧ c ≤ '9'.toUInt8 then c - '0'.toUInt8
  else hexInvalid

/-- `hex_upper_table`. -/
def hexUpperTable (digit : UInt8) : UInt8 := (ascii "0123456789ABCDEF").getD digit.toNat 0

/-- `hex_lower_table`. -/
def hexLowerTable (digit : UInt8) : UInt8 := (ascii "0123456789abcdef").getD digit.toNat 0

/-- The byte of two digit values. -/
def hexPair (val1 val2 : UInt8) : UInt8 := val1 <<< 4 ||| val2

variable {size : Nat}

/-- The loop of `hex_to_bin`, writing from index `i` on. -/
def hexToBinLoop : Nat → Cells UInt8 size → Bytes → Bool × Cells UInt8 size
  | i, out, c1 :: c2 :: digits =>
      let val1 := hexTable c1
      let val2 := hexTable c2
      if val1 = hexInvalid ∨ val2 = hexInvalid then
        (false, out)
      else
        hexToBinLoop (i + 1) (out.overwrite i [hexPair val1 val2]) digits
  | _, out, _ => (true, out)

/-- `hex_to_bin`. -/
def hexToBin (out : Cells UInt8 size) (digits : Bytes) : Bool × Cells UInt8 size :=
  hexToBinLoop 0 out digits

/-- The loop of `hex_to_int`. -/
def hexToIntLoop : UInt64 → Bytes → Int
  | ret, [] => if ret > 0x7fffffffffffffff then -1 else ret.toNat
  | ret, c :: digits =>
      let val := hexTable c
      if val = hexInvalid then -1 else hexToIntLoop (ret <<< 4 ||| val.toUInt64) digits

/-- `hex_to_int`. -/
def hexToInt (digits : Bytes) : Int := hexToIntLoop 0 digits

/-- `hex_from_bin`. -/
def hexFromBin (table : UInt8 → UInt8) (input : Bytes) : Bytes :=
  input.flatMap fun (c : UInt8) => [table (c >>> 4), table (c &&& 0xf)]

/-- `hex_from_int`, writing `digits` digits from the last one on. -/
def hexFromIntLoop (table : UInt8 → UInt8) : UInt64 → (digits : Nat) → Bytes
  | _, 0 => []
  | input, digits + 1 =>
      hexFromIntLoop table (input >>> 4) digits ++ [table (input &&& 0xf).toUInt8]

/-- `hex_from_int`. -/
def hexFromInt (table : UInt8 → UInt8) (input : UInt64) (bytes : Nat) : Bytes :=
  hexFromIntLoop table input (bytes * 2)

/-- `hex_from_bin_upper`. -/
def hexFromBinUpper (input : Bytes) : Bytes := hexFromBin hexUpperTable input

/-- `hex_from_bin_lower`. -/
def hexFromBinLower (input : Bytes) : Bytes := hexFromBin hexLowerTable input

/-- `hex_from_int_upper`. -/
def hexFromIntUpper (input : UInt64) (bytes : Nat) : Bytes :=
  hexFromInt hexUpperTable input bytes

/-! ## Digits -/

/-- A hexadecimal digit of either case. -/
def IsHex (c : UInt8) : Prop := hexTable c ≠ hexInvalid

instance (c : UInt8) : Decidable (IsHex c) := inferInstanceAs (Decidable (_ ≠ _))

/-- The bytes that pairs of digits stand for; none when one is not a digit. -/
def unhex : Bytes → Option Bytes
  | c1 :: c2 :: digits =>
      if IsHex c1 ∧ IsHex c2 then
        (unhex digits).map fun bytes => hexPair (hexTable c1) (hexTable c2) :: bytes
      else none
  | _ => some []

theorem hexTable_lt {c : UInt8} (digit : IsHex c) : (hexTable c).toNat < 16 := by
  have all : ∀ value : Fin 256, IsHex (UInt8.ofNat value) →
      (hexTable (UInt8.ofNat value)).toNat < 16 := by decide +kernel
  have := all ⟨c.toNat, c.toNat_lt⟩
  rw [UInt8.ofNat_toNat] at this
  exact this digit

/-- A digit of the upper-case table is read back as its index. -/
theorem hexTable_hexUpperTable {digit : UInt8} (small : digit.toNat < 16) :
    hexTable (hexUpperTable digit) = digit := by
  have all : ∀ value : Fin 16,
      hexTable (hexUpperTable (UInt8.ofNat value)) = UInt8.ofNat value := by decide
  have := all ⟨digit.toNat, small⟩
  rwa [UInt8.ofNat_toNat] at this

theorem isHex_hexUpperTable {digit : UInt8} (small : digit.toNat < 16) :
    IsHex (hexUpperTable digit) := by
  rw [IsHex, hexTable_hexUpperTable small]
  rintro rfl
  exact absurd small (by decide)

theorem not_isHex_semicolon : ¬ IsHex ';'.toUInt8 := by decide

/-- A byte is made of its two halves. -/
theorem hexPair_halves (c : UInt8) : hexPair (c >>> 4) (c &&& 0xf) = c := by
  have all : ∀ value : Fin 256, hexPair (UInt8.ofNat value >>> 4) (UInt8.ofNat value &&& 0xf) =
      UInt8.ofNat value := by decide +kernel
  have := all ⟨c.toNat, c.toNat_lt⟩
  rwa [UInt8.ofNat_toNat] at this

theorem high_lt (c : UInt8) : (c >>> 4).toNat < 16 := by
  have bound := c.toNat_lt
  rw [UInt8.toNat_shiftRight, Nat.shiftRight_eq_div_pow]
  change c.toNat / 2 ^ 4 < 16
  omega

theorem low_lt (c : UInt8) : (c &&& 0xf).toNat < 16 := by
  rw [UInt8.toNat_and]
  exact Nat.lt_of_le_of_lt Nat.and_le_right (by decide)

/-! ## Bytes -/

theorem unhex_isHex {digits bytes : Bytes} {count : Nat} (length : digits.length = 2 * count)
    (decoded : unhex digits = some bytes) : bytes.length = count ∧ ∀ c ∈ digits, IsHex c := by
  induction count generalizing digits bytes with
  | zero =>
      rw [List.eq_nil_of_length_eq_zero length] at decoded ⊢
      cases decoded
      exact ⟨rfl, fun _ member => (List.not_mem_nil member).elim⟩
  | succ count ih =>
      match digits with
      | c1 :: c2 :: digits =>
          simp only [List.length_cons] at length
          simp only [unhex] at decoded
          split at decoded
          · rename_i both
            obtain ⟨rest, found, rfl⟩ := Option.map_eq_some_iff.mp decoded
            obtain ⟨restLength, restHex⟩ := ih (by omega) found
            refine ⟨by rw [List.length_cons, restLength], ?_⟩
            intro c member
            rcases List.mem_cons.mp member with rfl | member
            · exact both.1
            · rcases List.mem_cons.mp member with rfl | member
              · exact both.2
              · exact restHex c member
          · cases decoded

theorem unhex_of_isHex (digits : Bytes) (hex : ∀ c ∈ digits, IsHex c) :
    ∃ bytes, unhex digits = some bytes := by
  match digits with
  | [] => exact ⟨[], rfl⟩
  | [_] => exact ⟨[], rfl⟩
  | c1 :: c2 :: digits =>
      obtain ⟨bytes, decoded⟩ := unhex_of_isHex digits fun c member =>
        hex c (List.mem_cons_of_mem _ (List.mem_cons_of_mem _ member))
      refine ⟨hexPair (hexTable c1) (hexTable c2) :: bytes, ?_⟩
      rw [unhex, if_pos ⟨hex c1 List.mem_cons_self,
        hex c2 (List.mem_cons_of_mem _ List.mem_cons_self)⟩, decoded, Option.map_some]

/-- **Reading digits.** `hex_to_bin` stores the bytes that the digits stand for; when one is not
a digit it fails, having stored no more than as many. -/
theorem hexToBinLoop_eq {digits : Bytes} {count i : Nat} (length : digits.length = 2 * count)
    (out : Cells UInt8 size) (fits : i + count ≤ size) :
    (∃ bytes, unhex digits = some bytes ∧
      hexToBinLoop i out digits = (true, out.overwrite i bytes)) ∨
    ∃ part, unhex digits = none ∧ part.length ≤ count ∧
      hexToBinLoop i out digits = (false, out.overwrite i part) := by
  induction count generalizing digits i out with
  | zero =>
      rw [List.eq_nil_of_length_eq_zero length]
      exact .inl ⟨[], rfl, by rw [Cells.overwrite_nil]; rfl⟩
  | succ count ih =>
      match digits with
      | c1 :: c2 :: digits =>
          simp only [List.length_cons] at length
          have invalid : (hexTable c1 = hexInvalid ∨ hexTable c2 = hexInvalid) ↔
              ¬ (IsHex c1 ∧ IsHex c2) := by
            simp only [IsHex, not_and_or, ne_eq, not_not]
          simp only [hexToBinLoop, unhex, invalid, ite_not]
          by_cases both : IsHex c1 ∧ IsHex c2
          · simp only [if_pos both]
            have shorter : digits.length = 2 * count := by omega
            rcases ih (i := i + 1) shorter (out.overwrite i [hexPair (hexTable c1) (hexTable c2)])
                (by omega) with
              ⟨bytes, decoded, stored⟩ | ⟨part, failed, short, stored⟩
            · have bound := (unhex_isHex shorter decoded).1
              refine .inl ⟨_, by rw [decoded, Option.map_some], ?_⟩
              rw [stored]
              exact congrArg (Prod.mk true) (Cells.overwrite_overwrite_append out i
                [hexPair (hexTable c1) (hexTable c2)] bytes
                (by rw [List.length_singleton]; omega))
            · refine .inr ⟨hexPair (hexTable c1) (hexTable c2) :: part,
                by rw [failed, Option.map_none], by rw [List.length_cons]; omega, ?_⟩
              rw [stored]
              exact congrArg (Prod.mk false) (Cells.overwrite_overwrite_append out i
                [hexPair (hexTable c1) (hexTable c2)] part
                (by rw [List.length_singleton]; omega))
          · simp only [if_neg both]
            exact .inr ⟨[], trivial, Nat.zero_le _, by rw [Cells.overwrite_nil]⟩

@[simp] theorem hexFromBin_length (table : UInt8 → UInt8) (input : Bytes) :
    (hexFromBin table input).length = 2 * input.length := by
  induction input with
  | nil => rfl
  | cons c input ih =>
      rw [hexFromBin, List.flatMap_cons, List.length_append, ← hexFromBin, ih, List.length_cons]
      simp only [List.length_cons, List.length_nil]
      omega

/-- Reading the digits written for some bytes gives the bytes back. -/
theorem unhex_hexFromBinUpper (input : Bytes) : unhex (hexFromBinUpper input) = some input := by
  induction input with
  | nil => rfl
  | cons c input ih =>
      change unhex (hexUpperTable (c >>> 4) :: hexUpperTable (c &&& 0xf) ::
        hexFromBinUpper input) = _
      rw [unhex, if_pos ⟨isHex_hexUpperTable (high_lt c), isHex_hexUpperTable (low_lt c)⟩, ih,
        hexTable_hexUpperTable (high_lt c), hexTable_hexUpperTable (low_lt c), hexPair_halves,
        Option.map_some]

/-! ## Integers -/

/-- The number that digits stand for; none when one is not a digit. -/
def unhexNat : Nat → Bytes → Option Nat
  | value, [] => some value
  | value, c :: digits =>
      if IsHex c then unhexNat (16 * value + (hexTable c).toNat) digits else none

theorem unhexNat_lt {value result : Nat} {digits : Bytes}
    (decoded : unhexNat value digits = some result) :
    result < (value + 1) * 16 ^ digits.length := by
  induction digits generalizing value with
  | nil =>
      cases decoded
      rw [List.length_nil, pow_zero, Nat.mul_one]
      exact Nat.lt_succ_self _
  | cons c digits ih =>
      simp only [unhexNat] at decoded
      split at decoded
      · rename_i digit
        have small := hexTable_lt digit
        refine Nat.lt_of_lt_of_le (ih decoded) ?_
        rw [List.length_cons, pow_succ', ← Nat.mul_assoc]
        exact Nat.mul_le_mul_right _ (by omega)
      · cases decoded

/-- Below 60 bits, a step of `hex_to_int` appends a digit. -/
theorem hexToInt_step {ret : UInt64} (small : ret.toNat < 2 ^ 60) {c : UInt8} (digit : IsHex c) :
    (ret <<< 4 ||| (hexTable c).toUInt64).toNat = 16 * ret.toNat + (hexTable c).toNat := by
  have low := hexTable_lt digit
  have shifted : (ret <<< 4).toNat = 2 ^ 4 * ret.toNat := by
    rw [UInt64.toNat_shiftLeft]
    change ret.toNat <<< 4 % 2 ^ 64 = _
    rw [Nat.shiftLeft_eq, Nat.mul_comm]
    exact Nat.mod_eq_of_lt (by omega)
  rw [UInt64.toNat_or, shifted, UInt8.toNat_toUInt64, ← Nat.two_pow_add_eq_or_of_lt low]

theorem hexToIntLoop_eq {digits : Bytes} {ret : UInt64}
    (small : (ret.toNat + 1) * 16 ^ digits.length ≤ 2 ^ 60) :
    hexToIntLoop ret digits = (unhexNat ret.toNat digits).elim (-1) fun value => (value : Int) := by
  induction digits generalizing ret with
  | nil =>
      rw [List.length_nil, pow_zero, Nat.mul_one] at small
      have inRange : ¬ ret > 0x7fffffffffffffff := by
        rw [gt_iff_lt, UInt64.lt_iff_toNat_lt]
        change ¬ 0x7fffffffffffffff < ret.toNat
        omega
      simp only [hexToIntLoop, inRange, ↓reduceIte, unhexNat, Option.elim_some]
  | cons c digits ih =>
      by_cases digit : IsHex c
      · have valid : ¬ hexTable c = hexInvalid := digit
        have low := hexTable_lt digit
        have bound : ret.toNat < 2 ^ 60 := by
          have : 1 ≤ 16 ^ (c :: digits).length := Nat.one_le_pow _ _ (by decide)
          have := Nat.mul_le_mul_left (ret.toNat + 1) this
          omega
        have step := hexToInt_step bound digit
        simp only [hexToIntLoop, valid, ↓reduceIte, unhexNat, digit]
        rw [ih, step]
        rw [step]
        refine Nat.le_trans ?_ small
        rw [List.length_cons, pow_succ', ← Nat.mul_assoc]
        exact Nat.mul_le_mul_right _ (by omega)
      · have invalid : hexTable c = hexInvalid := not_not.mp digit
        simp only [hexToIntLoop, invalid, ↓reduceIte, unhexNat, digit, Option.elim_none]

/-- Up to 15 digits, `hex_to_int` gives the number, and -1 when one is not a digit. -/
theorem hexToInt_eq {digits : Bytes} (short : digits.length ≤ 15) :
    hexToInt digits = (unhexNat 0 digits).elim (-1) fun value => (value : Int) := by
  refine hexToIntLoop_eq ?_
  rw [UInt64.toNat_zero, Nat.zero_add, Nat.one_mul, show 2 ^ 60 = 16 ^ 15 by decide]
  exact Nat.pow_le_pow_right (by decide) short

theorem unhexNat_isHex {value result : Nat} {digits : Bytes}
    (decoded : unhexNat value digits = some result) : ∀ c ∈ digits, IsHex c := by
  induction digits generalizing value with
  | nil => exact fun _ member => (List.not_mem_nil member).elim
  | cons c digits ih =>
      simp only [unhexNat] at decoded
      split at decoded
      · rename_i digit
        exact List.forall_mem_cons.mpr ⟨digit, ih decoded⟩
      · cases decoded

theorem unhexNat_of_isHex {digits : Bytes} (hex : ∀ c ∈ digits, IsHex c) (value : Nat) :
    ∃ result, unhexNat value digits = some result := by
  induction digits generalizing value with
  | nil => exact ⟨value, rfl⟩
  | cons c digits ih =>
      obtain ⟨digit, hex⟩ := List.forall_mem_cons.mp hex
      rw [unhexNat, if_pos digit]
      exact ih hex _

/-- A number that `hex_to_int` reads is made of digits. -/
theorem isHex_of_hexToInt {digits : Bytes} (short : digits.length ≤ 15)
    (valid : ¬ hexToInt digits < 0) : ∀ c ∈ digits, IsHex c := by
  rw [hexToInt_eq short] at valid
  cases decoded : unhexNat 0 digits with
  | none =>
      rw [decoded] at valid
      exact absurd (by decide) valid
  | some value => exact unhexNat_isHex decoded

/-- Digits are decoded below the power of their number. -/
theorem hexToInt_lt {digits : Bytes} (short : digits.length ≤ 15) :
    hexToInt digits < 16 ^ digits.length := by
  rw [hexToInt_eq short]
  cases decoded : unhexNat 0 digits with
  | none => exact Int.lt_of_lt_of_le (by decide : (-1 : Int) < 0) (Int.pow_nonneg (by decide))
  | some value =>
      have bound := unhexNat_lt decoded
      rw [Nat.zero_add, Nat.one_mul] at bound
      rw [Option.elim_some]
      exact_mod_cast bound

/-- Nothing but digits is decoded to a number. -/
theorem hexToInt_nonneg_iff {digits : Bytes} (short : digits.length ≤ 15) :
    0 ≤ hexToInt digits ↔ ∀ c ∈ digits, IsHex c := by
  refine ⟨fun natural => isHex_of_hexToInt short (Int.not_lt.mpr natural), fun hex => ?_⟩
  obtain ⟨value, decoded⟩ := unhexNat_of_isHex hex 0
  rw [hexToInt_eq short, decoded]
  exact Int.natCast_nonneg value

theorem unhexNat_append {value middle : Nat} {first second : Bytes}
    (decoded : unhexNat value first = some middle) :
    unhexNat value (first ++ second) = unhexNat middle second := by
  induction first generalizing value with
  | nil =>
      cases decoded
      rfl
  | cons c first ih =>
      simp only [unhexNat] at decoded
      split at decoded
      · rename_i digit
        rw [List.cons_append, unhexNat, if_pos digit, ih decoded]
      · cases decoded

theorem hexFromIntLoop_length (table : UInt8 → UInt8) (input : UInt64) (digits : Nat) :
    (hexFromIntLoop table input digits).length = digits := by
  induction digits generalizing input with
  | zero => rfl
  | succ digits ih => rw [hexFromIntLoop, List.length_append, ih, List.length_singleton]

@[simp] theorem hexFromInt_length (table : UInt8 → UInt8) (input : UInt64) (bytes : Nat) :
    (hexFromInt table input bytes).length = bytes * 2 :=
  hexFromIntLoop_length _ _ _

/-- The digits written for a number stand for its last digits. -/
theorem unhexNat_hexFromIntLoop (input : UInt64) (digits : Nat) :
    unhexNat 0 (hexFromIntLoop hexUpperTable input digits) =
      some (input.toNat % 16 ^ digits) := by
  induction digits generalizing input with
  | zero => rw [hexFromIntLoop, unhexNat, pow_zero, Nat.mod_one]
  | succ digits ih =>
      have low : (input &&& 0xf).toUInt8.toNat = input.toNat % 16 := by
        rw [UInt64.toNat_toUInt8, UInt64.toNat_and]
        change (input.toNat &&& (2 ^ 4 - 1)) % 2 ^ 8 = _
        rw [Nat.and_two_pow_sub_one_eq_mod]
        omega
      have digit : (input &&& 0xf).toUInt8.toNat < 16 := by
        rw [low]
        exact Nat.mod_lt _ (by decide)
      have high : (input >>> 4).toNat = input.toNat / 16 := by
        rw [UInt64.toNat_shiftRight, Nat.shiftRight_eq_div_pow]
        rfl
      rw [hexFromIntLoop, unhexNat_append (ih _), unhexNat, if_pos (isHex_hexUpperTable digit),
        unhexNat, hexTable_hexUpperTable digit, low, high, Nat.add_comm, Nat.pow_succ',
        Nat.mod_mul]

/-- Reading the digits written for a number gives its last bytes back. -/
theorem hexToInt_hexFromIntUpper (input : UInt64) {bytes : Nat} (short : bytes ≤ 7) :
    hexToInt (hexFromIntUpper input bytes) = ((input.toNat % 256 ^ bytes : Nat) : Int) := by
  rw [hexFromIntUpper, hexToInt_eq (by rw [hexFromInt_length]; omega), hexFromInt,
    unhexNat_hexFromIntLoop, Option.elim_some, Nat.mul_comm, pow_mul]
  rfl

theorem hexToInt_hexFromIntUpper_of_lt (input : UInt64) (bytes : Nat) (short : bytes ≤ 7)
    (fits : input.toNat < 256 ^ bytes) :
    hexToInt (hexFromIntUpper input bytes) = (input.toNat : Int) := by
  rw [hexToInt_hexFromIntUpper input short, Nat.mod_eq_of_lt fits]

/-! ## Upper-case digits -/

/-- A digit as the program writes it. -/
def IsUpperHex (c : UInt8) : Prop := c ∈ ascii "0123456789ABCDEF"

instance (c : UInt8) : Decidable (IsUpperHex c) := inferInstanceAs (Decidable (_ ∈ _))

theorem IsUpperHex.isHex {c : UInt8} (upper : IsUpperHex c) : IsHex c := by
  have all : ∀ c ∈ ascii "0123456789ABCDEF", IsHex c := by decide +kernel
  exact all c upper

theorem IsUpperHex.eq_of_hexTable {c c' : UInt8} (upper : IsUpperHex c) (upper' : IsUpperHex c')
    (same : hexTable c = hexTable c') : c = c' := by
  have all : ∀ c ∈ ascii "0123456789ABCDEF", ∀ c' ∈ ascii "0123456789ABCDEF",
      hexTable c = hexTable c' → c = c' := by decide +kernel
  exact all c upper c' upper' same

/-- A pair of digits is written as it was read. -/
theorem IsUpperHex.hexFromBin_pair {c1 c2 : UInt8} (upper1 : IsUpperHex c1)
    (upper2 : IsUpperHex c2) :
    hexFromBinUpper [hexPair (hexTable c1) (hexTable c2)] = [c1, c2] := by
  have all : ∀ c1 ∈ ascii "0123456789ABCDEF", ∀ c2 ∈ ascii "0123456789ABCDEF",
      hexFromBinUpper [hexPair (hexTable c1) (hexTable c2)] = [c1, c2] := by decide +kernel
  exact all c1 upper1 c2 upper2

/-- Bytes that were read from upper-case digits are written as these digits. -/
theorem hexFromBinUpper_unhex {digits bytes : Bytes} {count : Nat}
    (length : digits.length = 2 * count) (upper : ∀ c ∈ digits, IsUpperHex c)
    (decoded : unhex digits = some bytes) : hexFromBinUpper bytes = digits := by
  induction count generalizing digits bytes with
  | zero =>
      rw [List.eq_nil_of_length_eq_zero length] at decoded ⊢
      cases decoded
      rfl
  | succ count ih =>
      match digits with
      | c1 :: c2 :: digits =>
          obtain ⟨upper1, upper⟩ := List.forall_mem_cons.mp upper
          obtain ⟨upper2, upper⟩ := List.forall_mem_cons.mp upper
          simp only [List.length_cons] at length
          rw [unhex] at decoded
          split at decoded
          · obtain ⟨rest, read, rfl⟩ := Option.map_eq_some_iff.mp decoded
            have pair := upper1.hexFromBin_pair upper2
            rw [hexFromBinUpper, hexFromBin, List.flatMap_singleton] at pair
            rw [hexFromBinUpper, hexFromBin, List.flatMap_cons, pair, ← hexFromBin,
              ← hexFromBinUpper, ih (by omega) upper read]
            rfl
          · cases decoded

/-- Upper-case digits of the same number are the same. -/
theorem unhexNat_inj {value value' result : Nat} {digits digits' : Bytes}
    (length : digits.length = digits'.length) (upper : ∀ c ∈ digits, IsUpperHex c)
    (upper' : ∀ c ∈ digits', IsUpperHex c) (decoded : unhexNat value digits = some result)
    (decoded' : unhexNat value' digits' = some result) : value = value' ∧ digits = digits' := by
  induction digits generalizing digits' value value' with
  | nil =>
      cases digits' with
      | nil =>
          cases decoded
          cases decoded'
          exact ⟨rfl, rfl⟩
      | cons c' digits' => cases length
  | cons c digits ih =>
      cases digits' with
      | nil => cases length
      | cons c' digits' =>
          obtain ⟨here, upper⟩ := List.forall_mem_cons.mp upper
          obtain ⟨here', upper'⟩ := List.forall_mem_cons.mp upper'
          simp only [unhexNat] at decoded decoded'
          split at decoded
          · rename_i digit
            split at decoded'
            · rename_i digit'
              have low := hexTable_lt digit
              have low' := hexTable_lt digit'
              obtain ⟨values, rest⟩ := ih (Nat.succ.inj length) upper upper' decoded decoded'
              have same : hexTable c = hexTable c' := UInt8.toNat_inj.mp (by omega)
              exact ⟨by omega, by rw [here.eq_of_hexTable here' same, rest]⟩
            · cases decoded'
          · cases decoded

theorem isUpperHex_hexUpperTable {digit : UInt8} (small : digit.toNat < 16) :
    IsUpperHex (hexUpperTable digit) := by
  have all : ∀ value : Fin 16, IsUpperHex (hexUpperTable (UInt8.ofNat value)) := by decide
  have := all ⟨digit.toNat, small⟩
  rwa [UInt8.ofNat_toNat] at this

theorem hexFromIntLoop_upper (input : UInt64) (digits : Nat) :
    ∀ c ∈ hexFromIntLoop hexUpperTable input digits, IsUpperHex c := by
  induction digits generalizing input with
  | zero => exact fun _ member => absurd member List.not_mem_nil
  | succ digits ih =>
      intro c member
      rw [hexFromIntLoop] at member
      rcases List.mem_append.mp member with before | last
      · exact ih _ c before
      · rw [List.mem_singleton.mp last]
        refine isUpperHex_hexUpperTable ?_
        rw [UInt64.toNat_toUInt8, UInt64.toNat_and]
        change (input.toNat &&& (2 ^ 4 - 1)) % 2 ^ 8 < 16
        rw [Nat.and_two_pow_sub_one_eq_mod]
        omega

/-- A number that was read from upper-case digits is written as these digits. -/
theorem hexFromIntUpper_unhexNat {value : UInt64} {digits : Bytes} {count : Nat}
    (length : digits.length = count * 2) (upper : ∀ c ∈ digits, IsUpperHex c)
    (decoded : unhexNat 0 digits = some value.toNat) : hexFromIntUpper value count = digits := by
  have bound := unhexNat_lt decoded
  have written := unhexNat_hexFromIntLoop value (count * 2)
  rw [length, Nat.zero_add, Nat.one_mul] at bound
  rw [Nat.mod_eq_of_lt bound] at written
  exact (unhexNat_inj ((hexFromIntLoop_length _ _ _).trans length.symm)
    (hexFromIntLoop_upper value _) upper written decoded).2

end Adsbus

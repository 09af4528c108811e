import Adsbus.Foundation.Scanner
import Mathlib.Data.List.Perm.Basic
import Mathlib.Data.Nat.Digits.Lemmas

/-! # JSON values and their texts

The values of JSON texts as far as programs look into them, and the text of
those with plain strings and integers: strings are quoted and escape the
quotation mark and the backslash, members are separated by a comma and a space.
-/

/-- A JSON value; arrays, other numbers and the literals are not told apart. -/
inductive Json
  | object (fields : List (List UInt8 × Json))
  | string (value : List UInt8)
  | integer (value : Int64)
  | other

namespace Json

/-- The value of a member of an object. -/
def get? : Json → List UInt8 → Option Json
  | object fields, key => fields.lookup key
  | _, _ => none

/-- The string that a member of an object holds. -/
def getString? (value : Json) (key : List UInt8) : Option (List UInt8) :=
  match value.get? key with
  | some (string text) => some text
  | _ => none

/-- The integer that a member of an object holds. -/
def getInteger? (value : Json) (key : List UInt8) : Option Int64 :=
  match value.get? key with
  | some (integer number) => some number
  | _ => none

theorem getString?_of_get? {obj : Json} {key value : List UInt8}
    (found : obj.get? key = some (string value)) : obj.getString? key = some value := by
  rw [getString?, found]

theorem getInteger?_of_get? {obj : Json} {key : List UInt8} {value : Int64}
    (found : obj.get? key = some (integer value)) : obj.getInteger? key = some value := by
  rw [getInteger?, found]

theorem getInteger?_eq_none {obj : Json} {key : List UInt8}
    (other : ∀ value, obj.get? key = some (integer value) → False) : obj.getInteger? key = none := by
  rw [getInteger?]
  split
  · exact (other _ ‹_›).elim
  · rfl

/-- A value with the given members, in any order. -/
def Holds (value : Json) (fields : List (List UInt8 × Json)) : Prop :=
  ∀ key, value.get? key = fields.lookup key

/-! ## Texts -/

/-- The quotation mark. -/
def quotationMark : UInt8 := 34

/-- The backslash. -/
def backslash : UInt8 := 92

/-- Spaces, tabs and line endings. -/
def IsSpace (c : UInt8) : Prop := c = 32 ∨ c = 9 ∨ c = 10 ∨ c = 13

instance (c : UInt8) : Decidable (IsSpace c) := inferInstanceAs (Decidable (_ ∨ _))

/-- A printable ASCII character. -/
def IsPlain (c : UInt8) : Prop := 32 ≤ c ∧ c ≤ 126

instance (c : UInt8) : Decidable (IsPlain c) := inferInstanceAs (Decidable (_ ∧ _))

/-- The text of plain characters inside quotation marks. -/
def escape (value : List UInt8) : List UInt8 :=
  value.flatMap fun c => if c = quotationMark ∨ c = backslash then [backslash, c] else [c]

/-- The text of a string of plain characters. -/
def quote (value : List UInt8) : List UInt8 :=
  quotationMark :: (escape value ++ [quotationMark])

/-- The character of a decimal digit. -/
def digit (value : Nat) : UInt8 := UInt8.ofNat (48 + value)

/-- The text of a natural number. -/
def decimalNat (value : Nat) : List UInt8 :=
  if value = 0 then [48] else (Nat.digits 10 value).reverse.map digit

/-- The text of an integer. -/
def decimal (value : Int) : List UInt8 :=
  if value < 0 then 45 :: decimalNat value.natAbs else decimalNat value.natAbs

/-- The text of a member. -/
def member (key text : List UInt8) : List UInt8 := quote key ++ [58, 32] ++ text

/-- The text of an object with the given texts of its members. -/
def braces (members : List (List UInt8)) : List UInt8 :=
  [123] ++ [44, 32].intercalate members ++ [125]

/-- The text of a string or an integer. -/
def scalarText : Json → List UInt8
  | string value => quote value
  | integer value => decimal value.toInt
  | _ => []

/-- A string or an integer, the string of plain characters. -/
def IsScalar : Json → Prop
  | string value => ∀ c ∈ value, IsPlain c
  | integer _ => True
  | _ => False

/-- Members with plain keys, no two of them the same, and scalar values. -/
structure Flat (fields : List (List UInt8 × Json)) : Prop where
  keys : ∀ field ∈ fields, ∀ c ∈ field.1, IsPlain c
  scalars : ∀ field ∈ fields, field.2.IsScalar
  distinct : (fields.map Prod.fst).Nodup

/-- The text of an object with scalar members. -/
def flatText (fields : List (List UInt8 × Json)) : List UInt8 :=
  braces (fields.map fun field => member field.1 field.2.scalarText)

/-! ## Lengths -/

theorem escape_length_le (value : List UInt8) : (escape value).length ≤ 2 * value.length := by
  induction value with
  | nil => exact Nat.le_refl 0
  | cons c value ih =>
      rw [escape, List.flatMap_cons, List.length_append, List.length_cons, ← escape]
      have : (if c = quotationMark ∨ c = backslash then [backslash, c] else [c]).length ≤ 2 := by
        split
        · exact Nat.le_refl 2
        · exact Nat.le_succ 1
      omega

theorem quote_length (value : List UInt8) : (quote value).length = (escape value).length + 2 := by
  rw [quote, List.length_cons, List.length_append, List.length_singleton]

/-- Characters that need no escaping are their own text. -/
theorem escape_eq_self {value : List UInt8}
    (plain : ∀ c ∈ value, c ≠ quotationMark ∧ c ≠ backslash) : escape value = value := by
  induction value with
  | nil => rfl
  | cons c value ih =>
      obtain ⟨here, rest⟩ := List.forall_mem_cons.mp plain
      rw [escape, List.flatMap_cons, if_neg (not_or.mpr here), ← escape, ih rest]
      rfl

theorem decimalNat_length_le {value count : Nat} (positive : 0 < count)
    (small : value < 10 ^ count) : (decimalNat value).length ≤ count := by
  rw [decimalNat]
  split
  · exact positive
  · rw [List.length_map, List.length_reverse]
    exact (Nat.digits_length_le_iff (by decide) value).mpr small

theorem braces_length (members : List (List UInt8)) :
    (braces members).length =
      (members.map List.length).sum + 2 * (members.length - 1) + 2 := by
  have inner : ∀ members : List (List UInt8), ([44, 32].intercalate members).length =
      (members.map List.length).sum + 2 * (members.length - 1) := by
    intro members
    induction members with
    | nil => rfl
    | cons first members ih =>
        cases members with
        | nil =>
            rw [List.intercalate_singleton]
            rfl
        | cons second members =>
            rw [List.intercalate_cons_cons, List.length_append, List.length_append, ih]
            simp only [List.map_cons, List.sum_cons, List.length_cons, List.length_nil]
            omega
  rw [braces, List.length_append, List.length_append, inner]
  simp only [List.length_cons, List.length_nil]
  omega

end Json

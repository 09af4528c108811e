import Mathlib.Data.List.TakeWhile

/-! # Bytes and C strings -/

namespace Adsbus

abbrev Bytes := List UInt8

/-- The bytes of a literal of ASCII characters. -/
def ascii (text : String) : Bytes := text.toList.map fun char => UInt8.ofNat char.toNat

/-- A string as the C code reads it: the bytes before its terminator. -/
structure CString where
  bytes : Bytes
  noNul : 0 ∉ bytes
  deriving DecidableEq

namespace CString

instance : Inhabited CString := ⟨⟨[], List.not_mem_nil⟩⟩

/-- The string that starts a list of bytes. -/
def ofBytes (bytes : Bytes) : CString where
  bytes := bytes.takeWhile (· ≠ 0)
  noNul := fun member => by
    have nonzero := List.mem_takeWhile_imp member
    simp only [ne_eq, not_true_eq_false, decide_false, Bool.false_eq_true] at nonzero

/-- The string of a literal. -/
def ofAscii (text : String) : CString := ofBytes (ascii text)

theorem ofBytes_bytes_of_noNul {bytes : Bytes} (noNul : 0 ∉ bytes) :
    (ofBytes bytes).bytes = bytes := by
  refine List.takeWhile_eq_self_iff.mpr fun byte member => decide_eq_true fun zero => ?_
  rw [zero] at member
  exact noNul member

theorem ext_bytes {first second : CString} (same : first.bytes = second.bytes) :
    first = second := by
  cases first
  cases second
  cases same
  rfl

theorem ofBytes_bytes (text : CString) : ofBytes text.bytes = text :=
  ext_bytes (ofBytes_bytes_of_noNul text.noNul)

end CString

/-- Two texts one behind the other. -/
theorem append_prefix_iff {first second input : Bytes} :
    first ++ second <+: input ↔ first <+: input ∧ second <+: input.drop first.length := by
  constructor
  · rintro ⟨more, rfl⟩
    rw [List.append_assoc, List.drop_left]
    exact ⟨List.prefix_append _ _, List.prefix_append _ _⟩
  · rintro ⟨⟨more, rfl⟩, behind⟩
    rw [List.drop_left] at behind
    exact List.prefix_append_right_inj _ |>.mpr behind

end Adsbus

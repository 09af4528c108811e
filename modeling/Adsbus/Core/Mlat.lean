import Adsbus.Core.Packet
import Adsbus.Foundation.Unwrap
import Mathlib.Algebra.Group.Nat.Defs

/-! # Timestamps over a run

The generation of a connection is the number of decreases of its timestamps,
times the bound of the counter. The arithmetic is that of 64 bits, and the last
step of it reduces modulo the bound of the packet's field.
-/

namespace Adsbus

/-- The ticks of the packet's clock in one tick of a clock. -/
def mlatTicks (mhz : UInt16) : Nat := packetMlatMhz.toNat / mhz.toNat

/-- What a timestamp is scaled to after a number of wraps. -/
def mlatScaled (max : UInt64) (mhz : UInt16) (wraps timestamp : Nat) : Nat :=
  (wraps * max.toNat + timestamp) * mlatTicks mhz % 2 ^ 64 % packetMlatMax.toNat

/-- Where the numbers are small enough, nothing is lost. -/
theorem mlatScaled_of_lt {max : UInt64} {mhz : UInt16} {wraps timestamp : Nat}
    (small : (wraps * max.toNat + timestamp) * mlatTicks mhz < packetMlatMax.toNat) :
    mlatScaled max mhz wraps timestamp =
      (wraps * max.toNat + timestamp) * mlatTicks mhz := by
  have bound : packetMlatMax.toNat < 2 ^ 64 := by decide
  rw [mlatScaled, Nat.mod_eq_of_lt (Nat.lt_trans small bound), Nat.mod_eq_of_lt small]

/-- A state that counts the wraps of a counter with the given bound. -/
structure MlatState.Counts (state : MlatState) (max : UInt64) (last wraps : Nat) : Prop where
  last : state.timestampLast.toNat = last
  generation : state.timestampGeneration.toNat = wraps * max.toNat % 2 ^ 64

theorem MlatState.counts_fresh (max : UInt64) :
    MlatState.Counts { timestampLast := 0, timestampGeneration := 0 } max 0 0 where
  last := rfl
  generation := by
    rw [Nat.zero_mul]
    rfl

/-- A timestamp takes the count one step further. -/
theorem MlatState.Counts.widthIn {state : MlatState} {max : UInt64} {last wraps : Nat}
    (counts : state.Counts max last wraps) (timestamp : UInt64) :
    (packetMlatTimestampScaleWidthIn timestamp max state).1.toNat =
        (Unwrap.seen last wraps timestamp.toNat * max.toNat + timestamp.toNat) % 2 ^ 64 ∧
      (packetMlatTimestampScaleWidthIn timestamp max state).2.Counts max timestamp.toNat
        (Unwrap.seen last wraps timestamp.toNat) := by
  have decreased : timestamp < state.timestampLast ↔ timestamp.toNat < last := by
    rw [UInt64.lt_iff_toNat_lt, counts.last]
  have generation : (packetMlatTimestampScaleWidthIn timestamp max state).2.Counts max
      timestamp.toNat (Unwrap.seen last wraps timestamp.toNat) := by
    refine ⟨rfl, ?_⟩
    simp only [packetMlatTimestampScaleWidthIn, decreased, Unwrap.seen]
    split
    · rw [UInt64.toNat_add, counts.generation, Nat.mod_add_mod, Nat.succ_mul]
    · exact counts.generation
  refine ⟨?_, generation⟩
  change UInt64.toNat
    ((packetMlatTimestampScaleWidthIn timestamp max state).2.timestampGeneration + timestamp) = _
  rw [UInt64.toNat_add, generation.generation, Nat.mod_add_mod]

theorem toNat_mlatTicks (mhz : UInt16) :
    (packetMlatMhz / mhz.toUInt32).toUInt64.toNat = mlatTicks mhz := by
  rw [UInt32.toNat_toUInt64, UInt32.toNat_div, UInt16.toNat_toUInt32]
  rfl

/-- **Scaling a timestamp in.** It is counted, scaled and reduced. -/
theorem MlatState.Counts.scaled {state : MlatState} {max : UInt64} {last wraps : Nat}
    (counts : state.Counts max last wraps) (timestamp : UInt64) (mhz : UInt16) :
    ((packetMlatTimestampScaleWidthIn timestamp max state).1 *
        (packetMlatMhz / mhz.toUInt32).toUInt64 % packetMlatMax).toNat =
      mlatScaled max mhz (Unwrap.seen last wraps timestamp.toNat) timestamp.toNat := by
  rw [UInt64.toNat_mod, UInt64.toNat_mul, (counts.widthIn timestamp).1, toNat_mlatTicks,
    Nat.mod_mul_mod, mlatScaled]

end Adsbus

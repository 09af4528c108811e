import Adsbus.Formats.Clocked
import Adsbus.Formats.RecordRun
import Mathlib.Algebra.Order.Field.Rat
import Mathlib.Algebra.Order.Field.Basic
import Mathlib.Tactic.FieldSimp
import Mathlib.Tactic.Ring

/-! # Clock rates

A counter is scaled by the whole part of the quotient of two clock rates. What is
lost grows with the counter, unless the packet's rate is a multiple of the
counter's (`Adsbus.FirstPacket.withinTick_iff`).
-/

namespace Adsbus

/-- A time is within one tick of a counter's value at another rate. -/
def WithinTick (rate mhz counter time : Nat) : Prop :=
  |(time : ℚ) - counter * rate / mhz| ≤ 1

/-- What scaling by a whole quotient loses. -/
theorem withinTick_quotient {mhz : Nat} (positive : 0 < mhz) (rate counter : Nat) :
    WithinTick rate mhz counter (counter * (rate / mhz)) ↔ counter * (rate % mhz) ≤ mhz := by
  have nonzero : (0 : ℚ) < mhz := by exact_mod_cast positive
  have whole : (rate : ℚ) = mhz * (rate / mhz : Nat) + (rate % mhz : Nat) := by
    exact_mod_cast (Nat.div_add_mod rate mhz).symm
  have lost : ((counter * (rate / mhz) : Nat) : ℚ) - counter * rate / mhz =
      -(((counter * (rate % mhz) : Nat) : ℚ) / mhz) := by
    rw [whole]
    push_cast
    field_simp
    ring
  rw [WithinTick, lost, abs_neg, abs_of_nonneg (by positivity), div_le_one nonzero, Nat.cast_le]

/-- A small counter that has not wrapped is scaled by the whole quotient. -/
theorem mlatScaled_first {counter : Nat} (small : counter * packetMlatMhz.toNat < 2 ^ 63)
    (max : UInt64) (mhz : UInt16) :
    mlatScaled max mhz 0 counter = counter * (packetMlatMhz.toNat / mhz.toNat) := by
  have rate : packetMlatMhz.toNat = 120 := rfl
  have bound : packetMlatMax.toNat = 9223372036854775807 := rfl
  have least : counter * mlatTicks mhz ≤ counter * 120 :=
    Nat.mul_le_mul_left counter (Nat.div_le_self 120 _)
  rw [rate] at small
  rw [mlatScaled_of_lt, Nat.zero_mul, Nat.zero_add, mlatTicks]
  rw [Nat.zero_mul, Nat.zero_add, bound]
  omega

/-! ## First packets -/

/-- A packet with a counter that is the first on its connection: a frame, or a record behind a
header. -/
inductive FirstPacket (serverId : CString)
  | frame (clocked : Clocked) (fields : clocked.Fields)
  | record (greeting : SentHeader) (accepted : greeting.header.Accepted serverId)
      (sent : SentPacket) (within : sent.Within greeting.header.rssiMax) (timestamp : Nat)
      (timed : sent.timestamp = some timestamp)

namespace FirstPacket

variable {serverId : CString}

/-- The rate of the counter's clock. -/
def mhz : FirstPacket serverId → UInt16
  | frame _ fields => Clocked.mhz fields
  | record greeting _ _ _ _ _ => greeting.header.mlatTimestampMhz.toUInt16

/-- The value of the counter. -/
def counter : FirstPacket serverId → Nat
  | frame _ fields => Clocked.timestamp fields
  | record _ _ _ _ timestamp _ => timestamp

/-- What a fresh connection decodes. -/
def decode (memory : Cells UInt8 bufLenMax) (base : Packet) :
    FirstPacket serverId → Except Fault (List Nat)
  | frame clocked fields => clocked.decode memory base [Clocked.text fields]
  | record greeting _ sent _ _ _ => greeting.decode serverId base [sent]

/-- The parsers admit no clock that stands. -/
theorem mhz_pos (first : FirstPacket serverId) : 0 < first.mhz.toNat := by
  refine Nat.pos_of_ne_zero fun zero => ?_
  have stands : first.mhz = 0 := UInt16.toNat_inj.mp zero
  cases first with
  | frame clocked fields =>
      cases clocked with
      | airspyAdsb => exact AirspyAdsbLine.ticking fields stands
      | beast => exact absurd stands (by decide : beastMlatMhz ≠ 0)
  | record greeting accepted sent within timestamp timed => exact accepted.mhz stands

/-- The first packet is scaled in a state that has counted nothing. -/
theorem decode_eq (memory : Cells UInt8 bufLenMax) (base : Packet)
    (first : FirstPacket serverId) :
    ∃ max, first.decode memory base = .ok [mlatScaled max first.mhz 0 first.counter] := by
  cases first with
  | frame clocked fields =>
      have decoded := Clocked.decode_eq (fun _ : Unit => fields) memory base [()]
      refine ⟨clocked.max, decoded.trans ?_⟩
      simp only [Unwrap.count, List.map_cons, List.map_nil, Unwrap.seen_zero]
      rfl
  | record greeting accepted sent within timestamp timed =>
      have decoded := @SentHeader.decode_eq greeting _ accepted base [sent]
        (List.forall_mem_singleton.mpr within)
      refine ⟨greeting.header.mlatTimestampMax, decoded.trans ?_⟩
      simp only [Unwrap.countSome, timed, List.map_cons, List.map_nil, SentPacket.time]
      rfl

/-- **Clock rates.** A first packet is decoded to within a tick of the time that its counter
tells, exactly when the remainder of the clock rates has not added up to a tick. -/
theorem withinTick_iff (first : FirstPacket serverId) (memory : Cells UInt8 bufLenMax)
    (base : Packet) (small : first.counter * packetMlatMhz.toNat < 2 ^ 63) :
    ∃ time, first.decode memory base = .ok [time] ∧
      (WithinTick packetMlatMhz.toNat first.mhz.toNat first.counter time ↔
        first.counter * (packetMlatMhz.toNat % first.mhz.toNat) ≤ first.mhz.toNat) := by
  obtain ⟨max, decoded⟩ := first.decode_eq memory base
  refine ⟨_, decoded, ?_⟩
  rw [mlatScaled_first small]
  exact withinTick_quotient first.mhz_pos packetMlatMhz.toNat first.counter

/-- A line with a counter of 1000 ticks of a clock of some rate. -/
def line (precision : Bytes) (length : precision.length = 2)
    (ticking : 2 * UInt16.ofInt (hexToInt precision) ≠ 0) : FirstPacket serverId :=
  .frame .airspyAdsb
    { AirspyAdsbLine.sent (Clocked.packetAt 6000) (by decide) with
      precision := precision, precisionLength := length, ticking := ticking }

/-- A clock of 20 MHz is scaled exactly. -/
theorem withinTick_twenty :
    ∃ time, decode (Cells.fill bufLenMax 0) (Clocked.packetAt 0)
        (line (ascii "0A") (by decide) (by decide) : FirstPacket (.ofAscii "me")) = .ok [time] ∧
      WithinTick 120 20 1000 time := by
  obtain ⟨time, decoded, within⟩ :=
    (line (ascii "0A") (by decide) (by decide) : FirstPacket (.ofAscii "me")).withinTick_iff
      (Cells.fill bufLenMax 0) (Clocked.packetAt 0) (by decide)
  exact ⟨time, decoded, within.mpr (by decide)⟩

/-- A clock of 50 MHz is taken for one of 60 MHz. -/
theorem withinTick_fifty :
    ¬ ∀ first : FirstPacket (.ofAscii "me"), first.counter * packetMlatMhz.toNat < 2 ^ 63 →
      ∃ time, first.decode (Cells.fill bufLenMax 0) (Clocked.packetAt 0) = .ok [time] ∧
        WithinTick packetMlatMhz.toNat first.mhz.toNat first.counter time := by
  intro within
  obtain ⟨time, decoded, close⟩ := within (line (ascii "19") (by decide) (by decide)) (by decide)
  obtain ⟨max, decoded'⟩ := decode_eq (Cells.fill bufLenMax 0) (Clocked.packetAt 0)
    (line (ascii "19") (by decide) (by decide) : FirstPacket (.ofAscii "me"))
  simp only [decoded, Except.ok.injEq, List.cons.injEq, and_true] at decoded'
  rw [decoded', mlatScaled_first (by decide), withinTick_quotient (mhz_pos _)] at close
  exact absurd close (by decide)

end FirstPacket

end Adsbus

import Adsbus.Core.Bytes
import Adsbus.Core.Fault
import Adsbus.Foundation.Cells

/-! # Packets

A packet carries its payload, its source and how it was received. Time and
signal strength are scaled to a common range on the way in, and to the range of
the output format on the way out. A source's counter has a bounded width; each
time it decreases it is taken to have wrapped, and a generation counts the wraps
of a connection (`packet_mlat_timestamp_scale_width_in`).
-/

namespace Adsbus

/-- `enum packet_type`. -/
inductive PacketType
  | none
  | modeAc
  | modeSShort
  | modeSLong
  deriving DecidableEq, Repr

instance : Inhabited PacketType := ⟨.none⟩

/-- The types from `MODE_AC` on, in order. -/
def PacketType.frames : List PacketType := [.modeAc, .modeSShort, .modeSLong]

/-- `packet_type_names`. -/
def packetTypeNames : PacketType → CString
  | .none => .ofAscii "INVALID"
  | .modeAc => .ofAscii "Mode-AC"
  | .modeSShort => .ofAscii "Mode-S short"
  | .modeSLong => .ofAscii "Mode-S long"

/-- `packet_payload_len`. -/
def packetPayloadLen : PacketType → Nat
  | .none => 0
  | .modeAc => 2
  | .modeSShort => 7
  | .modeSLong => 14

/-- `PACKET_PAYLOAD_LEN_MAX`, and `PACKET_DATA_LEN_MAX`. -/
def packetPayloadLenMax : Nat := 14

/-- `PACKET_MLAT_MHZ`. -/
def packetMlatMhz : UInt32 := 120

/-- `PACKET_MLAT_MAX`, which is `INT64_MAX`. -/
def packetMlatMax : UInt64 := 0x7fffffffffffffff

/-- `PACKET_RSSI_MAX`, which is `UINT32_MAX`. -/
def packetRssiMax : UInt32 := 0xffffffff

/-- `UUID_LEN`. -/
def uuidLen : Nat := 37

/-- The fields of `struct stat` that tell connections apart. -/
structure Stat where
  stDev : UInt64
  stIno : UInt64
  deriving DecidableEq, Repr

/-- `struct packet`. -/
structure Packet where
  sourceId : CString
  inputStat : Stat
  type : PacketType
  hops : UInt32
  payload : Cells UInt8 packetPayloadLenMax
  mlatTimestamp : UInt64
  rssi : UInt32
  deriving DecidableEq

/-- The bytes of the payload that the type of the packet uses. -/
def Packet.data (packet : Packet) : Bytes :=
  packet.payload.slice 0 (packetPayloadLen packet.type)

theorem packetPayloadLen_le (type : PacketType) : packetPayloadLen type ≤ packetPayloadLenMax := by
  cases type <;> decide

@[simp] theorem Packet.data_length (packet : Packet) :
    packet.data.length = packetPayloadLen packet.type :=
  Cells.slice_length _ _ _ (by
    have := packetPayloadLen_le packet.type
    omega)

/-- `struct packet_mlat_state`. -/
structure MlatState where
  timestampLast : UInt64
  timestampGeneration : UInt64
  deriving DecidableEq, Repr

/-- `packet_mlat_timestamp_scale_mhz_in`. -/
def packetMlatTimestampScaleMhzIn (timestamp : UInt64) (mhz : UInt32) : Except Fault UInt64 := do
  check (0 < mhz) .mlatMhz
  return timestamp * (packetMlatMhz / mhz).toUInt64

/-- `packet_mlat_timestamp_scale_width_in`. -/
def packetMlatTimestampScaleWidthIn (timestamp max : UInt64) (state : MlatState) :
    UInt64 × MlatState :=
  let generation :=
    if timestamp < state.timestampLast then state.timestampGeneration + max
    else state.timestampGeneration
  (generation + timestamp, { timestampLast := timestamp, timestampGeneration := generation })

/-- `packet_mlat_timestamp_scale_mhz_out`. -/
def packetMlatTimestampScaleMhzOut (timestamp mhz : UInt64) : Except Fault UInt64 := do
  check (0 < mhz) .mlatMhz
  return timestamp / (packetMlatMhz.toUInt64 / mhz)

/-- `packet_mlat_timestamp_scale_width_out`. -/
def packetMlatTimestampScaleWidthOut (timestamp max : UInt64) : Except Fault UInt64 := do
  check (0 < max) .mlatMax
  return timestamp % max

/-- `packet_mlat_timestamp_scale_in`. -/
def packetMlatTimestampScaleIn (timestamp max : UInt64) (mhz : UInt16) (state : MlatState) :
    Except Fault (UInt64 × MlatState) := do
  let (wide, state) := packetMlatTimestampScaleWidthIn timestamp max state
  let scaled ← packetMlatTimestampScaleMhzIn wide mhz.toUInt32
  return (scaled % packetMlatMax, state)

/-- `packet_mlat_timestamp_scale_out`. -/
def packetMlatTimestampScaleOut (timestamp max : UInt64) (mhz : UInt16) : Except Fault UInt64 := do
  let scaled ← packetMlatTimestampScaleMhzOut timestamp mhz.toUInt64
  packetMlatTimestampScaleWidthOut scaled max

/-- `packet_rssi_scale_in`. -/
def packetRssiScaleIn (value max : UInt32) : Except Fault UInt32 := do
  check (0 < max) .rssiMax
  return value * (packetRssiMax / max)

/-- `packet_rssi_scale_out`. -/
def packetRssiScaleOut (value max : UInt32) : Except Fault UInt32 := do
  check (0 < max) .rssiMax
  return value / (packetRssiMax / max)

/-- The loop of `packet_validate_id` over what is left of its bound and of the string; the end of
the string is its terminator. -/
def packetValidateIdLoop : Nat → Bytes → Bool
  | 0, _ => false
  | _ + 1, [] => true
  | left + 1, c :: id => if c < 32 ∨ c > 126 then false else packetValidateIdLoop left id

/-- `packet_validate_id`; no string is the null pointer. -/
def packetValidateId : Option CString → Bool
  | Option.none => false
  | some id => packetValidateIdLoop uuidLen id.bytes

/-- `packet_sanity_check`. -/
def packetSanityCheck (packet : Packet) : Except Fault Unit := do
  check (packetValidateId (some packet.sourceId)) .packetSourceId
  check (packet.type ≠ .none) .packetType
  check (packet.mlatTimestamp ≤ packetMlatMax) .packetMlatTimestamp
  check (packet.rssi ≤ packetRssiMax) .packetRssi

/-! ## What the checks accept -/

/-- A byte that an id may hold. -/
def Printable (c : UInt8) : Prop := 32 ≤ c ∧ c ≤ 126

instance (c : UInt8) : Decidable (Printable c) := inferInstanceAs (Decidable (_ ∧ _))

theorem packetValidateIdLoop_iff {left : Nat} {id : Bytes} :
    packetValidateIdLoop left id = true ↔ id.length < left ∧ ∀ c ∈ id, Printable c := by
  induction left generalizing id with
  | zero => simp only [packetValidateIdLoop, Bool.false_eq_true, Nat.not_lt_zero, false_and]
  | succ left ih =>
      cases id with
      | nil =>
          simp only [packetValidateIdLoop, List.length_nil, Nat.zero_lt_succ, List.not_mem_nil,
            IsEmpty.forall_iff, implies_true, and_self]
      | cons c id =>
          have outside : (c < 32 ∨ c > 126) ↔ ¬ Printable c := by
            simp only [Printable, not_and_or, UInt8.not_le, gt_iff_lt]
          simp only [packetValidateIdLoop, outside, ite_not, List.length_cons,
            Nat.add_lt_add_iff_right, List.mem_cons, forall_eq_or_imp]
          split
          · rename_i printable
            simp only [ih, printable, true_and]
          · rename_i unprintable
            simp only [Bool.false_eq_true, unprintable, false_and, and_false]

/-- An id is valid when it has at most 36 bytes, all of them printable. -/
theorem packetValidateId_iff {id : CString} :
    packetValidateId (some id) = true ↔
      id.bytes.length < uuidLen ∧ ∀ c ∈ id.bytes, Printable c :=
  packetValidateIdLoop_iff

/-- A packet that `packet_sanity_check` accepts. -/
structure Packet.Sane (packet : Packet) : Prop where
  sourceId : packetValidateId (some packet.sourceId) = true
  type : packet.type ≠ .none
  mlatTimestamp : packet.mlatTimestamp ≤ packetMlatMax

theorem packetSanityCheck_eq_ok {packet : Packet} {passed : Unit} :
    packetSanityCheck packet = .ok passed ↔ packet.Sane := by
  have rssi : packet.rssi ≤ packetRssiMax :=
    UInt32.le_iff_toNat_le.mpr (Nat.le_of_lt_succ packet.rssi.toNat_lt)
  simp only [packetSanityCheck, Except.bind_eq_ok, check_eq_ok, rssi, decide_true,
    decide_eq_true_eq]
  constructor
  · rintro ⟨_, sourceId, _, type, _, mlatTimestamp, _⟩
    exact ⟨sourceId, type, mlatTimestamp⟩
  · rintro ⟨sourceId, type, mlatTimestamp⟩
    exact ⟨(), sourceId, (), type, (), mlatTimestamp, trivial⟩

/-! ## Scaling -/

theorem packetMlatTimestampScaleIn_of_pos {mhz : UInt16} (positive : mhz ≠ 0)
    (timestamp max : UInt64) (state : MlatState) :
    packetMlatTimestampScaleIn timestamp max mhz state =
      .ok ((packetMlatTimestampScaleWidthIn timestamp max state).1 *
          (packetMlatMhz / mhz.toUInt32).toUInt64 % packetMlatMax,
        (packetMlatTimestampScaleWidthIn timestamp max state).2) := by
  have wide : 0 < mhz.toUInt32 := by
    rw [UInt32.lt_iff_toNat_lt, UInt16.toNat_toUInt32]
    exact Nat.pos_of_ne_zero fun zero => positive (UInt16.toNat_inj.mp zero)
  simp only [packetMlatTimestampScaleIn, packetMlatTimestampScaleMhzIn, wide, decide_true,
    check_true, Except.ok_bind, Except.pure_eq_ok]

theorem packetMlatTimestampScaleIn_zero (timestamp max : UInt64) (state : MlatState) :
    packetMlatTimestampScaleIn timestamp max 0 state = .error .mlatMhz := rfl

/-- A timestamp that was scaled in is at most the bound of the packet's field. -/
theorem packetMlatTimestampScaleIn_le {timestamp max scaled : UInt64} {mhz : UInt16}
    {state after : MlatState}
    (done : packetMlatTimestampScaleIn timestamp max mhz state = .ok (scaled, after)) :
    scaled ≤ packetMlatMax := by
  simp only [packetMlatTimestampScaleIn, Except.bind_eq_ok, Except.pure_eq_ok, Except.ok.injEq,
    Prod.mk.injEq] at done
  obtain ⟨value, _, rfl, _⟩ := done
  rw [UInt64.le_iff_toNat_le, UInt64.toNat_mod]
  exact Nat.le_of_lt (Nat.mod_lt _ (by decide))

theorem packetRssiScaleIn_of_pos {max : UInt32} (positive : 0 < max) (value : UInt32) :
    packetRssiScaleIn value max = .ok (value * (packetRssiMax / max)) := by
  simp only [packetRssiScaleIn, positive, decide_true, check_true, Except.ok_bind,
    Except.pure_eq_ok]

end Adsbus

import Adsbus.Foundation.Except

/-! # Assertions

The program checks its own invariants with `assert`; a failed one ends the
process. Here a function that can fail one returns `Except Fault`, the fault
naming the assertion.
-/

namespace Adsbus

/-- The assertions that the modelled code can reach. -/
inductive Fault
  /-- `buf_fill`: the start of a full buffer is positive. -/
  | bufFillStart
  /-- `buf_consume`: no more than the unread bytes are consumed. -/
  | bufConsumeLength
  /-- `rand_fill`: the request fits the size `readv` can report. -/
  | randBytes
  /-- `packet_mlat_timestamp_scale_mhz_in` and `_out`: the clock rate is positive. -/
  | mlatMhz
  /-- `packet_mlat_timestamp_scale_width_out`: the counter bound is positive. -/
  | mlatMax
  /-- `packet_rssi_scale_in` and `_out`: the signal bound is positive. -/
  | rssiMax
  /-- `packet_sanity_check`: the four checks of a packet. -/
  | packetSourceId
  | packetType
  | packetMlatTimestamp
  | packetRssi
  /-- `json_parse`: the reported end of the object is positive. -/
  | jsonPosition
  /-- `json_serialize_to_buf` and `stats_serialize`: the dump fits the buffer. -/
  | jsonDump
  /-- `proto_obj_to_buf`: the buffer is empty before, and not after, packing. -/
  | protoBufLength
  /-- `proto_obj_to_buf`: the packed message fits the buffer. -/
  | protoPackedSize
  /-- No assertion: a loop of the model has used up its bound on the number of turns. -/
  | turns
  deriving DecidableEq, Repr

/-- `assert(condition)`. -/
def check (condition : Bool) (fault : Fault) : Except Fault Unit :=
  if condition then .ok () else .error fault

@[simp] theorem check_true (fault : Fault) : check true fault = .ok () := rfl

@[simp] theorem check_false (fault : Fault) : check false fault = .error fault := rfl

/-- `assert` passes exactly when its condition holds. -/
theorem check_eq_ok {condition : Bool} {fault : Fault} {passed : Unit} :
    check condition fault = .ok passed ↔ condition = true := by
  cases condition <;> simp

/-- An assertion fails only as itself. -/
theorem check_avoids {condition : Bool} {fault other : Fault} (different : fault ≠ other) :
    (check condition fault).Avoids other := by
  cases condition with
  | true => exact Except.avoids_ok () other
  | false => exact fun same => different (Except.error.inj same)

end Adsbus

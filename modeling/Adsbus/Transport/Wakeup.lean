import Mathlib.Algebra.Order.Group.Nat
import Mathlib.Data.List.Induction
import Mathlib.Data.Nat.Basic

/-! # Retry delays

A transport whose peer is unavailable waits for a random delay below a window
that doubles with every failed attempt, up to a minute. The window is computed
in 32 bits before it is clamped, so it is the intended one only while the
doubling does not shift every set bit of the product out
(`Adsbus.retryBackoff_iff`).
-/

namespace Adsbus

/-- `RETRY_MIN_MS`. -/
def retryMinMs : UInt32 := 2000

/-- `RETRY_MAX_MS`. -/
def retryMaxMs : UInt32 := 60000

/-- `max_delay` of `wakeup_get_retry_delay_ms`. The shift and the product are reduced to 32 bits,
for shift counts past the width too. -/
def wakeupMaxDelay (attempt : UInt32) : UInt32 :=
  let maxDelay := retryMinMs * UInt32.ofNat (1 <<< attempt.toNat)
  if maxDelay > retryMaxMs then retryMaxMs else maxDelay

/-- `wakeup_get_retry_delay_ms` with the jitter it draws; no result is a division by zero. -/
def wakeupGetRetryDelayMs (attempt jitter : UInt32) : Option UInt32 :=
  let maxDelay := wakeupMaxDelay attempt
  if maxDelay = 0 then none else some (jitter % maxDelay)

/-- `outgoing_retry`: the attempt counter left, and the delay. -/
def outgoingRetry (attempt jitter : UInt32) : Option (UInt32 × UInt32) :=
  (wakeupGetRetryDelayMs (attempt + 1) jitter).map fun delay => (attempt + 1, delay)

/-- `incoming_retry`: the attempt counter left, and the delay. -/
def incomingRetry (attempt jitter : UInt32) : Option (UInt32 × UInt32) :=
  (wakeupGetRetryDelayMs attempt jitter).map fun delay => (attempt + 1, delay)

/-- `file_retry`: the attempt counter left, and the delay. -/
def fileRetry (attempt jitter : UInt32) : Option (UInt32 × UInt32) :=
  (wakeupGetRetryDelayMs attempt jitter).map fun delay => (attempt + 1, delay)

/-- The transports that count their failed attempts. -/
inductive Transport
  | outgoing
  | incoming
  | file
  deriving DecidableEq, Repr

/-- A transport's retry function. -/
def Transport.retry : Transport → UInt32 → UInt32 → Option (UInt32 × UInt32)
  | .outgoing => outgoingRetry
  | .incoming => incomingRetry
  | .file => fileRetry

/-- The attempt number a transport passes on from its counter: only `outgoing_retry` increments
the counter before. -/
def Transport.attempt : Transport → UInt32 → UInt32
  | .outgoing, counter => counter + 1
  | .incoming, counter => counter
  | .file, counter => counter

/-- Consecutive failures from a counter of zero, one jitter each: the counter left. -/
def Transport.retries (transport : Transport) (jitters : List UInt32) : Option UInt32 :=
  jitters.foldlM (fun counter jitter => (transport.retry counter jitter).map Prod.fst) 0

theorem Transport.retry_eq (transport : Transport) (counter jitter : UInt32) :
    transport.retry counter jitter =
      (wakeupGetRetryDelayMs (transport.attempt counter) jitter).map fun delay =>
        (counter + 1, delay) := by
  cases transport <;> rfl

theorem wakeupMaxDelay_toNat (attempt : UInt32) :
    (wakeupMaxDelay attempt).toNat = min (2000 * 2 ^ attempt.toNat % 2 ^ 32) 60000 := by
  have product : (retryMinMs * UInt32.ofNat (1 <<< attempt.toNat)).toNat =
      2000 * 2 ^ attempt.toNat % 2 ^ 32 := by
    rw [UInt32.toNat_mul, UInt32.toNat_ofNat', Nat.one_shiftLeft]
    exact Nat.mul_mod_mod _ _ _
  have clamp : retryMaxMs.toNat = 60000 := rfl
  simp only [wakeupMaxDelay, gt_iff_lt, UInt32.lt_iff_toNat_lt]
  split <;> omega

/-- For the first attempts the 32-bit product loses nothing that the clamp would keep. -/
theorem wakeupMaxDelay_of_le {attempt : UInt32} (early : attempt ≤ 27) :
    (wakeupMaxDelay attempt).toNat = min (2000 * 2 ^ attempt.toNat) 60000 := by
  have wrapped : ∀ count < 28,
      min (2000 * 2 ^ count % 2 ^ 32) 60000 = min (2000 * 2 ^ count) 60000 := by decide
  have bound := UInt32.le_iff_toNat_le.mp early
  rw [wakeupMaxDelay_toNat]
  exact wrapped _ (Nat.lt_succ_of_le bound)

/-- From the 28th doubling on every set bit of the product is shifted out. -/
theorem wakeupMaxDelay_of_gt {attempt : UInt32} (late : ¬ attempt ≤ 27) :
    wakeupMaxDelay attempt = 0 := by
  have bound : 28 ≤ attempt.toNat := by
    have := UInt32.le_iff_toNat_le.not.mp late
    change ¬ attempt.toNat ≤ 27 at this
    omega
  have zero : 2000 * 2 ^ attempt.toNat % 2 ^ 32 = 0 := by
    have split : 2000 * 2 ^ attempt.toNat = 2 ^ 32 * (125 * 2 ^ (attempt.toNat - 28)) := by
      rw [show attempt.toNat = 28 + (attempt.toNat - 28) by omega, pow_add,
        Nat.add_sub_cancel_left]
      omega
    rw [split, Nat.mul_mod_right]
  apply UInt32.toNat_inj.mp
  rw [wakeupMaxDelay_toNat, zero]
  rfl

/-- The backoff for an attempt is well defined: the window is the clamped power of two, it is not
zero and not below the window of an earlier attempt, and every delay drawn is below it. -/
structure RetryBackoff (attempt : UInt32) : Prop where
  window : (wakeupMaxDelay attempt).toNat = min (2000 * 2 ^ attempt.toNat) 60000
  nonzero : wakeupMaxDelay attempt ≠ 0
  monotone : ∀ earlier ≤ attempt, wakeupMaxDelay earlier ≤ wakeupMaxDelay attempt
  delay : ∀ jitter, ∃ delay, wakeupGetRetryDelayMs attempt jitter = some delay ∧
    delay < wakeupMaxDelay attempt

/-- The backoff is well defined exactly up to attempt 27. -/
theorem retryBackoff_iff (attempt : UInt32) : RetryBackoff attempt ↔ attempt ≤ 27 := by
  constructor
  · intro backoff
    by_contra late
    exact backoff.nonzero (wakeupMaxDelay_of_gt late)
  · intro early
    have window := wakeupMaxDelay_of_le early
    have positive : 0 < (wakeupMaxDelay attempt).toNat := by
      have : 0 < 2 ^ attempt.toNat := Nat.two_pow_pos _
      omega
    have nonzero : wakeupMaxDelay attempt ≠ 0 := fun zero => by
      rw [zero] at positive
      exact absurd positive (by decide)
    refine ⟨window, nonzero, fun earlier before => ?_, fun jitter => ?_⟩
    · have power : 2 ^ earlier.toNat ≤ 2 ^ attempt.toNat :=
        Nat.pow_le_pow_right (by decide) (UInt32.le_iff_toNat_le.mp before)
      rw [UInt32.le_iff_toNat_le, window, wakeupMaxDelay_of_le (UInt32.le_trans before early)]
      omega
    · refine ⟨jitter % wakeupMaxDelay attempt, ?_, ?_⟩
      · simp only [wakeupGetRetryDelayMs, nonzero, ↓reduceIte]
      · rw [UInt32.lt_iff_toNat_lt, UInt32.toNat_mod]
        exact Nat.mod_lt _ positive

/-- A retry within the bound is scheduled and counted. -/
theorem Transport.retry_of_le (transport : Transport) {counter : UInt32}
    (early : transport.attempt counter ≤ 27) (jitter : UInt32) :
    (transport.retry counter jitter).map Prod.fst = some (counter + 1) := by
  obtain ⟨delay, drawn, _⟩ := ((retryBackoff_iff _).mpr early).delay jitter
  rw [transport.retry_eq, drawn]
  rfl

/-- **Backoff over runs of failures.** Whatever number of failures a transport has counted, its
next retry has a well-defined backoff exactly when the attempt number it passes on is at most
27; and as long as these numbers are, every failure of a run is counted and retried. -/
theorem Transport.retryBackoff_run (transport : Transport) :
    (∀ counter, RetryBackoff (transport.attempt counter) ↔ transport.attempt counter ≤ 27) ∧
    ∀ jitters : List UInt32,
      (∀ failures < jitters.length, transport.attempt (UInt32.ofNat failures) ≤ 27) →
        transport.retries jitters = some (UInt32.ofNat jitters.length) := by
  refine ⟨fun counter => retryBackoff_iff _, fun jitters => ?_⟩
  induction jitters using List.reverseRecOn with
  | nil => exact fun _ => rfl
  | append_singleton jitters jitter ih =>
      intro early
      rw [List.length_append, List.length_singleton] at early ⊢
      have counted := ih fun failures before => early failures (Nat.lt_succ_of_lt before)
      rw [retries] at counted ⊢
      rw [List.foldlM_append, counted, Option.bind_eq_bind, Option.bind_some, List.foldlM_cons,
        transport.retry_of_le (early _ (Nat.lt_succ_self _)), UInt32.ofNat_add]
      rfl

/-- Twenty-seven failed connection attempts in a row leave the attempt counter at 27, and on the
next one `outgoing_retry` divides by zero, whatever the jitter. -/
theorem outgoingRetry_divides_by_zero :
    Transport.outgoing.retries (List.replicate 27 0) = some 27 ∧
      ∀ jitter, outgoingRetry 27 jitter = none ∧ wakeupGetRetryDelayMs 28 jitter = none := by
  have zero : wakeupMaxDelay 28 = 0 := by decide
  refine ⟨by decide, fun jitter => ⟨?_, ?_⟩⟩
  · change (wakeupGetRetryDelayMs 28 jitter).map _ = none
    simp only [wakeupGetRetryDelayMs, zero, ↓reduceIte, Option.map_none]
  · simp only [wakeupGetRetryDelayMs, zero, ↓reduceIte]

end Adsbus

import Adsbus.Transport.Continuations

/-! # Retries that fire

A transport that waits to be tried again has handed itself to a timer. The delay is drawn
from a window that starts at zero, and a timer that is set to zero is not armed: then
nothing will call the transport any more.
-/

namespace Adsbus.EventLoop

/-- `struct timespec`. -/
structure Timespec where
  tvSec : UInt64
  tvNsec : UInt64
  deriving DecidableEq, Repr

/-- `it_value` in `wakeup_add`. -/
def wakeupItValue (delayMs : UInt32) : Timespec where
  tvSec := delayMs.toUInt64 / 1000
  tvNsec := delayMs.toUInt64 % 1000 * 1000000

/-- `timerfd_settime` arms the timer, unless both fields are zero. -/
def Timespec.armed (value : Timespec) : Bool := value.tvSec ≠ 0 ∨ value.tvNsec ≠ 0

/-- The random number is no multiple of the window, that of the first attempts or the longest. -/
def Spreads (attempt jitter : UInt32) : Prop := ¬ min (2000 * 2 ^ attempt.toNat) 60000 ∣ jitter.toNat

/-- Every transport that waits to be tried again has one wakeup, which is registered and armed and
calls it. -/
def Loop.RetriesFire (loop : Loop) : Prop :=
  ∀ address object, loop.objects.get address = some object → object.waiting = true →
    loop.wakeupsFor address = 1 ∧ ∃ wakeup fd delayMs,
      loop.objects.get wakeup = some (.wakeup fd address delayMs) ∧
        loop.poll.fds.get fd = some ⟨true, some (.peer wakeup, .input)⟩ ∧
          (wakeupItValue delayMs).armed = true

variable {loop : Loop} {state : LoopState} {trace : List (LoopState × LoopAct)}

/-- Seconds and nanoseconds lose nothing of the delay. -/
theorem wakeupItValue_armed (delayMs : UInt32) :
    (wakeupItValue delayMs).armed = true ↔ delayMs ≠ 0 := by
  have bound := delayMs.toNat_lt
  have seconds : (wakeupItValue delayMs).tvSec.toNat = delayMs.toNat / 1000 := by
    rw [wakeupItValue, UInt64.toNat_div, UInt32.toNat_toUInt64]
    rfl
  have nanoseconds : (wakeupItValue delayMs).tvNsec.toNat = delayMs.toNat % 1000 * 1000000 := by
    rw [wakeupItValue, UInt64.toNat_mul, UInt64.toNat_mod, UInt32.toNat_toUInt64]
    change delayMs.toNat % 1000 * 1000000 % 2 ^ 64 = _
    omega
  rw [Timespec.armed, decide_eq_true_iff, ne_eq, ne_eq, ne_eq, ← UInt64.toNat_inj,
    ← UInt64.toNat_inj, ← UInt32.toNat_inj, seconds, nanoseconds]
  simp only [UInt64.toNat_zero, UInt32.toNat_zero]
  omega

/-- A delay that is drawn is zero exactly when the random number is a multiple of the window. -/
theorem retryDelay_ne_zero {attempt jitter delayMs : UInt32}
    (delay : wakeupGetRetryDelayMs attempt jitter = some delayMs) :
    delayMs ≠ 0 ↔ Spreads attempt jitter := by
  simp only [wakeupGetRetryDelayMs] at delay
  split at delay
  · cases delay
  · next nonzero =>
      cases delay
      have early : attempt ≤ 27 := by
        by_contra late
        exact nonzero (wakeupMaxDelay_of_gt late)
      rw [Spreads, ← wakeupMaxDelay_of_le early, Nat.dvd_iff_mod_eq_zero, ← UInt32.toNat_mod, ne_eq,
        ← UInt32.toNat_inj, UInt32.toNat_zero]

theorem Inv.retriesFire (inv : Inv False 0 loop)
    (spreads : ∀ attempt jitter, .draw attempt jitter ∈ loop.history → Spreads attempt jitter) :
    loop.RetriesFire := by
  intro address object reads waits
  have wakeups := inv.wakeupsFor_eq address
  rw [reads, Option.elim_some, waits, Bool.toNat_true] at wakeups
  obtain ⟨wakeup, caller, reads', calls⟩ :=
    Table.exists_of_count_pos (show 0 < loop.wakeupsFor address by omega)
  refine ⟨wakeups, wakeup, ?_⟩
  cases caller with
  | wakeup fd innerPeer delayMs =>
      cases of_decide_eq_true calls
      obtain ⟨attempt, jitter, drawn, delay⟩ := inv.formed reads'
      have nonzero := (retryDelay_ne_zero delay).mpr (spreads attempt jitter drawn)
      exact ⟨fd, delayMs, reads', inv.awaited reads', (wakeupItValue_armed delayMs).mpr nonzero⟩
  | _ => cases of_decide_eq_true calls

/-- **A scheduled retry fires when its delay does not come out as zero.** The timer that is set for
an attempt is armed exactly when the random number drawn for it is no multiple of the window. In a
run in which this was so for every number drawn, each transport that waits has an armed timer which
calls it. -/
theorem retries_fire {trace : List (LoopState × LoopAct)} {state : LoopState}
    (run : LoopRun trace state) (inside : state.phase ≠ .left) :
    (∀ attempt jitter delayMs, wakeupGetRetryDelayMs attempt jitter = some delayMs →
      ((wakeupItValue delayMs).armed = true ↔ Spreads attempt jitter)) ∧
    ((∀ attempt jitter, .draw attempt jitter ∈ state.loop.history → Spreads attempt jitter) →
      state.loop.RetriesFire) := by
  refine ⟨fun attempt jitter delayMs delay => ?_, (inv_of_run run inside).retriesFire⟩
  rw [wakeupItValue_armed, retryDelay_ne_zero delay]

instance (attempt jitter : UInt32) : Decidable (Spreads attempt jitter) :=
  inferInstanceAs (Decidable (¬ _))

/-- A file that cannot be opened is tried again. -/
theorem retries_fire_file : ∃ trace state, LoopRun trace state ∧
    (∃ object, state.loop.objects.get 1 = some object ∧ object.waiting = true) ∧
      state.loop.RetriesFire := by
  have follows : (follow [] loopStart [.add (.file 0 .receive) .refused]).isSome = true := by decide
  obtain ⟨⟨trace, state⟩, followed⟩ := Option.isSome_iff_exists.mp follows
  have reached : ∀ result, follow [] loopStart [.add (.file 0 .receive) .refused] = some result →
      result.2.phase = .options ∧ result.2.loop.history = [.draw 0 1] ∧
        (result.2.loop.objects.get 1).any Object.waiting = true := by decide
  obtain ⟨options, history, waits⟩ := reached _ followed
  have run := run_of_follow .start followed
  refine ⟨trace, state, run, (Option.any_eq_true _ _).mp waits,
    (retries_fire run (options ▸ nofun)).2 fun attempt jitter drawn => ?_⟩
  rw [history] at drawn
  cases List.mem_singleton.mp drawn
  decide

/-- The object is no wakeup whose timer is armed. -/
def Object.unarmed : Object → Bool
  | .wakeup _ _ delayMs => !(wakeupItValue delayMs).armed
  | _ => true

/-- A file that cannot be opened, and a random number that is zero. -/
def zeroJitter : List LoopAct := [.add (.file 0 .receive) { Answers.refused with jitter := 0 }]

/-- The timer of a first attempt is not armed when the random number is zero, and the file waits for
it. -/
theorem retry_unarmed :
    (¬ ∀ attempt jitter delayMs, wakeupGetRetryDelayMs attempt jitter = some delayMs →
      (wakeupItValue delayMs).armed = true) ∧
    ¬ ∀ trace state, LoopRun trace state → state.phase ≠ .left → state.loop.RetriesFire := by
  constructor
  · intro armed
    exact absurd (armed 0 0 0 rfl) (by decide)
  · intro fires
    have follows : (follow [] loopStart zeroJitter).isSome = true := by decide
    obtain ⟨⟨trace, state⟩, followed⟩ := Option.isSome_iff_exists.mp follows
    have reached : ∀ result, follow [] loopStart zeroJitter = some result →
        result.2.phase = .options ∧ (result.2.loop.objects.get 1).any Object.waiting = true ∧
          result.2.loop.objects.bound = 3 ∧ ∀ address < 3, ∀ object,
            result.2.loop.objects.get address = some object → object.unarmed = true := by decide
    obtain ⟨options, waits, bound, zero⟩ := reached _ followed
    obtain ⟨file, reads, waits⟩ := (Option.any_eq_true _ _).mp waits
    obtain ⟨_, wakeup, fd, delayMs, reads', _, armed⟩ :=
      fires trace state (run_of_follow .start followed) (options ▸ nofun) 1 file reads waits
    have unarmed := zero wakeup (bound ▸ Table.lt_bound reads') _ reads'
    simp only [Object.unarmed, armed, Bool.not_true, Bool.false_eq_true] at unarmed

end Adsbus.EventLoop

import Adsbus.Formats.Clocked

/-! # Timestamps over a link

What a receiver decodes from frames that carry a counter. A sender of this
program wraps its counter as the receiver unwraps it (`Adsbus.Clocked.link_exact`).
A hardware counter has one value more in its range than the receiver takes it to
have, so that it is decoded exactly until it wraps (`Adsbus.Clocked.counter_iff`).
A frame without a counter has a zero in the field; behind a frame with a counter
the receiver takes the zero for a wrap (`Adsbus.Clocked.zeros_undisturbed`).
-/

namespace Adsbus

namespace Clocked

variable {clocked : Clocked}

/-! ## Senders -/

/-- The time of a packet in ticks of the link's clock. -/
def linkTicks (clocked : Clocked) (packet : Packet) : Nat :=
  packet.mlatTimestamp.toNat / clocked.ticks

/-- A whole number of ticks is at most the time, and less than the bound of all times. -/
theorem linkTicks_lt (clocked : Clocked) {packet : Packet}
    (bounded : packet.mlatTimestamp ≤ packetMlatMax) :
    clocked.linkTicks packet * clocked.ticks < packetMlatMax.toNat := by
  rw [UInt64.le_iff_toNat_le] at bounded
  have max : packetMlatMax.toNat = 9223372036854775807 := rfl
  rw [max] at bounded ⊢
  -- the bound is no multiple of the ticks
  cases clocked with
  | airspyAdsb =>
      change packet.mlatTimestamp.toNat / 6 * 6 < _
      omega
  | beast =>
      change packet.mlatTimestamp.toNat / 10 * 10 < _
      omega

/-- **Links are exact.** The receiver decodes the sender's times in whole ticks, from the wrap
before the first of them on. -/
theorem link_exact (clocked : Clocked) (memory : Cells UInt8 bufLenMax) (base : Packet)
    {first : Packet} {packets : List Packet}
    (framed : ∀ packet ∈ first :: packets, packet.type ∈ PacketType.frames)
    (bounded : ∀ packet ∈ first :: packets, packet.mlatTimestamp ≤ packetMlatMax)
    (steady : (first :: packets).IsChain fun packet next =>
      packet.mlatTimestamp ≤ next.mlatTimestamp ∧
        clocked.linkTicks next - clocked.linkTicks packet < clocked.max.toNat) :
    let max := clocked.max.toNat
    let ticks := clocked.linkTicks
    ((first :: packets).mapM clocked.serialize >>= clocked.decode memory base) =
        .ok ((first :: packets).map fun packet =>
          (ticks packet - max * (ticks first / max)) * clocked.ticks) ∧
      ∀ packet ∈ first :: packets,
        (ticks packet - max * (ticks first / max)) * clocked.ticks < packetMlatMax.toNat := by
  intro max ticks
  have small : ∀ packet ∈ first :: packets,
      (ticks packet - max * (ticks first / max)) * clocked.ticks < packetMlatMax.toNat :=
    fun packet member =>
      Nat.lt_of_le_of_lt (Nat.mul_le_mul_right _ (Nat.sub_le _ _))
        (clocked.linkTicks_lt (bounded packet member))
  refine ⟨?_, small⟩
  obtain ⟨fields, sent⟩ : ∃ fields : Packet → clocked.Fields, ∀ packet ∈ first :: packets,
      clocked.serialize packet = .ok (text (fields packet)) ∧
        timestamp (fields packet) = ticks packet % max ∧
        mlatTicks (mhz (fields packet)) = clocked.ticks := by
    refine ⟨fun packet => if here : packet.type ∈ PacketType.frames then clocked.sent packet here
      else clocked.sent first (framed first List.mem_cons_self), fun packet member => ?_⟩
    have here := framed packet member
    simp only [here, ↓reduceDIte]
    exact ⟨clocked.serialize_eq here, clocked.timestamp_sent here, clocked.mlatTicks_sent here⟩
  have serialized := Except.mapM_eq_ok fun packet member => (sent packet member).1
  have moves : (first :: packets).IsChain fun packet next =>
      Unwrap.Moves max (ticks packet) (ticks next) :=
    steady.imp fun packet next step =>
      ⟨Nat.div_le_div_right (UInt64.le_iff_toNat_le.mp step.1), step.2⟩
  rw [serialized, Except.ok_bind, decode_eq,
    Unwrap.count_congr fun packet member => (sent packet member).2.1,
    Unwrap.count_mod_fresh moves, List.map_map]
  refine congrArg Except.ok (List.map_congr_left fun packet member => ?_)
  obtain ⟨_, read, rate⟩ := sent packet member
  have exact := @Unwrap.wraps_add_reading max _ _ (Unwrap.le_of_moves moves packet member)
  have below := small packet member
  rw [← exact, ← rate] at below ⊢
  simp only [Function.comp_apply, read]
  exact mlatScaled_of_lt below

/-- Two packets on both sides of a wrap. -/
theorem link_exact_wrap :
    ([packetAt 25769803764, packetAt 25769803790].mapM airspyAdsb.serialize >>=
      airspyAdsb.decode (Cells.fill bufLenMax 0) (packetAt 0)) =
        .ok [25769803764, 25769803788] :=
  (@link_exact airspyAdsb (Cells.fill bufLenMax 0) (packetAt 0) (packetAt 25769803764)
    [packetAt 25769803790] (by decide) (by decide) (by decide)).1

/-! ## Hardware counters -/

/-- What two readings of a counter are decoded to, and what they should be. -/
theorem scaled_eq_iff {period ticks wraps reading start : Nat} (positive : 0 < period)
    (ticking : 0 < ticks) (reached : start ≤ wraps * period + reading) :
    (wraps * (period - 1) + reading) * ticks =
      start * ticks + (wraps * period + reading - start) * ticks ↔ wraps = 0 := by
  rw [← Nat.add_mul, Nat.add_sub_cancel' reached, Nat.mul_left_inj (Nat.ne_of_gt ticking)]
  obtain ⟨max, rfl⟩ := Nat.exists_eq_succ_of_ne_zero (Nat.ne_of_gt positive)
  rw [Nat.succ_sub_one, Nat.mul_succ]
  omega

/-- **Hardware counters.** A free-running counter is decoded exactly for as long as it does not
wrap. -/
theorem counter_iff (clocked : Clocked) (memory : Cells UInt8 bufLenMax) (base : Packet)
    {rate : UInt16} (divides : rate.toNat ∣ packetMlatMhz.toNat)
    {first : Nat × clocked.Fields} {frames : List (Nat × clocked.Fields)}
    (carried : ∀ frame ∈ first :: frames, timestamp frame.2 = frame.1 % 2 ^ clocked.width)
    (constant : ∀ frame ∈ first :: frames, mhz frame.2 = rate)
    (runs : (first :: frames).IsChain fun frame next =>
      frame.1 ≤ next.1 ∧ next.1 - frame.1 < 2 ^ clocked.width) :
    let ticks := packetMlatMhz.toNat / rate.toNat
    let start := first.1 % 2 ^ clocked.width * ticks
    ∃ times, clocked.decode memory base ((first :: frames).map fun frame => text frame.2) =
        .ok (start :: times) ∧
      ((∀ pair ∈ frames.zip times,
          start + (pair.1.1 - first.1) * ticks < packetMlatMax.toNat →
            pair.2 = start + (pair.1.1 - first.1) * ticks) ↔
        ∀ frame ∈ frames, start + (frame.1 - first.1) * ticks < packetMlatMax.toNat →
          frame.1 / 2 ^ clocked.width = first.1 / 2 ^ clocked.width) := by
  intro ticks start
  have positive : 0 < 2 ^ clocked.width := Nat.two_pow_pos _
  have ticking : 0 < ticks :=
    Nat.div_pos (Nat.le_of_dvd (by decide) divides) (Nat.pos_of_dvd_of_pos divides (by decide))
  have moves : (first :: frames).IsChain fun frame next =>
      Unwrap.Moves (2 ^ clocked.width) frame.1 next.1 := runs
  let value (frame : Nat × clocked.Fields) : Nat :=
    mlatScaled clocked.max rate
      (frame.1 / 2 ^ clocked.width - first.1 / 2 ^ clocked.width) (frame.1 % 2 ^ clocked.width)
  have decoded : clocked.decode memory base ((first :: frames).map fun frame => text frame.2) =
      .ok ((first :: frames).map value) := by
    rw [decode_eq, Unwrap.count_congr carried, Unwrap.count_mod_fresh moves, List.map_map]
    refine congrArg Except.ok (List.map_congr_left fun frame member => ?_)
    simp only [Function.comp_apply, carried frame member, constant frame member, value]
  have fresh : value first = start := by
    have small : first.1 % 2 ^ clocked.width * ticks < packetMlatMax.toNat := by
      have reading : first.1 % 2 ^ clocked.width ≤ 2 ^ 48 :=
        Nat.le_of_lt (Nat.lt_of_lt_of_le (Nat.mod_lt _ positive)
          (Nat.pow_le_pow_right (by decide) (by cases clocked <;> decide)))
      have rate' : ticks ≤ 120 := Nat.div_le_self _ _
      exact Nat.lt_of_le_of_lt (Nat.mul_le_mul reading rate') (by decide)
    have scaled := @mlatScaled_of_lt clocked.max rate 0 (first.1 % 2 ^ clocked.width)
      (by rwa [Nat.zero_mul, Nat.zero_add])
    rw [Nat.zero_mul, Nat.zero_add] at scaled
    simp only [value, Nat.sub_self, scaled]
    rfl
  have zipped := @List.zip_map' _ _ _ id value frames
  rw [List.map_id] at zipped
  refine ⟨frames.map value, by rw [decoded, List.map_cons, fresh], ?_⟩
  simp only [zipped, List.forall_mem_map]
  refine forall₂_congr fun frame member => imp_congr_right fun small => ?_
  have forward := Unwrap.le_of_moves moves frame (List.mem_cons_of_mem _ member)
  have exact := @Unwrap.wraps_add_reading (2 ^ clocked.width) _ _ forward
  have whole := Nat.div_add_mod first.1 (2 ^ clocked.width)
  have reached : first.1 % 2 ^ clocked.width ≤
      (frame.1 / 2 ^ clocked.width - first.1 / 2 ^ clocked.width) * 2 ^ clocked.width +
        frame.1 % 2 ^ clocked.width := by omega
  have progress : frame.1 - first.1 =
      (frame.1 / 2 ^ clocked.width - first.1 / 2 ^ clocked.width) * 2 ^ clocked.width +
        frame.1 % 2 ^ clocked.width - first.1 % 2 ^ clocked.width := by omega
  have below : (frame.1 / 2 ^ clocked.width - first.1 / 2 ^ clocked.width) * clocked.max.toNat +
      frame.1 % 2 ^ clocked.width ≤ first.1 % 2 ^ clocked.width + (frame.1 - first.1) := by
    rw [progress, Nat.add_sub_cancel' reached, max_toNat]
    exact Nat.add_le_add_right (Nat.mul_le_mul_left _ (Nat.sub_le _ _)) _
  have scaled : value frame =
      ((frame.1 / 2 ^ clocked.width - first.1 / 2 ^ clocked.width) * clocked.max.toNat +
        frame.1 % 2 ^ clocked.width) * ticks :=
    mlatScaled_of_lt (Nat.lt_of_le_of_lt (Nat.mul_le_mul_right _ below) (by
      rwa [Nat.add_mul]))
  rw [id, scaled, progress, max_toNat, scaled_eq_iff positive ticking reached,
    Nat.sub_eq_zero_iff_le]
  exact ⟨fun back => Nat.le_antisymm back (Nat.div_le_div_right forward), Nat.le_of_eq⟩

/-- A counter that does not wrap. -/
theorem counter_iff_unwrapped :
    ∃ times, beast.decode (Cells.fill bufLenMax 0) (packetAt 0)
        ([beastAt 5, beastAt 8].map BeastFields.text) = .ok (50 :: times) ∧
      ((∀ pair ∈ [(8, beastAt 8)].zip times,
          50 + (pair.1.1 - 5) * 10 < packetMlatMax.toNat → pair.2 = 50 + (pair.1.1 - 5) * 10) ↔
        ∀ frame ∈ [(8, beastAt 8)], 50 + (frame.1 - 5) * 10 < packetMlatMax.toNat →
          frame.1 / 2 ^ 48 = 5 / 2 ^ 48) :=
  @counter_iff beast (Cells.fill bufLenMax 0) (packetAt 0) 12 (by decide) (5, beastAt 5)
    [(8, beastAt 8)] (by decide) (by decide) (by decide)

theorem decode_beastAt (memory : Cells UInt8 bufLenMax) (base : Packet) (counters : List Nat) :
    beast.decode memory base (counters.map fun counter => (beastAt counter).text) =
      .ok ((Unwrap.count (fun counter => bigEndian (beastAt counter).mlat) 0 0 counters).map
        fun counted => mlatScaled beastMlatMax beastMlatMhz counted.2
          (bigEndian (beastAt counted.1).mlat)) :=
  @decode_eq beast _ beastAt memory base counters

/-- At a wrap, a tick is lost. -/
theorem counter_wrapped :
    ¬ ∃ start time, beast.decode (Cells.fill bufLenMax 0) (packetAt 0)
        ([281474976710655, 281474976710656].map fun counter => (beastAt counter).text) =
          .ok [start, time] ∧
      time = start + (281474976710656 - 281474976710655) * 10 := by
  rintro ⟨start, time, decoded, same⟩
  have times : [start, time] = [2814749767106550, 2814749767106550] := by
    rw [decode_beastAt, Except.ok.injEq] at decoded
    rw [← decoded]
    decide
  cases times
  exact absurd same (by decide)

/-! ## Frames without a counter -/

/-- Frames without a counter are decoded to no time, and change nothing for the others. -/
def Undisturbed (clocked : Clocked) (memory : Cells UInt8 bufLenMax) (base : Packet)
    (frames : List clocked.Fields) : Prop :=
  ∃ times others, clocked.decode memory base (frames.map text) = .ok times ∧
    clocked.decode memory base ((frames.filter fun frame => timestamp frame ≠ 0).map text) =
      .ok others ∧
    (∀ pair ∈ frames.zip times, timestamp pair.1 = 0 → pair.2 = 0) ∧
    ((frames.zip times).filter fun pair => timestamp pair.1 ≠ 0).map Prod.snd = others

/-- **Frames without a counter.** They disturb nothing when they come before the frames with one;
and only then, for as long as the decreases before a frame take no number to the bound of all
times. -/
theorem zeros_undisturbed (clocked : Clocked) (memory : Cells UInt8 bufLenMax) (base : Packet)
    (frames : List clocked.Fields) :
    ((frames.Pairwise fun frame later => timestamp later = 0 → timestamp frame = 0) →
        clocked.Undisturbed memory base frames) ∧
      ((∀ counted ∈ Unwrap.count timestamp 0 0 frames, 0 < mlatTicks (mhz counted.1) ∧
          counted.2 * clocked.max.toNat * mlatTicks (mhz counted.1) < packetMlatMax.toNat) →
        clocked.Undisturbed memory base frames →
          frames.Pairwise fun frame later => timestamp later = 0 → timestamp frame = 0) := by
  let value (counted : clocked.Fields × Nat) : Nat :=
    mlatScaled clocked.max (mhz counted.1) counted.2 (timestamp counted.1)
  have decoded : ∀ frames : List clocked.Fields, clocked.decode memory base (frames.map text) =
      .ok ((Unwrap.count timestamp 0 0 frames).map value) := decode_eq (fun frame => frame) memory base
  have zipped : frames.zip ((Unwrap.count timestamp 0 0 frames).map value) =
      (Unwrap.count timestamp 0 0 frames).map fun counted => (counted.1, value counted) := by
    rw [← List.zip_map', Unwrap.count_fst]
  constructor
  · intro first
    obtain ⟨none, kept⟩ := Unwrap.count_zeros_first timestamp first
    refine ⟨_, _, decoded frames, decoded _, ?_, ?_⟩
    · rw [zipped]
      simp only [List.forall_mem_map]
      intro counted member zero
      simp only [value, none counted member zero, zero, mlatScaled, Nat.zero_mul, Nat.zero_add,
        Nat.zero_mod]
    · rw [zipped, ← kept, List.filter_map, List.map_map]
      rfl
  · rintro small ⟨times, others, read, _, zeros, _⟩
    rw [decoded, Except.ok.injEq] at read
    rw [← read, zipped] at zeros
    simp only [List.forall_mem_map] at zeros
    refine @Unwrap.zeros_first_of_count _ timestamp 0 0 frames fun counted member zero => ?_
    obtain ⟨ticking, short⟩ := small counted member
    have scaled := @mlatScaled_of_lt clocked.max (mhz counted.1) counted.2 (timestamp counted.1) (by
      rwa [zero, Nat.add_zero])
    have none : mlatScaled clocked.max (mhz counted.1) counted.2 (timestamp counted.1) = 0 :=
      zeros counted member zero
    rw [scaled, zero, Nat.add_zero, Nat.mul_eq_zero, Nat.mul_eq_zero] at none
    have max : clocked.max.toNat ≠ 0 := by cases clocked <;> decide
    omega

/-- Frames without a counter in front of one with a counter. -/
theorem zeros_undisturbed_first :
    beast.Undisturbed (Cells.fill bufLenMax 0) (packetAt 0) [beastAt 0, beastAt 0, beastAt 5] :=
  (zeros_undisturbed beast (Cells.fill bufLenMax 0) (packetAt 0)
    [beastAt 0, beastAt 0, beastAt 5]).1 (by decide)

/-- A frame without a counter behind one with a counter is decoded to a time. -/
theorem zeros_disturbed :
    ¬ beast.Undisturbed (Cells.fill bufLenMax 0) (packetAt 0) [beastAt 5, beastAt 0] := by
  rintro ⟨times, others, decoded, _, zeros, _⟩
  have read := decode_beastAt (Cells.fill bufLenMax 0) (packetAt 0) [5, 0]
  have late : (beastAt 0, 2814749767106550) ∈ [beastAt 5, beastAt 0].zip times := by
    have same := decoded.symm.trans read
    rw [Except.ok.injEq] at same
    rw [same]
    exact List.mem_of_getElem? (i := 1) rfl
  exact absurd (zeros _ late (by decide)) (by decide)

end Clocked

end Adsbus

import Adsbus.Formats.RecordRun

/-! # Timestamps over json and proto links

A connection counts the decreases of all timestamps that it reads. The packets of
one source are decoded as if they came alone when the timestamps of all sources
together decrease as often as their own (`Adsbus.SentHeader.sources_apart`).

Between two instances of this program the range of a timestamp is the bound of
the packet's field, by which the receiver also reduces it: a first wrap is lost in
this, a second is not (`Adsbus.federation_iff`).
-/

namespace Adsbus

/-! ## Sources -/

/-- The decreases of the timestamps up to that of a packet. -/
def decreases (before : List SentPacket) (sent : SentPacket) : Nat :=
  (Unwrap.advance (Unwrap.behind SentPacket.timestamp (0, 0) before) sent.timestamp).2

theorem decreases_le (before : List SentPacket) (sent : SentPacket) :
    decreases before sent ≤ before.length + 1 := by
  have step :=
    Unwrap.advance_le (Unwrap.behind SentPacket.timestamp (0, 0) before) sent.timestamp
  have behind := Unwrap.behind_le SentPacket.timestamp (0, 0) before
  rw [decreases]
  omega

/-- The packets of a source. -/
def ofSource (id : CString) (packets : List SentPacket) : List SentPacket :=
  packets.filter fun sent => sent.packet.sourceId = id

theorem ofSource_subset (id : CString) (packets : List SentPacket) :
    ofSource id packets ⊆ packets := List.filter_subset_self packets

theorem ofSource_split (before : List SentPacket) (sent : SentPacket) (after : List SentPacket) :
    ofSource sent.packet.sourceId (before ++ sent :: after) =
      ofSource sent.packet.sourceId before ++ sent :: ofSource sent.packet.sourceId after := by
  rw [ofSource, List.filter_append, List.filter_cons, if_pos (decide_eq_true rfl)]
  rfl

/-- Up to each timestamp, the timestamps of all sources have decreased as often as those of its
own source. -/
def Aligned (packets : List SentPacket) : Prop :=
  ∀ before sent after, packets = before ++ sent :: after → sent.timestamp.isSome = true →
    decreases before sent = decreases (ofSource sent.packet.sourceId before) sent

namespace SentHeader

/-- The timestamps of each source are decoded as if the packets of the others were not there. -/
def Undisturbed (greeting : SentHeader) (serverId : CString) (base : Packet)
    (packets : List SentPacket) : Prop :=
  ∃ times, greeting.decode serverId base packets = .ok times ∧
    ∀ id, ∃ own, greeting.decode serverId base (ofSource id packets) = .ok own ∧
      ∀ before sent after, packets = before ++ sent :: after → sent.packet.sourceId = id →
        times[before.length]? = own[(ofSource id before).length]?

variable {greeting : SentHeader} {serverId : CString} {packets : List SentPacket}

/-- What a packet is decoded to, in a run and in that of its source. -/
theorem undisturbed_iff (accepted : greeting.header.Accepted serverId) (base : Packet)
    (within : ∀ sent ∈ packets, sent.Within greeting.header.rssiMax) :
    greeting.Undisturbed serverId base packets ↔
      ∀ before sent after, packets = before ++ sent :: after →
        sent.time greeting.header base (decreases before sent) =
          sent.time greeting.header base
            (decreases (ofSource sent.packet.sourceId before) sent) := by
  have decoded : ∀ sublist, sublist ⊆ packets → greeting.decode serverId base sublist =
      .ok ((Unwrap.countSome SentPacket.timestamp (0, 0) sublist).map fun counted =>
        counted.1.time greeting.header base counted.2) := fun sublist subset =>
    greeting.decode_eq accepted base fun sent member => within sent (subset member)
  have at_ : ∀ before sent after,
      ((Unwrap.countSome SentPacket.timestamp (0, 0) (before ++ sent :: after)).map fun counted =>
        counted.1.time greeting.header base counted.2)[before.length]? =
      some (sent.time greeting.header base (decreases before sent)) := by
    intro before sent after
    rw [List.getElem?_map, Unwrap.getElem?_countSome, Option.map_some, decreases]
  have own := fun id => decoded (ofSource id packets) (ofSource_subset id packets)
  rw [Undisturbed, decoded packets (List.Subset.refl _)]
  simp only [Except.ok.injEq, exists_eq_left', own]
  constructor
  · intro same before sent after split
    have here := same _ before sent after split rfl
    rwa [split, ofSource_split, at_, at_, Option.some.injEq] at here
  · rintro same _ before sent after split rfl
    have here := same before sent after split
    rw [split, ofSource_split, at_, at_, here]

/-- **Sources on one connection.** They do not disturb each other when their timestamps are
aligned; and only then, for as long as the numbers are small. -/
theorem sources_apart (greeting : SentHeader) {serverId : CString}
    (accepted : greeting.header.Accepted serverId) (base : Packet) {packets : List SentPacket}
    (within : ∀ sent ∈ packets, sent.Within greeting.header.rssiMax) :
    (Aligned packets → greeting.Undisturbed serverId base packets) ∧
      (0 < mlatTicks greeting.header.mlatTimestampMhz.toUInt16 →
        (∀ sent ∈ packets, ∀ timestamp ∈ sent.timestamp,
          (packets.length * greeting.header.mlatTimestampMax.toNat + timestamp) *
            mlatTicks greeting.header.mlatTimestampMhz.toUInt16 < packetMlatMax.toNat) →
        greeting.Undisturbed serverId base packets → Aligned packets) := by
  rw [undisturbed_iff accepted base within]
  constructor
  · intro aligned before sent after split
    cases timed : sent.timestamp with
    | none => simp only [SentPacket.time, timed]
    | some timestamp =>
        rw [aligned before sent after split (by rw [timed, Option.isSome_some])]
  · intro ticking small same before sent after split timed
    obtain ⟨timestamp, here⟩ := Option.isSome_iff_exists.mp timed
    have equal := same before sent after split
    have bound := small sent (by
      rw [split]
      exact List.mem_append_right _ List.mem_cons_self) timestamp here
    have length : before.length + 1 ≤ packets.length := by
      rw [split, List.length_append, List.length_cons]
      omega
    have scaled : ∀ wraps, wraps ≤ packets.length →
        sent.time greeting.header base wraps =
          (wraps * greeting.header.mlatTimestampMax.toNat + timestamp) *
            mlatTicks greeting.header.mlatTimestampMhz.toUInt16 := by
      intro wraps few
      simp only [SentPacket.time, here]
      exact mlatScaled_of_lt (Nat.lt_of_le_of_lt (Nat.mul_le_mul_right _
        (Nat.add_le_add_right (Nat.mul_le_mul_right _ few) _)) bound)
    have positive : 0 < greeting.header.mlatTimestampMax.toNat :=
      Nat.pos_of_ne_zero fun zero => accepted.max (UInt64.toNat_inj.mp zero)
    have shorter : (ofSource sent.packet.sourceId before).length ≤ before.length :=
      List.length_filter_le _ _
    rw [scaled _ ((decreases_le before sent).trans length),
      scaled _ ((decreases_le _ sent).trans (by omega))] at equal
    exact Nat.eq_of_mul_eq_mul_right positive
      (Nat.add_right_cancel (Nat.eq_of_mul_eq_mul_right ticking equal))

end SentHeader

/-- A proto header. -/
def slowHeader : SentHeader where
  header :=
    { magic := protoMagic, serverVersion := .ofAscii "", serverId := .ofAscii "peer"
      mlatTimestampMhz := 120, mlatTimestampMax := 1000, rssiMax := 1 }
  record := .proto (Content.header _).message
  encoded := .proto
  natural := nofun

theorem slowHeader_accepted : slowHeader.header.Accepted (.ofAscii "me") where
  magic := rfl
  mhzPositive := by decide
  mhzSmall := by decide
  max := by decide
  rssiMax := by decide
  other := by decide

/-- A proto packet of a source. -/
def sourcePacket (id : CString) (valid : packetValidateId (some id) = true) (timestamp : UInt64) :
    SentPacket where
  type := .modeAc
  packet :=
    { sourceId := id, hops := 0, mlatTimestamp := some timestamp, rssi := none, payload := [0, 0] }
  record := .proto (Content.packet .modeAc _).message
  typed := by decide
  encoded := .proto
  natural := nofun
  sourceId := valid
  payload := rfl

/-- Two sources one after another. -/
def sourcesAB (first second : UInt64) : List SentPacket :=
  [sourcePacket (.ofAscii "a") (by decide) first, sourcePacket (.ofAscii "b") (by decide) second]

/-- A packet that nothing was read into. -/
def unreadPacket : Packet where
  sourceId := .ofAscii ""
  inputStat := ⟨0, 0⟩
  type := .none
  hops := 0
  payload := Cells.fill packetPayloadLenMax 0
  mlatTimestamp := 0
  rssi := 0

theorem sourcesAB_within (first second : UInt64) (rssiMax : UInt32) :
    ∀ sent ∈ sourcesAB first second, sent.Within rssiMax := by
  intro sent member
  simp only [sourcesAB, List.mem_cons, List.not_mem_nil, or_false] at member
  rcases member with rfl | rfl
  all_goals
    intro _ proto
    cases proto

/-- Packets of two sources whose timestamps do not decrease. -/
theorem sources_apart_rising :
    slowHeader.Undisturbed (.ofAscii "me") unreadPacket (sourcesAB 3 5) := by
  refine (slowHeader.sources_apart slowHeader_accepted unreadPacket
    (sourcesAB_within 3 5 _)).1 fun before sent after split _ => ?_
  match before, split with
  | [], _ => rfl
  | [first], split =>
      cases split
      decide
  | first :: second :: before, split =>
      have length := congrArg List.length split
      simp only [sourcesAB, List.length_cons, List.length_append, List.length_nil] at length
      omega

/-- A source that is behind another is not decoded as if it were alone. -/
theorem sources_disturbed :
    ¬ slowHeader.Undisturbed (.ofAscii "me") unreadPacket (sourcesAB 5 3) := by
  intro undisturbed
  have same := (SentHeader.undisturbed_iff slowHeader_accepted unreadPacket
    (sourcesAB_within 5 3 _)).mp undisturbed [sourcePacket (.ofAscii "a") (by decide) 5] _ [] rfl
  exact absurd same (by decide)

/-! ## Federation -/

/-- A timestamp in the packet's own clock, after a number of wraps of its own range. -/
def federated (wraps timestamp : Nat) : Nat :=
  mlatScaled packetMlatMax packetMlatMhz.toUInt16 wraps timestamp

theorem federated_eq (wraps timestamp : Nat) :
    federated wraps timestamp =
      (wraps * 9223372036854775807 + timestamp) % 2 ^ 64 % 9223372036854775807 := by
  have ticks : mlatTicks packetMlatMhz.toUInt16 = 1 := by decide
  have max : packetMlatMax.toNat = 9223372036854775807 := by decide
  rw [federated, mlatScaled, ticks, Nat.mul_one, max]

/-- Timestamps that are decoded to themselves, with the last timestamp and the wraps before
them. -/
def Kept (last wraps : Nat) (times : List Nat) : Prop :=
  (Unwrap.count (fun time => time) last wraps times).map (fun counted => federated counted.2 counted.1) = times

theorem kept_cons (last wraps time : Nat) (times : List Nat) :
    Kept last wraps (time :: times) ↔
      federated (Unwrap.seen last wraps time) time = time ∧
        Kept time (Unwrap.seen last wraps time) times := by
  rw [Kept, Unwrap.count, List.map_cons, List.cons.injEq]
  rfl

/-- A timestamp that a federation link can carry. -/
def Federable (time : Nat) : Prop := 1 ≤ time ∧ time < 9223372036854775807

instance (time : Nat) : Decidable (Federable time) := inferInstanceAs (Decidable (_ ∧ _))

theorem federated_few {time : Nat} (federable : Federable time) {wraps : Nat} (few : wraps ≤ 1) :
    federated wraps time = time := by
  obtain ⟨_, small⟩ := federable
  rw [federated_eq]
  rcases Nat.le_one_iff_eq_zero_or_eq_one.mp few with rfl | rfl
  · rw [Nat.zero_mul, Nat.zero_add, Nat.mod_eq_of_lt (Nat.lt_trans small (by decide)),
      Nat.mod_eq_of_lt small]
  · have within : 9223372036854775807 + time < 2 ^ 64 :=
      Nat.lt_trans (Nat.add_lt_add_left small _) (by decide)
    rw [Nat.one_mul, Nat.mod_eq_of_lt within, Nat.add_mod_left, Nat.mod_eq_of_lt small]

theorem federated_two {time : Nat} (federable : Federable time) :
    federated 2 time = time ↔ time = 1 := by
  obtain ⟨positive, small⟩ := federable
  rw [federated_eq]
  rcases Nat.eq_or_lt_of_le positive with rfl | more
  · exact ⟨fun _ => rfl, fun _ => by decide⟩
  · obtain ⟨rest, rfl⟩ : ∃ rest, time = rest + 2 := ⟨time - 2, by omega⟩
    have whole : 2 * 9223372036854775807 + (rest + 2) = 2 ^ 64 + rest := by omega
    have below : rest < 9223372036854775807 := Nat.lt_of_le_of_lt (Nat.le_add_right _ 2) small
    rw [whole, Nat.add_mod_left, Nat.mod_eq_of_lt (Nat.lt_trans below (by decide)),
      Nat.mod_eq_of_lt below]
    constructor <;> intro <;> omega

/-- After two wraps, only ones are kept. -/
theorem kept_two {times : List Nat} (federable : ∀ time ∈ times, Federable time) :
    Kept 1 2 times ↔ ∀ time ∈ times, time = 1 := by
  induction times with
  | nil => exact ⟨fun _ _ member => absurd member List.not_mem_nil, fun _ => rfl⟩
  | cons time times ih =>
      obtain ⟨here, later⟩ := List.forall_mem_cons.mp federable
      have steady : Unwrap.seen 1 2 time = 2 := if_neg (Nat.not_lt.mpr here.1)
      rw [kept_cons, steady, federated_two here, List.forall_mem_cons]
      refine and_congr_right fun one => ?_
      rw [one]
      exact ih later

/-- After one wrap, the timestamps may rise, and then fall to ones. -/
theorem kept_one {last : Nat} (positive : 1 ≤ last) {times : List Nat}
    (federable : ∀ time ∈ times, Federable time) :
    Kept last 1 times ↔ ∃ second ones, times = second ++ ones ∧
      (last :: second).Pairwise (· ≤ ·) ∧ ∀ time ∈ ones, time = 1 := by
  induction times generalizing last with
  | nil =>
      refine ⟨fun _ => ⟨[], [], rfl, List.pairwise_singleton _ _, ?_⟩, fun _ => rfl⟩
      exact fun _ member => absurd member List.not_mem_nil
  | cons time times ih =>
      obtain ⟨here, later⟩ := List.forall_mem_cons.mp federable
      rw [kept_cons]
      by_cases fallen : time < last
      · have seen : Unwrap.seen last 1 time = 2 := if_pos fallen
        rw [seen, federated_two here]
        constructor
        · rintro ⟨rfl, kept⟩
          refine ⟨[], 1 :: times, rfl, List.pairwise_singleton _ _, ?_⟩
          exact List.forall_mem_cons.mpr ⟨rfl, (kept_two later).mp kept⟩
        · rintro ⟨second, ones, split, rising, one⟩
          cases second with
          | nil =>
              rw [List.nil_append] at split
              rw [← split] at one
              obtain ⟨rfl, ones⟩ := List.forall_mem_cons.mp one
              exact ⟨rfl, (kept_two later).mpr ones⟩
          | cons first second =>
              obtain ⟨rfl, _⟩ := List.cons.inj split
              have ordered := (List.pairwise_cons.mp rising).1 _ List.mem_cons_self
              exact absurd fallen (Nat.not_lt.mpr ordered)
      · have seen : Unwrap.seen last 1 time = 1 := if_neg fallen
        rw [seen, ih here.1 later]
        simp only [federated_few here (Nat.le_refl 1), true_and]
        constructor
        · rintro ⟨second, ones, rfl, rising, one⟩
          refine ⟨time :: second, ones, rfl, List.pairwise_cons.mpr ⟨?_, rising⟩, one⟩
          intro later member
          rcases List.mem_cons.mp member with rfl | member
          · exact Nat.not_lt.mp fallen
          · exact (Nat.not_lt.mp fallen).trans ((List.pairwise_cons.mp rising).1 _ member)
        · rintro ⟨second, ones, split, rising, one⟩
          cases second with
          | nil =>
              rw [List.nil_append] at split
              rw [← split] at one
              exact ⟨[], times, rfl, List.pairwise_singleton _ _,
                (List.forall_mem_cons.mp one).2⟩
          | cons first second =>
              obtain ⟨rfl, rfl⟩ := List.cons.inj split
              exact ⟨second, ones, rfl, (List.pairwise_cons.mp rising).2, one⟩

/-- Timestamps that rise twice, and then fall to ones. -/
def RisesTwice (times : List Nat) : Prop :=
  ∃ first second ones, times = first ++ (second ++ ones) ∧ first.Pairwise (· ≤ ·) ∧
    second.Pairwise (· ≤ ·) ∧ ∀ time ∈ ones, time = 1

/-- Before any wrap, the timestamps may rise twice. -/
theorem kept_zero {last : Nat} {times : List Nat} (federable : ∀ time ∈ times, Federable time) :
    Kept last 0 times ↔ ∃ first second ones, times = first ++ (second ++ ones) ∧
      (last :: first).Pairwise (· ≤ ·) ∧ second.Pairwise (· ≤ ·) ∧ ∀ time ∈ ones, time = 1 := by
  induction times generalizing last with
  | nil =>
      refine ⟨fun _ => ⟨[], [], [], rfl, List.pairwise_singleton _ _, List.Pairwise.nil, ?_⟩,
        fun _ => rfl⟩
      exact fun _ member => absurd member List.not_mem_nil
  | cons time times ih =>
      obtain ⟨here, later⟩ := List.forall_mem_cons.mp federable
      rw [kept_cons]
      by_cases fallen : time < last
      · have seen : Unwrap.seen last 0 time = 1 := if_pos fallen
        rw [seen, kept_one here.1 later]
        simp only [federated_few here (Nat.le_refl 1), true_and]
        constructor
        · rintro ⟨second, ones, rfl, rising, one⟩
          exact ⟨[], time :: second, ones, rfl, List.pairwise_singleton _ _, rising, one⟩
        · rintro ⟨first, second, ones, split, rising, rising', one⟩
          cases first with
          | cons head first =>
              obtain ⟨rfl, _⟩ := List.cons.inj split
              have ordered := (List.pairwise_cons.mp rising).1 _ List.mem_cons_self
              exact absurd fallen (Nat.not_lt.mpr ordered)
          | nil =>
              cases second with
              | cons head second =>
                  obtain ⟨rfl, rfl⟩ := List.cons.inj split
                  exact ⟨second, ones, rfl, rising', one⟩
              | nil =>
                  rw [List.nil_append, List.nil_append] at split
                  rw [← split] at one
                  exact ⟨[], times, rfl, List.pairwise_singleton _ _,
                    (List.forall_mem_cons.mp one).2⟩
      · have seen : Unwrap.seen last 0 time = 0 := if_neg fallen
        rw [seen, ih later]
        simp only [federated_few here (Nat.zero_le 1), true_and]
        constructor
        · rintro ⟨first, second, ones, rfl, rising, rising', one⟩
          refine ⟨time :: first, second, ones, rfl, List.pairwise_cons.mpr ⟨?_, rising⟩, rising',
            one⟩
          intro later member
          rcases List.mem_cons.mp member with rfl | member
          · exact Nat.not_lt.mp fallen
          · exact (Nat.not_lt.mp fallen).trans ((List.pairwise_cons.mp rising).1 _ member)
        · rintro ⟨first, second, ones, split, rising, rising', one⟩
          cases first with
          | cons head first =>
              obtain ⟨rfl, rfl⟩ := List.cons.inj split
              exact ⟨first, second, ones, rfl, (List.pairwise_cons.mp rising).2, rising', one⟩
          | nil =>
              cases second with
              | cons head second =>
                  obtain ⟨rfl, rfl⟩ := List.cons.inj split
                  exact ⟨[], second, ones, rfl, List.pairwise_singleton _ _,
                    (List.pairwise_cons.mp rising').2, one⟩
              | nil =>
                  rw [List.nil_append, List.nil_append] at split
                  rw [← split] at one
                  exact ⟨[], [], times, rfl, List.pairwise_singleton _ _, List.Pairwise.nil,
                    (List.forall_mem_cons.mp one).2⟩

/-- A record says what this program sends of a packet. -/
structure SentPacket.Of (packet : Packet) (sent : SentPacket) : Prop where
  type : sent.type = packet.type
  json : ∀ obj, sent.record = .json obj → sent.packet = jsonPacket packet
  proto : ∀ msg, sent.record = .proto msg → sent.packet = protoPacket packet

theorem SentPacket.Of.timestamp {packet : Packet} {sent : SentPacket} (of : sent.Of packet)
    (federable : Federable packet.mlatTimestamp.toNat) :
    sent.timestamp = some packet.mlatTimestamp.toNat := by
  obtain ⟨positive, small⟩ := federable
  have present : (protoPacket packet).mlatTimestamp = some packet.mlatTimestamp := by
    have nonzero : packet.mlatTimestamp ≠ 0 := by
      intro zero
      rw [zero] at positive
      exact absurd positive (by decide)
    exact if_pos nonzero
  have max : packetMlatMax.toNat = 9223372036854775807 := by decide
  rw [SentPacket.timestamp]
  cases kind : sent.record with
  | json obj =>
      rw [of.json obj kind, jsonPacket]
      simp only [present, Option.map_some, UInt64.toNat_mod, max, Nat.mod_eq_of_lt small]
  | proto msg => rw [of.proto msg kind, present, Option.map_some]

/-- The hello sets the largest bound of the signal strength. -/
theorem SentPacket.within_max (sent : SentPacket) : sent.Within packetRssiMax :=
  fun _ _ rssi _ => UInt32.le_iff_toNat_le.mpr (Nat.le_of_lt_succ rssi.toNat_lt)

theorem decoded_federated {senderId : CString} (base : Packet) {packets : List Packet}
    (federable : ∀ packet ∈ packets, Federable packet.mlatTimestamp.toNat)
    {sent : List SentPacket} (of : packets.Forall₂ (fun packet sent => sent.Of packet) sent)
    (counted : Nat × Nat) :
    ((Unwrap.countSome SentPacket.timestamp counted sent).map fun counted =>
        counted.1.time (protoHelloHeader senderId) base counted.2) =
      (Unwrap.count (fun time => time) counted.1 counted.2
        (packets.map fun packet => packet.mlatTimestamp.toNat)).map fun counted =>
          federated counted.2 counted.1 := by
  induction of generalizing counted with
  | nil => rfl
  | cons here _ ih =>
      obtain ⟨first, later⟩ := List.forall_mem_cons.mp federable
      have timed := here.timestamp first
      rw [Unwrap.countSome, timed, List.map_cons, List.map_cons, Unwrap.count, List.map_cons,
        ih later, SentPacket.time, timed]
      rfl

/-- The sender and the receiver of a federation link agree on a packet's timestamp. -/
theorem kept_iff_risesTwice {times : List Nat} (federable : ∀ time ∈ times, Federable time) :
    Kept 0 0 times ↔ RisesTwice times := by
  rw [kept_zero federable, RisesTwice]
  simp only [List.pairwise_cons, Nat.zero_le, implies_true, true_and]

/-- **Federation.** The receiver decodes the sender's timestamps exactly when they rise at most
twice and then fall to ones. -/
theorem federation_iff {senderId serverId : CString} (other : senderId ≠ serverId) (base : Packet)
    {hello : SentHeader} (greets : hello.header = protoHelloHeader senderId)
    {packets : List Packet}
    (federable : ∀ packet ∈ packets, Federable packet.mlatTimestamp.toNat)
    {sent : List SentPacket} (of : packets.Forall₂ (fun packet sent => sent.Of packet) sent) :
    hello.decode serverId base sent =
        .ok (packets.map fun packet => packet.mlatTimestamp.toNat) ↔
      RisesTwice (packets.map fun packet => packet.mlatTimestamp.toNat) := by
  have accepted : hello.header.Accepted serverId := by
    rw [greets]
    exact protoHelloHeader_accepted other
  have within : ∀ packet ∈ sent, packet.Within hello.header.rssiMax := by
    rw [greets]
    exact fun packet _ => packet.within_max
  have federable' : ∀ time ∈ packets.map fun packet => packet.mlatTimestamp.toNat,
      Federable time := List.forall_mem_map.mpr federable
  rw [hello.decode_eq accepted base within, Except.ok.injEq, greets,
    decoded_federated base federable of, ← kept_iff_risesTwice federable', Kept]

/-- The record that the proto serializer sends for a packet. -/
def protoSent (packet : Packet) (sane : packet.Sane) : SentPacket where
  type := packet.type
  packet := protoPacket packet
  record := .proto (protoMessage packet)
  typed := sane.type
  encoded := by
    rw [protoMessage_message sane.type]
    exact .proto
  natural := nofun
  sourceId := sane.sourceId
  payload := packet.data_length

theorem protoSent_of (packet : Packet) (sane : packet.Sane) :
    (protoSent packet sane).Of packet where
  type := rfl
  json := nofun
  proto := fun _ _ => rfl

/-- The hello that the proto serializer sends. -/
def protoHelloSent (senderId : CString) : SentHeader where
  header := protoHelloHeader senderId
  record := .proto (Content.header (protoHelloHeader senderId)).message
  encoded := .proto
  natural := nofun

/-- A packet with a timestamp. -/
def stampedPacket (timestamp : UInt64) : Packet :=
  { unreadPacket with type := .modeAc, mlatTimestamp := timestamp }

theorem stampedPacket_sane {timestamp : UInt64} (small : timestamp ≤ packetMlatMax) :
    (stampedPacket timestamp).Sane where
  sourceId := rfl
  type := nofun
  mlatTimestamp := small

/-- Two timestamps that rise. -/
theorem federation_rising :
    (protoHelloSent (.ofAscii "peer")).decode (.ofAscii "me") unreadPacket
        [protoSent (stampedPacket 3) (stampedPacket_sane (by decide)),
          protoSent (stampedPacket 5) (stampedPacket_sane (by decide))] = .ok [3, 5] :=
  (@federation_iff (.ofAscii "peer") (.ofAscii "me") (by decide) unreadPacket
    (protoHelloSent (.ofAscii "peer")) rfl [stampedPacket 3, stampedPacket 5]
    (by decide) _ (.cons (protoSent_of _ _) (.cons (protoSent_of _ _) .nil))).mpr
    ⟨[3, 5], [], [], rfl, by decide, by decide, by decide⟩

/-- The third of three falling timestamps is not decoded to itself. -/
theorem federation_falling :
    (protoHelloSent (.ofAscii "peer")).decode (.ofAscii "me") unreadPacket
        [protoSent (stampedPacket 5) (stampedPacket_sane (by decide)),
          protoSent (stampedPacket 4) (stampedPacket_sane (by decide)),
          protoSent (stampedPacket 3) (stampedPacket_sane (by decide))] ≠ .ok [5, 4, 3] := by
  have accepted := protoHelloHeader_accepted
    (by decide : CString.ofAscii "peer" ≠ CString.ofAscii "me")
  rw [(protoHelloSent (.ofAscii "peer")).decode_eq accepted unreadPacket
    fun packet _ => packet.within_max, ne_eq, Except.ok.injEq]
  decide

end Adsbus

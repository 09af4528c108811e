import Adsbus.Flow.HopCounting
import Adsbus.Formats.Subject
import Mathlib.Algebra.Order.BigOperators.Group.Multiset

/-! # Provenance

Whatever way a packet takes through a network, what is passed on is about the same as a text that
came from outside (`Adsbus.Network.nothing_altered`). Where hops are counted, each such text is
passed on and lost again within a bounded number of steps (`Adsbus.Network.silence`).
-/

namespace Adsbus

namespace Network

variable {ι : Type} {network : Network ι} {flight : Flight ι} {receive received : Receive}
  {before after now : State ι} {trace : List (State ι × Act ι)}

/-! ## What texts are about -/

/-- What a text on its way is about. -/
def subject (network : Network ι) (flight : Flight ι) : Option Subject :=
  (network.record flight).bind Record.subject

/-- What is passed on is about the same as its text. -/
theorem Ready.subject (stable : network.jansson.Stable) (ready : network.Ready flight receive)
    {packet : Packet} (turned : receiveTurn (network.server flight.reader) receive =
      .ok (true, received, some packet)) :
    network.subject flight = some packet.subject := by
  obtain ⟨⟨found, after, read⟩, parsed, turned⟩ := Except.bind_eq_ok.mp turned
  cases found with
  | false => cases turned
  | true =>
      rw [receiveParse, ready.parser] at parsed
      change receiveParseWrapper _ flight.format.format receive _ = _ at parsed
      obtain ⟨⟨_, attempt⟩, ran, same⟩ := Except.bind_eq_ok.mp parsed
      cases same
      obtain ⟨record, front, parsed⟩ := RecordFormat.parse_record (by exact ready.valid) ran
      obtain ⟨record', carried, front'⟩ := ready.window stable
      cases front.symm.trans front'
      simp only [Bool.not_true, Bool.false_eq_true, ↓reduceIte] at turned
      split_ifs at turned with untyped
      · cases turned
      · cases turned
      · cases turned
        rw [Network.subject, carried, Option.bind_some]
        exact (Record.parse_subject untyped parsed).trans rfl

/-- A copy is about the packet that was passed on. -/
theorem subject_copies (libraries : network.Libraries) {packet : Packet} (sane : packet.Sane)
    {copy : Flight ι} (member : copy ∈ network.copies flight packet) :
    network.subject copy = some packet.subject := by
  obtain ⟨format, _, member⟩ := List.mem_flatMap.mp member
  obtain ⟨text, record, serialized, front, about⟩ := format.subject_serialized libraries.stable
    libraries.loads libraries.dumps libraries.packs libraries.unpacks sane
  simp only [copiesFor, serialized] at member
  split at member
  · cases member
  · obtain ⟨link, _, rfl⟩ := List.mem_map.mp member
    simp only [Network.subject, Network.record, front, Option.bind_some, about]

/-- A text that came from outside, as it was then. -/
def injection (format : RecordFormat) (reader : ι) (text : Bytes) (origin : Nat) : Flight ι where
  format := format
  reader := reader
  text := text
  origin := origin
  trail := []

/-- A text stems from one that came from outside, and is about the same. -/
def Traced (network : Network ι) (trace : List (State ι × Act ι)) (flight : Flight ι) : Prop :=
  ∃ before format reader text, (before, Act.inject format reader text) ∈ trace ∧
    before.injected = flight.origin ∧
    network.subject flight = network.subject (injection format reader text flight.origin)

theorem Traced.later (traced : network.Traced trace flight) (entry : State ι × Act ι) :
    network.Traced (entry :: trace) flight := by
  obtain ⟨before, format, reader, text, member, same⟩ := traced
  exact ⟨before, format, reader, text, List.mem_cons_of_mem _ member, same⟩

/-- **Every text on its way is traced.** -/
theorem traced_run (libraries : network.Libraries) (run : Run network.Step .start trace now) :
    ∀ flight ∈ now.flights, network.Traced trace flight := by
  induction run with
  | start => exact fun _ member => absurd member (Multiset.notMem_zero _)
  | @step trace before after act _ taken ih =>
      cases act with
      | inject format reader text =>
          cases taken
          intro flight member
          rcases Multiset.mem_cons.mp member with rfl | member
          · exact ⟨before, format, reader, text, List.mem_cons_self, rfl, rfl⟩
          · exact (ih flight member).later _
      | deliver flight receive =>
          obtain ⟨left, received, sent, split, ready, turned, sends, rfl⟩ := taken
          intro other member
          rcases Multiset.mem_add.mp member with member | member
          · cases sent with
            | none => exact absurd member (List.not_mem_nil)
            | some packet =>
                have copied : other ∈ network.copies flight packet := Multiset.mem_coe.mp member
                have origin := (mem_copies libraries (sends packet rfl).sane copied).2.1
                obtain ⟨first, format, reader, text, injected, same, about⟩ :=
                  ih flight (split ▸ Multiset.mem_cons_self _ _)
                refine ⟨first, format, reader, text, List.mem_cons_of_mem _ injected,
                  same.trans origin.symm, ?_⟩
                rw [origin, ← about, subject_copies libraries (sends packet rfl).sane copied,
                  ready.subject libraries.stable turned]
          · exact (ih other (split ▸ Multiset.mem_cons_of_mem member)).later _
      | lose flight =>
          obtain ⟨left, split, rfl⟩ := taken
          exact fun other member => (ih other (split ▸ Multiset.mem_cons_of_mem member)).later _

/-- **Nothing is altered.** In every run of a network, whatever the order in which texts are read,
each packet that an instance passes on has the type, the source and the payload of a text that had
come from outside before, however many instances are between them. -/
theorem nothing_altered (libraries : network.Libraries) (run : Run network.Step .start trace now)
    {later earlier : List (State ι × Act ι)}
    (delivered : trace = later ++ (before, .deliver flight receive) :: earlier) {packet : Packet}
    (turned : receiveTurn (network.server flight.reader) receive =
      .ok (true, received, some packet)) :
    ∃ first format reader text, (first, Act.inject format reader text) ∈ earlier ∧
      first.injected = flight.origin ∧
      network.subject (injection format reader text flight.origin) = some packet.subject := by
  obtain ⟨after, first, taken⟩ := run.of_append delivered
  obtain ⟨left, _, _, split, ready, _⟩ := taken
  obtain ⟨first, format, reader, text, injected, same, about⟩ :=
    traced_run libraries first flight (split ▸ Multiset.mem_cons_self _ _)
  exact ⟨first, format, reader, text, injected, same,
    about.symm.trans (ready.subject libraries.stable turned)⟩

/-- A packet from outside is passed on by both instances of a ring. -/
theorem ring_round {limit : UInt32} {packet : Packet} (sane : packet.Sane)
    (outside : packet.hops.toNat = 0) (wide : 1 < limit.toNat) :
    ∃ passed again : Packet, passed.Sane ∧ passed.hops.toNat = 1 ∧
      ((ring limit).Step ⟨{ringFlight true packet 0 []}, 1⟩
          (.deliver (ringFlight true packet 0 []) (ringReceive true packet))
          ⟨{ringFlight false passed 0 [0]}, 1⟩ ∧
        (ring limit).forwards 0 (⟨{ringFlight true packet 0 []}, 1⟩,
          .deliver (ringFlight true packet 0 []) (ringReceive true packet)) = true) ∧
      (ring limit).Step ⟨{ringFlight false passed 0 [0]}, 1⟩
          (.deliver (ringFlight false passed 0 [0]) (ringReceive false passed))
          ⟨{ringFlight true again 0 [1, 0]}, 1⟩ ∧
        (ring limit).forwards 0 (⟨{ringFlight false passed 0 [0]}, 1⟩,
          .deliver (ringFlight false passed 0 [0]) (ringReceive false passed)) = true := by
  have below : packet.hops.toNat % 2 ^ 16 < limit.toNat := by omega
  obtain ⟨passed, sane', hops, forwards, taken⟩ := @ring_step limit true _ sane below 0 1 []
  have once : passed.hops.toNat = 1 := by omega
  have below' : passed.hops.toNat % 2 ^ 16 < limit.toNat := by omega
  obtain ⟨again, _, _, forwards', taken'⟩ := @ring_step limit false _ sane' below' 0 1 [0]
  rw [outside, Bool.not_true] at taken
  rw [once, Bool.not_false] at taken'
  exact ⟨passed, again, sane', once, ⟨taken, forwards⟩, taken', forwards'⟩

/-- A text from outside is passed on by one of two instances that are linked in a ring, and then by
the other. -/
theorem nothing_altered_ring :
    ∃ trace now passed received packet first format reader text,
      Run (ring 10).Step .start trace now ∧ trace.countP ((ring 10).forwards 0) = 2 ∧
      receiveTurn ((ring 10).server false) (ringReceive false passed) =
        .ok (true, received, some packet) ∧ packet.hops.toNat = 2 ∧
      (first, Act.inject format reader text) ∈ trace ∧
      (ring 10).subject (injection format reader text 0) = some packet.subject := by
  have sane : (stampedPacket 3).Sane := stampedPacket_sane (by decide)
  obtain ⟨passed, again, sane', once, ⟨taken, forwards⟩, taken', forwards'⟩ :=
    @ring_round 10 _ sane rfl (by decide)
  have below : passed.hops.toNat % 2 ^ 16 < (10 : UInt32).toNat := by
    rw [once]
    decide
  obtain ⟨received, packet, turned, _, twice, _⟩ := @ring_turn 10 false _ sane' below
  have run := ((@ring_inject 10 true (stampedPacket 3)).step taken).step taken'
  obtain ⟨first, format, reader, text, member, _, about⟩ :=
    @nothing_altered _ (ring 10) (ringFlight false passed 0 [0]) _ _ _ _ _ (ring_libraries 10) run
      [] _ rfl _ turned
  refine ⟨_, _, passed, received, packet, first, format, reader, text, run, ?_, turned, ?_,
    List.mem_cons_of_mem _ member, about⟩
  · rw [List.countP_cons_of_pos forwards', List.countP_cons_of_pos forwards]
    rfl
  · rw [twice, once]
    rfl

/-! ## Silence -/

section Silence

variable [Fintype ι]

/-- The number of steps that a text on its way can still cause: it is passed on or not, and so are
its copies. -/
def cost (network : Network ι) (flight : Flight ι) : Nat :=
  (network.hops flight).elim 1 fun hops => budget network.fanOut (network.maxHops - hops + 1)

/-- What all texts on their way can still cause. -/
def toCome (network : Network ι) (state : State ι) : Nat :=
  (state.flights.map network.cost).sum

theorem cost_pos (flight : Flight ι) : 1 ≤ network.cost flight := by
  rw [cost]
  cases network.hops flight with
  | none => exact Nat.le_refl 1
  | some hops =>
      rw [Option.elim_some, budget]
      exact Nat.le_add_right 1 _

theorem cost_le (flight : Flight ι) :
    network.cost flight ≤ budget network.fanOut (network.maxHops + 1) := by
  rw [cost]
  cases network.hops flight with
  | none =>
      rw [Option.elim_none, budget]
      exact Nat.le_add_right 1 _
  | some hops => exact budget_mono _ (Nat.succ_le_succ (Nat.sub_le _ _))

theorem card_le_toCome (state : State ι) : state.flights.card ≤ network.toCome state := by
  have each : ∀ value ∈ state.flights.map network.cost, 1 ≤ value := by
    intro value member
    obtain ⟨flight, _, rfl⟩ := Multiset.mem_map.mp member
    exact cost_pos flight
  have sum := Multiset.card_nsmul_le_sum each
  rwa [Multiset.card_map, nsmul_eq_mul, Nat.mul_one] at sum

/-- Texts come from outside. -/
def injects : State ι × Act ι → Bool
  | (_, .inject ..) => true
  | _ => false

/-- A text is read or lost, and what it has still caused is paid. -/
theorem toCome_step (libraries : network.Libraries) {act : Act ι}
    (taken : network.Step before act after) (narrow : network.Narrow (before, act)) :
    network.toCome after + (!injects (before, act)).toNat ≤ network.toCome before +
      budget network.fanOut (network.maxHops + 1) * (injects (before, act)).toNat := by
  cases act with
  | inject format reader text =>
      cases taken
      rw [toCome, toCome, Multiset.map_cons, Multiset.sum_cons]
      simp only [injects, Bool.not_true, Bool.toNat_false, Bool.toNat_true, Nat.add_zero,
        Nat.mul_one]
      rw [Nat.add_comm]
      exact Nat.add_le_add_left (cost_le _) _
  | deliver flight receive =>
      obtain ⟨left, _, _, split, _, ⟨_, rfl⟩ | ⟨packet, hops, _, carried, _, below, copies, rfl⟩⟩ :=
        Step.delivered libraries taken narrow
      · have one := @cost_pos _ network _ flight
        rw [toCome, toCome, split, Multiset.map_cons, Multiset.sum_cons]
        simp only [injects, Bool.not_false, Bool.toNat_true, Bool.toNat_false, Nat.mul_zero]
        omega
      · have limit := @limit_le_maxHops _ network _ flight.reader
        have sum := @sum_copies_le _ network flight _ packet network.cost
          (budget network.fanOut (network.maxHops - hops)) fun copy member => by
            rw [cost, (copies copy member).1, Option.elim_some]
            exact budget_mono _ (by omega)
        have own : network.cost flight =
            1 + network.fanOut * budget network.fanOut (network.maxHops - hops) := by
          rw [cost, carried, Option.elim_some, budget]
        rw [toCome, toCome, split, Multiset.map_cons, Multiset.sum_cons, Multiset.map_add,
          Multiset.sum_add, Multiset.map_coe, Multiset.sum_coe]
        simp only [injects, Bool.not_false, Bool.toNat_true, Bool.toNat_false, Nat.mul_zero]
        omega
  | lose flight =>
      obtain ⟨left, split, rfl⟩ := taken
      have one := @cost_pos _ network _ flight
      rw [toCome, toCome, split, Multiset.map_cons, Multiset.sum_cons]
      simp only [injects, Bool.not_false, Bool.toNat_true, Bool.toNat_false, Nat.mul_zero]
      omega

/-- **Silence.** Where the limits fit 16 bits and no text comes from outside with hops that do not,
each text from outside causes a bounded number of steps, so that a network to which nothing more
comes falls silent, whatever its links. -/
theorem silence (libraries : network.Libraries)
    (limits : ∀ node, (network.receiveMaxHops node).toNat < 2 ^ 16)
    (run : Run network.Step .start trace now)
    (injections : ∀ {before format reader text}, (before, Act.inject format reader text) ∈ trace →
      ∀ hops ∈ network.hops (injection format reader text before.injected), hops < 2 ^ 16) :
    now.flights.card + trace.countP (fun entry => !injects entry) ≤
      budget network.fanOut (network.maxHops + 1) * trace.countP injects := by
  have restricted := run.restrict (narrow_of_limits libraries limits run injections).2
  have afforded := @Run.afford _ _ _ _ _ (fun _ => True) trivial (fun _ _ => trivial)
    network.toCome (budget network.fanOut (network.maxHops + 1)) (fun entry => !injects entry)
    injects (fun _ taken => toCome_step libraries taken.1 taken.2) _ restricted
  have nothing : network.toCome .start = 0 := rfl
  rw [nothing, Nat.zero_add] at afforded
  exact (Nat.add_le_add_right (card_le_toCome now) _).trans afforded

end Silence

/-- One text in the ring is passed on twice, and then is lost. -/
theorem silence_ring :
    ∃ trace now, Run (ring 10).Step .start trace now ∧ trace.countP injects = 1 ∧
      trace.countP (fun entry => !injects entry) = 3 ∧
      now.flights.card + trace.countP (fun entry => !injects entry) ≤ 11 := by
  have sane : (stampedPacket 3).Sane := stampedPacket_sane (by decide)
  obtain ⟨passed, again, _, _, ⟨taken, _⟩, taken', _⟩ := @ring_round 10 _ sane rfl (by decide)
  have lost : (ring 10).Step ⟨{ringFlight true again 0 [1, 0]}, 1⟩
      (.lose (ringFlight true again 0 [1, 0])) ⟨0, 1⟩ := ⟨0, rfl, rfl⟩
  have run := (((@ring_inject 10 true (stampedPacket 3)).step taken).step taken').step lost
  have quiet := @silence _ (ring 10) _ _ _ (ring_libraries 10)
    (fun _ => (by decide : (10 : UInt32).toNat < 2 ^ 16)) run ?_
  · have most : budget (ring 10).fanOut ((ring 10).maxHops + 1) = 11 := by decide
    rw [most] at quiet
    exact ⟨_, _, run, rfl, rfl, quiet⟩
  · intro first format reader text member hops carried
    have injected : (first, Act.inject format reader text) =
        (.start, .inject .proto true (Wire.blob 1 (protoMessage (stampedPacket 3)).wire)) := by
      simpa only [List.mem_cons, Prod.mk.injEq, reduceCtorEq, and_false, false_or, List.not_mem_nil,
        or_false] using member
    cases injected
    obtain ⟨record, found, counted⟩ := @ring_record 10 true _ sane 0 []
    have carried' : (ring 10).hops (ringFlight true (stampedPacket 3) 0 []) = some hops := carried
    rw [Network.hops, found, Option.bind_some, counted] at carried'
    cases carried'
    decide

end Network

end Adsbus

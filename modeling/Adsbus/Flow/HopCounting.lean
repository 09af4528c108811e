import Adsbus.Flow.Network
import Adsbus.Flow.Origin
import Adsbus.Flow.RecordStream
import Adsbus.Flow.SendWrite
import Mathlib.Algebra.Order.BigOperators.Group.List
import Mathlib.Order.Lattice.Nat

/-! # Counting hops

A packet is passed on with one more hop than it was received with, or dropped when that exceeds the
limit of the instance. Its hops are received with 16 bits and compared with a limit of 32.
-/

namespace Adsbus

/-- What a json or a proto parser finds is the record at the front of the buffer. -/
theorem RecordFormat.parse_record {server : Server} {format : RecordFormat}
    {attempt after : Attempt} (valid : attempt.buf.Valid)
    (parsed : format.format.parse server attempt = .ok (true, after)) :
    ∃ record, format.front server.jansson server.protobuf attempt.buf.window = some record ∧
      record.parse server.serverId attempt.packet attempt.state =
        .ok (true, after.packet, after.state) := by
  cases format with
  | json =>
      change jsonParse server.jansson server.serverId attempt = _ at parsed
      rcases jsonParse_cases server.jansson server.serverId attempt with
        nothing | ⟨fields, position, loaded, decides⟩
      · rw [nothing] at parsed
        cases parsed
      · refine ⟨.json (.object fields), ?_, (decides parsed).1⟩
        simp only [front, loaded]
  | proto =>
      change protoParse server.protobuf server.serverId attempt = _ at parsed
      rcases protoParse_cases server.protobuf server.serverId valid with
        nothing | ⟨msg, len, found, decides⟩
      · rw [nothing] at parsed
        cases parsed
      · refine ⟨.proto msg, ?_, (decides parsed).1⟩
        rw [front, found]
        rfl

namespace Network

variable {ι : Type} {network : Network ι} {flight : Flight ι} {receive received : Receive}

/-- What becomes of the hops of a record that was taken: there are none, or they are cut to 16 bits
and have reached the limit, or one more is sent. -/
inductive Counted (network : Network ι) (flight : Flight ι) : Option Packet → Prop
  | header (headed : network.hops flight = none) : Counted network flight none
  | dropped (hops : Nat) (carried : network.hops flight = some hops)
      (reached : (network.receiveMaxHops flight.reader).toNat ≤ hops % 2 ^ 16) :
      Counted network flight none
  | passed (hops : Nat) (carried : network.hops flight = some hops)
      (below : hops % 2 ^ 16 < (network.receiveMaxHops flight.reader).toNat) (packet : Packet)
      (next : packet.hops.toNat = hops % 2 ^ 16 + 1) : Counted network flight (some packet)

/-- The record of a text is at the front of the buffer of a connection that is ready for it. -/
theorem Ready.window (stable : network.jansson.Stable) (ready : network.Ready flight receive) :
    ∃ record, network.record flight = some record ∧
      flight.format.front network.jansson network.protobuf receive.buf.window = some record := by
  obtain ⟨record, found⟩ := Option.isSome_iff_exists.mp ready.record
  obtain ⟨more, window⟩ := ready.front
  refine ⟨record, found, ?_⟩
  rw [← window]
  exact RecordFormat.front_append stable found more

/-- **One delivery.** -/
theorem Ready.counted (stable : network.jansson.Stable) (ready : network.Ready flight receive)
    {sent : Option Packet}
    (turned : receiveTurn (network.server flight.reader) receive = .ok (true, received, sent)) :
    network.Counted flight sent := by
  obtain ⟨⟨found, after, packet⟩, parsed, turned⟩ := Except.bind_eq_ok.mp turned
  cases found with
  | false => cases turned
  | true =>
      rw [receiveParse, ready.parser] at parsed
      change receiveParseWrapper _ flight.format.format receive _ = _ at parsed
      obtain ⟨⟨_, attempt⟩, ran, same⟩ := Except.bind_eq_ok.mp parsed
      cases same
      obtain ⟨record, front, parsed⟩ := RecordFormat.parse_record (by exact ready.valid) ran
      obtain ⟨record', carried, front'⟩ := ready.window stable
      cases front.symm.trans front'
      have hops : network.hops flight = record.hops := by rw [Network.hops, carried, Option.bind_some]
      simp only [Bool.not_true, Bool.false_eq_true, ↓reduceIte] at turned
      cases Record.parse_counted parsed with
      | header headed type =>
          rw [if_pos type] at turned
          cases turned
          exact .header (hops.trans headed)
      | packet count counts small type cut =>
          have next : (attempt.packet.hops + 1).toNat = count % 2 ^ 16 + 1 := by
            have narrow := Nat.mod_lt count (show 2 ^ 16 > 0 by decide)
            rw [UInt32.toNat_add, cut]
            exact Nat.mod_eq_of_lt (by change count % 2 ^ 16 + 1 < 2 ^ 32; omega)
          rw [if_neg type] at turned
          split at turned
          · rename_i above
            cases turned
            rw [gt_iff_lt, UInt32.lt_iff_toNat_lt, next] at above
            exact .dropped count (hops.trans counts) (Nat.lt_succ_iff.mp above)
          · rename_i within
            cases turned
            rw [gt_iff_lt, UInt32.lt_iff_toNat_lt, next, Nat.not_lt] at within
            exact .passed count (hops.trans counts) within _ next

/-- The libraries of a network read what they write. -/
structure Libraries (network : Network ι) : Prop where
  stable : network.jansson.Stable
  loads : network.jansson.Loads
  dumps : network.jansson.Dumps
  packs : network.protobuf.Packs
  unpacks : network.protobuf.Unpacks

/-- A copy carries the hops of the packet that was passed on, and follows its text. -/
theorem mem_copies (libraries : network.Libraries) {packet : Packet} (sane : packet.Sane)
    {copy : Flight ι} (member : copy ∈ network.copies flight packet) :
    network.hops copy = some packet.hops.toNat ∧ copy.origin = flight.origin ∧
      copy.trail = network.path flight := by
  obtain ⟨format, _, member⟩ := List.mem_flatMap.mp member
  obtain ⟨text, record, serialized, front, hops⟩ :=
    format.front_serialized libraries.stable libraries.loads libraries.dumps libraries.packs
      libraries.unpacks sane
  simp only [copiesFor, serialized] at member
  split at member
  · cases member
  · obtain ⟨link, _, rfl⟩ := List.mem_map.mp member
    refine ⟨?_, rfl, rfl⟩
    simp only [Network.hops, Network.record, front, Option.bind_some, hops]

theorem copies_length (packet : Packet) :
    (network.copies flight packet).length ≤
      (network.links flight.reader .json).length + (network.links flight.reader .proto).length := by
  have one : ∀ format, (network.copiesFor flight packet format).length ≤
      (network.links flight.reader format).length := by
    intro format
    rw [copiesFor]
    split
    · exact Nat.zero_le _
    · split
      · exact Nat.zero_le _
      · rw [List.length_map]
        exact List.length_filter_le _ _
  rw [copies, RecordFormat.all, List.flatMap_cons, List.flatMap_cons, List.flatMap_nil,
    List.append_nil, List.length_append]
  exact Nat.add_le_add (one .json) (one .proto)

theorem Sends.sane {node : ι} {packet : Packet} (sends : network.Sends node packet) :
    packet.Sane := by
  obtain ⟨_, _, _, _, ran⟩ := sends
  obtain ⟨_, checked, _⟩ := Except.bind_eq_ok.mp ran
  exact packetSanityCheck_eq_ok.mp checked

/-! ## Runs -/

variable {before after now : State ι} {trace : List (State ι × Act ι)}

/-- No hops are cut of a packet that is passed on: they fit 16 bits, or the packet is dropped. -/
def Narrow (network : Network ι) : State ι × Act ι → Prop
  | (_, .deliver flight _) => ∀ hops ∈ network.hops flight,
      hops < 2 ^ 16 ∨ (network.receiveMaxHops flight.reader).toNat ≤ hops % 2 ^ 16
  | _ => True

/-- A copy of an injected text is passed on. -/
def forwards (network : Network ι) (origin : Nat) : State ι × Act ι → Bool
  | (_, .deliver flight receive) => flight.origin = origin &&
      match receiveTurn (network.server flight.reader) receive with
      | .ok (_, _, some _) => true
      | _ => false
  | _ => false

theorem forwards_of_ne {origin : Nat} (other : flight.origin ≠ origin) :
    network.forwards origin (before, .deliver flight receive) = false := by
  simp only [forwards, other, decide_false, Bool.false_and]

theorem forwards_of_dropped (origin : Nat)
    (turned : receiveTurn (network.server flight.reader) receive = .ok (true, received, none)) :
    network.forwards origin (before, .deliver flight receive) = false := by
  simp only [forwards, turned, Bool.and_false]

/-- A delivery that cuts no hops passes nothing on, or copies with one more hop. -/
theorem Step.delivered (libraries : network.Libraries)
    (taken : network.Step before (.deliver flight receive) after)
    (narrow : network.Narrow (before, .deliver flight receive)) :
    ∃ left received sent, before.flights = flight ::ₘ left ∧
      receiveTurn (network.server flight.reader) receive = .ok (true, received, sent) ∧
      (sent = none ∧ after = { before with flights := left } ∨
        ∃ packet hops, sent = some packet ∧ network.hops flight = some hops ∧
          packet.hops.toNat = hops + 1 ∧
          hops + 1 ≤ (network.receiveMaxHops flight.reader).toNat ∧
          (∀ copy ∈ network.copies flight packet, network.hops copy = some (hops + 1) ∧
            copy.origin = flight.origin ∧ copy.trail = network.path flight) ∧
          after = { before with
            flights := (network.copies flight packet : Multiset (Flight ι)) + left }) := by
  obtain ⟨left, received, sent, split, ready, turned, sends, rfl⟩ := taken
  refine ⟨left, received, sent, split, turned, ?_⟩
  have counted := ready.counted libraries.stable turned
  cases counted with
  | header headed => exact .inl ⟨rfl, by rw [Option.elim_none, Multiset.coe_nil, zero_add]⟩
  | dropped hops carried reached =>
      exact .inl ⟨rfl, by rw [Option.elim_none, Multiset.coe_nil, zero_add]⟩
  | passed hops carried below packet next =>
      have small : hops < 2 ^ 16 := (narrow hops carried).resolve_right (Nat.not_le.mpr below)
      rw [Nat.mod_eq_of_lt small] at below next
      refine .inr ⟨packet, hops, rfl, carried, next, below, fun copy member => ?_, rfl⟩
      rw [← next]
      exact mem_copies libraries (sends packet rfl).sane member

/-- What holds of every text on its way: it comes from a text that was injected, and the hops have
risen on its way. -/
def Rising (network : Network ι) (state : State ι) : Prop :=
  ∀ flight ∈ state.flights, flight.origin < state.injected ∧
    (network.path flight).Pairwise (· > ·)

theorem rising_start (network : Network ι) : network.Rising .start := fun _ member =>
  absurd member (Multiset.notMem_zero _)

theorem Rising.step (libraries : network.Libraries) {act : Act ι} (rising : network.Rising before)
    (taken : network.Step before act after) (narrow : network.Narrow (before, act)) :
    network.Rising after := by
  cases act with
  | inject format reader text =>
      cases taken
      intro flight member
      rcases Multiset.mem_cons.mp member with rfl | member
      · refine ⟨Nat.lt_succ_self _, ?_⟩
        rw [path, List.append_nil]
        cases Network.hops network _ with
        | none => exact List.Pairwise.nil
        | some hops => exact List.pairwise_singleton _ _
      · obtain ⟨injected, rises⟩ := rising flight member
        exact ⟨Nat.lt_succ_of_lt injected, rises⟩
  | deliver flight receive =>
      obtain ⟨left, _, _, split, _, ⟨_, rfl⟩ | ⟨packet, hops, _, carried, _, _, copies, rfl⟩⟩ :=
        Step.delivered libraries taken narrow
      · exact fun other member => rising other (split ▸ Multiset.mem_cons_of_mem member)
      · intro other member
        rcases Multiset.mem_add.mp member with member | member
        · obtain ⟨next, origin, trail⟩ := copies other (Multiset.mem_coe.mp member)
          obtain ⟨injected, rises⟩ := rising flight (split ▸ Multiset.mem_cons_self _ _)
          refine ⟨origin ▸ injected, ?_⟩
          rw [path, carried] at rises
          rw [path, next, trail, path, carried]
          refine List.pairwise_cons.mpr ⟨fun earlier inside => ?_, rises⟩
          rcases List.mem_cons.mp inside with rfl | inside
          · exact Nat.lt_succ_self _
          · exact Nat.lt_succ_of_lt ((List.pairwise_cons.mp rises).1 earlier inside)
        · exact rising other (split ▸ Multiset.mem_cons_of_mem member)
  | lose flight =>
      obtain ⟨left, split, rfl⟩ := taken
      exact fun other member => rising other (split ▸ Multiset.mem_cons_of_mem member)

/-- **Narrow limits.** In a network whose limits fit 16 bits, no hops are cut that do not come from
outside. -/
theorem narrow_of_limits (libraries : network.Libraries)
    (limits : ∀ node, (network.receiveMaxHops node).toNat < 2 ^ 16)
    (run : Run network.Step .start trace now)
    (injections : ∀ {before format reader text}, (before, Act.inject format reader text) ∈ trace →
      ∀ hops ∈ network.hops ⟨format, reader, text, before.injected, []⟩, hops < 2 ^ 16) :
    (∀ flight ∈ now.flights, ∀ hops ∈ network.hops flight, hops < 2 ^ 16) ∧
      ∀ entry ∈ trace, network.Narrow entry := by
  induction run with
  | start => exact ⟨fun _ member => absurd member (Multiset.notMem_zero _), nofun⟩
  | @step trace before after act run taken ih =>
      obtain ⟨few, narrow⟩ := ih fun member => injections (List.mem_cons_of_mem _ member)
      cases act with
      | inject format reader text =>
          cases taken
          refine ⟨fun flight member => ?_, List.forall_mem_cons.mpr ⟨trivial, narrow⟩⟩
          rcases Multiset.mem_cons.mp member with rfl | member
          · exact injections List.mem_cons_self
          · exact few flight member
      | deliver flight receive =>
          obtain ⟨left, received, sent, split, _⟩ := id taken
          have here : network.Narrow (before, .deliver flight receive) := fun hops carried =>
            .inl (few flight (split ▸ Multiset.mem_cons_self _ _) hops carried)
          refine ⟨?_, List.forall_mem_cons.mpr ⟨here, narrow⟩⟩
          obtain ⟨left, _, _, split, _, ⟨_, rfl⟩ | ⟨packet, hops, _, _, _, below, copies, rfl⟩⟩ :=
            Step.delivered libraries taken here
          · exact fun other member => few other (split ▸ Multiset.mem_cons_of_mem member)
          · intro other member hops' carried
            rcases Multiset.mem_add.mp member with member | member
            · obtain ⟨next, _⟩ := copies other (Multiset.mem_coe.mp member)
              cases next.symm.trans carried
              exact Nat.lt_of_le_of_lt below (limits _)
            · exact few other (split ▸ Multiset.mem_cons_of_mem member) hops' carried
      | lose flight =>
          obtain ⟨left, split, rfl⟩ := taken
          exact ⟨fun other member => few other (split ▸ Multiset.mem_cons_of_mem member),
            List.forall_mem_cons.mpr ⟨trivial, narrow⟩⟩

/-! ## How often a packet is passed on -/

/-- The number of times that a packet and its copies can be passed on, when each is copied so often
and there are so many hops left. -/
def budget (fanOut : Nat) : Nat → Nat
  | 0 => 0
  | left + 1 => 1 + fanOut * budget fanOut left

theorem budget_mono (fanOut : Nat) : Monotone (budget fanOut) := by
  refine monotone_nat_of_le_succ fun left => ?_
  induction left with
  | zero => exact Nat.zero_le _
  | succ left ih => exact Nat.add_le_add_left (Nat.mul_le_mul_left _ ih) 1

variable [Fintype ι]

/-- The largest limit. -/
def maxHops (network : Network ι) : Nat :=
  Finset.univ.sup fun node => (network.receiveMaxHops node).toNat

/-- The largest number of links of an instance. -/
def fanOut (network : Network ι) : Nat :=
  Finset.univ.sup fun node =>
    (network.links node .json).length + (network.links node .proto).length

/-- What a text can still cost of the passings of an injected one. -/
def weight (network : Network ι) (origin : Nat) (flight : Flight ι) : Nat :=
  if flight.origin = origin then
    (network.hops flight).elim 0 fun hops => budget network.fanOut (network.maxHops - hops)
  else 0

/-- What all texts on their way can still cost, or the text itself before it is injected. -/
def potential (network : Network ι) (origin : Nat) (state : State ι) : Nat :=
  if origin < state.injected then (state.flights.map (network.weight origin)).sum
  else budget network.fanOut network.maxHops

theorem weight_le (origin : Nat) (flight : Flight ι) :
    network.weight origin flight ≤ budget network.fanOut network.maxHops := by
  rw [weight]
  split
  · cases network.hops flight with
    | none => exact Nat.zero_le _
    | some hops => exact budget_mono _ (Nat.sub_le _ _)
  · exact Nat.zero_le _

/-- The copies of a packet cost as much as the links of one instance can. -/
theorem sum_copies_le {packet : Packet} {cost : Flight ι → Nat} {bound : Nat}
    (each : ∀ copy ∈ network.copies flight packet, cost copy ≤ bound) :
    ((network.copies flight packet).map cost).sum ≤ network.fanOut * bound := by
  have degree : (network.links flight.reader .json).length +
      (network.links flight.reader .proto).length ≤ network.fanOut :=
    Finset.le_sup (f := fun node => (network.links node .json).length +
      (network.links node .proto).length) (Finset.mem_univ _)
  have sum := List.sum_le_card_nsmul ((network.copies flight packet).map cost) bound fun value member => by
    obtain ⟨copy, inside, rfl⟩ := List.mem_map.mp member
    exact each copy inside
  rw [List.length_map, nsmul_eq_mul, Nat.cast_id] at sum
  exact sum.trans (Nat.mul_le_mul_right _ ((copies_length packet).trans degree))

theorem limit_le_maxHops (node : ι) : (network.receiveMaxHops node).toNat ≤ network.maxHops :=
  Finset.le_sup (f := fun node => (network.receiveMaxHops node).toNat) (Finset.mem_univ node)

/-- The copies of a packet cost less than the packet. -/
theorem sum_copies_lt {packet : Packet} {hops : Nat} (carried : network.hops flight = some hops)
    (below : hops + 1 ≤ (network.receiveMaxHops flight.reader).toNat)
    (copies : ∀ copy ∈ network.copies flight packet, network.hops copy = some (hops + 1)) :
    ((network.copies flight packet).map (network.weight flight.origin)).sum + 1 ≤
      network.weight flight.origin flight := by
  have limit := @limit_le_maxHops _ network _ flight.reader
  have sum := @sum_copies_le _ network flight _ packet (network.weight flight.origin)
    (budget network.fanOut (network.maxHops - (hops + 1))) fun copy member => by
      rw [weight, copies copy member]
      split
      · exact Nat.le_refl _
      · exact Nat.zero_le _
  have left : network.maxHops - hops = network.maxHops - (hops + 1) + 1 := by omega
  rw [weight, if_pos rfl, carried, Option.elim_some, left, budget, Nat.add_comm]
  exact Nat.add_le_add_left sum 1

/-- The potential does not rise when a text is injected. -/
theorem potential_inject (origin : Nat) (rising : network.Rising before) {flight : Flight ι}
    (numbered : flight.origin = before.injected) :
    network.potential origin
        { flights := flight ::ₘ before.flights, injected := before.injected + 1 } ≤
      network.potential origin before := by
  rw [potential, potential, Multiset.map_cons, Multiset.sum_cons]
  dsimp only
  rcases Nat.lt_trichotomy origin before.injected with earlier | rfl | later
  · have free : network.weight origin flight = 0 := if_neg (by omega)
    rw [if_pos (by omega), if_pos earlier, free, Nat.zero_add]
  · have free : ∀ cost ∈ before.flights.map (network.weight before.injected), cost = 0 := by
      intro cost member
      obtain ⟨other, inside, rfl⟩ := Multiset.mem_map.mp member
      exact if_neg (Nat.ne_of_lt (rising other inside).1)
    rw [if_pos (Nat.lt_succ_self _), if_neg (Nat.lt_irrefl _), Multiset.sum_eq_zero free,
      Nat.add_zero]
    exact weight_le _ _
  · rw [if_neg (by omega), if_neg (by omega)]

/-- **One step.** What it costs that a text is passed on is paid from its potential. -/
theorem potential_step (libraries : network.Libraries) (origin : Nat) {act : Act ι}
    (rising : network.Rising before) (taken : network.Step before act after)
    (narrow : network.Narrow (before, act)) :
    network.potential origin after + (network.forwards origin (before, act)).toNat ≤
      network.potential origin before := by
  cases act with
  | inject format reader text =>
      cases taken
      exact potential_inject origin rising rfl
  | deliver flight receive =>
      obtain ⟨left, received, sent, split, turned, ⟨rfl, rfl⟩ |
        ⟨packet, hops, rfl, carried, _, below, copies, rfl⟩⟩ :=
          Step.delivered libraries taken narrow
      · rw [forwards_of_dropped origin turned, Bool.toNat_false, Nat.add_zero, potential, potential,
          split, Multiset.map_cons, Multiset.sum_cons]
        split
        · exact Nat.le_add_left _ _
        · exact Nat.le_refl _
      · have born := (rising flight (split ▸ Multiset.mem_cons_self _ _)).1
        rw [potential, potential, split, Multiset.map_cons, Multiset.sum_cons, Multiset.map_add,
          Multiset.sum_add, Multiset.map_coe, Multiset.sum_coe]
        by_cases own : flight.origin = origin
        · subst own
          have paid := sum_copies_lt carried below fun copy member => (copies copy member).1
          have one := Bool.toNat_le (network.forwards flight.origin (before, .deliver flight receive))
          rw [if_pos born, if_pos born]
          omega
        · have free : ∀ cost ∈ (network.copies flight packet).map (network.weight origin),
              cost = 0 := by
            intro cost member
            obtain ⟨copy, inside, rfl⟩ := List.mem_map.mp member
            exact if_neg ((copies copy inside).2.1 ▸ own)
          rw [forwards_of_ne own, Bool.toNat_false, Nat.add_zero, List.sum_eq_zero free,
            Nat.zero_add]
          split
          · exact Nat.le_add_left _ _
          · exact Nat.le_refl _
  | lose flight =>
      obtain ⟨left, split, rfl⟩ := taken
      have nothing : network.forwards origin (before, .lose flight) = false := rfl
      rw [nothing, Bool.toNat_false, Nat.add_zero, potential, potential, split, Multiset.map_cons,
        Multiset.sum_cons]
      split
      · exact Nat.le_add_left _ _
      · exact Nat.le_refl _

/-! ## Counting -/

/-- What counting hops is for. -/
structure HopsCount (network : Network ι) (trace : List (State ι × Act ι)) (now : State ι) :
    Prop where
  /-- A packet is passed on with one more hop, within the limit, and so are its copies. -/
  counts : ∀ {before flight receive}, (before, Act.deliver flight receive) ∈ trace →
    ∀ {received packet}, receiveTurn (network.server flight.reader) receive =
      .ok (true, received, some packet) →
    ∃ hops, network.hops flight = some hops ∧ packet.hops.toNat = hops + 1 ∧
      hops + 1 ≤ (network.receiveMaxHops flight.reader).toNat ∧
      ∀ copy ∈ network.copies flight packet, network.hops copy = some (hops + 1)
  /-- The hops rise along every path. -/
  rises : ∀ flight ∈ now.flights, (network.path flight).Pairwise (· > ·)
  /-- A text and its copies are passed on only so often, however long the run. -/
  stops : ∀ origin,
    trace.countP (network.forwards origin) ≤ budget network.fanOut network.maxHops

/-- **Counting hops.** Hop counts stop every loop exactly when no packet is passed on whose hops are
cut. -/
theorem hops_count_iff (network : Network ι) (libraries : network.Libraries)
    (run : Run network.Step .start trace now) :
    network.HopsCount trace now ↔ ∀ entry ∈ trace, network.Narrow entry := by
  constructor
  · rintro count ⟨before, act⟩ member
    cases act with
    | inject format reader text => trivial
    | lose flight => trivial
    | deliver flight receive =>
        obtain ⟨_, after, _, left, received, sent, _, ready, turned, _⟩ := run.of_mem member
        intro hops carried
        have counted := ready.counted libraries.stable turned
        cases counted with
        | header headed =>
            rw [headed] at carried
            cases carried
        | dropped hops' carried' reached =>
            cases carried.symm.trans carried'
            exact .inr reached
        | passed hops' carried' below packet next =>
            cases carried.symm.trans carried'
            obtain ⟨hops', carried', next', _⟩ := count.counts member turned
            cases carried.symm.trans carried'
            have narrow := Nat.mod_lt hops (show 2 ^ 16 > 0 by decide)
            exact .inl (by omega)
  · intro narrow
    have restricted := run.restrict narrow
    have rising : ∀ {before act after}, network.Rising before →
        network.Step before act after ∧ network.Narrow (before, act) → network.Rising after :=
      fun rising taken => rising.step libraries taken.1 taken.2
    refine ⟨fun {before flight receive} member received packet turned => ?_,
      fun flight member => ((restricted.invariant network.rising_start rising) flight member).2,
      fun origin => ?_⟩
    · obtain ⟨_, after, _, taken⟩ := run.of_mem member
      obtain ⟨left, _, sent, _, turned', how⟩ := Step.delivered libraries taken (narrow _ member)
      cases turned.symm.trans turned'
      obtain ⟨nothing, _⟩ | ⟨_, hops, same, carried, next, below, copies, _⟩ := how
      · cases nothing
      · cases same
        exact ⟨hops, carried, next, below, fun copy inside => (copies copy inside).1⟩
    · have spent := restricted.spend network.rising_start rising (network.potential origin)
        (network.forwards origin) fun rising taken =>
          potential_step libraries origin rising taken.1 taken.2
      exact (Nat.le_add_left _ _).trans (spent.trans_eq (if_neg (Nat.not_lt_zero _)))

/-! ## A ring -/

/-- Two instances, each with a proto link to the other. -/
def ring (limit : UInt32) : Network Bool where
  jansson := .flat
  protobuf := .reading
  serverId node := .ofAscii (if node then "a" else "b")
  receiveMaxHops _ := limit
  links node
    | .json => []
    | .proto => [{ send := { fd := 4, stat := ⟨0, 4⟩ }, reader := !node }]

theorem ring_libraries (limit : UInt32) : (ring limit).Libraries :=
  ⟨Jansson.flat_stable, Jansson.flat_loads, Jansson.flat_dumps, Protobuf.reading_packs,
    Protobuf.reading_unpacks⟩

/-- The text of a packet on its way around the ring. -/
def ringFlight (node : Bool) (packet : Packet) (origin : Nat) (trail : List Nat) :
    Flight Bool where
  format := .proto
  reader := node
  text := Wire.blob 1 (protoMessage packet).wire
  origin := origin
  trail := trail

/-- A connection that has read the hello of the other instance, and then a packet. -/
def ringReceive (node : Bool) (packet : Packet) : Receive where
  id := uuidGen (Cells.fill 16 0)
  stat := ⟨0, 3⟩
  buf := bufHolding (Cells.fill bufLenMax 0) (Wire.blob 1 (protoMessage packet).wire)
  parserState :=
    parserStateInit.withHeader (protoHelloHeader (.ofAscii (if node then "b" else "a")))
  parser := some .proto

variable {limit : UInt32} {node : Bool} {packet : Packet}

theorem ring_fits (sane : packet.Sane) :
    (Wire.blob 1 (protoMessage packet).wire).length ≤ bufLenMax := by
  have short := protoMessage_length sane
  have length := (protoWrapToBuf_eq Protobuf.reading_packs
    (show (protoMessage packet).wire.length < 128 by omega)).2
  rw [bufLenMax]
  omega

theorem ring_record (sane : packet.Sane) (origin : Nat) (trail : List Nat) :
    ∃ record, (ring limit).record (ringFlight node packet origin trail) = some record ∧
      record.hops = some packet.hops.toNat := by
  obtain ⟨text, record, serialized, front, hops⟩ := @RecordFormat.proto_serialized .flat .reading
    Protobuf.reading_packs Protobuf.reading_unpacks packet sane
  cases serialized.symm.trans (protoSerialize_eq Protobuf.reading_packs sane)
  exact ⟨record, front, hops⟩

theorem ring_ready (sane : packet.Sane) (origin : Nat) (trail : List Nat) :
    (ring limit).Ready (ringFlight node packet origin trail) (ringReceive node packet) where
  valid := Buf.valid_bufHolding _ (ring_fits sane)
  parser := rfl
  front := by
    rw [ringReceive, Buf.window_bufHolding _ (ring_fits sane)]
    exact List.prefix_refl _
  record := by
    obtain ⟨record, found, _⟩ := @ring_record limit node packet sane origin trail
    rw [found, Option.isSome_some]

/-- A packet is passed on around the ring with the hops that 16 bits hold, and one more. -/
theorem ring_turn (sane : packet.Sane) (below : packet.hops.toNat % 2 ^ 16 < limit.toNat) :
    ∃ received passed, receiveTurn ((ring limit).server node) (ringReceive node packet) =
        .ok (true, received, some passed) ∧ passed.Sane ∧
      passed.hops.toNat = packet.hops.toNat % 2 ^ 16 + 1 ∧ passed.inputStat = ⟨0, 3⟩ := by
  have window := Buf.window_bufHolding (Cells.fill bufLenMax 0) (ring_fits sane)
  have valid := Buf.valid_bufHolding (Cells.fill bufLenMax 0) (ring_fits sane)
  have other : CString.ofAscii (if node then "b" else "a") ≠
      ((ring limit).server node).serverId := by
    change _ ≠ CString.ofAscii (if node then "a" else "b")
    cases node <;> decide
  have accepted := protoHelloHeader_accepted other
  obtain ⟨taken, state, parsed, _⟩ := @ParserState.Greeted.parse _ _ _
    (ParserState.greeted_withHeader (protoHelloHeader (.ofAscii (if node then "b" else "a"))))
    _ accepted (receivePacket (ringReceive node packet)) (protoSent packet sane)
    (protoSent packet sane).within_max
  obtain ⟨rest, found, _⟩ := @protoParse_of_blob _ _
    { buf := (ringReceive node packet).buf, packet := receivePacket (ringReceive node packet)
      state := (ringReceive node packet).parserState } valid (protoMessage packet).wire []
    _ (by rw [List.append_nil]; exact window)
    (Protobuf.reading_unpacks (protoMessage packet)) _ _ parsed
  have sound : (ringReceive node packet).Sound :=
    ⟨packetValidateId_uuidGen _, valid, fun _ => accepted.mhz,
      fun _ => UInt32.pos_iff_ne_zero.mpr accepted.rssiMax⟩
  obtain ⟨more, received, sent, turned, _, passes⟩ :=
    @Receive.Sound.receiveTurn ((ring limit).server node) Jansson.flat_positions _ sound
  -- Of what the turn can do, finding nothing and taking a header are ruled out.
  have isFound : more = true := by
    obtain ⟨⟨found', after, packet'⟩, wrapped, turned⟩ := Except.bind_eq_ok.mp turned
    change receiveParseWrapper _ .proto _ _ = _ at wrapped
    obtain ⟨⟨_, attempt⟩, ran, same⟩ := Except.bind_eq_ok.mp wrapped
    cases found.symm.trans ran
    cases same
    simp only [Bool.not_true, Bool.false_eq_true, ↓reduceIte] at turned
    split_ifs at turned <;> (cases turned; rfl)
  subst isFound
  obtain ⟨record, carried, hops⟩ := @ring_record limit node packet sane 0 []
  have arrived : (ring limit).hops (ringFlight node packet 0 []) = some packet.hops.toNat := by
    rw [Network.hops, carried, Option.bind_some, hops]
  have counted := Ready.counted Jansson.flat_stable
    (@ring_ready limit node packet sane 0 []) turned
  cases counted with
  | header headed => cases arrived.symm.trans headed
  | dropped hops' carried' reached =>
      cases arrived.symm.trans carried'
      exact absurd below (Nat.not_lt.mpr reached)
  | passed hops' carried' _ passed next =>
      cases arrived.symm.trans carried'
      exact ⟨received, passed, turned, passes passed rfl, next,
        (receiveTurn_origin turned).2 passed rfl⟩

/-- A packet that is passed on is on its way to the other instance. -/
theorem ring_copies {passed : Packet} (sane : passed.Sane) (stat : passed.inputStat = ⟨0, 3⟩)
    (flight : Flight Bool) :
    (ring limit).copies flight passed =
      [ringFlight (!flight.reader) passed flight.origin ((ring limit).path flight)] := by
  have json : (ring limit).copiesFor flight passed .json = [] := by
    have serialized := jsonSerialize_eq Jansson.flat_dumps sane
    have serialized' : RecordFormat.json.serialize (ring limit).jansson (ring limit).protobuf passed =
      _ := serialized
    rw [copiesFor, serialized']
    dsimp only
    split <;> rfl
  have proto : (ring limit).copiesFor flight passed .proto =
      [ringFlight (!flight.reader) passed flight.origin ((ring limit).path flight)] := by
    have serialized : RecordFormat.proto.serialize (ring limit).jansson (ring limit).protobuf passed =
      _ := protoSerialize_eq Protobuf.reading_packs sane
    have elsewhere : (ring limit).linksFor flight.reader passed .proto =
        [{ send := { fd := 4, stat := ⟨0, 4⟩ }, reader := !flight.reader }] := by
      refine List.filter_eq_self.mpr fun link member => ?_
      rw [List.mem_singleton.mp member, stat]
      exact decide_eq_true (by decide : (⟨0, 4⟩ : Stat) ≠ ⟨0, 3⟩)
    rw [copiesFor, serialized, elsewhere]
    dsimp only
    rw [if_neg (by rw [Wire.blob_one]; exact List.cons_ne_nil _ _)]
    rfl
  rw [copies, RecordFormat.all, List.flatMap_cons, List.flatMap_cons, json, proto]
  rfl

theorem ring_sends (sane : packet.Sane) : (ring limit).Sends node packet := by
  let sending : Sending :=
    { sendHead := fun serializer =>
        if serializer = .proto then [{ fd := 4, stat := ⟨0, 4⟩ }] else []
      statsState := ⟨0, fun _ => 0, 0⟩, packets := [], written := [], shutDown := [] }
  obtain ⟨after, ran⟩ := @sendWrite_total ((ring limit).server node)
    { clock := fun _ => 0, takes := fun _ => true } packet sending Jansson.flat_dumps
    Protobuf.reading_packs sane
  exact ⟨_, sending, after, fun format => by cases format <;> rfl, ran⟩

/-- **Around the ring.** A packet alone on its way around the ring is delivered, and then is again,
with one hop more than 16 bits hold of its hops. -/
theorem ring_step (sane : packet.Sane) (below : packet.hops.toNat % 2 ^ 16 < limit.toNat)
    (origin injected : Nat) (trail : List Nat) :
    ∃ passed : Packet, passed.Sane ∧ passed.hops.toNat = packet.hops.toNat % 2 ^ 16 + 1 ∧
      (ring limit).forwards origin
        (⟨{ringFlight node packet origin trail}, injected⟩,
          .deliver (ringFlight node packet origin trail) (ringReceive node packet)) = true ∧
      (ring limit).Step ⟨{ringFlight node packet origin trail}, injected⟩
        (.deliver (ringFlight node packet origin trail) (ringReceive node packet))
        ⟨{ringFlight (!node) passed origin (packet.hops.toNat :: trail)}, injected⟩ := by
  obtain ⟨received, passed, turned, sane', next, stat⟩ := @ring_turn limit node packet sane below
  obtain ⟨record, carried, hops⟩ := @ring_record limit node packet sane origin trail
  refine ⟨passed, sane', next, ?_, 0, received, some passed, rfl, ring_ready sane origin trail,
    turned, fun other member => ?_, ?_⟩
  · have turned' : receiveTurn ((ring limit).server (ringFlight node packet origin trail).reader)
      (ringReceive node packet) = _ := turned
    simp only [forwards, turned']
    exact Bool.and_eq_true_iff.mpr ⟨decide_eq_true rfl, rfl⟩
  · cases Option.mem_some_iff.mp member
    exact ring_sends sane'
  · rw [Option.elim_some, ring_copies sane' stat, path, Network.hops, carried, Option.bind_some, hops]
    rfl

/-- A run that injects a packet into the ring. -/
theorem ring_inject (node : Bool) (packet : Packet) :
    Run (ring limit).Step .start
      [(.start, .inject .proto node (Wire.blob 1 (protoMessage packet).wire))]
      ⟨{ringFlight node packet 0 []}, 1⟩ :=
  .step .start rfl

/-- **Endless loops.** Where the limits do not fit 16 bits, one packet can be passed on around the
ring any number of times. -/
theorem ring_loops (wide : 2 ^ 16 ≤ limit.toNat) (sane : packet.Sane) (count : Nat) :
    ∃ trace now, Run (ring limit).Step .start trace now ∧ now.injected = 1 ∧
      trace.countP ((ring limit).forwards 0) = count := by
  have looped : ∃ trace node trail, ∃ packet : Packet, packet.Sane ∧
      Run (ring limit).Step .start trace ⟨{ringFlight node packet 0 trail}, 1⟩ ∧
      trace.countP ((ring limit).forwards 0) = count := by
    induction count with
    | zero => exact ⟨_, true, [], packet, sane, ring_inject true packet, rfl⟩
    | succ count ih =>
        obtain ⟨trace, node, trail, packet, sane, run, counted⟩ := ih
        have below : packet.hops.toNat % 2 ^ 16 < limit.toNat :=
          Nat.lt_of_lt_of_le (Nat.mod_lt _ (by decide)) wide
        obtain ⟨passed, sane', _, forwarded, taken⟩ :=
          @ring_step limit node packet sane below 0 1 trail
        refine ⟨_, !node, _, passed, sane', run.step taken, ?_⟩
        rw [List.countP_cons_of_pos forwarded, counted]
  obtain ⟨trace, node, trail, packet, _, run, counted⟩ := looped
  exact ⟨trace, _, run, rfl, counted⟩

/-- A packet with some hops. -/
def hoppedPacket (hops : UInt32) : Packet := { stampedPacket 3 with hops := hops }

theorem hoppedPacket_sane (hops : UInt32) : (hoppedPacket hops).Sane :=
  ⟨rfl, nofun, (by decide : (3 : UInt64) ≤ packetMlatMax)⟩

/-- With a limit of 17 bits, a hundred times. -/
theorem ring_loops_hundred :
    ∃ trace now, Run (ring 65536).Step .start trace now ∧ now.injected = 1 ∧
      trace.countP ((ring 65536).forwards 0) = 100 :=
  ring_loops (by decide) (hoppedPacket_sane 0) 100

/-- A packet that is injected without hops is counted. -/
theorem hops_count_first :
    ∃ trace now, Run (ring 10).Step .start trace now ∧
      trace.countP ((ring 10).forwards 0) = 1 ∧ (ring 10).HopsCount trace now := by
  obtain ⟨passed, _, _, forwarded, taken⟩ := @ring_step 10 true (hoppedPacket 0)
    (hoppedPacket_sane 0) (by decide) 0 1 []
  have run := (@ring_inject 10 true (hoppedPacket 0)).step taken
  refine ⟨_, _, run, by rw [List.countP_cons_of_pos forwarded]; rfl, ?_⟩
  refine (hops_count_iff (ring 10) (ring_libraries 10) run).mpr ?_
  refine List.forall_mem_cons.mpr ⟨fun hops carried => .inl ?_, List.forall_mem_singleton.mpr trivial⟩
  obtain ⟨record, found, counted⟩ := @ring_record 10 true (hoppedPacket 0) (hoppedPacket_sane 0) 0 []
  rw [Network.hops, found, Option.bind_some, counted] at carried
  cases carried
  decide

/-- A packet that is injected with 65536 hops is passed on with one. -/
theorem hops_cut :
    ∃ trace now, Run (ring 10).Step .start trace now ∧ ¬ (ring 10).HopsCount trace now := by
  obtain ⟨passed, _, _, forwarded, taken⟩ := @ring_step 10 true (hoppedPacket 65536)
    (hoppedPacket_sane 65536) (by decide) 0 1 []
  have run := (@ring_inject 10 true (hoppedPacket 65536)).step taken
  refine ⟨_, _, run, fun count => ?_⟩
  obtain ⟨received, passed, turned, _, next, _⟩ := @ring_turn 10 true (hoppedPacket 65536)
    (hoppedPacket_sane 65536) (by decide)
  obtain ⟨hops, carried, same, _⟩ := count.counts List.mem_cons_self turned
  obtain ⟨record, found, counted⟩ :=
    @ring_record 10 true (hoppedPacket 65536) (hoppedPacket_sane 65536) 0 []
  rw [Network.hops, found, Option.bind_some, counted] at carried
  cases carried
  rw [next] at same
  exact absurd same (by decide)

end Network

end Adsbus

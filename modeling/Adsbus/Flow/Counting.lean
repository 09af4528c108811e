import Adsbus.Flow.FanOut
import Adsbus.Flow.Safe

/-! # Counting packets

The stats serializer counts a packet only while it has a connection, whichever connection this is,
and over the whole life of the process. After every thousandth it writes the counts by type
(`Adsbus.stats_reported`).
-/

namespace Adsbus

/-! ## Calls -/

/-- A call of `send_write`: when it is made, and for which connections. -/
structure Call where
  now : Int64
  packet : Packet
  sendHead : Serializer → List Send

/-- The packets that are sent while there is a connection for stats. -/
def counted (calls : List Call) : List Packet :=
  (calls.filter fun call => call.sendHead .stats ≠ []).map Call.packet

/-- The counts that include some packets more. -/
def StatsState.count (stats : StatsState) (packets : List Packet) : StatsState where
  totalCount := stats.totalCount + UInt64.ofNat packets.length
  typeCount := fun type =>
    stats.typeCount type + UInt64.ofNat (packets.countP fun packet => packet.type = type)
  start := stats.start

/-- The line that is written with some counts, if it is time for one. -/
def statsLine (server : Server) (now : Int64) (stats : StatsState) : Bytes :=
  if stats.totalCount % 1000 ≠ 0 then []
  else server.jansson.text (.object (statsObject now stats)) ++ ['\n'.toUInt8]

/-- What a call writes when there are some counts with it: a line to each connection for stats that
is elsewhere, and whatever the other formats have. -/
def Call.Writes (server : Server) (stats : StatsState) (call : Call)
    (writes : List (Nat × Bytes)) : Prop :=
  ∃ others, writes = others ++
      formatWrites call.packet (statsLine server call.now stats) (call.sendHead .stats) ∧
    ∀ write ∈ others, ∃ serializer, serializer ≠ .stats ∧
      ∃ send ∈ call.sendHead serializer, write.1 = send.fd

/-- What calls write one after another, from some counts on. -/
inductive Reported (server : Server) (stats : StatsState) : List Call → List (Nat × Bytes) → Prop
  | nil : Reported server stats [] []
  | call {calls : List Call} {written here : List (Nat × Bytes)} {call : Call} :
      Reported server stats calls written →
      call.Writes server (stats.count (counted (calls ++ [call]))) here →
      Reported server stats (calls ++ [call]) (written ++ here)

/-- The calls that lead from one state of sending to another. -/
structure Accounted (server : Server) (start : Sending) (calls : List Call) (sending : Sending) :
    Prop where
  packets : sending.packets = start.packets ++ calls.map Call.packet
  statsState : sending.statsState = start.statsState.count (counted calls)
  written : ∃ written, sending.written = start.written ++ written ∧
    Reported server start.statsState calls written
  typed : ∀ call ∈ calls, call.packet.type ≠ .none

/-- The calls for packets in an event, when there were so many packets before. -/
def callsOf (outside : Outside) (sendHead : Serializer → List Send) (before : Nat)
    (packets : List Packet) : List Call :=
  (packets.zipIdx before).map fun (packet, index) => ⟨outside.clock index, packet, sendHead⟩

/-- The calls that a process makes in events one after another, as long as none of them fails. -/
def Process.calls (server : Server) (outside : Outside) (process : Process) :
    List Event → List Call
  | [] => []
  | event :: events =>
      match process.step server outside event with
      | .error _ => []
      | .ok next =>
          callsOf outside process.sending.sendHead process.sending.packets.length
              (next.sending.packets.drop process.sending.packets.length) ++
            next.calls server outside events

/-- The counts by type add up to the count of all. -/
def StatsState.Balanced (stats : StatsState) : Prop :=
  PacketType.frames.foldr (fun type sum => stats.typeCount type + sum) 0 = stats.totalCount

/-! ## Counts -/

variable {server : Server} {outside : Outside} {packet : Packet} {sending after start : Sending}
  {calls : List Call}

theorem counted_append (first second : List Call) :
    counted (first ++ second) = counted first ++ counted second := by
  rw [counted, List.filter_append, List.map_append]
  rfl

namespace StatsState

theorem count_nil (stats : StatsState) : stats.count [] = stats := by
  cases stats
  simp [count]

/-- One packet more, in the words of `stats_serialize`. -/
theorem count_singleton (stats : StatsState) (packet : Packet) : stats.count [packet] =
    { stats with
      totalCount := stats.totalCount + 1
      typeCount := Function.update stats.typeCount packet.type
        (stats.typeCount packet.type + 1) } := by
  have types : (fun type => stats.typeCount type +
      UInt64.ofNat ([packet].countP fun packet => packet.type = type)) =
        Function.update stats.typeCount packet.type (stats.typeCount packet.type + 1) := by
    funext type
    by_cases same : type = packet.type
    · rw [same, Function.update_self, List.countP_singleton, if_pos (decide_eq_true rfl)]
      rfl
    · rw [Function.update_of_ne same, List.countP_singleton,
        if_neg (by simpa using Ne.symm same)]
      exact UInt64.add_zero _
  rw [count, types]
  rfl

theorem count_append (stats : StatsState) (first second : List Packet) :
    stats.count (first ++ second) = (stats.count first).count second := by
  simp only [count, List.length_append, List.countP_append, UInt64.ofNat_add, UInt64.add_assoc]

/-- Packets that have a type keep the counts balanced. -/
theorem Balanced.count {stats : StatsState} (balanced : stats.Balanced) {packets : List Packet}
    (typed : ∀ packet ∈ packets, packet.type ≠ .none) : (stats.count packets).Balanced := by
  induction packets generalizing stats with
  | nil => rwa [count_nil]
  | cons packet packets ih =>
      obtain ⟨here, later⟩ := List.forall_mem_cons.mp typed
      rw [← List.singleton_append, count_append]
      refine ih ?_ later
      simp only [Balanced, PacketType.frames, List.foldr_cons, List.foldr_nil] at balanced ⊢
      cases type : packet.type with
      | none => exact absurd type here
      | modeAc => simp [StatsState.count, type, ← balanced, UInt64.add_assoc, UInt64.add_comm 1]
      | modeSShort => simp [StatsState.count, type, ← balanced, UInt64.add_assoc, UInt64.add_comm 1]
      | modeSLong => simp [StatsState.count, type, ← balanced, UInt64.add_assoc]

end StatsState

/-- What the stats serializer makes of a packet. -/
theorem statsSerialize_eq {stats after : StatsState} {now : Int64} {buf : Bytes}
    (ran : statsSerialize server.jansson now (some packet) stats [] = .ok (buf, after)) :
    after = stats.count [packet] ∧ buf = statsLine server now after := by
  have total : (stats.count [packet]).totalCount = stats.totalCount + 1 := rfl
  simp only [statsSerialize, ← StatsState.count_singleton] at ran
  split at ran
  · next early =>
      cases ran
      exact ⟨rfl, by rw [statsLine, total, if_pos early]⟩
  · next due =>
      obtain ⟨text, dumped, done⟩ := Except.bind_eq_ok.mp ran
      cases done
      refine ⟨rfl, ?_⟩
      rw [statsLine, total, if_neg due, jsonSerializeToBuf_text dumped, List.nil_append]

/-! ## What a call does -/

/-- The last format of `send_write`. -/
theorem sendFormat_stats {now : Int64}
    (ran : sendFormat server outside now packet sending .stats = .ok after) :
    after.statsState = sending.statsState.count
        (counted [{ now := now, packet := packet, sendHead := sending.sendHead }]) ∧
      formatWrites packet (serialized server now packet sending.statsState .stats)
          (sending.sendHead .stats) =
        formatWrites packet (statsLine server now after.statsState) (sending.sendHead .stats) := by
  by_cases empty : sending.sendHead .stats = []
  · rw [sendFormat, if_pos empty] at ran
    cases ran
    rw [empty, formatWrites_nil, formatWrites_nil]
    refine ⟨?_, rfl⟩
    rw [counted, List.filter_cons_of_neg (by simpa using empty), List.filter_nil, List.map_nil,
      StatsState.count_nil]
  · have counts : counted [{ now := now, packet := packet, sendHead := sending.sendHead }] =
        [packet] := by
      rw [counted, List.filter_cons_of_pos (by simpa using empty), List.filter_nil]
      rfl
    rw [sendFormat, if_neg empty] at ran
    obtain ⟨⟨buf, stats⟩, made, done⟩ := Except.bind_eq_ok.mp ran
    obtain ⟨next, line⟩ := statsSerialize_eq made
    have kept : after.statsState = stats := by
      dsimp only at done
      split at done
      · cases done
        rfl
      · cases done
        exact foldl_sendTo_statsState _ _
    rw [kept, serialized, made, counts]
    exact ⟨next, by rw [line]⟩

/-- **One call.** -/
theorem sendWrite_call (ran : sendWrite server outside sending packet = .ok after) :
    let call : Call := ⟨outside.clock sending.packets.length, packet, sending.sendHead⟩
    after.statsState = sending.statsState.count (counted [call]) ∧
      ∃ here, after.written = sending.written ++ here ∧
        call.Writes server after.statsState here := by
  obtain ⟨_, _, ran⟩ := Except.bind_eq_ok.mp ran
  rw [show Serializer.all = [.airspyAdsb, .beast, .json, .proto, .raw] ++ [.stats] from rfl,
    List.foldlM_append] at ran
  obtain ⟨between, first, last⟩ := Except.bind_eq_ok.mp ran
  obtain ⟨wrote, kept⟩ := sendFormats_wrote (by decide) first
  rw [List.foldlM_cons] at last
  obtain ⟨_, stats, done⟩ := Except.bind_eq_ok.mp last
  cases done
  have others : ∃ others, between.written = sending.written ++ others ∧
      ∀ write ∈ others, ∃ serializer, serializer ≠ .stats ∧
        ∃ send ∈ sending.sendHead serializer, write.1 = send.fd := by
    refine ⟨_, wrote.written, fun write member => ?_⟩
    obtain ⟨serializer, other, member⟩ := List.mem_flatMap.mp member
    rw [formatWrites] at member
    split at member
    · cases member
    · obtain ⟨send, there, rfl⟩ := List.mem_map.mp member
      refine ⟨serializer, ?_, send, (List.mem_filter.mp there).1, rfl⟩
      rintro rfl
      revert other
      decide
  obtain ⟨others, before, only⟩ := others
  obtain ⟨wrote', _⟩ := sendFormat_wrote stats
  obtain ⟨next, line⟩ := sendFormat_stats stats
  rw [kept] at next
  rw [wrote.sendHead] at next line wrote'
  refine ⟨next, _, ?_, others, congrArg (others ++ ·) line, only⟩
  rw [wrote'.written, before, List.append_assoc]

/-! ## What a process does -/

theorem Accounted.refl (server : Server) (sending : Sending) :
    Accounted server sending [] sending where
  packets := (List.append_nil _).symm
  statsState := (StatsState.count_nil _).symm
  written := ⟨[], (List.append_nil _).symm, .nil⟩
  typed := List.forall_mem_nil _

/-- One call more. -/
theorem Accounted.sendWrite (accounted : Accounted server start calls sending)
    (typed : packet.type ≠ .none)
    (ran : Adsbus.sendWrite server outside sending packet = .ok after) :
    Accounted server start (calls ++
      [⟨outside.clock sending.packets.length, packet, sending.sendHead⟩]) after := by
  obtain ⟨next, here, wrote, writes⟩ := sendWrite_call ran
  have counts : after.statsState = start.statsState.count (counted (calls ++
      [⟨outside.clock sending.packets.length, packet, sending.sendHead⟩])) := by
    rw [next, accounted.statsState, counted_append, StatsState.count_append]
  obtain ⟨written, before, reported⟩ := accounted.written
  refine ⟨?_, counts, ⟨written ++ here, ?_, .call reported (counts ▸ writes)⟩, ?_⟩
  · rw [sendWrite_packets ran, accounted.packets, List.map_append, List.append_assoc]
    rfl
  · rw [wrote, before, List.append_assoc]
  · intro other member
    rcases List.mem_append.mp member with earlier | last
    · exact accounted.typed other earlier
    · rw [List.mem_singleton.mp last]
      exact typed

theorem callsOf_append (outside : Outside) (sendHead : Serializer → List Send) (before : Nat)
    (packets : List Packet) (packet : Packet) :
    callsOf outside sendHead before (packets ++ [packet]) =
      callsOf outside sendHead before packets ++
        [⟨outside.clock (before + packets.length), packet, sendHead⟩] := by
  rw [callsOf, List.zipIdx_append, List.map_append]
  rfl

/-- Connections that come and go make no call. -/
theorem Accounted.congr (accounted : Accounted server start calls sending)
    (sendHead : Serializer → List Send) :
    Accounted server start calls { sending with sendHead := sendHead } :=
  ⟨accounted.packets, accounted.statsState, accounted.written, accounted.typed⟩

/-- A packet that is passed on has a type. -/
theorem receiveTurn_typed {receive after : Receive} {packet : Packet} {found : Bool}
    (turned : receiveTurn server receive = .ok (found, after, some packet)) :
    packet.type ≠ .none := by
  obtain ⟨⟨found', after', packet'⟩, _, turned⟩ := Except.bind_eq_ok.mp turned
  cases found' with
  | false => cases turned
  | true =>
      simp only [Bool.not_true, Bool.false_eq_true, ↓reduceIte] at turned
      split at turned
      · cases turned
      · next typed =>
          split at turned
          · cases turned
          · cases turned
            exact typed

section Keeps

variable {τ : Type} {sendWrite : τ → Packet → Except Fault τ} {holds : τ → Prop}

/-- What every call keeps of what was sent, the loop keeps. -/
theorem receiveLoop_keeps (keeps : ∀ {sent packet next}, packet.type ≠ .none →
      sendWrite sent packet = .ok next → holds sent → holds next)
    {turns : Nat} {receive final : Receive} {sent last : τ}
    (ran : receiveLoop server sendWrite turns receive sent = .ok (final, last))
    (held : holds sent) : holds last := by
  induction turns generalizing receive sent with
  | zero => cases ran
  | succ turns ih =>
      rw [receiveLoop] at ran
      split at ran
      · cases ran
        exact held
      · obtain ⟨⟨found, receive', packet⟩, turned, ran⟩ := Except.bind_eq_ok.mp ran
        cases found with
        | false =>
            cases ran
            exact held
        | true =>
            cases packet with
            | none => exact ih ran held
            | some packet =>
                obtain ⟨sent', sends, ran⟩ := Except.bind_eq_ok.mp ran
                exact ih ran (keeps (receiveTurn_typed turned) sends held)

/-- So does a read. -/
theorem receiveRead_keeps (keeps : ∀ {sent packet next}, packet.type ≠ .none →
      sendWrite sent packet = .ok next → holds sent → holds next)
    {connection final : Reader.Connection Receive} {sent last : τ} {input : Bytes}
    (ran : receiveRead server sendWrite connection sent input = .ok (final, last))
    (held : holds sent) : holds last := by
  obtain ⟨receive, status⟩ := connection
  cases status with
  | live =>
      obtain ⟨buf, _, ran⟩ := Except.bind_eq_ok.mp ran
      dsimp only at ran
      split at ran
      · cases ran
        exact held
      · obtain ⟨⟨receive', sent'⟩, looped, ran⟩ := Except.bind_eq_ok.mp ran
        dsimp only at ran
        split at ran
        · cases ran
          exact receiveLoop_keeps keeps looped held
        · cases ran
          exact receiveLoop_keeps keeps looped held
  | ended =>
      cases ran
      exact held
  | overrun =>
      cases ran
      exact held

end Keeps

/-- One event. -/
theorem Accounted.step {process next : Process} {event : Event}
    (ran : process.step server outside event = .ok next)
    (accounted : Accounted server start calls process.sending) :
    Accounted server start (calls ++
      callsOf outside process.sending.sendHead process.sending.packets.length
        (next.sending.packets.drop process.sending.packets.length)) next.sending := by
  have none : ∀ {sending : Sending}, sending.packets = process.sending.packets →
      callsOf outside process.sending.sendHead process.sending.packets.length
        (sending.packets.drop process.sending.packets.length) = [] := by
    intro sending same
    rw [same, List.drop_length]
    rfl
  cases event with
  | receiveNew random stat memory =>
      cases ran
      rwa [none rfl, List.append_nil]
  | sendNew serializer send =>
      cases ran
      rw [none rfl, List.append_nil]
      exact accounted.congr _
  | sendDel serializer send =>
      cases ran
      rw [none rfl, List.append_nil]
      exact accounted.congr _
  | read index input =>
      rw [Process.step] at ran
      split at ran
      · cases ran
        rwa [none rfl, List.append_nil]
      · obtain ⟨⟨connection, sending⟩, read, done⟩ := Except.bind_eq_ok.mp ran
        cases done
        have sends : ∃ packets, sending.packets = process.sending.packets ++ packets ∧
            sending.sendHead = process.sending.sendHead ∧
            Accounted server start (calls ++ callsOf outside process.sending.sendHead
              process.sending.packets.length packets) sending := by
          refine @receiveRead_keeps server _ _ (fun sending => ∃ packets,
              sending.packets = process.sending.packets ++ packets ∧
              sending.sendHead = process.sending.sendHead ∧
              Accounted server start (calls ++ callsOf outside process.sending.sendHead
                process.sending.packets.length packets) sending) ?_ _ _ _ _ _ read
            ⟨[], (List.append_nil _).symm, rfl, by rwa [callsOf, List.zipIdx_nil, List.map_nil,
              List.append_nil]⟩
          intro sent packet next typed ran held
          obtain ⟨packets, listed, same, accounted⟩ := held
          refine ⟨packets ++ [packet], ?_, (sendWrite_wrote ran).sendHead.trans same, ?_⟩
          · rw [sendWrite_packets ran, listed, List.append_assoc]
          · have called := accounted.sendWrite typed ran
            rwa [listed, List.length_append, same, List.append_assoc, ← callsOf_append] at called
        obtain ⟨packets, listed, _, accounted⟩ := sends
        rwa [listed, List.drop_left]

/-- A connection for stats, when 999 packets have been counted. -/
def almost : Process where
  receives := []
  sending := {
    sendHead := Function.update (fun _ => []) .stats [⟨7, 0, 1⟩]
    statsState := ⟨999, fun type => if type = .modeAc then 999 else 0, 0⟩
    packets := [], written := [], shutDown := [] }

/-- One packet is read, which is the thousandth. -/
def thousandth : List Event :=
  [.receiveNew (Cells.fill 16 0) ⟨0, 0⟩ (Cells.fill bufLenMax 0), .read 0 (ascii "*0102;\n")]

end Adsbus

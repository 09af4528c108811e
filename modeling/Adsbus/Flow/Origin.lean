import Adsbus.Flow.Receive

/-! # Where a packet comes from

A packet is told apart from what other connections receive by the identity of the socket it came
from. No parser changes it, whatever it makes of its input, so that the packets of a receive
connection carry the identity of this connection's socket.
-/

namespace Adsbus

open Reader

variable {server : Server}

/-- A parser leaves the origin of its packet alone. -/
def KeepsOrigin (parse : Parse) : Prop :=
  ∀ {attempt found after}, parse attempt = .ok (found, after) →
    after.packet.inputStat = attempt.packet.inputStat

theorem KeepsOrigin.parseFirst {parses : List Parse} (each : ∀ parse ∈ parses, KeepsOrigin parse) :
    KeepsOrigin (parseFirst parses) := by
  induction parses with
  | nil =>
      intro attempt found after parsed
      cases parsed
      rfl
  | cons parse parses ih =>
      intro attempt found after parsed
      obtain ⟨⟨here, between⟩, first, rest⟩ := Except.bind_eq_ok.mp parsed
      have kept := each parse List.mem_cons_self first
      cases here with
      | true =>
          cases rest
          exact kept
      | false =>
          exact (ih (fun parse member => each parse (List.mem_cons_of_mem _ member)) rest).trans kept

/-! ## Framed formats -/

theorem rawParsePacket_keepsOrigin (type : PacketType) : KeepsOrigin (rawParsePacket type) := by
  intro attempt found after parsed
  simp only [rawParsePacket] at parsed
  split_ifs at parsed
  · cases parsed
    rfl
  · cases parsed
    rfl
  · obtain ⟨_, _, rest⟩ := Except.bind_eq_ok.mp parsed
    cases rest
    rfl
  · obtain ⟨_, _, rest⟩ := Except.bind_eq_ok.mp parsed
    cases rest
    rfl

theorem airspyAdsbParsePacket_keepsOrigin (type : PacketType) :
    KeepsOrigin (airspyAdsbParsePacket type) := by
  intro attempt found after parsed
  simp only [airspyAdsbParsePacket] at parsed
  split_ifs at parsed
  · cases parsed
    rfl
  · cases parsed
    rfl
  · cases parsed
    rfl
  all_goals
    obtain ⟨_, _, parsed⟩ := Except.bind_eq_ok.mp parsed
    obtain ⟨_, _, parsed⟩ := Except.bind_eq_ok.mp parsed
  · cases parsed
    rfl
  all_goals
    obtain ⟨_, _, rest⟩ := Except.bind_eq_ok.mp parsed
    cases rest
    rfl

theorem beastParse_keepsOrigin : KeepsOrigin beastParse := by
  intro attempt found after parsed
  simp only [beastParse] at parsed
  split at parsed
  · cases parsed
    rfl
  split at parsed
  · simp only [beastParsePacket] at parsed
    split at parsed
    · cases parsed
      rfl
    · obtain ⟨_, _, parsed⟩ := Except.bind_eq_ok.mp parsed
      obtain ⟨_, _, parsed⟩ := Except.bind_eq_ok.mp parsed
      obtain ⟨_, _, parsed⟩ := Except.bind_eq_ok.mp parsed
      cases parsed
      rfl
  · cases parsed
    rfl

/-! ## Records -/

section Records

variable {packet left : Packet} {state after : ParserState} {found : Bool}

theorem jsonParseTimestamp_keepsOrigin {obj : Json}
    (parsed : jsonParseTimestamp obj packet state = .ok (found, left, after)) :
    left.inputStat = packet.inputStat := by
  unfold jsonParseTimestamp at parsed
  split at parsed
  · split at parsed
    · cases parsed
      rfl
    · obtain ⟨_, _, rest⟩ := Except.bind_eq_ok.mp parsed
      cases rest
      rfl
  · cases parsed
    rfl

theorem jsonParseRssi_keepsOrigin {obj : Json}
    (parsed : jsonParseRssi obj packet state = .ok (found, left)) :
    left.inputStat = packet.inputStat := by
  unfold jsonParseRssi at parsed
  split at parsed
  · split at parsed
    · cases parsed
      rfl
    · obtain ⟨_, _, rest⟩ := Except.bind_eq_ok.mp parsed
      cases rest
      rfl
  · cases parsed
    rfl

theorem jsonParseCommon_keepsOrigin {obj : Json}
    (parsed : jsonParseCommon obj packet state = .ok (found, left, after)) :
    left.inputStat = packet.inputStat := by
  unfold jsonParseCommon at parsed
  dsimp only at parsed
  split at parsed
  · cases parsed
    rfl
  split at parsed
  · cases parsed
    rfl
  split at parsed
  · cases parsed
    rfl
  split_ifs at parsed
  · cases parsed
    rfl
  · cases parsed
    rfl
  · obtain ⟨⟨timed, between, _⟩, first, parsed⟩ := Except.bind_eq_ok.mp parsed
    have kept := jsonParseTimestamp_keepsOrigin first
    cases timed with
    | false =>
        cases parsed
        exact kept
    | true =>
        obtain ⟨⟨_, last⟩, second, rest⟩ := Except.bind_eq_ok.mp parsed
        have kept' := jsonParseRssi_keepsOrigin second
        cases rest
        exact kept'.trans kept

theorem jsonParsePayload_keepsOrigin {obj : Json} {type : PacketType}
    (parsed : jsonParsePayload obj packet state type = .ok (found, left, after)) :
    left.inputStat = packet.inputStat := by
  obtain ⟨⟨common, between, _⟩, first, parsed⟩ := Except.bind_eq_ok.mp parsed
  have kept := jsonParseCommon_keepsOrigin first
  cases common with
  | false =>
      cases parsed
      exact kept
  | true =>
      simp only [Bool.not_true, Bool.false_eq_true, ↓reduceIte] at parsed
      split at parsed
      · cases parsed
        exact kept
      split_ifs at parsed
      all_goals
        cases parsed
        exact kept

theorem jsonParseObject_keepsOrigin {obj : Json}
    (parsed : jsonParseObject server.serverId obj packet state = .ok (found, left, after)) :
    left.inputStat = packet.inputStat := by
  unfold jsonParseObject at parsed
  split at parsed
  · cases parsed
    rfl
  split at parsed
  · cases parsed
    rfl
  · rename_i chosen
    simp only [jsonParser] at chosen
    split_ifs at chosen <;> cases chosen
    · unfold jsonParseHeader at parsed
      dsimp only at parsed
      split at parsed
      · split_ifs at parsed <;> cases parsed <;> rfl
      · cases parsed
        rfl
    all_goals exact jsonParsePayload_keepsOrigin parsed

theorem protoParseTimestamp_keepsOrigin {input : AdsbPacket}
    (parsed : protoParseTimestamp input packet state = .ok (left, after)) :
    left.inputStat = packet.inputStat := by
  unfold protoParseTimestamp at parsed
  split at parsed
  · cases parsed
    rfl
  · obtain ⟨_, _, rest⟩ := Except.bind_eq_ok.mp parsed
    cases rest
    rfl

theorem protoParseRssi_keepsOrigin {input : AdsbPacket}
    (parsed : protoParseRssi input packet state = .ok left) :
    left.inputStat = packet.inputStat := by
  unfold protoParseRssi at parsed
  split at parsed
  · cases parsed
    rfl
  · obtain ⟨_, _, rest⟩ := Except.bind_eq_ok.mp parsed
    cases rest
    rfl

theorem protoParsePacket_keepsOrigin {input : AdsbPacket} {len : Nat}
    (parsed : protoParsePacket input packet state len = .ok (found, left, after)) :
    left.inputStat = packet.inputStat := by
  unfold protoParsePacket at parsed
  split_ifs at parsed
  · cases parsed
    rfl
  · cases parsed
    rfl
  · cases parsed
    rfl
  · obtain ⟨⟨timed, _⟩, first, parsed⟩ := Except.bind_eq_ok.mp parsed
    obtain ⟨strong, second, rest⟩ := Except.bind_eq_ok.mp parsed
    cases rest
    rw [protoParseRssi_keepsOrigin second, protoParseTimestamp_keepsOrigin first]

theorem protoParseRecord_keepsOrigin {msg : Adsb}
    (parsed : protoParseRecord server.serverId msg packet state = .ok (found, left, after)) :
    left.inputStat = packet.inputStat := by
  have typed : ∀ {input : AdsbPacket} {len : Nat} {type : PacketType},
      (protoParsePacket input packet state len >>= fun parsed =>
        Except.ok (parsed.1, if parsed.1 then { parsed.2.1 with type := type } else parsed.2.1,
          parsed.2.2)) = .ok (found, left, after) → left.inputStat = packet.inputStat := by
    intro input len type parsed
    obtain ⟨⟨here, between, _⟩, first, rest⟩ := Except.bind_eq_ok.mp parsed
    have kept := protoParsePacket_keepsOrigin first
    cases here <;> cases rest <;> exact kept
  unfold protoParseRecord at parsed
  split at parsed
  · simp only [Except.ok.injEq, Prod.mk.injEq] at parsed
    obtain ⟨_, rfl, _⟩ := parsed
    split <;> rfl
  · exact typed parsed
  · exact typed parsed
  · exact typed parsed
  · cases parsed
    rfl

end Records

theorem Format.parse_keepsOrigin (format : Format) : KeepsOrigin (format.parse server) := by
  cases format with
  | airspyAdsb =>
      refine KeepsOrigin.parseFirst fun parse member => ?_
      obtain ⟨type, _, rfl⟩ := List.mem_map.mp member
      exact airspyAdsbParsePacket_keepsOrigin type
  | beast => exact beastParse_keepsOrigin
  | raw =>
      refine KeepsOrigin.parseFirst fun parse member => ?_
      obtain ⟨type, _, rfl⟩ := List.mem_map.mp member
      exact rawParsePacket_keepsOrigin type
  | json =>
      intro attempt found after parsed
      change jsonParse server.jansson server.serverId attempt = _ at parsed
      unfold jsonParse at parsed
      split at parsed
      · obtain ⟨⟨here, packet, state⟩, object, parsed⟩ := Except.bind_eq_ok.mp parsed
        have kept := jsonParseObject_keepsOrigin object
        cases here with
        | false =>
            cases parsed
            exact kept
        | true =>
            obtain ⟨_, _, parsed⟩ := Except.bind_eq_ok.mp parsed
            obtain ⟨_, _, parsed⟩ := Except.bind_eq_ok.mp parsed
            obtain ⟨_, _, rest⟩ := Except.bind_eq_ok.mp parsed
            cases rest
            exact kept
      · cases parsed
        rfl
  | proto =>
      intro attempt found after parsed
      change protoParse server.protobuf server.serverId attempt = _ at parsed
      unfold protoParse at parsed
      split at parsed
      · cases parsed
        rfl
      · obtain ⟨⟨here, packet, state⟩, record, parsed⟩ := Except.bind_eq_ok.mp parsed
        have kept := protoParseRecord_keepsOrigin record
        cases here with
        | false =>
            cases parsed
            exact kept
        | true =>
            obtain ⟨_, _, rest⟩ := Except.bind_eq_ok.mp parsed
            cases rest
            exact kept

/-! ## Connections -/

section Connections

variable {receive left : Receive} {found : Bool}

theorem receiveAutodetectLoop_keepsOrigin {origPacket : Packet} {formats : List Format}
    {attempt after : Attempt} {format : Option Format}
    (same : attempt.packet.inputStat = origPacket.inputStat)
    (looped : receiveAutodetectLoop server origPacket formats attempt = .ok (format, after)) :
    after.packet.inputStat = origPacket.inputStat := by
  induction formats generalizing attempt with
  | nil =>
      cases looped
      exact same
  | cons first formats ih =>
      obtain ⟨⟨here, between⟩, parsed, rest⟩ := Except.bind_eq_ok.mp looped
      have kept := (first.parse_keepsOrigin parsed).trans same
      cases here with
      | true =>
          cases rest
          exact kept
      | false =>
          simp only [Bool.false_eq_true, ↓reduceIte] at rest
          split at rest
          · exact ih rfl rest
          · cases rest
            exact kept

/-- A turn passes on a packet from its own socket. -/
theorem receiveTurn_origin {packet : Option Packet}
    (turned : receiveTurn server receive = .ok (found, left, packet)) :
    left.stat = receive.stat ∧ ∀ passed ∈ packet, passed.inputStat = receive.stat := by
  obtain ⟨⟨here, after, parsedPacket⟩, parsed, rest⟩ := Except.bind_eq_ok.mp turned
  have kept : after.stat = receive.stat ∧ parsedPacket.inputStat = receive.stat := by
    unfold receiveParse at parsed
    split at parsed
    · obtain ⟨⟨format, left⟩, looped, rest⟩ := Except.bind_eq_ok.mp parsed
      have kept := @receiveAutodetectLoop_keepsOrigin server (receivePacket receive) Format.all
        { buf := receive.buf, packet := receivePacket receive, state := receive.parserState } left
        format rfl looped
      cases rest
      exact ⟨rfl, kept⟩
    · obtain ⟨_, called, rest⟩ := Except.bind_eq_ok.mp parsed
      cases rest
      exact ⟨rfl, Format.parse_keepsOrigin _ called⟩
  cases here with
  | false =>
      cases rest
      exact ⟨kept.1, nofun⟩
  | true =>
      simp only [Bool.not_true, Bool.false_eq_true, ↓reduceIte] at rest
      split_ifs at rest
      · cases rest
        exact ⟨kept.1, nofun⟩
      · cases rest
        exact ⟨kept.1, nofun⟩
      · cases rest
        exact ⟨kept.1, fun _ same => by rw [← Option.mem_some_iff.mp same]; exact kept.2⟩

theorem receiveLoop_origin {turns : Nat} {sent packets : List Packet}
    (looped : receiveLoop server sendLog turns receive sent = .ok (left, packets)) :
    left.stat = receive.stat ∧
      ((∀ packet ∈ sent, packet.inputStat = receive.stat) →
        ∀ packet ∈ packets, packet.inputStat = receive.stat) := by
  induction turns generalizing receive sent with
  | zero => cases looped
  | succ turns ih =>
      rw [receiveLoop] at looped
      split at looped
      · cases looped
        exact ⟨rfl, id⟩
      · obtain ⟨⟨here, between, packet⟩, turned, rest⟩ := Except.bind_eq_ok.mp looped
        obtain ⟨stat, origin⟩ := receiveTurn_origin turned
        cases here with
        | false =>
            cases rest
            exact ⟨stat, id⟩
        | true =>
            cases packet with
            | none =>
                obtain ⟨stat', kept⟩ := ih rest
                rw [stat] at stat' kept
                exact ⟨stat', kept⟩
            | some packet =>
                obtain ⟨stat', kept⟩ := ih rest
                rw [stat] at stat' kept
                refine ⟨stat', fun before => kept fun other member => ?_⟩
                rcases List.mem_append.mp member with early | last
                · exact before other early
                · cases List.mem_singleton.mp last
                  exact origin _ rfl

/-- **Origins.** Whatever a connection reads, the packets that it passes to `send_write` carry the
identity of its own socket. -/
theorem receiveRead_origin {connection after : Connection Receive} {input : Bytes}
    {packets : List Packet}
    (ran : receiveRead server sendLog connection [] input = .ok (after, packets)) :
    after.reader.stat = connection.reader.stat ∧
      ∀ packet ∈ packets, packet.inputStat = connection.reader.stat := by
  obtain ⟨receive, status⟩ := connection
  cases status with
  | live =>
      obtain ⟨buf, _, rest⟩ := Except.bind_eq_ok.mp ran
      dsimp only at rest
      split at rest
      · cases rest
        exact ⟨rfl, nofun⟩
      · obtain ⟨⟨left, sent⟩, looped, rest⟩ := Except.bind_eq_ok.mp rest
        obtain ⟨stat, origin⟩ := receiveLoop_origin looped
        dsimp only at rest
        split at rest
        all_goals
          cases rest
          exact ⟨stat, origin nofun⟩
  | ended =>
      cases ran
      exact ⟨rfl, nofun⟩
  | overrun =>
      cases ran
      exact ⟨rfl, nofun⟩

end Connections

end Adsbus

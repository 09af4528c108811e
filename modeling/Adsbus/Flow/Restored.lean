import Adsbus.Flow.Framed
import Adsbus.Flow.Gate
import Adsbus.Flow.Safe

/-! # Failed attempts leave no trace

A parser that finds nothing may have changed the state that all formats share, and
`receive_autodetect_parse` restores the packet only. Nothing is lost by that: a receiver that
restores everything after every failed attempt emits the same packets and ends up with the same
parser (`Adsbus.restored_agree`).

The states of the two receivers may differ (`Adsbus.Alike`), but then no parser will look at the
difference: before a header nobody reads its ranges, raw frames do not tell the time, and where a
frame or a record was refused after the state was touched, the same is refused for good.
-/

namespace Adsbus

open Reader

variable (server : Server)

/-! ## The receiver that restores -/

/-- A parser that restores what it was given when it finds nothing. -/
def restoring (parse : Parse) : Parse := fun attempt => do
  let (found, after) ← parse attempt
  return (found, if found then after else attempt)

/-- The loop of `receive_autodetect_parse` with parsers that restore. -/
def restoredAutodetectLoop :
    List Format → Attempt → Except Fault (Option Format × Attempt)
  | [], attempt => .ok (none, attempt)
  | format :: formats, attempt => do
      let (found, attempt) ← restoring (format.parse server) attempt
      if found then
        return (some format, attempt)
      else
        restoredAutodetectLoop formats attempt

/-- `receive->parser_wrapper` with parsers that restore. -/
def restoredParse (receive : Receive) (packet : Packet) :
    Except Fault (Bool × Receive × Packet) :=
  let attempt := { buf := receive.buf, packet := packet, state := receive.parserState }
  match receive.parser with
  | none => do
      let (format, attempt) ← restoredAutodetectLoop server Format.all attempt
      return (format.isSome,
        { receive with buf := attempt.buf, parserState := attempt.state, parser := format },
        attempt.packet)
  | some format => do
      let (found, attempt) ← restoring (format.parse server) attempt
      return (found, { receive with buf := attempt.buf, parserState := attempt.state },
        attempt.packet)

/-- The body of the loop of `receive_read` with parsers that restore. -/
def restoredTurn (receive : Receive) : Except Fault (Bool × Receive × Option Packet) := do
  let (found, receive, packet) ← restoredParse server receive (receivePacket receive)
  if !found then
    return (false, receive, none)
  else if packet.type = .none then
    return (true, receive, none)
  else
    let packet := { packet with hops := packet.hops + 1 }
    if packet.hops > server.receiveMaxHops then
      return (true, receive, none)
    else
      return (true, receive, some packet)

/-- `receive_read` with parsers that restore. -/
def restoredReader : Reader Receive UInt8 Packet Fault :=
  { receiveReader server with
    turn := fun receive => do
      let (found, receive, packet) ← restoredTurn server receive
      return (found, receive, packet.toList) }

variable {server}

/-! ## States that differ -/

/-- A parser that finds nothing at the front of the window, whatever follows, with the states that
two connections have and come to. -/
def Stuck (parse : Parse) (packet : Packet) (window : Bytes) (first second : ParserState) : Prop :=
  ∃ states : ParserState → Prop, states first ∧ states second ∧
    ∀ {buf : Buf UInt8} {state}, buf.Valid → window <+: buf.window → states state →
      ∃ left after, parse { buf := buf, packet := packet, state := state } =
        .ok (false, { buf := buf, packet := left, state := after }) ∧ states after

/-- Two states between which no parser of a connection will find a difference. -/
inductive Alike (server : Server) (packet : Packet) (window : Bytes) :
    Option Format → ParserState → ParserState → Prop
  | same {mode : Option Format} {state : ParserState} : Alike server packet window mode state state
  | headless {mode : Option Format} {first second : ParserState}
      (headless : first.haveHeader = false) (headless' : second.haveHeader = false)
      (times : first.mlatState = second.mlatState) : Alike server packet window mode first second
  | raw {first second : ParserState} : Alike server packet window (some .raw) first second
  | spent {first second : ParserState} (spent : AirspyAdsbSpent window) :
      Alike server packet window none first second
  | stuck {format : Format} {first second : ParserState}
      (stuck : Stuck (format.parse server) packet window first second) :
      Alike server packet window (some format) first second

variable {packet : Packet} {window : Bytes} {mode : Option Format} {first second : ParserState}

theorem Alike.append (alike : Alike server packet window mode first second) (more : Bytes) :
    Alike server packet (window ++ more) mode first second := by
  cases alike with
  | same => exact .same
  | headless headless headless' times => exact .headless headless headless' times
  | raw => exact .raw
  | spent spent =>
      obtain ⟨star, dead⟩ := spent
      refine .spent ⟨?_, dead.append more⟩
      rw [List.getElem?_append_left (List.getElem?_eq_some_iff.mp star).1, star]
  | stuck stuck =>
      obtain ⟨states, isFirst, isSecond, refuses⟩ := stuck
      exact .stuck ⟨states, isFirst, isSecond, fun valid inside =>
        refuses valid ((List.prefix_append window more).trans inside)⟩

/-- Two calls of a parser that differ in the state: both find a record and leave the same but
perhaps states with a property, or both find nothing and leave the buffer. -/
inductive Agrees (parse : Parse) (buf : Buf UInt8) (packet : Packet) (first second : ParserState)
    (taken : ParserState → ParserState → Prop) (refused : ParserState → Prop) : Prop
  | take {rest : Buf UInt8} {left : Packet} {after after' : ParserState}
      (call : parse { buf := buf, packet := packet, state := first } =
        .ok (true, { buf := rest, packet := left, state := after }))
      (call' : parse { buf := buf, packet := packet, state := second } =
        .ok (true, { buf := rest, packet := left, state := after' }))
      (property : taken after after')
  | refuse {left left' : Packet} {after after' : ParserState}
      (call : parse { buf := buf, packet := packet, state := first } =
        .ok (false, { buf := buf, packet := left, state := after }))
      (call' : parse { buf := buf, packet := packet, state := second } =
        .ok (false, { buf := buf, packet := left', state := after' }))
      (property : refused after)

variable {buf : Buf UInt8}

/-! ## The framed formats -/

/-- A parser consumes from the front of the buffer what it finds, and nothing else. -/
def Consumes (parse : Parse) : Prop :=
  ∀ {attempt found after}, parse attempt = .ok (found, after) →
    if found then ∃ count, bufConsume attempt.buf count = .ok after.buf
    else after.buf = attempt.buf

theorem Consumes.parseFirst {parses : List Parse} (takes : ∀ parse ∈ parses, Consumes parse) :
    Consumes (Adsbus.parseFirst parses) := by
  induction parses with
  | nil =>
      intro attempt found after parsed
      cases parsed
      rfl
  | cons parse parses ih =>
      intro attempt found after parsed
      obtain ⟨⟨here, left⟩, called, parsed⟩ := Except.bind_eq_ok.mp parsed
      have taken := takes parse List.mem_cons_self called
      cases here with
      | true =>
          cases parsed
          exact taken
      | false =>
          rw [← taken]
          exact ih (fun parse member => takes parse (List.mem_cons_of_mem _ member)) parsed

theorem airspyAdsbParsePacket_consumes (type : PacketType) : Consumes (airspyAdsbParsePacket type) := by
  intro attempt found after parsed
  unfold airspyAdsbParsePacket at parsed
  dsimp only at parsed
  split_ifs at parsed
  · cases parsed
    rfl
  · cases parsed
    rfl
  · cases parsed
    rfl
  all_goals
    obtain ⟨_, _, parsed⟩ := Except.bind_eq_ok.mp parsed
    obtain ⟨_, _, parsed⟩ := Except.bind_eq_ok.mp parsed
  · cases parsed
    rfl
  all_goals
    obtain ⟨_, consumed, parsed⟩ := Except.bind_eq_ok.mp parsed
    cases parsed
    exact ⟨_, consumed⟩

theorem beastParse_consumes : Consumes beastParse := by
  intro attempt found after parsed
  unfold beastParse at parsed
  split_ifs at parsed
  · cases parsed
    rfl
  · split at parsed
    · unfold beastParsePacket at parsed
      dsimp only at parsed
      split at parsed
      · cases parsed
        rfl
      · obtain ⟨_, _, parsed⟩ := Except.bind_eq_ok.mp parsed
        obtain ⟨_, _, parsed⟩ := Except.bind_eq_ok.mp parsed
        obtain ⟨_, consumed, parsed⟩ := Except.bind_eq_ok.mp parsed
        cases parsed
        exact ⟨_, consumed⟩
    · cases parsed
      rfl

theorem rawParsePacket_consumes (type : PacketType) : Consumes (rawParsePacket type) := by
  intro attempt found after parsed
  unfold rawParsePacket at parsed
  dsimp only at parsed
  split_ifs at parsed
  · cases parsed
    rfl
  · cases parsed
    rfl
  all_goals
    obtain ⟨_, consumed, parsed⟩ := Except.bind_eq_ok.mp parsed
    cases parsed
    exact ⟨_, consumed⟩

theorem Format.parse_consumes {format : Format} (framed : format ∈ Format.framed) :
    Consumes (format.parse server) := by
  cases format with
  | airspyAdsb =>
      refine Consumes.parseFirst fun parse member => ?_
      obtain ⟨type, _, rfl⟩ := List.mem_map.mp member
      exact airspyAdsbParsePacket_consumes type
  | beast => exact beastParse_consumes
  | raw =>
      refine Consumes.parseFirst fun parse member => ?_
      obtain ⟨type, _, rfl⟩ := List.mem_map.mp member
      exact rawParsePacket_consumes type
  | json => exact absurd framed (by decide)
  | proto => exact absurd framed (by decide)

/-- Consuming to the same window leaves the same buffer. -/
theorem bufConsume_determined {rest rest' : Buf UInt8} {count count' : Nat}
    (consumed : bufConsume buf count = .ok rest) (consumed' : bufConsume buf count' = .ok rest')
    (valid : rest.Valid) (valid' : rest'.Valid) (same : rest.window = rest'.window) :
    rest = rest' := by
  obtain ⟨within, left⟩ := Buf.of_bufConsume consumed
  obtain ⟨within', left'⟩ := Buf.of_bufConsume consumed'
  have lengths := congrArg List.length same
  rw [valid.window_length, valid'.window_length] at lengths
  have counts : count = count' := by omega
  rw [counts, consumed', Except.ok.injEq] at consumed
  exact consumed.symm

/-- A frame that is refused changes the MLAT state at most. -/
theorem Format.parse_refuses {format : Format} (framed : format ∈ Format.framed)
    {attempt : Attempt} (valid : attempt.buf.Valid)
    (none : format.code.front attempt.buf.window = none) :
    ∃ packet mlatState, format.parse server attempt = .ok (false,
        { attempt with packet := packet, state := { attempt.state with mlatState := mlatState } }) ∧
      (mlatState = attempt.state.mlatState ∨
        format = .airspyAdsb ∧ AirspyAdsbSpent attempt.buf.window) := by
  cases format with
  | airspyAdsb =>
      obtain ⟨packet, state, parsed, left⟩ := airspyAdsbParse_parses.reject valid none
      exact ⟨packet, state, parsed, left.imp_right fun spent => ⟨rfl, spent⟩⟩
  | beast =>
      obtain ⟨packet, state, parsed, left⟩ := beastParse_parses.reject valid none
      exact ⟨packet, state, parsed, left.imp_right False.elim⟩
  | raw =>
      obtain ⟨packet, state, parsed, left⟩ := rawParse_parses.reject valid none
      exact ⟨packet, state, parsed, left.imp_right False.elim⟩
  | json => exact absurd framed (by decide)
  | proto => exact absurd framed (by decide)

/-- Where the MLAT states differ, frames can be found by the raw parser only. -/
theorem Format.timeless {format : Format} {frame : Frame} {count : Nat}
    (found : format.code.front window = some (frame, count))
    (late : AirspyAdsbSpent window ∨ format = .raw) : frame.reception = none ∧ format = .raw := by
  rcases late with spent | rfl
  · have timeless := timeless_spent spent (some format) [] format frame count
      (front_frameCode.mpr ⟨.inr rfl, by rwa [List.append_nil]⟩)
    exact ⟨timeless, Format.eq_raw found timeless⟩
  · have timeless := timeless_raw window [] .raw frame count
      (front_frameCode.mpr ⟨.inr rfl, by rwa [List.append_nil]⟩)
    exact ⟨timeless, rfl⟩

/-- The parsers of the framed formats read the MLAT state only. -/
theorem Format.agrees_framed {format : Format} (framed : format ∈ Format.framed)
    (valid : buf.Valid) (packet : Packet)
    (times : first.mlatState = second.mlatState ∨ AirspyAdsbSpent buf.window ∨ format = .raw) :
    Agrees (format.parse server) buf packet first second
      (fun after after' => after.haveHeader = first.haveHeader ∧
        after'.haveHeader = second.haveHeader ∧
        (after.mlatState = after'.mlatState ∨ format = .raw))
      (fun after => after.haveHeader = first.haveHeader ∧
        (after = first ∨ format = .airspyAdsb ∧ AirspyAdsbSpent buf.window)) := by
  cases front : format.code.front buf.window with
  | none =>
      obtain ⟨left, mlatState, call, how⟩ := @Format.parse_refuses server format framed
        { buf := buf, packet := packet, state := first } valid front
      obtain ⟨left', mlatState', call', _⟩ := @Format.parse_refuses server format framed
        { buf := buf, packet := packet, state := second } valid front
      refine .refuse call call' ⟨rfl, how.imp_left fun same => ?_⟩
      rw [same]
  | some result =>
      obtain ⟨frame, count⟩ := result
      obtain ⟨⟨rest, left, after⟩, call, accepted⟩ := @Format.parse_accept server format
        { buf := buf, packet := packet, state := first } frame count valid front
      obtain ⟨⟨rest', left', after'⟩, call', accepted'⟩ := @Format.parse_accept server format
        { buf := buf, packet := packet, state := second } frame count valid front
      have packets : first.mlatState = second.mlatState ∨ frame.reception = none :=
        times.imp_right fun late => (Format.timeless front late).1
      obtain ⟨_, consumed⟩ := Format.parse_consumes framed call
      obtain ⟨_, consumed'⟩ := Format.parse_consumes framed call'
      have buffers : rest = rest' := bufConsume_determined consumed consumed' accepted.valid
        accepted'.valid (accepted.window.trans accepted'.window.symm)
      have lefts : left = left' :=
        accepted.packet.trans ((Frame.store_fst packets packet).trans accepted'.packet.symm)
      subst buffers lefts
      refine .take call call' ?_
      have states := accepted.state
      have states' := accepted'.state
      dsimp only at states states'
      rw [states, states']
      refine ⟨rfl, rfl, ?_⟩
      rcases times with same | late
      · rw [same]
        exact .inl rfl
      · exact .inr (Format.timeless front late).2

/-! ## Before a header -/

/-- What is consumed of an object depends on the object only. -/
theorem jsonParse_of_taken (positions : server.jansson.Positions) (valid : buf.Valid)
    {fields : List (Bytes × Json)} {position : Nat}
    (loaded : server.jansson.loadb buf.window = some (.object fields, position)) :
    ∃ rest, ∀ {packet left : Packet} {state after : ParserState},
      jsonParseObject server.serverId (.object fields) packet state = .ok (true, left, after) →
        jsonParse server.jansson server.serverId { buf := buf, packet := packet, state := state } =
          .ok (true, { buf := rest, packet := left, state := after }) := by
  obtain ⟨positive, inside⟩ := positions loaded
  rw [valid.window_length] at inside
  have whole : bufAt buf 0 buf.length = buf.window := rfl
  obtain ⟨behind, consumed, valid', _, window⟩ := Buf.consume valid.inside position inside
  obtain ⟨rest, skipped, valid'', dropped⟩ := jsonSkipSeparators_eq valid' (Nat.lt_succ_self _)
  refine ⟨rest, fun parsed => ?_⟩
  simp only [jsonParse, whole, loaded, parsed, Except.ok_bind, Bool.not_true, Bool.false_eq_true,
    ↓reduceIte, positive, decide_true, check_true, consumed, skipped, Except.pure_eq_ok]

/-- What is consumed of a record depends on the record only. -/
theorem protoParse_of_taken (valid : buf.Valid) {msg : Adsb} {len : Nat}
    (front : protoFront server.protobuf buf.window = some (msg, len)) :
    ∃ rest, ∀ {packet left : Packet} {state after : ParserState},
      protoParseRecord server.serverId msg packet state = .ok (true, left, after) →
        protoParse server.protobuf server.serverId
            { buf := buf, packet := packet, state := state } =
          .ok (true, { buf := rest, packet := left, state := after }) := by
  have unwrapped := @protoUnwrap_eq_front server.protobuf _ valid
  rw [front] at unwrapped
  obtain ⟨rest, consumed, _⟩ := Buf.consume valid.inside len (protoUnwrap_inside unwrapped)
  refine ⟨rest, fun parsed => ?_⟩
  simp only [protoParse, unwrapped, parsed, Except.ok_bind, Bool.not_true, Bool.false_eq_true,
    ↓reduceIte, consumed, Except.pure_eq_ok]

/-- A header that is taken sets all that states without a header differ in. -/
theorem ParserState.opened_eq (times : first.mlatState = second.mlatState) (mhz : UInt16)
    (max : UInt64) (rssiMax : UInt32) :
    first.opened mhz max rssiMax = second.opened mhz max rssiMax := by
  simp only [ParserState.opened, ParserState.ranges, times]

/-- Before a header the json parser takes headers only. -/
theorem json_agrees_headless (positions : server.jansson.Positions) (valid : buf.Valid)
    (packet : Packet) (headless : first.haveHeader = false) (headless' : second.haveHeader = false)
    (times : first.mlatState = second.mlatState) :
    Agrees (Format.json.parse server) buf packet first second Eq (fun after => after = first) := by
  by_cases present : ∃ fields position,
      server.jansson.loadb buf.window = some (.object fields, position)
  · obtain ⟨fields, position, loaded⟩ := present
    rcases jsonParseObject_headless server.serverId (.object fields) with
      refused | ⟨mhz, max, rssiMax, taken⟩
    · exact .refuse (jsonParse_of_refused loaded (refused packet headless))
        (jsonParse_of_refused loaded (refused packet headless')) rfl
    · obtain ⟨rest, takes⟩ := jsonParse_of_taken positions valid loaded
      exact .take (takes (taken packet first)) (takes (taken packet second))
        (ParserState.opened_eq times mhz max rssiMax)
  · have nothing : ∀ state, Format.json.parse server
        { buf := buf, packet := packet, state := state } =
          .ok (false, { buf := buf, packet := packet, state := state }) := fun state =>
      (jsonParse_cases server.jansson server.serverId _).resolve_right
        fun ⟨fields, position, loaded, _⟩ => present ⟨fields, position, loaded⟩
    exact .refuse (nothing first) (nothing second) rfl

/-- Before a header the proto parser takes headers only. -/
theorem proto_agrees_headless (valid : buf.Valid) (packet : Packet)
    (headless : first.haveHeader = false) (headless' : second.haveHeader = false)
    (times : first.mlatState = second.mlatState) :
    Agrees (Format.proto.parse server) buf packet first second Eq
      (fun after => after.haveHeader = false ∧ after.mlatState = first.mlatState) := by
  cases front : protoFront server.protobuf buf.window with
  | none =>
      have nothing : ∀ state, Format.proto.parse server
          { buf := buf, packet := packet, state := state } =
            .ok (false, { buf := buf, packet := packet, state := state }) := fun state =>
        protoParse_of_none (by rw [protoUnwrap_eq_front valid, front])
      exact .refuse (nothing first) (nothing second) ⟨headless, rfl⟩
  | some result =>
      obtain ⟨msg, len⟩ := result
      rcases protoParseRecord_headless server.serverId msg with
        refused | ⟨mhz, max, rssiMax, taken⟩
      · obtain ⟨after, refusal, left⟩ := refused packet headless
        obtain ⟨after', refusal', _⟩ := refused packet headless'
        exact .refuse (protoParse_of_refused valid front refusal)
          (protoParse_of_refused valid front refusal') left
      · obtain ⟨rest, takes⟩ := protoParse_of_taken valid front
        exact .take (takes (taken packet first)) (takes (taken packet second))
          (ParserState.opened_eq times mhz max rssiMax)

theorem Agrees.imp {parse : Parse} {taken taken' : ParserState → ParserState → Prop}
    {refused refused' : ParserState → Prop}
    (agrees : Agrees parse buf packet first second taken refused)
    (takes : ∀ {after after'}, taken after after' → taken' after after')
    (refuses : ∀ {after}, refused after → refused' after) :
    Agrees parse buf packet first second taken' refused' := by
  cases agrees with
  | take call call' property => exact .take call call' (takes property)
  | refuse call call' property => exact .refuse call call' (refuses property)

/-- **Before a header.** All parsers agree on states without a header that have the same MLAT
state, or where a frame was spoilt. -/
theorem Format.agrees_headless (positions : server.jansson.Positions)
    (star : server.jansson.Rejects '*'.toUInt8) (format : Format) (valid : buf.Valid)
    (packet : Packet) (headless : first.haveHeader = false) (headless' : second.haveHeader = false)
    (times : first.mlatState = second.mlatState ∨ AirspyAdsbSpent buf.window) :
    Agrees (format.parse server) buf packet first second
      (fun after after' => ∀ packet window, Alike server packet window (some format) after after')
      (fun after => after.haveHeader = false ∧ (after.mlatState = first.mlatState ∨
        format = .airspyAdsb ∧ AirspyAdsbSpent buf.window)) := by
  by_cases framed : format ∈ Format.framed
  · refine (Format.agrees_framed framed valid packet (times.imp_right .inl)).imp ?_ ?_
    · rintro after after' ⟨kept, kept', same⟩ packet window
      rcases same with same | rfl
      · exact .headless (kept.trans headless) (kept'.trans headless') same
      · exact .raw
    · rintro after ⟨kept, same⟩
      refine ⟨kept.trans headless, same.imp_left fun same => ?_⟩
      rw [same]
  · rcases times with same | spent
    · cases format with
      | airspyAdsb => exact absurd (by decide) framed
      | beast => exact absurd (by decide) framed
      | raw => exact absurd (by decide) framed
      | json =>
          refine (json_agrees_headless positions valid packet headless headless' same).imp ?_ ?_
          · rintro after _ rfl packet window
            exact .same
          · rintro after rfl
            exact ⟨headless, .inl rfl⟩
      | proto =>
          refine (proto_agrees_headless valid packet headless headless' same).imp ?_ ?_
          · rintro after _ rfl packet window
            exact .same
          · rintro after ⟨kept, same⟩
            exact ⟨kept, .inl same⟩
    · have nothing : ∀ state, format.parse server
          { buf := buf, packet := packet, state := state } =
            .ok (false, { buf := buf, packet := packet, state := state }) := by
        intro state
        cases format with
        | airspyAdsb => exact absurd (by decide) framed
        | beast => exact absurd (by decide) framed
        | raw => exact absurd (by decide) framed
        | json =>
            refine jsonParse_of_none ?_
            obtain ⟨inside, first⟩ := List.getElem?_eq_some_iff.mp spent.1
            change server.jansson.loadb buf.window = none
            rw [← List.drop_zero (l := buf.window), List.drop_eq_getElem_cons inside, first]
            exact star _
        | proto =>
            refine protoParse_of_none (protoUnwrap_of_ne ?_)
            rw [(valid.window_eq_some.mp spent.1).2]
            decide
      exact .refuse (nothing first) (nothing second) ⟨headless, .inl rfl⟩

/-! ## What a refusal leaves -/

/-- Where an airspy_adsb frame was spoilt, its parser finds nothing any more. -/
theorem stuck_spent (spent : AirspyAdsbSpent window) :
    Stuck (Format.airspyAdsb.parse server) packet window first second := by
  refine ⟨fun _ => True, trivial, trivial, fun {buf state} valid inside _ => ?_⟩
  obtain ⟨more, whole⟩ := inside
  have none : airspyAdsbCode.front buf.window = none := by
    rw [← whole]
    exact spent.2 more
  obtain ⟨left, mlatState, call, _⟩ := @Format.parse_refuses server .airspyAdsb (by decide)
    { buf := buf, packet := packet, state := state } valid none
  exact ⟨left, _, call, trivial⟩

/-- A json packet that was refused stays refused: only the MLAT state may have changed. -/
theorem json_refused (stable : server.jansson.Stable) {state after : ParserState} {left : Packet}
    (call : Format.json.parse server { buf := buf, packet := packet, state := state } =
      .ok (false, { buf := buf, packet := left, state := after })) :
    Alike server packet buf.window (some .json) after state := by
  rcases jsonParse_cases server.jansson server.serverId
      { buf := buf, packet := packet, state := state } with nothing | ⟨fields, position, loaded, decides⟩
  · rw [show Format.json.parse server { buf := buf, packet := packet, state := state } = _ from
      nothing, Except.ok.injEq, Prod.mk.injEq, Attempt.mk.injEq] at call
    rw [← call.2.2.2]
    exact .same
  · obtain ⟨decided, -⟩ := decides call
    dsimp only at decided
    rcases jsonParseObject_cases server.serverId (.object fields) with
      refused | ⟨_, _, _, isHeader⟩ | ⟨type, isPacket⟩
    · rw [refused, Except.ok.injEq, Prod.mk.injEq, Prod.mk.injEq] at decided
      rw [← decided.2.2]
      exact .same
    · rcases jsonParseHeader_cases server.serverId (.object fields) with
        refused | ⟨_, _, _, _, taken⟩
      · rw [isHeader, refused, Except.ok.injEq, Prod.mk.injEq, Prod.mk.injEq] at decided
        rw [← decided.2.2]
        exact .same
      · rw [isHeader, taken] at decided
        exact nomatch decided
    · rw [isPacket] at decided
      have same := (jsonParsePayload_left decided).1
      refine .stuck ⟨fun other => ∃ mlatState, other = { state with mlatState := mlatState },
        ⟨_, same⟩, ⟨state.mlatState, rfl⟩, ?_⟩
      rintro larger _ _ ⟨more, whole⟩ ⟨mlatState, rfl⟩
      have untimed := jsonParsePayload_untimed (.object fields) packet state type mlatState
      rw [decided] at untimed
      generalize again : jsonParsePayload (.object fields) packet
        { state with mlatState := mlatState } type = result at untimed
      cases untimed with
      | ok timestamp mlatState' =>
          have reloaded : server.jansson.loadb larger.window = some (.object fields, position) := by
            rw [← whole]
            exact stable loaded _ ((List.take_prefix _ _).trans (List.prefix_append _ _))
          have refused := (isPacket packet { state with mlatState := mlatState }).trans again
          exact ⟨_, _, @jsonParse_of_refused _ _ { buf := larger, packet := packet, state := _ } _ _
            reloaded _ _ refused, mlatState', by rw [same]⟩

/-- A proto record that was refused stays refused: only our own header may have left its ranges. -/
theorem proto_refused (valid : buf.Valid) {state after : ParserState} {left : Packet}
    (call : Format.proto.parse server { buf := buf, packet := packet, state := state } =
      .ok (false, { buf := buf, packet := left, state := after })) :
    Alike server packet buf.window (some .proto) after state := by
  rcases @protoParse_cases server.protobuf server.serverId
      { buf := buf, packet := packet, state := state } valid with
    nothing | ⟨msg, len, front, decides⟩
  · rw [show Format.proto.parse server { buf := buf, packet := packet, state := state } = _ from
      nothing, Except.ok.injEq, Prod.mk.injEq, Attempt.mk.injEq] at call
    rw [← call.2.2.2]
    exact .same
  · obtain ⟨decided, -⟩ := decides call
    dsimp only at decided
    rcases protoParseRecord_cases server.serverId msg with
      ⟨_, refused⟩ | ⟨header, _, isHeader⟩ | ⟨_, input, type, isPacket⟩
    · rw [refused, Except.ok.injEq, Prod.mk.injEq, Prod.mk.injEq] at decided
      rw [← decided.2.2]
      exact .same
    · rw [isHeader, Except.ok.injEq, Prod.mk.injEq, Prod.mk.injEq] at decided
      rcases protoParseHeader_cases server.serverId header with
        refused | ⟨mhz, max, rssiMax, refused⟩ | ⟨_, _, _, _, taken⟩
      · rw [refused] at decided
        rw [← decided.2.2]
        exact .same
      · refine .stuck ⟨fun _ => True, trivial, trivial, ?_⟩
        rintro larger other valid' ⟨more, whole⟩ _
        have stays := protoFront_append front more
        change protoFront _ (buf.window ++ more) = _ at stays
        rw [whole] at stays
        refine ⟨packet, other.ranges mhz max rssiMax, protoParse_of_refused valid' stays ?_, trivial⟩
        rw [isHeader, refused]
        rfl
      · rw [taken] at decided
        exact nomatch decided.1
    · rw [isPacket] at decided
      split at decided
      · cases stored : input.stored type packet state with
        | error _ =>
            rw [stored] at decided
            exact nomatch decided
        | ok stored' =>
            rw [stored] at decided
            exact nomatch decided
      · rw [Except.ok.injEq, Prod.mk.injEq, Prod.mk.injEq] at decided
        rw [← decided.2.2]
        exact .same

/-- **A refusal leaves no difference** that the same parser will find. -/
theorem Format.refused_alike (stable : server.jansson.Stable) {format : Format} (valid : buf.Valid)
    {state after : ParserState} {left : Packet}
    (call : format.parse server { buf := buf, packet := packet, state := state } =
      .ok (false, { buf := buf, packet := left, state := after })) :
    Alike server packet buf.window (some format) after state := by
  by_cases framed : format ∈ Format.framed
  · cases front : format.code.front buf.window with
    | some result =>
        obtain ⟨frame, count⟩ := result
        obtain ⟨_, taken, _⟩ := @Format.parse_accept server format
          { buf := buf, packet := packet, state := state } frame count valid front
        rw [call] at taken
        exact nomatch taken
    | none =>
        obtain ⟨left', mlatState, call', how⟩ := @Format.parse_refuses server format framed
          { buf := buf, packet := packet, state := state } valid front
        rw [call, Except.ok.injEq, Prod.mk.injEq, Attempt.mk.injEq] at call'
        rcases how with same | ⟨rfl, spent⟩
        · rw [call'.2.2.2, same]
          exact .same
        · exact .stuck (stuck_spent spent)
  · cases format with
    | airspyAdsb => exact absurd (by decide) framed
    | beast => exact absurd (by decide) framed
    | raw => exact absurd (by decide) framed
    | json => exact json_refused stable call
    | proto => exact proto_refused valid call

/-! ## The two receivers -/

/-- The parser of a connection agrees on states that are alike. -/
theorem Format.agrees_alike (positions : server.jansson.Positions) (stable : server.jansson.Stable)
    (star : server.jansson.Rejects '*'.toUInt8) {format : Format} (valid : buf.Valid)
    (scaled : first.Scaled) (passing : packet.Passing)
    (alike : Alike server packet buf.window (some format) first second) :
    Agrees (format.parse server) buf packet first second
      (fun after after' => ∀ packet window, Alike server packet window (some format) after after')
      (fun after => Alike server packet buf.window (some format) after second) := by
  cases alike with
  | same =>
      obtain ⟨found, ⟨rest, left, after⟩, call, done⟩ := @Format.parse_safe server positions format
        { buf := buf, packet := packet, state := first } ⟨valid, scaled, passing⟩
      cases found with
      | true => exact .take call call fun _ _ => .same
      | false =>
          have kept := ((Format.parse_windowed server format).attempted valid call).eq_of_not_found
          dsimp only at kept
          subst kept
          exact .refuse call call (Format.refused_alike stable valid call)
  | headless headless headless' times =>
      refine (Format.agrees_headless positions star format valid packet headless headless'
        (.inl times)).imp id ?_
      rintro after ⟨kept, same | ⟨rfl, spent⟩⟩
      · exact .headless kept headless' (same.trans times)
      · exact .stuck (stuck_spent spent)
  | raw =>
      exact (Format.agrees_framed (by decide) valid packet (.inr (.inr rfl))).imp
        (fun _ _ _ => .raw) fun _ => .raw
  | stuck stuck =>
      obtain ⟨states, isFirst, isSecond, refuses⟩ := stuck
      obtain ⟨left, after, call, still⟩ := refuses valid (List.prefix_refl _) isFirst
      obtain ⟨left', after', call', _⟩ := refuses valid (List.prefix_refl _) isSecond
      exact .refuse call call' (.stuck ⟨states, still, isSecond, refuses⟩)

/-- Trying the formats with and without restoring the state finds the same. -/
theorem receiveAutodetectLoop_agrees (positions : server.jansson.Positions)
    (star : server.jansson.Rejects '*'.toUInt8) (formats : List Format) (valid : buf.Valid)
    (packet : Packet) (headless : first.haveHeader = false) (headless' : second.haveHeader = false)
    (times : first.mlatState = second.mlatState ∨ AirspyAdsbSpent buf.window) :
    (∃ format rest left after after',
      receiveAutodetectLoop server packet formats { buf := buf, packet := packet, state := first } =
        .ok (some format, { buf := rest, packet := left, state := after }) ∧
      restoredAutodetectLoop server formats { buf := buf, packet := packet, state := second } =
        .ok (some format, { buf := rest, packet := left, state := after' }) ∧
      ∀ packet window, Alike server packet window (some format) after after') ∨
    ∃ left after,
      receiveAutodetectLoop server packet formats { buf := buf, packet := packet, state := first } =
        .ok (none, { buf := buf, packet := left, state := after }) ∧
      restoredAutodetectLoop server formats { buf := buf, packet := packet, state := second } =
        .ok (none, { buf := buf, packet := packet, state := second }) ∧
      after.haveHeader = false ∧
      (after.mlatState = second.mlatState ∨ AirspyAdsbSpent buf.window) := by
  induction formats generalizing first with
  | nil => exact .inr ⟨packet, first, rfl, rfl, headless, times⟩
  | cons format formats ih =>
      cases Format.agrees_headless positions star format valid packet headless headless' times with
      | @take rest left after after' call call' alike =>
          refine .inl ⟨format, rest, left, after, after', ?_, ?_, alike⟩
          · simp only [receiveAutodetectLoop, call, Except.ok_bind, ↓reduceIte, Except.pure_eq_ok]
          · simp only [restoredAutodetectLoop, restoring, call', Except.ok_bind, ↓reduceIte,
              Except.pure_eq_ok]
      | @refuse left left' after after' call call' property =>
          obtain ⟨kept, same⟩ := property
          have times' : after.mlatState = second.mlatState ∨ AirspyAdsbSpent buf.window := by
            rcases same with same | ⟨_, spent⟩
            · rw [same]
              exact times
            · exact .inr spent
          have restored : restoredAutodetectLoop server (format :: formats)
              { buf := buf, packet := packet, state := second } =
                restoredAutodetectLoop server formats
                  { buf := buf, packet := packet, state := second } := by
            simp only [restoredAutodetectLoop, restoring, call', Except.ok_bind, Bool.false_eq_true,
              ↓reduceIte, Except.pure_eq_ok]
          rw [restored]
          by_cases last : formats = []
          · subst last
            refine .inr ⟨left, after, ?_, rfl, kept, times'⟩
            simp only [receiveAutodetectLoop, call, Except.ok_bind, Bool.false_eq_true, ↓reduceIte,
              ne_eq, not_true_eq_false, Except.pure_eq_ok]
          · have goesOn : receiveAutodetectLoop server packet (format :: formats)
                { buf := buf, packet := packet, state := first } =
                  receiveAutodetectLoop server packet formats
                    { buf := buf, packet := packet, state := after } := by
              rw [receiveAutodetectLoop, call, Except.ok_bind]
              simp only [Bool.false_eq_true, ↓reduceIte, ne_eq, last, not_false_eq_true]
            rw [goesOn]
            exact ih kept times'

/-- A connection and its image in the receiver that restores. -/
structure Twin (server : Server) (start real image : Receive) : Prop where
  id : real.id = start.id
  stat : real.stat = start.stat
  sound : real.Sound
  same : image = { real with parserState := image.parserState }
  unlocked : real.parser = none →
    real.parserState.haveHeader = false ∧ image.parserState.haveHeader = false
  alike : Alike server (receivePacket start) real.buf.window real.parser real.parserState
    image.parserState

variable {start real image : Receive}

theorem Twin.packets (twin : Twin server start real image) :
    receivePacket real = receivePacket start ∧ receivePacket image = receivePacket start := by
  constructor
  · simp only [receivePacket, twin.id, twin.stat]
  · rw [twin.same]
    simp only [receivePacket, twin.id, twin.stat]

/-- Parsing in both receivers. -/
theorem Twin.parse (twin : Twin server start real image) (positions : server.jansson.Positions)
    (stable : server.jansson.Stable) (star : server.jansson.Rejects '*'.toUInt8) :
    ∃ found after after' left left',
      receiveParse server real (receivePacket start) = .ok (found, after, left) ∧
      restoredParse server image (receivePacket start) = .ok (found, after', left') ∧
      (found = true → left = left') ∧ Twin server start after after' := by
  have passing : (receivePacket start).Passing := by
    rw [← twin.packets.1]
    exact twin.sound.passing
  obtain ⟨found, after, left, parsed, sound, _⟩ := twin.sound.receiveParse positions passing
  refine ⟨found, after, ?_⟩
  obtain ⟨id, stat, buf, state, parser⟩ := real
  have image' := twin.same
  generalize image.parserState = state' at image'
  subst image'
  have alike := twin.alike
  dsimp only at alike
  cases parser with
  | none =>
      obtain ⟨headless, headless'⟩ := twin.unlocked rfl
      dsimp only at headless headless'
      have times : state.mlatState = state'.mlatState ∨ AirspyAdsbSpent buf.window := by
        cases alike with
        | same => exact .inl rfl
        | headless _ _ times => exact .inl times
        | spent spent => exact .inr spent
      rcases receiveAutodetectLoop_agrees positions star Format.all twin.sound.valid
          (receivePacket start) headless headless' times with
        ⟨format, rest, left', state₁, state₂, loop, loop', both⟩ |
        ⟨left', state₁, loop, loop', kept, times'⟩
      · simp only [receiveParse, receiveAutodetectParse, loop, Except.ok_bind, Except.pure_eq_ok,
          Except.ok.injEq, Prod.mk.injEq] at parsed
        obtain ⟨rfl, rfl, rfl⟩ := parsed
        refine ⟨⟨id, stat, rest, state₂, some format⟩, left', left', ?_, ?_, fun _ => rfl, ?_⟩
        · simp only [receiveParse, receiveAutodetectParse, loop, Except.ok_bind, Except.pure_eq_ok]
        · simp only [restoredParse, loop', Except.ok_bind, Except.pure_eq_ok]
        · exact ⟨twin.id, twin.stat, sound, rfl, (fun unlocked => by cases unlocked), both _ _⟩
      · simp only [receiveParse, receiveAutodetectParse, loop, Except.ok_bind, Except.pure_eq_ok,
          Except.ok.injEq, Prod.mk.injEq] at parsed
        obtain ⟨rfl, rfl, rfl⟩ := parsed
        refine ⟨⟨id, stat, buf, state', none⟩, left', receivePacket start, ?_, ?_,
          (fun found => by cases found), ?_⟩
        · simp only [receiveParse, receiveAutodetectParse, loop, Except.ok_bind, Except.pure_eq_ok]
        · simp only [restoredParse, loop', Except.ok_bind, Except.pure_eq_ok]
        · refine ⟨twin.id, twin.stat, sound, rfl, fun _ => ⟨kept, headless'⟩, ?_⟩
          rcases times' with same | spent
          · exact .headless kept headless' same
          · exact .spent spent
  | some format =>
      cases Format.agrees_alike positions stable star twin.sound.valid twin.sound.scaled passing
          alike with
      | @take rest left' state₁ state₂ call call' both =>
          simp only [receiveParse, receiveParseWrapper, call, Except.ok_bind, Except.pure_eq_ok,
            Except.ok.injEq, Prod.mk.injEq] at parsed
          obtain ⟨rfl, rfl, rfl⟩ := parsed
          refine ⟨⟨id, stat, rest, state₂, some format⟩, left', left', ?_, ?_, fun _ => rfl, ?_⟩
          · simp only [receiveParse, receiveParseWrapper, call, Except.ok_bind, Except.pure_eq_ok]
          · simp only [restoredParse, restoring, call', Except.ok_bind, ↓reduceIte,
              Except.pure_eq_ok]
          · exact ⟨twin.id, twin.stat, sound, rfl, (fun unlocked => by cases unlocked), both _ _⟩
      | @refuse left' _ state₁ state₂ call call' still =>
          simp only [receiveParse, receiveParseWrapper, call, Except.ok_bind, Except.pure_eq_ok,
            Except.ok.injEq, Prod.mk.injEq] at parsed
          obtain ⟨rfl, rfl, rfl⟩ := parsed
          refine ⟨⟨id, stat, buf, state', some format⟩, left', receivePacket start, ?_, ?_,
            (fun found => by cases found), ?_⟩
          · simp only [receiveParse, receiveParseWrapper, call, Except.ok_bind, Except.pure_eq_ok]
          · simp only [restoredParse, restoring, call', Except.ok_bind, Bool.false_eq_true,
              ↓reduceIte, Except.pure_eq_ok]
          · exact ⟨twin.id, twin.stat, sound, rfl, (fun unlocked => by cases unlocked), still⟩

theorem restored_turn_of_found {receive after : Receive} {packet : Packet}
    (parsed : restoredParse server receive (receivePacket receive) = .ok (true, after, packet)) :
    (restoredReader server).turn receive = .ok (true, after, passedOn server packet) := by
  change (restoredTurn server receive >>= _) = _
  simp only [restoredTurn, parsed, Except.ok_bind, Bool.not_true, Bool.false_eq_true, ↓reduceIte,
    passedOn]
  split_ifs <;> rfl

theorem restored_turn_of_not_found {receive after : Receive} {packet : Packet}
    (parsed : restoredParse server receive (receivePacket receive) = .ok (false, after, packet)) :
    (restoredReader server).turn receive = .ok (false, after, []) := by
  change (restoredTurn server receive >>= _) = _
  simp only [restoredTurn, parsed, Except.ok_bind, Bool.not_false, ↓reduceIte, Except.pure_eq_ok]
  rfl

/-- Both receivers do the same. -/
theorem receiveReader_mirrors (positions : server.jansson.Positions)
    (stable : server.jansson.Stable) (star : server.jansson.Rejects '*'.toUInt8) (start : Receive) :
    (receiveReader server).Mirrors (restoredReader server) (Twin server start) where
  capacity := rfl
  unread := by
    intro real image twin
    rw [twin.same]
    rfl
  fill := by
    intro real image chunk twin notFull short
    obtain ⟨filled, fill, valid, _, window⟩ := twin.sound.valid.fill notFull chunk short
    have same : image.buf = real.buf := by rw [twin.same]
    refine ⟨{ real with buf := filled }, { image with buf := filled }, ?_, ?_, ?_⟩
    · change (bufFill real.buf chunk >>= _) = _
      rw [fill]
      rfl
    · change (bufFill image.buf chunk >>= _) = _
      rw [same, fill]
      rfl
    · refine ⟨twin.id, twin.stat, ⟨twin.sound.id, valid, twin.sound.scaled⟩, ?_, twin.unlocked, ?_⟩
      · rw [twin.same]
      · change Alike server _ filled.window _ _ _
        rw [window]
        exact twin.alike.append chunk
  turn := by
    intro real image twin _
    obtain ⟨found, after, after', left, left', parsed, parsed', lefts, twin'⟩ :=
      twin.parse positions stable star
    rw [← twin.packets.1] at parsed
    rw [← twin.packets.2] at parsed'
    have attempted := (receiveParse_windowed server twin.sound.valid _).2 _ _ _ parsed
    cases found with
    | false =>
        exact ⟨false, after, after', [], turn_of_not_found parsed,
          restored_turn_of_not_found parsed', twin', nofun⟩
    | true =>
        rw [← lefts rfl] at parsed'
        exact ⟨true, after, after', _, turn_of_found parsed, restored_turn_of_found parsed', twin',
          fun _ => attempted.shorter⟩

/-- **Failed attempts leave no trace.** However a stream is cut, the receiver emits the same
packets and ends up with the same parser as one that restores the packet, the buffer and the
parser state after every attempt of a format that found nothing. -/
theorem restored_agree (positions : server.jansson.Positions) (stable : server.jansson.Stable)
    (star : server.jansson.Rejects '*'.toUInt8) (random : Cells UInt8 16) (stat : Stat)
    (memory : Cells UInt8 bufLenMax) {cuts : List Bytes}
    (fits : (receiveReader server).Fits ⟨receiveNew random stat memory, .live⟩ cuts) :
    ∃ final final' status packets,
      receiveRun server sendLog ⟨receiveNew random stat memory, .live⟩ [] cuts =
        .ok (⟨final, status⟩, packets) ∧
      (restoredReader server).run ⟨receiveNew random stat memory, .live⟩ cuts =
        .ok (⟨final', status⟩, packets) ∧
      final.parser = final'.parser := by
  have twin : Twin server (receiveNew random stat memory) (receiveNew random stat memory)
      (receiveNew random stat memory) :=
    ⟨rfl, rfl, .receiveNew random stat memory, rfl, fun _ => ⟨rfl, rfl⟩, .same⟩
  obtain ⟨final, final', status, packets, ran, ran', last⟩ :=
    (receiveReader_mirrors positions stable star _).run cuts twin (fun _ => nofun) fits
  refine ⟨final, final', status, packets, receiveRun_log ran, ran', ?_⟩
  rw [last.same]

/-- A line that is an airspy_adsb frame but for its payload, refused after its time was noted. -/
theorem restored_agree_star :
    ∃ final final' status packets,
      receiveRun flatServer sendLog
          ⟨receiveNew (Cells.fill 16 0) ⟨0, 0⟩ (Cells.fill bufLenMax 0), .live⟩ []
          [ascii "*zzzz;00000001;0A;0000;\n"] = .ok (⟨final, status⟩, packets) ∧
      (restoredReader flatServer).run
          ⟨receiveNew (Cells.fill 16 0) ⟨0, 0⟩ (Cells.fill bufLenMax 0), .live⟩
          [ascii "*zzzz;00000001;0A;0000;\n"] = .ok (⟨final', status⟩, packets) ∧
      final.parser = final'.parser :=
  restored_agree Jansson.flat_positions Jansson.flat_stable flatServer_star _ _ _
    (by decide +kernel)

end Adsbus

import Adsbus.Flow.Receive

/-! # The receive buffer

The buffer of a receive connection is a window on its stream: it holds what was
received and not consumed. A parser that finds a record consumes some of it and
one that finds none leaves it as it is (`Adsbus.Windowed`), so the loop of
`receive_read` ends, and there is always room for the next read.
-/

namespace Adsbus

open Reader

variable (server : Server)

/-! ## Parsers -/

/-- A parser treats the buffer as a window, and its loops end. -/
structure Windowed (parse : Parse) : Prop where
  attempted : ∀ {attempt found after}, attempt.buf.Valid → parse attempt = .ok (found, after) →
    attempt.buf.Attempted found after.buf
  ends : ∀ {attempt}, attempt.buf.Valid → (parse attempt).Avoids .turns

theorem Parses.windowed {parse : Parse} {code : Recognizer UInt8 Frame} {spent : Bytes → Prop}
    (parses : Parses parse code code spent) : Windowed parse where
  attempted := by
    intro attempt found after valid parsed
    cases front : code.front attempt.buf.window with
    | none =>
        obtain ⟨packet, state, rejected, _⟩ := parses.reject valid front
        rw [parsed, Except.ok.injEq, Prod.mk.injEq] at rejected
        obtain ⟨rfl, rfl⟩ := rejected
        exact .kept
    | some result =>
        obtain ⟨frame, count⟩ := result
        obtain ⟨after', accepted, how⟩ := parses.accept valid front
        rw [parsed, Except.ok.injEq, Prod.mk.injEq] at accepted
        obtain ⟨rfl, rfl⟩ := accepted
        have positive := code.nonempty front
        have inside := code.inside front
        have length := congrArg List.length how.window
        rw [List.length_drop, how.valid.window_length, valid.window_length] at length
        rw [valid.window_length] at inside
        refine .consumed how.valid (by omega) ?_
        rw [how.window]
        exact List.drop_suffix _ _
  ends := by
    intro attempt valid
    cases front : code.front attempt.buf.window with
    | none =>
        obtain ⟨packet, state, rejected, _⟩ := parses.reject valid front
        rw [rejected]
        exact Except.avoids_ok _ _
    | some result =>
        obtain ⟨after, accepted, _⟩ := parses.accept valid front
        rw [accepted]
        exact Except.avoids_ok _ _

theorem bufConsume_avoids_turns (buf : Buf UInt8) (length : Nat) :
    (bufConsume buf length).Avoids .turns :=
  (check_avoids (by decide)).bind fun _ _ => Except.avoids_ok _ _

theorem packetMlatTimestampScaleIn_avoids_turns (timestamp max : UInt64) (mhz : UInt16)
    (state : MlatState) :
    (packetMlatTimestampScaleIn timestamp max mhz state).Avoids .turns :=
  ((check_avoids (by decide)).bind fun _ _ => Except.avoids_ok _ _).bind fun _ _ =>
    Except.avoids_ok _ _

theorem packetRssiScaleIn_avoids_turns (value max : UInt32) :
    (packetRssiScaleIn value max).Avoids .turns :=
  (check_avoids (by decide)).bind fun _ _ => Except.avoids_ok _ _

theorem jsonParseTimestamp_avoids_turns (obj : Json) (packet : Packet) (state : ParserState) :
    (jsonParseTimestamp obj packet state).Avoids .turns := by
  unfold jsonParseTimestamp
  split
  · split
    · exact Except.avoids_ok _ _
    · exact (packetMlatTimestampScaleIn_avoids_turns _ _ _ _).bind fun _ _ => Except.avoids_ok _ _
  · exact Except.avoids_ok _ _

theorem jsonParseRssi_avoids_turns (obj : Json) (packet : Packet) (state : ParserState) :
    (jsonParseRssi obj packet state).Avoids .turns := by
  unfold jsonParseRssi
  split
  · split
    · exact Except.avoids_ok _ _
    · exact (packetRssiScaleIn_avoids_turns _ _).bind fun _ _ => Except.avoids_ok _ _
  · exact Except.avoids_ok _ _

theorem jsonParseCommon_avoids_turns (obj : Json) (packet : Packet) (state : ParserState) :
    (jsonParseCommon obj packet state).Avoids .turns := by
  unfold jsonParseCommon
  split
  · exact Except.avoids_ok _ _
  split
  · exact Except.avoids_ok _ _
  dsimp only
  split
  · exact Except.avoids_ok _ _
  split_ifs
  · exact Except.avoids_ok _ _
  · exact Except.avoids_ok _ _
  refine (jsonParseTimestamp_avoids_turns _ _ _).bind fun ⟨found, packet, state⟩ _ => ?_
  cases found with
  | false => exact Except.avoids_ok _ _
  | true => exact (jsonParseRssi_avoids_turns _ _ _).bind fun _ _ => Except.avoids_ok _ _

theorem jsonParsePayload_avoids_turns (obj : Json) (packet : Packet) (state : ParserState)
    (type : PacketType) : (jsonParsePayload obj packet state type).Avoids .turns := by
  refine (jsonParseCommon_avoids_turns _ _ _).bind fun ⟨found, packet, state⟩ _ => ?_
  cases found with
  | false => exact Except.avoids_ok _ _
  | true =>
      simp only [Bool.not_true, Bool.false_eq_true, ↓reduceIte]
      split
      · exact Except.avoids_ok _ _
      · split_ifs <;> exact Except.avoids_ok _ _

theorem jsonParseObject_avoids_turns (serverId : CString) (obj : Json) (packet : Packet)
    (state : ParserState) : (jsonParseObject serverId obj packet state).Avoids .turns := by
  unfold jsonParseObject
  split
  · exact Except.avoids_ok _ _
  rename_i type _
  cases chosen : jsonParser serverId type with
  | none => exact Except.avoids_ok _ _
  | some parser =>
      simp only [jsonParser] at chosen
      split_ifs at chosen <;> cases chosen
      · exact Except.avoids_ok _ _
      all_goals exact jsonParsePayload_avoids_turns _ _ _ _

theorem jsonParse_windowed (jansson : Jansson) (serverId : CString) :
    Windowed (jsonParse jansson serverId) where
  attempted := by
    intro attempt found after valid parsed
    unfold jsonParse at parsed
    split at parsed
    · obtain ⟨⟨accepted, packet, state⟩, _, parsed⟩ := Except.bind_eq_ok.mp parsed
      cases accepted with
      | false =>
          cases parsed
          exact .kept
      | true =>
          simp only [Bool.not_true, Bool.false_eq_true, ↓reduceIte, Except.bind_eq_ok,
            check_eq_ok, decide_eq_true_eq, Except.pure_eq_ok, Except.ok.injEq,
            Prod.mk.injEq] at parsed
          obtain ⟨_, positive, buf, consumed, rest, skipped, rfl, rfl⟩ := parsed
          have attempted := valid.attempted_bufConsume positive consumed
          cases attempted with
          | consumed valid' shorter suffix =>
              obtain ⟨rest', skipped', valid'', window⟩ :=
                jsonSkipSeparators_eq valid' (Nat.lt_succ_self _)
              rw [skipped, Except.ok.injEq] at skipped'
              subst skipped'
              have behind : rest.window <:+ buf.window := by
                rw [window]
                exact List.dropWhile_suffix _
              have less := behind.length_le
              rw [valid''.window_length, valid'.window_length] at less
              exact .consumed valid'' (by
                change rest.length < attempt.buf.length
                omega) (behind.trans suffix)
    · cases parsed
      exact .kept
  ends := by
    intro attempt valid
    unfold jsonParse
    split
    · refine (jsonParseObject_avoids_turns _ _ _ _).bind fun ⟨found, _, _⟩ _ => ?_
      cases found with
      | false => exact Except.avoids_ok _ _
      | true =>
        refine (check_avoids (by decide)).bind fun _ passed => ?_
        refine (bufConsume_avoids_turns _ _).bind fun buf consumed => ?_
        have positive := of_decide_eq_true (check_eq_ok.mp passed)
        obtain ⟨rest, skipped, _⟩ := jsonSkipSeparators_eq
          ((valid.attempted_bufConsume positive consumed).valid valid) (Nat.lt_succ_self _)
        rw [skipped]
        exact Except.avoids_ok _ _
    · exact Except.avoids_ok _ _

theorem protoParseVarintLoop_bound {rest : Bytes} {start index : Nat} {value shift result : UInt64}
    (parsed : protoParseVarintLoop rest start value shift = some (result, index)) :
    start < index := by
  induction rest generalizing start value shift with
  | nil => cases parsed
  | cons c rest ih =>
      simp only [protoParseVarintLoop] at parsed
      split_ifs at parsed
      · cases parsed
        exact Nat.lt_succ_self _
      · have := ih parsed
        omega

/-- A wrapped record takes its tag and its length. -/
theorem protoUnwrap_bound {protobuf : Protobuf} {wrapper : Buf UInt8} {msg : Adsb} {len : Nat}
    (unwrapped : protoUnwrap protobuf wrapper = some (msg, len)) : 2 ≤ len := by
  unfold protoUnwrap at unwrapped
  split_ifs at unwrapped
  cases parsed : protoParseVarint wrapper 1 with
  | none =>
      rw [parsed] at unwrapped
      cases unwrapped
  | some result =>
      obtain ⟨msgLen, start⟩ := result
      have bound := protoParseVarintLoop_bound parsed
      simp only [parsed] at unwrapped
      split_ifs at unwrapped
      obtain ⟨_, _, same⟩ := Option.map_eq_some_iff.mp unwrapped
      rw [Prod.mk.injEq] at same
      omega

theorem protoParsePacket_avoids_turns (input : AdsbPacket) (packet : Packet) (state : ParserState)
    (len : Nat) : (protoParsePacket input packet state len).Avoids .turns := by
  unfold protoParsePacket
  split
  · exact Except.avoids_ok _ _
  split
  · exact Except.avoids_ok _ _
  split
  · exact Except.avoids_ok _ _
  refine Except.Avoids.bind ?_ fun _ _ => Except.Avoids.bind ?_ fun _ _ => Except.avoids_ok _ _
  · unfold protoParseTimestamp
    split
    · exact Except.avoids_ok _ _
    · exact (packetMlatTimestampScaleIn_avoids_turns _ _ _ _).bind fun _ _ => Except.avoids_ok _ _
  · unfold protoParseRssi
    split
    · exact Except.avoids_ok _ _
    · exact (packetRssiScaleIn_avoids_turns _ _).bind fun _ _ => Except.avoids_ok _ _

theorem protoParseRecord_avoids_turns (serverId : CString) (msg : Adsb) (packet : Packet)
    (state : ParserState) : (protoParseRecord serverId msg packet state).Avoids .turns := by
  unfold protoParseRecord
  split
  · exact Except.avoids_ok _ _
  any_goals exact (protoParsePacket_avoids_turns _ _ _ _).bind fun _ _ => Except.avoids_ok _ _
  exact Except.avoids_ok _ _

theorem protoParse_windowed (protobuf : Protobuf) (serverId : CString) :
    Windowed (protoParse protobuf serverId) where
  attempted := by
    intro attempt found after valid parsed
    unfold protoParse at parsed
    split at parsed
    · cases parsed
      exact .kept
    · rename_i msg len unwrapped
      obtain ⟨⟨accepted, packet, state⟩, _, parsed⟩ := Except.bind_eq_ok.mp parsed
      cases accepted with
      | false =>
          cases parsed
          exact .kept
      | true =>
          simp only [Bool.not_true, Bool.false_eq_true, ↓reduceIte, Except.bind_eq_ok,
            Except.pure_eq_ok, Except.ok.injEq, Prod.mk.injEq] at parsed
          obtain ⟨buf, consumed, rfl, rfl⟩ := parsed
          have := protoUnwrap_bound unwrapped
          exact valid.attempted_bufConsume (by omega) consumed
  ends := by
    intro attempt valid
    unfold protoParse
    split
    · exact Except.avoids_ok _ _
    · refine (protoParseRecord_avoids_turns _ _ _ _).bind fun ⟨found, _, _⟩ _ => ?_
      cases found with
      | false => exact Except.avoids_ok _ _
      | true => exact (bufConsume_avoids_turns _ _).bind fun _ _ => Except.avoids_ok _ _

theorem Format.parse_windowed (format : Format) : Windowed (format.parse server) := by
  cases format with
  | airspyAdsb => exact airspyAdsbParse_parses.windowed
  | beast => exact beastParse_parses.windowed
  | json => exact jsonParse_windowed _ _
  | proto => exact protoParse_windowed _ _
  | raw => exact rawParse_parses.windowed

/-! ## Turns -/

theorem receiveAutodetectLoop_windowed (origPacket : Packet) (formats : List Format)
    {attempt : Attempt} (valid : attempt.buf.Valid) :
    (receiveAutodetectLoop server origPacket formats attempt).Avoids .turns ∧
      ∀ format after, receiveAutodetectLoop server origPacket formats attempt =
        .ok (format, after) → attempt.buf.Attempted format.isSome after.buf := by
  induction formats generalizing attempt with
  | nil =>
      refine ⟨Except.avoids_ok _ _, fun format after done => ?_⟩
      cases done
      exact .kept
  | cons format formats ih =>
      have windowed := Format.parse_windowed server format
      rw [receiveAutodetectLoop]
      constructor
      · refine (windowed.ends valid).bind fun result parsed => ?_
        obtain ⟨found, after⟩ := result
        have attempted := windowed.attempted valid parsed
        cases found with
        | true => exact Except.avoids_ok _ _
        | false =>
            simp only [Bool.false_eq_true, ↓reduceIte]
            split
            · exact (@ih { after with packet := origPacket } (attempted.valid valid)).1
            · exact Except.avoids_ok _ _
      · intro chosen last done
        obtain ⟨⟨found, after⟩, parsed, done⟩ := Except.bind_eq_ok.mp done
        have attempted := windowed.attempted valid parsed
        cases found with
        | true =>
            cases done
            exact attempted
        | false =>
            simp only [Bool.false_eq_true, ↓reduceIte] at done
            split at done
            · rw [← attempted.eq_of_not_found]
              exact (@ih { after with packet := origPacket } (attempted.valid valid)).2 _ _ done
            · cases done
              exact attempted

theorem receiveParse_windowed {receive : Receive} (valid : receive.buf.Valid) (packet : Packet) :
    (receiveParse server receive packet).Avoids .turns ∧
      ∀ found after left, receiveParse server receive packet = .ok (found, after, left) →
        receive.buf.Attempted found after.buf := by
  unfold receiveParse
  split
  · have windowed := @receiveAutodetectLoop_windowed server packet Format.all
      { buf := receive.buf, packet := packet, state := receive.parserState } valid
    refine ⟨windowed.1.bind fun _ _ => Except.avoids_ok _ _, fun found after left parsed => ?_⟩
    obtain ⟨⟨format, last⟩, looped, same⟩ := Except.bind_eq_ok.mp parsed
    cases same
    exact windowed.2 _ _ looped
  · rename_i format _
    have windowed := Format.parse_windowed server format
    refine ⟨(windowed.ends valid).bind fun _ _ => Except.avoids_ok _ _,
      fun found after left parsed => ?_⟩
    obtain ⟨⟨found', last⟩, parsed', same⟩ := Except.bind_eq_ok.mp parsed
    cases same
    exact windowed.attempted valid parsed'

/-- A turn consumes some of the window, or ends the loop and leaves it. -/
theorem receiveTurn_windowed {receive : Receive} (valid : receive.buf.Valid) :
    (receiveTurn server receive).Avoids .turns ∧
      ∀ found after packet, receiveTurn server receive = .ok (found, after, packet) →
        receive.buf.Attempted found after.buf := by
  obtain ⟨ends, attempted⟩ := receiveParse_windowed server valid (receivePacket receive)
  constructor
  · refine ends.bind fun ⟨found, after, packet⟩ _ => ?_
    cases found with
    | false => exact Except.avoids_ok _ _
    | true =>
        dsimp only [Bool.not_true]
        split_ifs <;> exact Except.avoids_ok _ _
  · intro found after packet turned
    obtain ⟨⟨found', after', left⟩, parsed, turned⟩ := Except.bind_eq_ok.mp turned
    have attempted := attempted _ _ _ parsed
    cases found' with
    | false =>
        cases turned
        exact attempted
    | true =>
        simp only [Bool.not_true, Bool.false_eq_true, ↓reduceIte] at turned
        split_ifs at turned <;> cases turned <;> exact attempted

variable {server} {τ : Type} {sendWrite : τ → Packet → Except Fault τ}

/-- The loop of `receive_read` ends: each turn that goes on consumes something. -/
theorem receiveLoop_ends (sends : ∀ sent packet, (sendWrite sent packet).Avoids .turns)
    {turns : Nat} {receive : Receive} (valid : receive.buf.Valid)
    (enough : receive.buf.length < turns) (sent : τ) :
    (receiveLoop server sendWrite turns receive sent).Avoids .turns := by
  induction turns generalizing receive sent with
  | zero => exact (Nat.not_lt_zero _ enough).elim
  | succ turns ih =>
      rw [receiveLoop]
      obtain ⟨ends, attempted⟩ := receiveTurn_windowed server valid
      split
      · exact Except.avoids_ok _ _
      · refine ends.bind fun turn turned => ?_
        obtain ⟨found, after, packet⟩ := turn
        have attempted := attempted _ _ _ turned
        cases found with
        | false => exact Except.avoids_ok _ _
        | true =>
            have shorter := attempted.shorter
            have rest := fun sent => ih (attempted.valid valid) (by omega) sent
            cases packet with
            | none => exact rest sent
            | some packet => exact (sends sent packet).bind fun sent _ => rest sent

/-! ## Runs -/

/-- Where a connection is: between reads, or at the entry of the loop of `receive_read`. -/
inductive Place
  | idle
  | loop
  deriving DecidableEq, Repr

/-- What a connection can come to from a first state: the bytes it received, the number of them
that it consumed, where it is, and its state. A read gives between one byte and the space offered;
a connection whose buffer is full behind the loop is closed. -/
inductive Reaches (server : Server) (start : Receive) : Bytes → Nat → Place → Receive → Prop
  | start : Reaches server start [] 0 .idle start
  | fill {received : Bytes} {consumed : Nat} {receive : Receive} {moved filled : Buf UInt8}
      {input : Bytes} (before : Reaches server start received consumed .idle receive)
      (offered : bufCompact receive.buf = .ok moved) (nonempty : input ≠ [])
      (short : input.length ≤ bufSpace moved) (fill : bufFill receive.buf input = .ok filled) :
      Reaches server start (received ++ input) consumed .loop { receive with buf := filled }
  | turn {received : Bytes} {consumed : Nat} {receive after : Receive} {packet : Option Packet}
      (before : Reaches server start received consumed .loop receive)
      (unread : receive.buf.length ≠ 0)
      (turned : receiveTurn server receive = .ok (true, after, packet)) :
      Reaches server start received (consumed + (receive.buf.length - after.buf.length)) .loop after
  | drained {received : Bytes} {consumed : Nat} {receive : Receive}
      (before : Reaches server start received consumed .loop receive)
      (empty : receive.buf.length = 0) : Reaches server start received consumed .idle receive
  | stuck {received : Bytes} {consumed : Nat} {receive after : Receive} {packet : Option Packet}
      (before : Reaches server start received consumed .loop receive)
      (unread : receive.buf.length ≠ 0)
      (turned : receiveTurn server receive = .ok (false, after, packet))
      (notFull : after.buf.length ≠ bufLenMax) : Reaches server start received consumed .idle after

/-- The buffer holds what was received and not consumed. -/
structure Sliding (received : Bytes) (consumed : Nat) (place : Place) (receive : Receive) :
    Prop where
  valid : receive.buf.Valid
  count : consumed + receive.buf.length = received.length
  window : receive.buf.window = received.drop consumed
  notFull : place = .idle → receive.buf.length ≠ bufLenMax

/-- Taking turns keeps the window on the stream. -/
theorem Sliding.attempted {received : Bytes} {consumed : Nat} {place : Place}
    {receive after : Receive} {found : Bool} (sliding : Sliding received consumed place receive)
    (attempted : receive.buf.Attempted found after.buf) :
    Sliding received (consumed + (receive.buf.length - after.buf.length)) .loop after := by
  obtain ⟨shorter, window⟩ := attempted.window_eq sliding.valid
  have count := sliding.count
  refine ⟨attempted.valid sliding.valid, by omega, ?_, nofun⟩
  rw [window, sliding.window, List.drop_drop]

/-- Every state that is reached is a window on the stream. -/
theorem Reaches.sliding {start receive : Receive} {memory : Cells UInt8 bufLenMax}
    {received : Bytes} {consumed : Nat} {place : Place} (fresh : start.buf = bufInit memory)
    (reached : Reaches server start received consumed place receive) :
    Sliding received consumed place receive := by
  induction reached with
  | start =>
      refine ⟨?_, ?_, ?_, fun _ => ?_⟩ <;> rw [fresh]
      · exact Buf.valid_bufInit memory
      · rfl
      · rw [Buf.window_bufInit, List.drop_nil]
      · exact nofun
  | @fill received consumed receive moved filled input before offered nonempty short fill ih =>
      obtain ⟨moved', compact, space⟩ := ih.valid.compact (ih.notFull rfl)
      rw [offered, Except.ok.injEq] at compact
      subst compact
      obtain ⟨filled', fill', valid, length, window⟩ :=
        ih.valid.fill (ih.notFull rfl) input (by omega)
      rw [fill, Except.ok.injEq] at fill'
      subst fill'
      have count := ih.count
      refine ⟨valid, ?_, ?_, nofun⟩
      · change consumed + filled.length = _
        rw [List.length_append]
        omega
      · change filled.window = _
        rw [window, ih.window, List.drop_append_of_le_length (by omega)]
  | turn _ _ turned ih => exact ih.attempted ((receiveTurn_windowed server ih.valid).2 _ _ _ turned)
  | drained _ empty ih =>
      refine ⟨ih.valid, ih.count, ih.window, fun _ => ?_⟩
      rw [empty]
      exact nofun
  | stuck _ _ turned notFull ih =>
      have same := ((receiveTurn_windowed server ih.valid).2 _ _ _ turned).eq_of_not_found
      refine ⟨?_, ?_, ?_, fun _ => notFull⟩ <;> rw [same]
      · exact ih.valid
      · exact ih.count
      · exact ih.window

/-- The states at the entries of the loop are reached, and the state behind it too unless its
buffer is full. -/
theorem Reaches.receiveLoop {start receive after : Receive} {received : Bytes} {consumed turns : Nat}
    {sent sent' : τ} (reached : Reaches server start received consumed .loop receive)
    (looped : receiveLoop server sendWrite turns receive sent = .ok (after, sent'))
    (notFull : after.buf.length ≠ bufLenMax) :
    ∃ consumed', Reaches server start received consumed' .idle after := by
  induction turns generalizing receive consumed sent with
  | zero => cases looped
  | succ turns ih =>
      rw [Adsbus.receiveLoop] at looped
      split at looped
      · rename_i empty
        cases looped
        exact ⟨consumed, reached.drained empty⟩
      · rename_i unread
        obtain ⟨⟨found, next, packet⟩, turned, looped⟩ := Except.bind_eq_ok.mp looped
        cases found with
        | false =>
            cases looped
            exact ⟨consumed, reached.stuck unread turned notFull⟩
        | true =>
            have reached := reached.turn unread turned
            cases packet with
            | none => exact ih reached looped
            | some packet =>
                obtain ⟨sent'', _, looped⟩ := Except.bind_eq_ok.mp looped
                exact ih reached looped

/-- A connection that is still live behind a read is in a state that is reached. -/
theorem Reaches.receiveRead {start receive after : Receive} {received : Bytes} {consumed : Nat}
    {moved : Buf UInt8} {input : Bytes} {sent sent' : τ}
    (reached : Reaches server start received consumed .idle receive)
    (offered : bufCompact receive.buf = .ok moved) (nonempty : input ≠ [])
    (short : input.length ≤ bufSpace moved)
    (done : receiveRead server sendWrite ⟨receive, .live⟩ sent input =
      .ok (⟨after, .live⟩, sent')) :
    ∃ consumed', Reaches server start (received ++ input) consumed' .idle after := by
  simp only [Adsbus.receiveRead, Except.bind_eq_ok, nonempty, ↓reduceIte] at done
  obtain ⟨filled, fill, ⟨last, sent''⟩, looped, done⟩ := done
  dsimp only at done
  split_ifs at done with full
  · cases done
  · cases done
    exact (reached.fill offered nonempty short fill).receiveLoop looped full

/-- **The buffer is a sliding window.** Wherever a connection with an empty buffer and any parser
comes to, its buffer holds exactly the bytes received and not consumed. Between reads its tail can
be moved, leaving room to read into; a turn that finds a record consumes some of it, and
`receive_read` comes to the end of its loop. -/
theorem receive_window {start receive : Receive} {memory : Cells UInt8 bufLenMax}
    {received : Bytes} {consumed : Nat} {place : Place} (fresh : start.buf = bufInit memory)
    (reached : Reaches server start received consumed place receive) :
    (receive.buf.start + receive.buf.length ≤ bufLenMax ∧
      consumed + receive.buf.length = received.length ∧
      bufAt receive.buf 0 receive.buf.length = received.drop consumed) ∧
    (place = .idle →
      (receive.buf.start + receive.buf.length = bufLenMax → 0 < receive.buf.start) ∧
      ∃ moved, bufCompact receive.buf = .ok moved ∧ 0 < bufSpace moved ∧
        ∀ input, input.length ≤ bufSpace moved →
          (∀ sent packet, (sendWrite sent packet).Avoids .turns) → ∀ sent,
            (receiveRead server sendWrite ⟨receive, .live⟩ sent input).Avoids .turns) ∧
    (place = .loop → ∀ after packet, receiveTurn server receive = .ok (true, after, packet) →
      after.buf.length < receive.buf.length) := by
  have sliding := reached.sliding fresh
  have inside := sliding.valid.inside
  refine ⟨⟨inside, sliding.count, sliding.window⟩, ?_, ?_⟩
  · intro idle
    have notFull := sliding.notFull idle
    obtain ⟨moved, compact, space⟩ := sliding.valid.compact notFull
    refine ⟨fun _ => by omega, moved, compact, ?_, ?_⟩
    · rw [space]
      exact sliding.valid.room_pos notFull
    · intro input short sends sent
      obtain ⟨filled, fill, valid, _⟩ := sliding.valid.fill notFull input (by omega)
      simp only [Adsbus.receiveRead, fill, Except.ok_bind]
      split_ifs
      · exact Except.avoids_ok _ _
      · refine (receiveLoop_ends sends valid (Nat.lt_succ_self _) sent).bind fun _ _ => ?_
        split_ifs <;> exact Except.avoids_ok _ _
  · rintro - after packet turned
    exact ((receiveTurn_windowed server sliding.valid).2 _ _ _ turned).shorter

/-! ## A window that slides -/

/-- The connection behind a read, before the loop. -/
def afterFill (receive : Receive) (input : Bytes) : Receive :=
  match bufFill receive.buf input with
  | .ok filled => { receive with buf := filled }
  | .error _ => receive

/-- The connection behind a turn. -/
def afterTurn (server : Server) (receive : Receive) : Receive :=
  match receiveTurn server receive with
  | .ok (_, after, _) => after
  | .error _ => receive

/-- There are bytes for a turn, and it finds a record or not. -/
def Finds (server : Server) (receive : Receive) (found : Bool) : Prop :=
  receive.buf.length ≠ 0 ∧ (receiveTurn server receive).toOption.map (·.1) = some found

instance (server : Server) (receive : Receive) (found : Bool) :
    Decidable (Finds server receive found) := inferInstanceAs (Decidable (_ ≠ _ ∧ _ = _))

theorem Finds.turned {server : Server} {receive : Receive} {found : Bool}
    (finds : Finds server receive found) : ∃ packet,
      receiveTurn server receive = .ok (found, afterTurn server receive, packet) := by
  obtain ⟨_, how⟩ := finds
  cases turned : receiveTurn server receive with
  | error fault => rw [turned] at how; cases how
  | ok result =>
      obtain ⟨found', after, packet⟩ := result
      rw [turned] at how
      cases how
      exact ⟨packet, by rw [afterTurn, turned]⟩

theorem Reaches.afterFill {start receive : Receive} {memory : Cells UInt8 bufLenMax}
    {received : Bytes} {consumed : Nat} (fresh : start.buf = bufInit memory)
    (reached : Reaches server start received consumed .idle receive) {input : Bytes}
    (nonempty : input ≠ []) (short : input.length ≤ receive.buf.room) :
    Reaches server start (received ++ input) consumed .loop (afterFill receive input) := by
  have sliding := reached.sliding fresh
  have notFull := sliding.notFull rfl
  obtain ⟨moved, compact, space⟩ := sliding.valid.compact notFull
  obtain ⟨filled, fill, _⟩ := sliding.valid.fill notFull input short
  rw [Adsbus.afterFill, fill]
  exact reached.fill compact nonempty (by omega) fill

theorem Reaches.afterTurns {start receive : Receive} {received : Bytes} {consumed turns : Nat}
    (reached : Reaches server start received consumed .loop receive)
    (found : ∀ turn < turns, Finds server ((afterTurn server)^[turn] receive) true) :
    ∃ consumed', Reaches server start received consumed' .loop
      ((afterTurn server)^[turns] receive) := by
  induction turns with
  | zero => exact ⟨consumed, reached⟩
  | succ turns ih =>
      obtain ⟨consumed', reached⟩ := ih fun turn before => found turn (by omega)
      have finds := found turns (Nat.lt_succ_self turns)
      obtain ⟨packet, turned⟩ := finds.turned
      rw [Function.iterate_succ_apply']
      exact ⟨_, reached.turn finds.1 turned⟩

/-- A raw frame. -/
def slideFrame : Bytes := ascii "*0123456789abcdef0123456789AB;\n"

/-- Eight frames and the start of the next, up to the end of the array. -/
def slideFirst : Bytes := (List.replicate 8 slideFrame).flatten ++ slideFrame.take 8

/-- The rest of the frame, and the start of one more. -/
def slideSecond : Bytes := slideFrame.drop 8 ++ ascii "*00"

/-- A fresh connection. -/
def slideStart : Receive := receiveNew (Cells.fill 16 0) ⟨0, 0⟩ (Cells.fill bufLenMax 0)

/-- The connection when the first bytes are read, and no further frame is found. -/
def slideIdle : Receive := (afterTurn flatServer)^[9] (afterFill slideStart slideFirst)

/-- The connection when the other bytes are read, behind one frame. -/
def slideEnd : Receive := afterTurn flatServer (afterFill slideIdle slideSecond)

/-- Behind eight turns the window is at the end of the array, with the start of a frame; it is moved
to the front for the next read, and the turn behind takes the whole frame. -/
theorem receive_window_slides :
    (Reaches flatServer slideStart slideFirst 248 .idle slideIdle ∧
      slideIdle.buf.start + slideIdle.buf.length = bufLenMax ∧ 0 < slideIdle.buf.start ∧
      bufAt slideIdle.buf 0 slideIdle.buf.length = slideFrame.take 8) ∧
    Reaches flatServer slideStart (slideFirst ++ slideSecond) 279 .loop slideEnd ∧
      bufAt slideEnd.buf 0 slideEnd.buf.length = ascii "*00" := by
  have fresh : slideStart.buf = bufInit (Cells.fill bufLenMax 0) := rfl
  have first := Reaches.afterFill fresh
    (.start : Reaches flatServer slideStart [] 0 .idle slideStart)
    (show slideFirst ≠ [] by decide +kernel) (by decide +kernel)
  obtain ⟨_, eight⟩ := @Reaches.afterTurns flatServer _ _ _ _ 8 first (by decide +kernel)
  have stuck : Finds flatServer
      ((afterTurn flatServer)^[8] (afterFill slideStart slideFirst)) false := by decide +kernel
  obtain ⟨_, turned⟩ := stuck.turned
  rw [← Function.iterate_succ_apply' (afterTurn flatServer) 8] at turned
  have idle : Reaches flatServer slideStart slideFirst _ .idle slideIdle :=
    eight.stuck stuck.1 turned (by decide +kernel)
  have second := idle.afterFill fresh (show slideSecond ≠ [] by decide) (by decide +kernel)
  have found : Finds flatServer (afterFill slideIdle slideSecond) true := by decide +kernel
  obtain ⟨_, turned⟩ := found.turned
  have behind : Reaches flatServer slideStart (slideFirst ++ slideSecond) _ .loop slideEnd :=
    second.turn found.1 turned
  obtain ⟨⟨_, count, window⟩, reads, _⟩ :=
    @receive_window flatServer _ sendLog _ _ _ _ _ _ fresh idle
  obtain ⟨⟨_, count', window'⟩, _⟩ :=
    @receive_window flatServer _ sendLog _ _ _ _ _ _ fresh behind
  have full : slideIdle.buf.start + slideIdle.buf.length = bufLenMax := by decide +kernel
  have left : slideFirst.length - slideIdle.buf.length = 248 := by decide +kernel
  have left' : (slideFirst ++ slideSecond).length - slideEnd.buf.length = 279 := by decide +kernel
  rw [(Nat.eq_sub_of_add_eq count).trans left] at idle window
  rw [(Nat.eq_sub_of_add_eq count').trans left'] at behind window'
  exact ⟨⟨idle, full, (reads rfl).1 full, window⟩, behind, window'⟩

end Adsbus

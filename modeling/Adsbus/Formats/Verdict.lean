import Adsbus.Formats.Front
import Adsbus.Formats.Record

/-! # The verdict on a record

Whether the json and proto parsers take the record at the front of the buffer depends on the
record, on whether there has been a header and on the bound of the signal strength. It never
depends on the MLAT state, which a json packet may change before it is refused.
-/

namespace Adsbus

/-! ## Headers -/

/-- What a record announces as a header; json may lack any of it. -/
structure Announcement where
  magic : Option CString
  serverId : Option CString
  mlatTimestampMhz : Option Int
  mlatTimestampMax : Option Int
  rssiMax : Option Int

/-- A header with the right magic, positive ranges and the id of another server. -/
structure Announcement.Right (announcement : Announcement) (own : CString) : Prop where
  magic : announcement.magic = some jsonMagic
  mlatTimestampMhz : ∃ mhz ∈ announcement.mlatTimestampMhz, 0 < mhz
  mlatTimestampMax : ∃ max ∈ announcement.mlatTimestampMax, 0 < max
  rssiMax : ∃ max ∈ announcement.rssiMax, 0 < max
  serverId : ∃ id ∈ announcement.serverId, id ≠ own

/-- What a json object announces. -/
def jsonAnnouncement (obj : Json) : Announcement where
  magic := (obj.getString? (ascii "magic")).map .ofBytes
  serverId := (obj.getString? (ascii "server_id")).map .ofBytes
  mlatTimestampMhz := (obj.getInteger? (ascii "mlat_timestamp_mhz")).map Int64.toInt
  mlatTimestampMax := (obj.getInteger? (ascii "mlat_timestamp_max")).map Int64.toInt
  rssiMax := (obj.getInteger? (ascii "rssi_max")).map Int64.toInt

/-- What a proto header announces. -/
def protoAnnouncement (header : AdsbHeader) : Announcement where
  magic := some header.magic
  serverId := some header.serverId
  mlatTimestampMhz := some header.mlatTimestampMhz.toNat
  mlatTimestampMax := some header.mlatTimestampMax.toNat
  rssiMax := some header.rssiMax.toNat

/-- The state with the ranges of a header. -/
def ParserState.ranges (state : ParserState) (mhz : UInt16) (max : UInt64) (rssiMax : UInt32) :
    ParserState :=
  { state with mlatTimestampMhz := mhz, mlatTimestampMax := max, rssiMax := rssiMax }

/-- The state behind a header that was taken. -/
def ParserState.opened (state : ParserState) (mhz : UInt16) (max : UInt64) (rssiMax : UInt32) :
    ParserState :=
  { state.ranges mhz max rssiMax with haveHeader := true }

variable {serverId : CString}

/-- A json header is refused without a trace, or it is a right one and taken. -/
theorem jsonParseHeader_cases (serverId : CString) (obj : Json) :
    (∀ packet state, jsonParseHeader serverId obj packet state = (false, packet, state)) ∨
      (jsonAnnouncement obj).Right serverId ∧ ∃ mhz max rssiMax, ∀ packet state,
        jsonParseHeader serverId obj packet state =
          (true, { packet with type := .none }, state.opened mhz max rssiMax) := by
  unfold jsonParseHeader
  split
  · rename_i magic jsonServerId mhz max rssiMax foundMagic foundId foundMhz foundMax foundRssi
    split_ifs with wrong range own
    · exact .inl fun _ _ => rfl
    · exact .inl fun _ _ => rfl
    · exact .inl fun _ _ => rfl
    · refine .inr ⟨⟨?_, ?_, ?_, ?_, ?_⟩, _, _, _, fun _ _ => rfl⟩
      all_goals
        simp only [not_or, gt_iff_lt, Int64.lt_iff_toInt_lt, Int64.le_iff_toInt_le, not_lt,
          not_le] at range
        obtain ⟨-, mhzLow, maxLow, -, rssiLow⟩ := range
      · simp only [jsonAnnouncement, foundMagic, Option.map_some, not_not.mp wrong]
      · refine ⟨_, ?_, mhzLow⟩
        rw [jsonAnnouncement, foundMhz]
        rfl
      · refine ⟨_, ?_, maxLow⟩
        rw [jsonAnnouncement, foundMax]
        rfl
      · refine ⟨_, ?_, rssiLow⟩
        rw [jsonAnnouncement, foundRssi]
        rfl
      · refine ⟨_, ?_, own⟩
        rw [jsonAnnouncement, foundId]
        rfl
  · exact .inl fun _ _ => rfl

/-- A proto header is refused without a trace, or refused because it is our own and its ranges
stay, or it is a right one and taken. -/
theorem protoParseHeader_cases (serverId : CString) (header : AdsbHeader) :
    (∀ state, protoParseHeader serverId header state = (false, state)) ∨
      (∃ mhz max rssiMax, ∀ state,
        protoParseHeader serverId header state = (false, state.ranges mhz max rssiMax)) ∨
      (protoAnnouncement header).Right serverId ∧ ∃ mhz max rssiMax, ∀ state,
        protoParseHeader serverId header state = (true, state.opened mhz max rssiMax) := by
  unfold protoParseHeader
  split_ifs with wrong range own
  · exact .inl fun _ => rfl
  · exact .inl fun _ => rfl
  · exact .inr (.inl ⟨_, _, _, fun _ => rfl⟩)
  · refine .inr (.inr ⟨⟨?_, ?_, ?_, ?_, _, rfl, own⟩, _, _, _, fun _ => rfl⟩)
    · rw [protoAnnouncement, not_not.mp wrong]
      rfl
    all_goals
      simp only [not_or] at range
      obtain ⟨mhzLow, -, maxLow, rssiLow⟩ := range
    · refine ⟨_, rfl, ?_⟩
      have positive := fun zero => mhzLow (UInt32.toNat_inj.mp zero)
      exact Int.natCast_pos.mpr (Nat.pos_of_ne_zero positive)
    · refine ⟨_, rfl, ?_⟩
      have positive := fun zero => maxLow (UInt64.toNat_inj.mp zero)
      exact Int.natCast_pos.mpr (Nat.pos_of_ne_zero positive)
    · refine ⟨_, rfl, ?_⟩
      have positive := fun zero => rssiLow (UInt32.toNat_inj.mp zero)
      exact Int.natCast_pos.mpr (Nat.pos_of_ne_zero positive)

/-- Our own json header is refused. -/
theorem jsonParseHeader_own {obj : Json} (own : (jsonAnnouncement obj).serverId = some serverId)
    (packet : Packet) (state : ParserState) :
    jsonParseHeader serverId obj packet state = (false, packet, state) := by
  rcases jsonParseHeader_cases serverId obj with refused | ⟨right, _⟩
  · exact refused packet state
  · obtain ⟨id, same, other⟩ := right.serverId
    rw [own] at same
    exact absurd (Option.some.inj same).symm other

/-- Our own proto header is refused. -/
theorem protoParseHeader_own {header : AdsbHeader} (own : header.serverId = serverId)
    (state : ParserState) : (protoParseHeader serverId header state).1 = false := by
  rcases protoParseHeader_cases serverId header with refused | ⟨_, _, _, refused⟩ | ⟨right, _⟩
  · rw [refused]
  · rw [refused]
  · obtain ⟨id, same, other⟩ := right.serverId
    exact absurd ((Option.some.inj same).symm.trans own) other

/-! ## Json packets -/

/-- Two results that differ in the timestamp and the MLAT state only. -/
inductive Untimed : Except Fault (Bool × Packet × ParserState) →
    Except Fault (Bool × Packet × ParserState) → Prop
  | error {fault : Fault} : Untimed (.error fault) (.error fault)
  | ok {found : Bool} {packet : Packet} {state : ParserState} (timestamp : UInt64)
      (mlatState : MlatState) :
      Untimed (.ok (found, packet, state))
        (.ok (found, { packet with mlatTimestamp := timestamp },
          { state with mlatState := mlatState }))

/-- Nothing is done before the first header. -/
theorem jsonParsePayload_headless {state : ParserState} (headless : state.haveHeader = false)
    (obj : Json) (packet : Packet) (type : PacketType) :
    jsonParsePayload obj packet state type = .ok (false, packet, state) := by
  simp only [jsonParsePayload, jsonParseCommon, headless, Bool.not_false, ↓reduceIte,
    Except.ok_bind]
  rfl

variable {obj : Json} {packet after : Packet} {state left : ParserState} {found : Bool}

theorem jsonParseTimestamp_left
    (parsed : jsonParseTimestamp obj packet state = .ok (found, after, left)) :
    left = { state with mlatState := left.mlatState } := by
  unfold jsonParseTimestamp at parsed
  split at parsed
  · split at parsed
    · cases parsed
      rfl
    · obtain ⟨_, _, same⟩ := Except.bind_eq_ok.mp parsed
      cases same
      rfl
  · cases parsed
    rfl

theorem jsonParseCommon_left
    (parsed : jsonParseCommon obj packet state = .ok (found, after, left)) :
    left = { state with mlatState := left.mlatState } ∧
      (found = true → state.haveHeader = true) := by
  unfold jsonParseCommon at parsed
  split_ifs at parsed with headless
  · cases parsed
    exact ⟨rfl, nofun⟩
  · rw [Bool.not_eq_true', Bool.not_eq_false] at headless
    refine ⟨?_, fun _ => headless⟩
    split at parsed
    · cases parsed
      rfl
    · dsimp only at parsed
      split at parsed
      · cases parsed
        rfl
      · split_ifs at parsed
        · cases parsed
          rfl
        · cases parsed
          rfl
        · obtain ⟨⟨timed, packet', state'⟩, timedParsed, parsed⟩ := Except.bind_eq_ok.mp parsed
          have same := jsonParseTimestamp_left timedParsed
          cases timed with
          | false =>
              cases parsed
              exact same
          | true =>
              simp only [Bool.not_true, Bool.false_eq_true, ↓reduceIte] at parsed
              obtain ⟨_, _, last⟩ := Except.bind_eq_ok.mp parsed
              cases last
              exact same

/-- A json packet changes nothing in the state but the MLAT state, and is taken behind a header
only. -/
theorem jsonParsePayload_left {type : PacketType}
    (parsed : jsonParsePayload obj packet state type = .ok (found, after, left)) :
    left = { state with mlatState := left.mlatState } ∧
      (found = true → state.haveHeader = true) := by
  obtain ⟨⟨common, packet', state'⟩, commonParsed, parsed⟩ := Except.bind_eq_ok.mp parsed
  obtain ⟨same, header⟩ := jsonParseCommon_left commonParsed
  cases common with
  | false =>
      cases parsed
      exact ⟨same, nofun⟩
  | true =>
      simp only [Bool.not_true, Bool.false_eq_true, ↓reduceIte] at parsed
      have kept : left = state' := by
        split at parsed
        · cases parsed
          rfl
        · split_ifs at parsed <;> (cases parsed; rfl)
      rw [kept]
      exact ⟨same, fun _ => header rfl⟩

/-- What goes on alike from two such results gives two such results. -/
theorem Untimed.bind {first second : Except Fault (Bool × Packet × ParserState)}
    (untimed : Untimed first second)
    {next : Bool × Packet × ParserState → Except Fault (Bool × Packet × ParserState)}
    (goesOn : ∀ found (packet : Packet) (state : ParserState) timestamp mlatState,
      Untimed (next (found, packet, state)) (next (found,
        { packet with mlatTimestamp := timestamp }, { state with mlatState := mlatState }))) :
    Untimed (first >>= next) (second >>= next) := by
  cases untimed with
  | error => exact .error
  | ok timestamp mlatState => exact goesOn _ _ _ timestamp mlatState

theorem jsonParseTimestamp_untimed (obj : Json) (packet : Packet) (state : ParserState)
    (timestamp : UInt64) (mlatState : MlatState) :
    Untimed (jsonParseTimestamp obj packet state)
      (jsonParseTimestamp obj { packet with mlatTimestamp := timestamp }
        { state with mlatState := mlatState }) := by
  unfold jsonParseTimestamp
  split
  · split
    · exact .ok timestamp mlatState
    · by_cases stopped : state.mlatTimestampMhz = 0
      · simp only [stopped, packetMlatTimestampScaleIn_zero]
        exact .error
      · simp only [packetMlatTimestampScaleIn_of_pos stopped]
        exact .ok _ _
  · exact .ok timestamp mlatState

theorem jsonParseRssi_untimed (obj : Json) (packet : Packet) (state : ParserState)
    (timestamp : UInt64) (mlatState : MlatState) :
    jsonParseRssi obj { packet with mlatTimestamp := timestamp }
        { state with mlatState := mlatState } =
      (jsonParseRssi obj packet state).map fun result =>
        (result.1, { result.2 with mlatTimestamp := timestamp }) := by
  unfold jsonParseRssi
  split
  · split
    · rfl
    · cases packetRssiScaleIn _ _ <;> rfl
  · rfl

theorem jsonParseCommon_untimed (obj : Json) (packet : Packet) (state : ParserState)
    (mlatState : MlatState) :
    Untimed (jsonParseCommon obj packet state)
      (jsonParseCommon obj packet { state with mlatState := mlatState }) := by
  unfold jsonParseCommon
  split
  · exact .ok packet.mlatTimestamp mlatState
  · split
    · exact .ok packet.mlatTimestamp mlatState
    · dsimp only
      split
      · exact .ok _ mlatState
      · split
        · exact .ok _ mlatState
        · split
          · exact .ok _ mlatState
          · refine (jsonParseTimestamp_untimed obj _ state packet.mlatTimestamp mlatState).bind ?_
            intro timed after left timestamp mlatState
            cases timed with
            | false => exact .ok timestamp mlatState
            | true =>
                simp only [Bool.not_true, Bool.false_eq_true, ↓reduceIte, jsonParseRssi_untimed]
                cases jsonParseRssi obj after left with
                | error _ => exact .error
                | ok result => exact .ok timestamp mlatState

/-- **The verdict on a json packet does not depend on the MLAT state.** -/
theorem jsonParsePayload_untimed (obj : Json) (packet : Packet) (state : ParserState)
    (type : PacketType) (mlatState : MlatState) :
    Untimed (jsonParsePayload obj packet state type)
      (jsonParsePayload obj packet { state with mlatState := mlatState } type) := by
  refine (jsonParseCommon_untimed obj packet state mlatState).bind ?_
  intro common after left timestamp mlatState
  cases common with
  | false => exact .ok timestamp mlatState
  | true =>
      simp only [Bool.not_true, Bool.false_eq_true, ↓reduceIte]
      split
      · exact .ok timestamp mlatState
      · split
        · exact .ok timestamp mlatState
        · split <;> exact .ok timestamp mlatState

/-! ## Records -/

/-- What the parsers do with an object is decided by its type. -/
theorem jsonParseObject_cases (serverId : CString) (obj : Json) :
    (∀ packet state, jsonParseObject serverId obj packet state = .ok (false, packet, state)) ∨
      (∃ type, obj.getString? (ascii "type") = some type ∧ CString.ofBytes type = .ofAscii "header" ∧
        ∀ packet state, jsonParseObject serverId obj packet state =
          .ok (jsonParseHeader serverId obj packet state)) ∨
      ∃ type, ∀ packet state,
        jsonParseObject serverId obj packet state = jsonParsePayload obj packet state type := by
  unfold jsonParseObject
  split
  · exact .inl fun _ _ => rfl
  · rename_i type named
    unfold jsonParser
    dsimp only
    split_ifs with isHeader
    · exact .inr (.inl ⟨type, named, isHeader, fun _ _ => rfl⟩)
    · exact .inr (.inr ⟨.modeAc, fun _ _ => rfl⟩)
    · exact .inr (.inr ⟨.modeSShort, fun _ _ => rfl⟩)
    · exact .inr (.inr ⟨.modeSLong, fun _ _ => rfl⟩)
    · exact .inl fun _ _ => rfl

/-- What the parsers do with a message is decided by the part of it that is there. -/
theorem protoParseRecord_cases (serverId : CString) (msg : Adsb) :
    (msg.header = none ∧ ∀ packet state,
      protoParseRecord serverId msg packet state = .ok (false, packet, state)) ∨
      (∃ header, msg.header = some header ∧ ∀ packet state,
        protoParseRecord serverId msg packet state =
          .ok ((protoParseHeader serverId header state).1,
            if (protoParseHeader serverId header state).1 then { packet with type := .none }
            else packet, (protoParseHeader serverId header state).2)) ∨
      msg.header = none ∧ ∃ (input : AdsbPacket) (type : PacketType), ∀ packet state,
        protoParseRecord serverId msg packet state =
          if state.haveHeader = true ∧ input.payload.length = packetPayloadLen type ∧
              packetValidateId (some input.sourceId) = true then
            (input.stored type packet state).map fun stored => (true, stored)
          else .ok (false, packet, state) := by
  obtain ⟨header, modeAc, modeSShort, modeSLong⟩ := msg
  cases header with
  | some header => exact .inr (.inl ⟨header, rfl, fun _ _ => rfl⟩)
  | none =>
      cases modeAc with
      | some input =>
          refine .inr (.inr ⟨rfl, input, .modeAc, fun packet state => ?_⟩)
          rw [← protoParsePacket_eq]
          rfl
      | none =>
          cases modeSShort with
          | some input =>
              refine .inr (.inr ⟨rfl, input, .modeSShort, fun packet state => ?_⟩)
              rw [← protoParsePacket_eq]
              rfl
          | none =>
              cases modeSLong with
              | some input =>
                  refine .inr (.inr ⟨rfl, input, .modeSLong, fun packet state => ?_⟩)
                  rw [← protoParsePacket_eq]
                  rfl
              | none => exact .inl ⟨rfl, fun _ _ => rfl⟩

/-- Before a header an object is refused without a trace, or it is a header and taken. -/
theorem jsonParseObject_headless (serverId : CString) (obj : Json) :
    (∀ packet {state}, state.haveHeader = false →
      jsonParseObject serverId obj packet state = .ok (false, packet, state)) ∨
      ∃ mhz max rssiMax, ∀ packet state, jsonParseObject serverId obj packet state =
        .ok (true, { packet with type := .none }, state.opened mhz max rssiMax) := by
  rcases jsonParseObject_cases serverId obj with refused | ⟨_, _, _, isHeader⟩ | ⟨type, isPacket⟩
  · exact .inl fun packet state _ => refused packet state
  · rcases jsonParseHeader_cases serverId obj with refused | ⟨_, mhz, max, rssiMax, taken⟩
    · refine .inl fun packet state _ => ?_
      rw [isHeader, refused]
    · refine .inr ⟨mhz, max, rssiMax, fun packet state => ?_⟩
      rw [isHeader, taken]
  · refine .inl fun packet state headless => ?_
    rw [isPacket, jsonParsePayload_headless headless]

/-- Before a header a message is refused, and leaves ranges at most, or it is a header and
taken. -/
theorem protoParseRecord_headless (serverId : CString) (msg : Adsb) :
    (∀ packet {state}, state.haveHeader = false → ∃ after,
      protoParseRecord serverId msg packet state = .ok (false, packet, after) ∧
        after.haveHeader = false ∧ after.mlatState = state.mlatState) ∨
      ∃ mhz max rssiMax, ∀ packet state, protoParseRecord serverId msg packet state =
        .ok (true, { packet with type := .none }, state.opened mhz max rssiMax) := by
  rcases protoParseRecord_cases serverId msg with
    ⟨_, refused⟩ | ⟨header, _, isHeader⟩ | ⟨_, input, type, isPacket⟩
  · exact .inl fun packet state headless => ⟨state, refused packet state, headless, rfl⟩
  · rcases protoParseHeader_cases serverId header with
      refused | ⟨mhz, max, rssiMax, refused⟩ | ⟨_, mhz, max, rssiMax, taken⟩
    · refine .inl fun packet state headless => ⟨state, ?_, headless, rfl⟩
      rw [isHeader, refused]
      rfl
    · refine .inl fun packet state headless => ⟨state.ranges mhz max rssiMax, ?_, headless, rfl⟩
      rw [isHeader, refused]
      rfl
    · refine .inr ⟨mhz, max, rssiMax, fun packet state => ?_⟩
      rw [isHeader, taken]
      rfl
  · refine .inl fun packet state headless => ⟨state, ?_, headless, rfl⟩
    rw [isPacket, headless]
    rfl

end Adsbus

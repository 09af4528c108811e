import Adsbus.Flow.Window
import Adsbus.Formats.Verdict
import Adsbus.Foundation.Runs

/-! # The header of a connection

A json or a proto connection starts with a zeroed state. Its parser is called any number of times,
and between the calls the buffer only grows. No packet is received before a right header was
taken (`Adsbus.Gated.packets`), and nothing is received any more once our own header is at the
front of the buffer (`Adsbus.Gated.own`).
-/

namespace Adsbus

/-- The buffer and the state that a parser is called with. -/
structure Conversation where
  buf : Buf UInt8
  state : ParserState

/-- A call of the parser with a packet to fill in. -/
def Conversation.attempt (conversation : Conversation) (packet : Packet) : Attempt where
  buf := conversation.buf
  packet := packet
  state := conversation.state

/-- What happens on a connection: bytes are appended to the buffer, or the parser is called. -/
inductive Conversation.Act
  | append (input : Bytes)
  | parse (packet : Packet)

/-- A step of a connection with a parser. -/
def Conversation.Step (parse : Parse) :
    Conversation → Conversation.Act → Conversation → Prop
  | before, .append input, after =>
      after.state = before.state ∧ after.buf.Valid ∧
        after.buf.window = before.buf.window ++ input
  | before, .parse packet, after =>
      ∃ found left, parse (before.attempt packet) = .ok (found, after.attempt left)

/-- A new connection. -/
def Conversation.New (conversation : Conversation) : Prop :=
  conversation.buf.Valid ∧ conversation.state = parserStateInit

/-- A call took a right header. -/
def Introduced (parse : Parse) (own : CString) (header : Bytes → Option Announcement)
    (trace : List (Conversation × Conversation.Act)) : Prop :=
  ∃ earlier input taken, (earlier, .parse input) ∈ trace ∧
    parse (earlier.attempt input) = .ok (true, taken) ∧
    ∃ announcement ∈ header earlier.buf.window, announcement.Right own

/-- Headers gate the packets of a connection. -/
structure Gated (parse : Parse) (own : CString) (header : Bytes → Option Announcement) : Prop where
  /-- Before a packet is found a right header was taken. -/
  packets : ∀ {start trace now}, start.New → Run (Conversation.Step parse) start trace now →
    ∀ {packet after}, parse (now.attempt packet) = .ok (true, after) → after.packet.type ≠ .none →
      Introduced parse own header trace
  /-- Behind our own header nothing is found or consumed. -/
  own : ∀ {start trace now}, start.New → Run (Conversation.Step parse) start trace now →
    ∀ {announcement}, header now.buf.window = some announcement → announcement.serverId = some own →
      ∀ {trace' later}, Run (Conversation.Step parse) now trace' later → ∀ packet,
        ∃ after, parse (later.attempt packet) = .ok (false, after) ∧ after.buf = later.buf

/-- What a parser does that is gated by headers. -/
structure Gate (parse : Parse) (own : CString) (header : Bytes → Option Announcement) : Prop where
  windowed : Windowed parse
  packets : ∀ {attempt after}, attempt.buf.Valid → parse attempt = .ok (true, after) → after.packet.type ≠ .none →
    attempt.state.haveHeader = true
  opens : ∀ {attempt found after}, attempt.buf.Valid → parse attempt = .ok (found, after) →
    after.state.haveHeader = true → attempt.state.haveHeader = true ∨
      found = true ∧ ∃ announcement ∈ header attempt.buf.window, announcement.Right own
  stays : ∀ {window announcement}, header window = some announcement → ∀ more,
    header (window ++ more) = some announcement
  refuses : ∀ {attempt announcement}, attempt.buf.Valid →
    header attempt.buf.window = some announcement → announcement.serverId = some own →
      ∃ after, parse attempt = .ok (false, after) ∧ after.buf = attempt.buf

variable {parse : Parse} {own : CString} {header : Bytes → Option Announcement}
  {start now later : Conversation} {trace : List (Conversation × Conversation.Act)}

/-- The buffer of a connection stays valid. -/
theorem Gate.valid (gate : Gate parse own header) (valid : start.buf.Valid)
    (run : Run (Conversation.Step parse) start trace now) : now.buf.Valid := by
  refine @Run.invariant _ _ _ _ _ (fun conversation => conversation.buf.Valid) valid ?_ _ run
  intro before act after valid taken
  cases act with
  | append input => exact taken.2.1
  | parse packet =>
      obtain ⟨found, left, parsed⟩ := taken
      have attempted := gate.windowed.attempted valid parsed
      exact attempted.valid valid

/-- A header is noted when a right one is taken only. -/
theorem Gate.noted (gate : Gate parse own header) (new : start.New)
    (run : Run (Conversation.Step parse) start trace now) (noted : now.state.haveHeader = true) :
    Introduced parse own header trace := by
  induction run with
  | start =>
      rw [new.2] at noted
      exact nomatch noted
  | @step trace before after act earlier taken ih =>
      have kept : before.state.haveHeader = true →
          Introduced parse own header ((before, act) :: trace) := fun noted => by
        obtain ⟨first, input, left, member, found⟩ := ih noted
        exact ⟨first, input, left, List.mem_cons_of_mem _ member, found⟩
      cases act with
      | append input =>
          rw [taken.1] at noted
          exact kept noted
      | parse packet =>
          obtain ⟨found, left, parsed⟩ := taken
          rcases gate.opens (gate.valid new.1 earlier) parsed noted with before | ⟨rfl, announced⟩
          · exact kept before
          · exact ⟨_, packet, _, List.mem_cons_self, parsed, announced⟩

/-- A header at the front of the buffer that is our own stays there. -/
theorem Gate.stuck (gate : Gate parse own header) (valid : now.buf.Valid)
    {announcement : Announcement} (front : header now.buf.window = some announcement)
    (isOwn : announcement.serverId = some own)
    (run : Run (Conversation.Step parse) now trace later) :
    later.buf.Valid ∧ header later.buf.window = some announcement := by
  refine @Run.invariant _ _ _ _ _ (fun conversation => conversation.buf.Valid ∧
    header conversation.buf.window = some announcement) ⟨valid, front⟩ ?_ _ run
  rintro before act after ⟨valid, front⟩ taken
  cases act with
  | append input =>
      obtain ⟨-, valid', window⟩ := taken
      rw [window]
      exact ⟨valid', gate.stays front input⟩
  | parse packet =>
      obtain ⟨found, left, parsed⟩ := taken
      obtain ⟨refused, same, kept⟩ := @Gate.refuses _ _ _ gate (before.attempt packet) _ valid front isOwn
      rw [same, Except.ok.injEq, Prod.mk.injEq] at parsed
      obtain ⟨-, rfl⟩ := parsed
      change after.buf = before.buf at kept
      rw [kept]
      exact ⟨valid, front⟩

theorem Gate.gated (gate : Gate parse own header) : Gated parse own header where
  packets new run _ _ found typed := gate.noted new run (gate.packets (gate.valid new.1 run) found typed)
  own new run _ front isOwn _ _ onward packet := by
    obtain ⟨valid, front⟩ := gate.stuck (gate.valid new.1 run) front isOwn onward
    exact gate.refuses valid front isOwn

/-! ## Json -/

/-- What the object at the front of the unread bytes announces, when it is a header. -/
def jsonHeaderFront (jansson : Jansson) (window : Bytes) : Option Announcement :=
  match jansson.loadb window with
  | some (.object fields, _) =>
      if ((Json.object fields).getString? (ascii "type")).map CString.ofBytes =
          some (.ofAscii "header") then
        some (jsonAnnouncement (.object fields))
      else none
  | _ => none

/-- What the record at the front of the unread bytes announces, when it is a header. -/
def protoHeaderFront (protobuf : Protobuf) (window : Bytes) : Option Announcement :=
  (protoFront protobuf window).bind fun front => front.1.header.map protoAnnouncement

variable {jansson : Jansson} {serverId : CString}

/-- `json_parse` finds nothing without an object; with one the parsers of the object decide. -/
theorem jsonParse_cases (jansson : Jansson) (serverId : CString) (attempt : Attempt) :
    jsonParse jansson serverId attempt = .ok (false, attempt) ∨
      ∃ fields position, jansson.loadb attempt.buf.window = some (.object fields, position) ∧
        ∀ {found after}, jsonParse jansson serverId attempt = .ok (found, after) →
          jsonParseObject serverId (.object fields) attempt.packet attempt.state =
            .ok (found, after.packet, after.state) ∧ (found = false → after.buf = attempt.buf) := by
  have whole : bufAt attempt.buf 0 attempt.buf.length = attempt.buf.window := rfl
  unfold jsonParse
  rw [whole]
  split
  · rename_i fields position loaded
    refine .inr ⟨fields, position, loaded, fun parsed => ?_⟩
    obtain ⟨⟨found, packet, state⟩, decided, parsed⟩ := Except.bind_eq_ok.mp parsed
    cases found with
    | false =>
        cases parsed
        exact ⟨decided, fun _ => rfl⟩
    | true =>
        simp only [Bool.not_true, Bool.false_eq_true, ↓reduceIte, Except.bind_eq_ok,
          Except.pure_eq_ok, Except.ok.injEq, Prod.mk.injEq] at parsed
        obtain ⟨_, _, buf, _, rest, _, rfl, rfl⟩ := parsed
        exact ⟨decided, nofun⟩
  · exact .inl rfl

/-- `json_parse` on an object that is refused. -/
theorem jsonParse_of_refused {attempt : Attempt} {fields : List (Bytes × Json)} {position : Nat}
    (loaded : jansson.loadb attempt.buf.window = some (.object fields, position)) {packet : Packet}
    {state : ParserState}
    (refused : jsonParseObject serverId (.object fields) attempt.packet attempt.state =
      .ok (false, packet, state)) :
    jsonParse jansson serverId attempt =
      .ok (false, { attempt with packet := packet, state := state }) := by
  have whole : bufAt attempt.buf 0 attempt.buf.length = attempt.buf.window := rfl
  simp only [jsonParse, whole, loaded, refused, Except.ok_bind, Bool.not_false, ↓reduceIte,
    Except.pure_eq_ok]

theorem jsonGate (stable : jansson.Stable) :
    Gate (jsonParse jansson serverId) serverId (jsonHeaderFront jansson) where
  windowed := jsonParse_windowed jansson serverId
  packets := by
    intro attempt after _ found typed
    rcases jsonParse_cases jansson serverId attempt with nothing | ⟨fields, _, _, decides⟩
    · rw [nothing] at found
      exact nomatch found
    · obtain ⟨decided, -⟩ := decides found
      rcases jsonParseObject_cases serverId (.object fields) with
        refused | ⟨_, _, _, isHeader⟩ | ⟨type, isPacket⟩
      · rw [refused] at decided
        exact nomatch decided
      · rw [isHeader] at decided
        rcases jsonParseHeader_cases serverId (.object fields) with refused | ⟨_, _, _, _, taken⟩
        · rw [refused] at decided
          exact nomatch decided
        · rw [taken, Except.ok.injEq, Prod.mk.injEq, Prod.mk.injEq] at decided
          rw [← decided.2.1] at typed
          exact absurd rfl typed
      · rw [isPacket] at decided
        exact (jsonParsePayload_left decided).2 rfl
  opens := by
    intro attempt found after _ parsed noted
    rcases jsonParse_cases jansson serverId attempt with nothing | ⟨fields, _, loaded, decides⟩
    · rw [nothing] at parsed
      cases parsed
      exact .inl noted
    · obtain ⟨decided, -⟩ := decides parsed
      rcases jsonParseObject_cases serverId (.object fields) with
        refused | ⟨type, named, isType, isHeader⟩ | ⟨type, isPacket⟩
      · rw [refused, Except.ok.injEq, Prod.mk.injEq, Prod.mk.injEq] at decided
        rw [← decided.2.2] at noted
        exact .inl noted
      · rw [isHeader] at decided
        rcases jsonParseHeader_cases serverId (.object fields) with
          refused | ⟨right, _, _, _, taken⟩
        · rw [refused, Except.ok.injEq, Prod.mk.injEq, Prod.mk.injEq] at decided
          rw [← decided.2.2] at noted
          exact .inl noted
        · rw [taken, Except.ok.injEq, Prod.mk.injEq] at decided
          refine .inr ⟨decided.1.symm, _, ?_, right⟩
          rw [jsonHeaderFront, loaded]
          simp only [named, Option.map_some, isType, ↓reduceIte]
          rfl
      · rw [isPacket] at decided
        rw [(jsonParsePayload_left decided).1] at noted
        exact .inl noted
  stays := by
    intro window announcement front more
    unfold jsonHeaderFront at front ⊢
    split at front
    · rename_i fields position loaded
      rw [stable loaded _ ((List.take_prefix _ _).trans (List.prefix_append _ _))]
      exact front
    · exact nomatch front
  refuses := by
    intro attempt announcement _ front isOwn
    unfold jsonHeaderFront at front
    split at front
    · rename_i fields position loaded
      split_ifs at front with isType
      cases front
      obtain ⟨type, named, isHeader⟩ := Option.map_eq_some_iff.mp isType
      have refused : jsonParseObject serverId (.object fields) attempt.packet attempt.state =
          .ok (false, attempt.packet, attempt.state) := by
        simp only [jsonParseObject, named, jsonParser, isHeader, ↓reduceIte,
          jsonParseHeader_own isOwn]
      exact ⟨_, jsonParse_of_refused loaded refused, rfl⟩
    · exact nomatch front

/-! ## Proto -/

/-- `proto_parse` finds nothing without a record; with one the parsers of the record decide. -/
theorem protoParse_cases (protobuf : Protobuf) (serverId : CString) {attempt : Attempt}
    (valid : attempt.buf.Valid) :
    protoParse protobuf serverId attempt = .ok (false, attempt) ∨
      ∃ msg len, protoFront protobuf attempt.buf.window = some (msg, len) ∧
        ∀ {found after}, protoParse protobuf serverId attempt = .ok (found, after) →
          protoParseRecord serverId msg attempt.packet attempt.state =
            .ok (found, after.packet, after.state) ∧ (found = false → after.buf = attempt.buf) := by
  unfold protoParse
  rw [protoUnwrap_eq_front valid]
  split
  · exact .inl rfl
  · rename_i msg len front
    refine .inr ⟨msg, len, front, fun parsed => ?_⟩
    obtain ⟨⟨found, packet, state⟩, decided, parsed⟩ := Except.bind_eq_ok.mp parsed
    cases found with
    | false =>
        cases parsed
        exact ⟨decided, fun _ => rfl⟩
    | true =>
        simp only [Bool.not_true, Bool.false_eq_true, ↓reduceIte, Except.bind_eq_ok,
          Except.pure_eq_ok, Except.ok.injEq, Prod.mk.injEq] at parsed
        obtain ⟨buf, _, rfl, rfl⟩ := parsed
        exact ⟨decided, nofun⟩

/-- `proto_parse` on a record that is refused. -/
theorem protoParse_of_refused {protobuf : Protobuf} {attempt : Attempt} (valid : attempt.buf.Valid)
    {msg : Adsb} {len : Nat} (front : protoFront protobuf attempt.buf.window = some (msg, len))
    {packet : Packet} {state : ParserState}
    (refused : protoParseRecord serverId msg attempt.packet attempt.state =
      .ok (false, packet, state)) :
    protoParse protobuf serverId attempt =
      .ok (false, { attempt with packet := packet, state := state }) := by
  simp only [protoParse, protoUnwrap_eq_front valid, front, refused, Except.ok_bind, Bool.not_false,
    ↓reduceIte, Except.pure_eq_ok]

theorem protoGate (protobuf : Protobuf) (serverId : CString) :
    Gate (protoParse protobuf serverId) serverId (protoHeaderFront protobuf) where
  windowed := protoParse_windowed protobuf serverId
  packets := by
    intro attempt after valid found typed
    rcases protoParse_cases protobuf serverId valid with nothing | ⟨msg, len, _, decides⟩
    · rw [nothing] at found
      exact nomatch found
    · obtain ⟨decided, -⟩ := decides found
      rcases protoParseRecord_cases serverId msg with
        ⟨_, refused⟩ | ⟨header, _, isHeader⟩ | ⟨_, input, type, isPacket⟩
      · rw [refused] at decided
        exact nomatch decided
      · rw [isHeader, Except.ok.injEq, Prod.mk.injEq, Prod.mk.injEq] at decided
        rw [if_pos decided.1] at decided
        rw [← decided.2.1] at typed
        exact absurd rfl typed
      · rw [isPacket] at decided
        split at decided
        · case isTrue checks => exact checks.1
        · exact nomatch decided
  opens := by
    intro attempt found after valid parsed noted
    rcases protoParse_cases protobuf serverId valid with nothing | ⟨msg, len, front, decides⟩
    · rw [nothing] at parsed
      cases parsed
      exact .inl noted
    · obtain ⟨decided, -⟩ := decides parsed
      rcases protoParseRecord_cases serverId msg with
        ⟨_, refused⟩ | ⟨header, headed, isHeader⟩ | ⟨_, input, type, isPacket⟩
      · rw [refused, Except.ok.injEq, Prod.mk.injEq, Prod.mk.injEq] at decided
        rw [← decided.2.2] at noted
        exact .inl noted
      · rw [isHeader, Except.ok.injEq, Prod.mk.injEq, Prod.mk.injEq] at decided
        obtain ⟨isFound, -, left⟩ := decided
        rcases protoParseHeader_cases serverId header with
          refused | ⟨_, _, _, refused⟩ | ⟨right, _, _, _, taken⟩
        · rw [refused] at left
          rw [← left] at noted
          exact .inl noted
        · rw [refused] at left
          rw [← left] at noted
          exact .inl noted
        · rw [taken] at isFound
          refine .inr ⟨isFound.symm, _, ?_, right⟩
          simp only [protoHeaderFront, front, Option.bind_some, headed, Option.map_some,
            Option.mem_def]
      · rw [isPacket] at decided
        split at decided
        · case isTrue checks => exact .inl checks.1
        · rw [Except.ok.injEq, Prod.mk.injEq, Prod.mk.injEq] at decided
          rw [← decided.2.2] at noted
          exact .inl noted
  stays := by
    intro window announcement front more
    obtain ⟨⟨msg, len⟩, found, announced⟩ := Option.bind_eq_some_iff.mp front
    rw [protoHeaderFront, protoFront_append found]
    exact announced
  refuses := by
    intro attempt announcement valid front isOwn
    obtain ⟨⟨msg, len⟩, found, announced⟩ := Option.bind_eq_some_iff.mp front
    obtain ⟨header, headed, rfl⟩ := Option.map_eq_some_iff.mp announced
    have refused := protoParseHeader_own (Option.some.inj isOwn) attempt.state
    rcases protoParseRecord_cases serverId msg with
      ⟨headless, _⟩ | ⟨header', headed', isHeader⟩ | ⟨headless, _⟩
    · rw [headless] at headed
      exact nomatch headed
    · rw [headed'] at headed
      cases headed
      have decided := isHeader attempt.packet attempt.state
      rw [refused] at decided
      exact ⟨_, protoParse_of_refused valid found decided, rfl⟩
    · rw [headless] at headed
      exact nomatch headed

/-! ## Both formats -/

/-- **Header gating.** On a json and on a proto connection no packet is received before a right
header was taken, and nothing is received or consumed any more once our own header is at the
front of the buffer. -/
theorem header_gating (stable : jansson.Stable) (protobuf : Protobuf) (serverId : CString) :
    Gated (jsonParse jansson serverId) serverId (jsonHeaderFront jansson) ∧
      Gated (protoParse protobuf serverId) serverId (protoHeaderFront protobuf) :=
  ⟨(jsonGate stable).gated, (protoGate protobuf serverId).gated⟩

/-- A json header of our own that has come in two reads is not taken. -/
theorem header_gating_own :
    ∃ after, jsonParse .flat (.ofAscii "me")
        { buf := bufHolding (Cells.fill bufLenMax 0)
            (ascii "\x7b\"type\":\"header\",\"server_id\":\"me\"\x7d")
          packet := receivePacket (receiveNew (Cells.fill 16 0) ⟨0, 0⟩ (Cells.fill bufLenMax 0))
          state := parserStateInit } = .ok (false, after) ∧
      after.buf = bufHolding (Cells.fill bufLenMax 0)
        (ascii "\x7b\"type\":\"header\",\"server_id\":\"me\"\x7d") := by
  let first := ascii "\x7b\"type\":\"header\","
  let whole := ascii "\x7b\"type\":\"header\",\"server_id\":\"me\"\x7d"
  let memory := Cells.fill bufLenMax (0 : UInt8)
  have firstFits : first.length ≤ bufLenMax := by decide
  have wholeFits : whole.length ≤ bufLenMax := by decide
  have firstRead : Conversation.Step (jsonParse .flat (.ofAscii "me"))
      ⟨bufInit memory, parserStateInit⟩ (.append first)
      ⟨bufHolding memory first, parserStateInit⟩ := by
    refine ⟨rfl, Buf.valid_bufHolding memory firstFits, ?_⟩
    rw [Buf.window_bufHolding memory firstFits, Buf.window_bufInit, List.nil_append]
  have secondRead : Conversation.Step (jsonParse .flat (.ofAscii "me"))
      ⟨bufHolding memory first, parserStateInit⟩
      (.append (ascii "\"server_id\":\"me\"\x7d"))
      ⟨bufHolding memory whole, parserStateInit⟩ := by
    refine ⟨rfl, Buf.valid_bufHolding memory wholeFits, ?_⟩
    rw [Buf.window_bufHolding memory wholeFits, Buf.window_bufHolding memory firstFits]
    decide +kernel
  have announced : ((jsonHeaderFront .flat whole).map Announcement.serverId) =
      some (some (.ofAscii "me")) := by decide +kernel
  obtain ⟨announcement, front, isOwn⟩ := Option.map_eq_some_iff.mp announced
  rw [← Buf.window_bufHolding memory wholeFits] at front
  exact (header_gating Jansson.flat_stable .reading (.ofAscii "me")).1.own
    ⟨Buf.valid_bufInit memory, rfl⟩ ((Run.start.step firstRead).step secondRead) front isOwn .start _

end Adsbus

import Adsbus.Flow.Safe
import Adsbus.Formats.Agree

/-! # The grammar of the proto format

A proto stream is made of messages that say one thing each. The generated
structure of a message has a member for everything that it could say, and
`proto_parse` takes the first that is set, whether or not another one follows. So
it accepts exactly the messages of one member where there is no message of
several whose first one is in order (`Adsbus.protoParse_exact_iff`).
-/

namespace Adsbus

variable {protobuf : Protobuf} {serverId : CString}

/-! ## What a message says -/

/-- The first member that is set, in the order in which `proto_parse` looks at them. -/
def Adsb.content (msg : Adsb) : Option Content :=
  match msg.header, msg.modeAc, msg.modeSShort, msg.modeSLong with
  | some sent, _, _, _ => some (.header sent)
  | none, some sent, _, _ => some (.packet .modeAc sent)
  | none, none, some sent, _ => some (.packet .modeSShort sent)
  | none, none, none, some sent => some (.packet .modeSLong sent)
  | none, none, none, none => none

/-- A header that is in order, or a packet that is, behind a header. -/
def Content.Taken (serverId : CString) (state : ParserState) : Content → Prop
  | .header sent => sent.Accepted serverId
  | .packet type sent => type ∈ PacketType.frames ∧ sent.Checked type state

/-- What `proto_parse` stores of it. -/
def Content.Stored (attempt after : Attempt) : Content → Prop
  | .header sent =>
      after.packet = { attempt.packet with type := .none } ∧
        after.state = attempt.state.withHeader sent
  | .packet type sent =>
      sent.stored type attempt.packet attempt.state = .ok (after.packet, after.state)

/-- The ranges that it is scaled with are positive. -/
def Content.Scalable (state : ParserState) : Content → Prop
  | .header _ => True
  | .packet _ sent =>
      (sent.mlatTimestamp ≠ none → state.mlatTimestampMhz ≠ 0) ∧
        (sent.rssi ≠ none → state.rssiMax ≠ 0)

theorem frames_of_ne {type : PacketType} (typed : type ≠ .none) : type ∈ PacketType.frames := by
  cases type with
  | none => exact absurd rfl typed
  | modeAc => decide
  | modeSShort => decide
  | modeSLong => decide

/-- A message of one member says what that says. -/
theorem Content.Taken.content_message {state : ParserState} {content : Content}
    (taken : content.Taken serverId state) : content.message.content = some content := by
  cases content with
  | header sent => rfl
  | packet type sent =>
      cases type with
      | none => exact absurd taken.1 (by decide)
      | modeAc => rfl
      | modeSShort => rfl
      | modeSLong => rfl

/-- The parsers look at the first member only. -/
theorem protoParseRecord_content {msg : Adsb} {content : Content}
    (first : msg.content = some content) :
    protoParseRecord serverId msg = protoParseRecord serverId content.message := by
  obtain ⟨header, modeAc, modeSShort, modeSLong⟩ := msg
  rcases header with _ | header
  · rcases modeAc with _ | modeAc
    · rcases modeSShort with _ | modeSShort
      · rcases modeSLong with _ | modeSLong
        · cases first
        · cases first
          rfl
      · cases first
        rfl
    · cases first
      rfl
  · cases first
    rfl

theorem protoParseRecord_nothing {msg : Adsb} (empty : msg.content = none) (base : Packet)
    (state : ParserState) : protoParseRecord serverId msg base state = .ok (false, base, state) := by
  obtain ⟨header, modeAc, modeSShort, modeSLong⟩ := msg
  rcases header with _ | header
  · rcases modeAc with _ | modeAc
    · rcases modeSShort with _ | modeSShort
      · rcases modeSLong with _ | modeSLong
        · rfl
        · cases empty
      · cases empty
    · cases empty
  · cases empty

/-! ## Records -/

section Record

variable {attempt after : Attempt} {content : Content}

theorem Content.parse_eq_true :
    protoParseRecord serverId content.message attempt.packet attempt.state =
        .ok (true, after.packet, after.state) ↔
      content.Taken serverId attempt.state ∧ content.Stored attempt after := by
  cases content with
  | header sent => exact protoParseRecord_header serverId _ _ _ _
  | packet type sent =>
      by_cases typed : type = .none
      · subst typed
        refine ⟨fun parsed => ?_, fun taken => absurd taken.1.1 (by decide)⟩
        rw [protoParseRecord_nothing rfl] at parsed
        cases parsed
      · have framed : type ∈ PacketType.frames := by
          cases type with
          | none => exact absurd rfl typed
          | modeAc => decide
          | modeSShort => decide
          | modeSLong => decide
        rw [protoParseRecord_packet serverId typed, Content.Taken, and_iff_right (frames_of_ne typed)]
        rfl

/-- What is in order can be stored exactly where its ranges are positive. -/
theorem Content.stored_iff :
    (∃ after, content.Stored attempt after) ↔ content.Scalable attempt.state := by
  cases content with
  | header sent => exact ⟨fun _ => trivial, fun _ => ⟨{ attempt with
      packet := { attempt.packet with type := .none }
      state := attempt.state.withHeader sent }, rfl, rfl⟩⟩
  | packet type sent =>
      refine ⟨fun ⟨after, stored⟩ => AdsbPacket.scaled_of_stored stored, fun ⟨mhz, rssiMax⟩ => ?_⟩
      obtain ⟨packet, state, stored⟩ :=
        sent.stored_of_scaled type attempt.packet mhz rssiMax
      exact ⟨{ attempt with packet := packet, state := state }, stored⟩

/-- What is in order is stored, unless the parser fails. -/
theorem Content.stored_of_ok (taken : content.Taken serverId attempt.state)
    {result : Bool × Packet × ParserState}
    (parsed : protoParseRecord serverId content.message attempt.packet attempt.state = .ok result) :
    ∃ after, content.Stored attempt after := by
  cases content with
  | header sent => exact Content.stored_iff.mpr trivial
  | packet type sent =>
      obtain ⟨framed, checked⟩ := taken
      have packet := protoParsePacket_eq sent attempt.packet attempt.state type
      rw [if_pos ⟨checked.haveHeader, checked.payload, checked.sourceId⟩] at packet
      have record : protoParseRecord serverId (Content.packet type sent).message attempt.packet
          attempt.state = (sent.stored type attempt.packet attempt.state).map fun stored =>
            (true, stored) := by
        cases type with
        | none => exact absurd framed (by decide)
        | modeAc => exact packet
        | modeSShort => exact packet
        | modeSLong => exact packet
      rw [record] at parsed
      cases stored : sent.stored type attempt.packet attempt.state with
      | error fault =>
          rw [stored] at parsed
          cases parsed
      | ok after => exact ⟨{ attempt with packet := after.1, state := after.2 }, stored⟩

/-- What is not in order is refused, and is no header. -/
theorem Content.parse_of_not_taken (refused : ¬ content.Taken serverId attempt.state) :
    ∃ state, protoParseRecord serverId content.message attempt.packet attempt.state =
        .ok (false, attempt.packet, state) ∧
      state.haveHeader = attempt.state.haveHeader ∧ (attempt.state.Scaled → state.Scaled) := by
  cases content with
  | header sent =>
      cases parsed : protoParseHeader serverId sent attempt.state with
      | mk found state =>
          cases found with
          | true => exact absurd (protoParseHeader_eq_true serverId _ _ |>.mp parsed).1 refused
          | false =>
              refine ⟨state, ?_, ?_, fun scaled => ?_⟩
              · have record : protoParseRecord serverId (Content.header sent).message attempt.packet
                    attempt.state = .ok ((protoParseHeader serverId sent attempt.state).1,
                      if (protoParseHeader serverId sent attempt.state).1 = true then
                        { attempt.packet with type := .none }
                      else attempt.packet,
                      (protoParseHeader serverId sent attempt.state).2) := rfl
                rw [record, parsed]
                rfl
              · unfold protoParseHeader at parsed
                split_ifs at parsed
                all_goals cases parsed <;> rfl
              · have sound := protoParseHeader_sound serverId sent scaled
                rwa [parsed] at sound
  | packet type sent =>
      refine ⟨attempt.state, ?_, rfl, id⟩
      by_cases typed : type = .none
      · subst typed
        exact protoParseRecord_nothing rfl _ _
      · have parsed := protoParsePacket_eq sent attempt.packet attempt.state type
        rw [if_neg fun ⟨behind, length, valid⟩ =>
          refused ⟨frames_of_ne typed, behind, valid, length⟩] at parsed
        cases type with
        | none => exact absurd rfl typed
        | modeAc => exact parsed
        | modeSShort => exact parsed
        | modeSLong => exact parsed

/-- Behind what is in order there is a header, with ranges that can be divided by. -/
theorem Content.Stored.left (taken : content.Taken serverId attempt.state)
    (stored : content.Stored attempt after) :
    after.state.haveHeader = true ∧ (attempt.state.Scaled → after.state.Scaled) := by
  cases content with
  | header sent =>
      refine ⟨by rw [stored.2]; rfl, fun scaled => ?_⟩
      have sound := protoParseHeader_sound serverId sent scaled
      rwa [protoParseHeader_eq_true serverId _ _ |>.mpr ⟨taken, stored.2⟩] at sound
  | packet type sent =>
      simp only [Content.Stored, AdsbPacket.stored, Except.bind_eq_ok, Except.pure_eq_ok,
        Except.ok.injEq, Prod.mk.injEq] at stored
      obtain ⟨_, _, _, _, _, same⟩ := stored
      rw [← same]
      exact ⟨taken.2.haveHeader, fun scaled => scaled.mlatState _⟩

end Record

/-! ## Texts -/

/-- A message behind its tag and its length. -/
inductive ProtoWrapped (protobuf : Protobuf) (msg : Adsb) : Bytes → Prop
  | intro {digits body : Bytes} (length : Wire.Base128 digits body.length)
      (short : digits.length ≤ 4) (unpacked : protobuf.unpack body = some msg) :
      ProtoWrapped protobuf msg (10 :: (digits ++ body))

/-- A record: a message that says one thing, which is in order. -/
structure ProtoText (protobuf : Protobuf) (serverId : CString) (state : ParserState)
    (content : Content) (text : Bytes) : Prop where
  taken : content.Taken serverId state
  wrapped : ProtoWrapped protobuf content.message text

theorem protoUnwrap_iff_wrapped {buf : Buf UInt8} (valid : buf.Valid) {msg : Adsb} {count : Nat} :
    protoUnwrap protobuf buf = some (msg, count) ↔
      ∃ text, ProtoWrapped protobuf msg text ∧ text <+: buf.window ∧ text.length = count := by
  rw [protoUnwrap_eq_some valid]
  constructor
  · rintro ⟨digits, body, length, short, front, unpacked, rfl⟩
    refine ⟨_, .intro length short unpacked, front, ?_⟩
    rw [List.length_cons, List.length_append]
    omega
  · rintro ⟨_, @⟨digits, body, length, short, unpacked⟩, front, rfl⟩
    refine ⟨digits, body, length, short, front, unpacked, ?_⟩
    rw [List.length_cons, List.length_append]
    omega

section Exact

variable (protobuf) (serverId) (attempt : Attempt)

/-- The messages at the front of the buffer whose first member is in order have no other one. -/
def OneMember : Prop :=
  ∀ msg text content, ProtoWrapped protobuf msg text → text <+: attempt.buf.window →
    msg.content = some content → content.Taken serverId attempt.state → msg = content.message

/-- The ranges that they are scaled with are positive. -/
def ScalableFront : Prop :=
  ∀ msg text content, ProtoWrapped protobuf msg text → text <+: attempt.buf.window →
    msg.content = some content → content.Taken serverId attempt.state →
      content.Scalable attempt.state

variable {protobuf} {serverId} {attempt}

/-- The ranges that a header has set are positive. -/
theorem ParserState.Scaled.front (scaled : attempt.state.Scaled) :
    ScalableFront protobuf serverId attempt := by
  intro _ _ content _ _ _ taken
  cases content with
  | header sent => trivial
  | packet type sent =>
      have behind := taken.2.haveHeader
      exact ⟨fun _ => scaled.mhz behind, fun _ => UInt32.pos_iff_ne_zero.mp (scaled.rssi behind)⟩

variable (valid : attempt.buf.Valid)

include valid

/-- What the parser does with a message whose first member is in order. -/
theorem protoParse_takes {msg : Adsb} {text : Bytes} {content : Content} {after : Attempt}
    (wrapped : ProtoWrapped protobuf msg text) (there : text <+: attempt.buf.window)
    (first : msg.content = some content) (taken : content.Taken serverId attempt.state)
    (stored : content.Stored attempt after) :
    ∃ rest, protoParse protobuf serverId attempt =
        .ok (true, { buf := rest, packet := after.packet, state := after.state }) ∧
      rest.window = attempt.buf.window.drop text.length := by
  have unwrapped := (protoUnwrap_iff_wrapped valid).mpr ⟨text, wrapped, there, rfl⟩
  have inside := there.length_le
  rw [valid.window_length] at inside
  obtain ⟨rest, consumed, _, _, left⟩ := Buf.consume valid.inside _ inside
  refine ⟨rest, ?_, left⟩
  simp only [protoParse, unwrapped, protoParseRecord_content first,
    Content.parse_eq_true.mpr ⟨taken, stored⟩, Except.ok_bind, Bool.not_true, Bool.false_eq_true,
    ↓reduceIte, consumed, Except.pure_eq_ok]

/-- What the parser does with a message whose first member is not in order. -/
theorem protoParse_refuses {msg : Adsb} {text : Bytes} {content : Content}
    (wrapped : ProtoWrapped protobuf msg text) (there : text <+: attempt.buf.window)
    (first : msg.content = some content) (refused : ¬ content.Taken serverId attempt.state) :
    ∃ state, protoParse protobuf serverId attempt = .ok (false, { attempt with state := state }) ∧
      state.haveHeader = attempt.state.haveHeader ∧ (attempt.state.Scaled → state.Scaled) := by
  have unwrapped := (protoUnwrap_iff_wrapped valid).mpr ⟨text, wrapped, there, rfl⟩
  obtain ⟨state, parsed, kept⟩ := Content.parse_of_not_taken refused
  refine ⟨state, ?_, kept⟩
  simp only [protoParse, unwrapped, protoParseRecord_content first, parsed, Except.ok_bind,
    Bool.not_false, ↓reduceIte, Except.pure_eq_ok]

/-- What the parser does where there is no message that says anything. -/
theorem protoParse_of_nothing
    (nothing : ∀ msg text, ProtoWrapped protobuf msg text → text <+: attempt.buf.window →
      msg.content = none) :
    protoParse protobuf serverId attempt = .ok (false, attempt) := by
  cases unwrapped : protoUnwrap protobuf attempt.buf with
  | none => exact protoParse_of_none unwrapped
  | some result =>
      obtain ⟨msg, count⟩ := result
      obtain ⟨text, wrapped, there, _⟩ := (protoUnwrap_iff_wrapped valid).mp unwrapped
      simp only [protoParse, unwrapped, protoParseRecord_nothing (nothing msg text wrapped there),
        Except.ok_bind, Bool.not_false, ↓reduceIte, Except.pure_eq_ok]

/-- There is one message at the front of the buffer. -/
theorem ProtoWrapped.unique {msg msg' : Adsb} {text text' : Bytes}
    (wrapped : ProtoWrapped protobuf msg text) (there : text <+: attempt.buf.window)
    (wrapped' : ProtoWrapped protobuf msg' text') (there' : text' <+: attempt.buf.window) :
    msg' = msg ∧ text' = text := by
  have first := (protoUnwrap_iff_wrapped valid).mpr ⟨text, wrapped, there, rfl⟩
  have second := (protoUnwrap_iff_wrapped valid).mpr ⟨text', wrapped', there', rfl⟩
  rw [first, Option.some.injEq, Prod.mk.injEq] at second
  exact ⟨second.1.symm, (List.prefix_of_prefix_length_le there' there second.2.ge).eq_of_length
    second.2.symm⟩

/-- Where the parser does not fail, what is in order is stored. -/
theorem Content.scalable_of_ok {msg : Adsb} {text : Bytes} {content : Content}
    (wrapped : ProtoWrapped protobuf msg text) (there : text <+: attempt.buf.window)
    (first : msg.content = some content) (taken : content.Taken serverId attempt.state)
    {result : Bool × Attempt} (parsed : protoParse protobuf serverId attempt = .ok result) :
    content.Scalable attempt.state := by
  have unwrapped := (protoUnwrap_iff_wrapped valid).mpr ⟨text, wrapped, there, rfl⟩
  simp only [protoParse, unwrapped, protoParseRecord_content first] at parsed
  obtain ⟨_, record, _⟩ := Except.bind_eq_ok.mp parsed
  exact Content.stored_iff.mp (Content.stored_of_ok taken record)

/-- **The exact language.** Where the first member in order is the only one, and can be scaled, the
parser accepts exactly the records of the grammar. -/
theorem protoParse_exact (one : OneMember protobuf serverId attempt)
    (scalable : ScalableFront protobuf serverId attempt) :
    AcceptsExactly (ProtoText protobuf serverId attempt.state)
      (fun content attempt after => content.Stored attempt after) (protoParse protobuf serverId)
      attempt := by
  by_cases front : ∃ content text, ProtoText protobuf serverId attempt.state content text ∧
      text <+: attempt.buf.window
  · obtain ⟨content, text, spelled, there⟩ := front
    have first := spelled.taken.content_message
    obtain ⟨after, stored⟩ := Content.stored_iff.mpr
      (scalable _ text content spelled.wrapped there first spelled.taken)
    obtain ⟨rest, parsed, left⟩ :=
      protoParse_takes valid spelled.wrapped there first spelled.taken stored
    have unique : ∀ content' text', ProtoText protobuf serverId attempt.state content' text' →
        text' <+: attempt.buf.window → content' = content ∧ text' = text := by
      intro content' text' spelled' there'
      obtain ⟨same, rfl⟩ := spelled.wrapped.unique valid there spelled'.wrapped there'
      refine ⟨Option.some.inj ?_, rfl⟩
      rw [← spelled'.taken.content_message, same, first]
    refine ⟨true, _, parsed, ⟨fun _ => ⟨content, text, spelled, there⟩, fun _ => rfl⟩, ?_, nofun⟩
    intro content' text' spelled' there'
    obtain ⟨rfl, rfl⟩ := unique content' text' spelled' there'
    exact ⟨unique, left, stored⟩
  · have nothing : ∀ content text, ProtoText protobuf serverId attempt.state content text →
        ¬ text <+: attempt.buf.window := fun content text spelled there =>
      front ⟨content, text, spelled, there⟩
    obtain ⟨after, parsed, same⟩ : ∃ after, protoParse protobuf serverId attempt =
        .ok (false, after) ∧ after.buf = attempt.buf := by
      by_cases meant : ∃ msg text content, ProtoWrapped protobuf msg text ∧
          text <+: attempt.buf.window ∧ msg.content = some content
      · obtain ⟨msg, text, content, wrapped, there, first⟩ := meant
        have refused : ¬ content.Taken serverId attempt.state := fun taken =>
          nothing content text ⟨taken, one msg text content wrapped there first taken ▸ wrapped⟩
            there
        obtain ⟨state, parsed, _⟩ := protoParse_refuses valid wrapped there first refused
        exact ⟨_, parsed, rfl⟩
      · refine ⟨attempt, protoParse_of_nothing valid fun msg text wrapped there => ?_, rfl⟩
        exact Option.eq_none_iff_forall_ne_some.mpr fun content first =>
          meant ⟨msg, text, content, wrapped, there, first⟩
    refine ⟨false, after, parsed, ⟨nofun, fun ⟨content, text, spelled, there⟩ => ?_⟩, ?_, fun _ => same⟩
    · exact absurd there (nothing content text spelled)
    · exact fun content text spelled there => absurd there (nothing content text spelled)

/-- Where the parser accepts exactly the grammar, the first member in order is the only one. -/
theorem oneMember_of_exact
    (exact : AcceptsExactly (ProtoText protobuf serverId attempt.state)
      (fun content attempt after => content.Stored attempt after) (protoParse protobuf serverId)
      attempt) :
    OneMember protobuf serverId attempt ∧ ScalableFront protobuf serverId attempt := by
  obtain ⟨found, after, parsed, finds, _⟩ := exact
  have scalable : ScalableFront protobuf serverId attempt :=
    fun msg text content wrapped there first taken =>
      Content.scalable_of_ok valid wrapped there first taken parsed
  refine ⟨fun msg text content wrapped there first taken => ?_, scalable⟩
  obtain ⟨after', stored⟩ := Content.stored_iff.mpr
    (scalable msg text content wrapped there first taken)
  obtain ⟨rest, parsed', _⟩ := protoParse_takes valid wrapped there first taken stored
  rw [parsed, Except.ok.injEq, Prod.mk.injEq] at parsed'
  obtain ⟨content', text', spelled, there'⟩ := finds.mp parsed'.1
  obtain ⟨same, rfl⟩ := wrapped.unique valid there spelled.wrapped there'
  have second := spelled.taken.content_message
  rw [same, first, Option.some.injEq] at second
  rw [second, same]

/-- What the parser leaves: it has a header when it had one or has found something, and the ranges
that a header has set stay positive. -/
theorem protoParse_left {found : Bool} {after : Attempt}
    (parsed : protoParse protobuf serverId attempt = .ok (found, after)) :
    after.state.haveHeader = (attempt.state.haveHeader || found) ∧
      (attempt.state.Scaled → after.state.Scaled) := by
  by_cases meant : ∃ msg text content, ProtoWrapped protobuf msg text ∧
      text <+: attempt.buf.window ∧ msg.content = some content
  · obtain ⟨msg, text, content, wrapped, there, first⟩ := meant
    by_cases taken : content.Taken serverId attempt.state
    · obtain ⟨after', stored⟩ := Content.stored_iff.mpr
        (Content.scalable_of_ok valid wrapped there first taken parsed)
      obtain ⟨rest, parsed', _⟩ := protoParse_takes valid wrapped there first taken stored
      rw [parsed, Except.ok.injEq, Prod.mk.injEq] at parsed'
      obtain ⟨rfl, rfl⟩ := parsed'
      rw [Bool.or_true]
      exact stored.left taken
    · obtain ⟨state, parsed', header, scaled⟩ :=
        protoParse_refuses valid wrapped there first taken
      rw [parsed, Except.ok.injEq, Prod.mk.injEq] at parsed'
      obtain ⟨rfl, rfl⟩ := parsed'
      rw [Bool.or_false]
      exact ⟨header, scaled⟩
  · have parsed' := @protoParse_of_nothing protobuf serverId attempt valid
      fun msg text wrapped there => Option.eq_none_iff_forall_ne_some.mpr fun content first =>
        meant ⟨msg, text, content, wrapped, there, first⟩
    rw [parsed, Except.ok.injEq, Prod.mk.injEq] at parsed'
    obtain ⟨rfl, rfl⟩ := parsed'
    rw [Bool.or_false]
    exact ⟨rfl, id⟩

end Exact

/-- **Proto records.** `proto_parse` accepts exactly the records of the grammar if and only if no
message at the front of the buffer has a second member behind a first one in order, and the ranges
that the packet in it is scaled with are positive. They are so in every state that the parser leaves
on a connection, which starts without a header. -/
theorem protoParse_exact_iff (protobuf : Protobuf) (serverId : CString) (attempt : Attempt)
    (valid : attempt.buf.Valid) :
    (AcceptsExactly (ProtoText protobuf serverId attempt.state)
        (fun content attempt after => content.Stored attempt after) (protoParse protobuf serverId)
        attempt ↔
      OneMember protobuf serverId attempt ∧ ScalableFront protobuf serverId attempt) ∧
    (attempt.state.Scaled → ScalableFront protobuf serverId attempt) ∧
    ∀ found after, protoParse protobuf serverId attempt = .ok (found, after) →
      after.state.haveHeader = (attempt.state.haveHeader || found) ∧
        (attempt.state.Scaled → after.state.Scaled) :=
  ⟨⟨oneMember_of_exact valid, fun ⟨one, scalable⟩ => protoParse_exact valid one scalable⟩,
    ParserState.Scaled.front, fun _ _ parsed => protoParse_left valid parsed⟩

/-- The library wraps what it packs. -/
theorem ProtoWrapped.wire (unpacks : protobuf.Unpacks) {msg : Adsb}
    (short : msg.wire.length < 128 ^ 4) : ProtoWrapped protobuf msg (Wire.blob 1 msg.wire) := by
  rw [Wire.blob_one]
  exact .intro (Wire.base128_varint _) (Wire.varint_length_le short) (unpacks msg)

/-- A header in order. -/
def otherHeader : AdsbHeader where
  magic := protoMagic
  serverVersion := .ofAscii "1"
  serverId := .ofAscii "other"
  mlatTimestampMhz := 120
  mlatTimestampMax := 1000
  rssiMax := 1000

theorem otherHeader_taken : (Content.header otherHeader).Taken (.ofAscii "me") parserStateInit :=
  ⟨rfl, by decide, by decide, by decide, by decide, by decide⟩

/-- A header alone. -/
theorem protoParse_exact_header :
    AcceptsExactly (ProtoText Protobuf.reading (.ofAscii "me") parserStateInit)
      (fun content attempt after => content.Stored attempt after)
      (protoParse Protobuf.reading (.ofAscii "me"))
      (attemptOn (Wire.blob 1 (Content.header otherHeader).message.wire) parserStateInit) := by
  have fits : (Wire.blob 1 (Content.header otherHeader).message.wire).length ≤ bufLenMax := by
    decide +kernel
  have valid := Buf.valid_bufHolding (Cells.fill bufLenMax 0) fits
  have window := Buf.window_bufHolding (Cells.fill bufLenMax 0) fits
  have exact := protoParse_exact_iff Protobuf.reading (.ofAscii "me")
    (attemptOn (Wire.blob 1 (Content.header otherHeader).message.wire) parserStateInit) valid
  refine exact.1.mpr ⟨fun msg text content wrapped there first _ => ?_, exact.2.1 ⟨nofun, nofun⟩⟩
  have alone := ProtoWrapped.wire Protobuf.reading_unpacks
    (show (Content.header otherHeader).message.wire.length < 128 ^ 4 by decide +kernel)
  obtain ⟨rfl, _⟩ := alone.unique valid (by rw [attemptOn, window]) wrapped there
  cases first
  rfl

/-- A header in order, and a packet in the same message. -/
def twoMembers : Adsb :=
  { (Content.header otherHeader).message with modeAc := some loudPacket }

/-- A message with two members is accepted. -/
theorem protoParse_two_members :
    ¬ AcceptsExactly (ProtoText Protobuf.reading (.ofAscii "me") parserStateInit)
      (fun content attempt after => content.Stored attempt after)
      (protoParse Protobuf.reading (.ofAscii "me"))
      (attemptOn (Wire.blob 1 twoMembers.wire) parserStateInit) := by
  have fits : (Wire.blob 1 twoMembers.wire).length ≤ bufLenMax := by decide +kernel
  have valid := Buf.valid_bufHolding (Cells.fill bufLenMax 0) fits
  have window := Buf.window_bufHolding (Cells.fill bufLenMax 0) fits
  intro exact
  have both := ProtoWrapped.wire Protobuf.reading_unpacks
    (show twoMembers.wire.length < 128 ^ 4 by decide +kernel)
  have same := (oneMember_of_exact valid exact).1 twoMembers _ (.header otherHeader) both
    (by rw [attemptOn, window]) rfl otherHeader_taken
  exact absurd (congrArg Adsb.modeAc same) (by decide)

end Adsbus

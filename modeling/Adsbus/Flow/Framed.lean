import Adsbus.Flow.Receive

/-! # Receiving the framed formats

The airspy_adsb, beast and raw formats can be told from the bytes of their
frames, so a connection that receives one of them is a decoding reader
(`Adsbus.receiveReader_decodes`): the frames of any of the three until one is
found, and those of its format from there on.

A failed attempt can leave a new MLAT state behind. It then is one that no later
frame looks at (`Adsbus.Timeless`).
-/

namespace Adsbus

open Reader

variable (server : Server)

/-! ## Frames -/

/-- The formats whose records are framed. -/
def Format.framed : List Format := [.airspyAdsb, .beast, .raw]

/-- The frames of a format. -/
def Format.code : Format → Recognizer UInt8 Frame
  | .airspyAdsb => airspyAdsbCode
  | .beast => beastCode
  | .raw => rawCode
  | .json | .proto => .never

/-- The frames of a format, with its name. -/
def Format.namedCode (format : Format) : Recognizer UInt8 (Format × Frame) :=
  format.code.map fun frame => (format, frame)

/-- The byte that starts the frames of a format. -/
def Format.first : Format → UInt8
  | .beast => beastMarker
  | .airspyAdsb | .json | .proto | .raw => '*'.toUInt8

/-- Whether the frames of a format tell when they were received. -/
def Format.timed : Format → Bool
  | .raw => false
  | .airspyAdsb | .beast | .json | .proto => true

theorem Format.code_marked (format : Format) : Marked format.code format.first format.timed := by
  cases format with
  | airspyAdsb => exact airspyAdsbCode_marked
  | beast => exact beastCode_marked
  | raw => exact rawCode_marked
  | json => exact nofun
  | proto => exact nofun

theorem Format.namedCode_apart {format other : Format}
    (apart : format.code.Apart other.code) : format.namedCode.Apart other.namedCode := by
  rintro input ⟨⟨_, frame⟩, count⟩ found
  obtain ⟨frame, found, _⟩ := Recognizer.front_map_eq_some.mp found
  exact Recognizer.front_map_eq_none.mpr (apart _ _ found)

/-- Frames that start with different bytes are apart. -/
theorem Format.code_apart {format other : Format} (differ : format.first ≠ other.first) :
    format.code.Apart other.code := by
  rintro input ⟨frame, count⟩ found
  cases here : format.code.front input with
  | none => rfl
  | some result =>
      have first := (format.code_marked here).1
      rw [(other.code_marked found).1, Option.some.injEq] at first
      exact absurd first.symm differ

/-- The frames of all formats, each with the name of its format. -/
def anyCode : Recognizer UInt8 (Format × Frame) :=
  .oneOf (Format.framed.map Format.namedCode) <| by
    simp only [Format.framed, List.map_cons, List.map_nil, List.pairwise_cons, List.mem_cons,
      List.not_mem_nil, or_false, forall_eq_or_imp, forall_eq, IsEmpty.forall_iff, implies_true,
      List.Pairwise.nil, and_true]
    exact ⟨⟨Format.namedCode_apart (Format.code_apart (by decide)),
      Format.namedCode_apart airspyAdsbCode_apart_rawCode⟩,
      Format.namedCode_apart (Format.code_apart (by decide))⟩

/-- The frames that a connection looks for, by the parser it has. -/
def frameCode : Option Format → Recognizer UInt8 (Format × Frame)
  | none => anyCode
  | some format => format.namedCode

theorem front_frameCode {mode : Option Format} {input : Bytes} {format : Format} {frame : Frame}
    {count : Nat} :
    (frameCode mode).front input = some ((format, frame), count) ↔
      (mode = none ∧ format ∈ Format.framed ∨ mode = some format) ∧
        format.code.front input = some (frame, count) := by
  have named : ∀ other : Format, other.namedCode.front input = some ((format, frame), count) ↔
      other = format ∧ format.code.front input = some (frame, count) := by
    intro other
    rw [Format.namedCode, Recognizer.front_map_eq_some]
    constructor
    · rintro ⟨frame', found, same⟩
      cases same
      exact ⟨rfl, found⟩
    · rintro ⟨rfl, found⟩
      exact ⟨frame, found, rfl⟩
  cases mode with
  | none =>
      simp only [frameCode, anyCode, Recognizer.front_oneOf_eq_some, List.mem_map,
        exists_exists_and_eq_and, named, true_and, reduceCtorEq, or_false]
      constructor
      · rintro ⟨other, member, rfl, found⟩
        exact ⟨member, found⟩
      · rintro ⟨member, found⟩
        exact ⟨format, member, rfl, found⟩
  | some other =>
      simp only [frameCode, named, reduceCtorEq, false_and, false_or, Option.some.injEq]

theorem frameCode_none {mode : Option Format} {input : Bytes}
    (none : (frameCode mode).front input = none) {format : Format}
    (looked : mode = .none ∧ format ∈ Format.framed ∨ mode = some format) :
    format.code.front input = .none := by
  cases found : format.code.front input with
  | none => rfl
  | some result =>
      rw [front_frameCode.mpr ⟨looked, found⟩] at none
      cases none

/-- No frame that tells when it was received is found in an input, whatever follows it. -/
def Timeless (mode : Option Format) (input : Bytes) : Prop :=
  ∀ more format frame count, (frameCode mode).front (input ++ more) =
    some ((format, frame), count) → frame.reception = none

theorem Timeless.append {mode : Option Format} {input : Bytes} (timeless : Timeless mode input)
    (more : Bytes) : Timeless mode (input ++ more) := fun further => by
  rw [List.append_assoc]
  exact timeless _

theorem timeless_raw (input : Bytes) : Timeless (some .raw) input := by
  intro more format frame count found
  obtain ⟨mode, found⟩ := front_frameCode.mp found
  cases mode.resolve_left fun both => by cases both.1
  exact Option.isNone_iff_eq_none.mp (by
    rw [← Option.not_isSome, (rawCode_marked found).2.2]
    rfl)

/-- The format of a frame that does not tell when it was received. -/
theorem Format.eq_raw {format : Format} {input : Bytes} {frame : Frame} {count : Nat}
    (found : format.code.front input = some (frame, count)) (timeless : frame.reception = none) :
    format = .raw := by
  have timed := (format.code_marked found).2.2
  rw [timeless, Option.isSome_none] at timed
  cases format with
  | raw => rfl
  | airspyAdsb => cases timed
  | beast => cases timed
  | json => cases found
  | proto => cases found

/-- Behind a spent airspy_adsb window only raw frames can follow. -/
theorem timeless_spent {window : Bytes} (spent : AirspyAdsbSpent window) (mode : Option Format) :
    Timeless mode window := by
  intro more format frame count found
  obtain ⟨_, found⟩ := front_frameCode.mp found
  have first := (format.code_marked found).1
  obtain ⟨star, dead⟩ := spent
  rw [List.getElem?_append_left (List.getElem?_eq_some_iff.mp star).1, star,
    Option.some.injEq] at first
  cases format with
  | raw => exact timeless_raw window more .raw frame count (front_frameCode.mpr ⟨.inr rfl, found⟩)
  | airspyAdsb => cases (dead more).symm.trans found
  | beast => exact absurd first (by decide)
  | json => cases found
  | proto => cases found

/-! ## Parsers -/

/-- A window that starts like a frame. -/
def Opened (window : Bytes) : Prop :=
  window[0]? = some '*'.toUInt8 ∨ window[0]? = some beastMarker

theorem Opened.append {window : Bytes} (opened : Opened window) (more : Bytes) :
    Opened (window ++ more) := by
  rcases opened with first | first <;>
    have inside := (List.getElem?_eq_some_iff.mp first).1
  · exact .inl (by rw [List.getElem?_append_left inside, first])
  · exact .inr (by rw [List.getElem?_append_left inside, first])

variable {server}

/-- The parsers of the formats take their frames. -/
theorem Format.parse_accept {format : Format} {attempt : Attempt} {frame : Frame} {count : Nat}
    (valid : attempt.buf.Valid) (found : format.code.front attempt.buf.window = some (frame, count)) :
    ∃ after, format.parse server attempt = .ok (true, after) ∧
      attempt.Accepted after frame count := by
  cases format with
  | airspyAdsb => exact airspyAdsbParse_parses.accept valid found
  | beast => exact beastParse_parses.accept valid found
  | raw => exact rawParse_parses.accept valid found
  | json => cases found
  | proto => cases found

/-- What a failed attempt of a format leaves in the state. -/
def Format.Left (format : Format) (window : Bytes) (before after : ParserState) : Prop :=
  after = before ∨ format = .airspyAdsb ∧ AirspyAdsbSpent window

theorem Parses.left {parse : Parse} {code all : Recognizer UInt8 Frame} {spent : Bytes → Prop}
    (parses : Parses parse code all spent) {attempt : Attempt} (valid : attempt.buf.Valid)
    (none : all.front attempt.buf.window = none) :
    ∃ packet state, parse attempt =
        .ok (false, { attempt with packet := packet, state := state }) ∧
      (state = attempt.state ∨ spent attempt.buf.window) := by
  obtain ⟨packet, mlatState, parsed, left⟩ := parses.reject valid none
  refine ⟨packet, _, parsed, left.imp_left fun same => ?_⟩
  rw [same]

/-- The parsers of the framed formats take nothing else. -/
theorem Format.parse_reject {format : Format} (framed : format ∈ Format.framed)
    {attempt : Attempt} (valid : attempt.buf.Valid)
    (none : format.code.front attempt.buf.window = none) :
    ∃ packet state, format.parse server attempt =
        .ok (false, { attempt with packet := packet, state := state }) ∧
      format.Left attempt.buf.window attempt.state state := by
  cases format with
  | airspyAdsb =>
      obtain ⟨packet, state, parsed, left⟩ := airspyAdsbParse_parses.left valid none
      exact ⟨packet, state, parsed, left.imp_right fun spent => ⟨rfl, spent⟩⟩
  | beast =>
      obtain ⟨packet, state, parsed, left⟩ := beastParse_parses.left valid none
      exact ⟨packet, state, parsed, left.imp_right False.elim⟩
  | raw =>
      obtain ⟨packet, state, parsed, left⟩ := rawParse_parses.left valid none
      exact ⟨packet, state, parsed, left.imp_right False.elim⟩
  | json => exact absurd framed (by decide)
  | proto => exact absurd framed (by decide)

/-- Neither json nor proto is found where a frame starts. -/
theorem Format.parse_opened (star : server.jansson.Rejects '*'.toUInt8)
    (marker : server.jansson.Rejects beastMarker) {format : Format} {attempt : Attempt}
    (valid : attempt.buf.Valid) (opened : Opened attempt.buf.window)
    (none : format.code.front attempt.buf.window = none) :
    ∃ packet state, format.parse server attempt =
        .ok (false, { attempt with packet := packet, state := state }) ∧
      format.Left attempt.buf.window attempt.state state := by
  by_cases framed : format ∈ Format.framed
  · exact Format.parse_reject framed valid none
  · refine ⟨attempt.packet, attempt.state, ?_, .inl rfl⟩
    cases format with
    | airspyAdsb => exact absurd (by decide) framed
    | beast => exact absurd (by decide) framed
    | raw => exact absurd (by decide) framed
    | json =>
        refine jsonParse_of_none ?_
        rcases opened with first | first <;>
          obtain ⟨inside, first⟩ := List.getElem?_eq_some_iff.mp first <;>
          rw [← List.drop_zero (l := attempt.buf.window), List.drop_eq_getElem_cons inside, first]
        · exact star _
        · exact marker _
    | proto =>
        refine protoParse_of_none (protoUnwrap_of_ne ?_)
        rcases opened with first | first <;> rw [(valid.window_eq_some.mp first).2] <;> decide

/-! ## Turns -/

variable (server) in
/-- What a frame adds to the state of the decoder, and the packet it gives. -/
def frameNext (base : Packet) (decoder : Option Format × MlatState) (named : Format × Frame) :
    (Option Format × MlatState) × List Packet :=
  let stored := named.2.store base decoder.2
  ((some named.1, stored.2), passedOn server stored.1)

/-- The packet of a frame depends on the MLAT state only if the frame tells when it was
received. -/
theorem Frame.store_fst {frame : Frame} {state state' : MlatState}
    (same : state = state' ∨ frame.reception = none) (packet : Packet) :
    (frame.store packet state).1 = (frame.store packet state').1 := by
  rcases same with rfl | timeless
  · rfl
  · simp only [Frame.store, timeless]

/-- Trying the formats at a frame finds it. -/
theorem receiveAutodetectLoop_accept (star : server.jansson.Rejects '*'.toUInt8)
    (marker : server.jansson.Rejects beastMarker) {format : Format} {frame : Frame} {count : Nat}
    {formats : List Format} (member : format ∈ formats) {attempt : Attempt}
    (valid : attempt.buf.Valid) (opened : Opened attempt.buf.window)
    (found : (frameCode none).front attempt.buf.window = some ((format, frame), count)) :
    ∃ after state, receiveAutodetectLoop server attempt.packet formats attempt =
        .ok (some format, after) ∧
      (state = attempt.state ∨ frame.reception = none) ∧
      { attempt with state := state : Attempt }.Accepted after frame count := by
  obtain ⟨_, here⟩ := front_frameCode.mp found
  generalize packet : attempt.packet = origPacket
  induction formats generalizing attempt with
  | nil => exact (List.not_mem_nil member).elim
  | cons head formats ih =>
      rw [receiveAutodetectLoop]
      by_cases same : head = format
      · subst same
        obtain ⟨after, parsed, accepted⟩ := Format.parse_accept valid here
        rw [parsed]
        subst packet
        exact ⟨after, attempt.state, rfl, .inl rfl, accepted⟩
      · have later := (List.mem_cons.mp member).resolve_left (Ne.symm same)
        have nothing : head.code.front attempt.buf.window = none := by
          cases there : head.code.front attempt.buf.window with
          | none => rfl
          | some result =>
              have framed : head ∈ Format.framed := by
                cases head with
                | airspyAdsb => decide
                | beast => decide
                | raw => decide
                | json => cases there
                | proto => cases there
              rw [front_frameCode.mpr ⟨.inl ⟨rfl, framed⟩, there⟩] at found
              cases found
              exact absurd rfl same
        obtain ⟨packet', state', parsed, left⟩ :=
          Format.parse_opened star marker valid opened nothing
        rw [parsed, Except.ok_bind]
        simp only [Bool.false_eq_true, ↓reduceIte, ne_eq, List.ne_nil_of_mem later,
          not_false_eq_true]
        obtain ⟨after, state, looped, agrees, accepted⟩ :=
          @ih later { attempt with packet := origPacket, state := state' } valid opened found here rfl
        refine ⟨after, state, looped, ?_, ?_⟩
        · rcases agrees with rfl | timeless
          · refine left.imp_right fun ⟨_, spent⟩ => ?_
            refine timeless_spent spent none [] format frame count ?_
            rwa [List.append_nil]
          · exact .inr timeless
        · exact accepted

/-- Trying the formats where no frame is found leaves the window. -/
theorem receiveAutodetectLoop_reject (star : server.jansson.Rejects '*'.toUInt8)
    (marker : server.jansson.Rejects beastMarker) (origPacket : Packet) (formats : List Format)
    {attempt : Attempt} (valid : attempt.buf.Valid) (opened : Opened attempt.buf.window)
    (nothing : (frameCode none).front attempt.buf.window = none) :
    ∃ packet state, receiveAutodetectLoop server origPacket formats attempt =
        .ok (none, { attempt with packet := packet, state := state }) ∧
      (state = attempt.state ∨ AirspyAdsbSpent attempt.buf.window) := by
  induction formats generalizing attempt with
  | nil => exact ⟨attempt.packet, attempt.state, rfl, .inl rfl⟩
  | cons head formats ih =>
      have here : head.code.front attempt.buf.window = none := by
        cases head with
        | airspyAdsb => exact frameCode_none nothing (.inl ⟨rfl, by decide⟩)
        | beast => exact frameCode_none nothing (.inl ⟨rfl, by decide⟩)
        | raw => exact frameCode_none nothing (.inl ⟨rfl, by decide⟩)
        | json => rfl
        | proto => rfl
      obtain ⟨packet, state, parsed, left⟩ :=
        Format.parse_opened star marker valid opened here
      simp only [receiveAutodetectLoop, parsed, Except.ok_bind, Bool.false_eq_true, ↓reduceIte]
      split
      · obtain ⟨packet', state', looped, left'⟩ :=
          @ih { attempt with packet := origPacket, state := state } valid opened nothing
        refine ⟨packet', state', looped, ?_⟩
        rcases left' with rfl | spent
        · exact left.imp_right And.right
        · exact .inr spent
      · exact ⟨packet, state, rfl, left.imp_right And.right⟩

/-- A connection as a decoder of frames. -/
structure Framing (start receive : Receive) (decoder : Option Format × MlatState) : Prop where
  id : receive.id = start.id
  stat : receive.stat = start.stat
  valid : receive.buf.Valid
  parser : receive.parser = decoder.1
  opened : decoder.1 = none → Opened receive.buf.window
  framed : ∀ format, decoder.1 = some format → format ∈ Format.framed
  mlat : receive.parserState.mlatState = decoder.2 ∨ Timeless decoder.1 receive.buf.window

variable {start receive : Receive} {decoder : Option Format × MlatState}

theorem Framing.packet (framing : Framing start receive decoder) :
    receivePacket receive = receivePacket start := by
  simp only [receivePacket, framing.id, framing.stat]

theorem Framing.timeless (framing : Framing start receive decoder) {format : Format} {frame : Frame}
    {count : Nat} (found : (frameCode decoder.1).front receive.buf.window =
      some ((format, frame), count)) :
    receive.parserState.mlatState = decoder.2 ∨ frame.reception = none := by
  refine framing.mlat.imp_right fun timeless => timeless [] format frame count ?_
  rwa [List.append_nil]

/-- The parser of a connection takes the frames that it looks for. -/
theorem Framing.receiveParse_accept (star : server.jansson.Rejects '*'.toUInt8)
    (marker : server.jansson.Rejects beastMarker) (framing : Framing start receive decoder)
    {format : Format} {frame : Frame} {count : Nat}
    (found : (frameCode decoder.1).front receive.buf.window = some ((format, frame), count))
    (packet : Packet) :
    ∃ after state, receiveParse server receive packet = .ok (true,
        { receive with buf := after.buf, parserState := after.state, parser := some format },
        after.packet) ∧
      (state = receive.parserState ∨ frame.reception = none) ∧
      Attempt.Accepted { buf := receive.buf, packet := packet, state := state } after frame
        count := by
  obtain ⟨_, here⟩ := front_frameCode.mp found
  cases mode : decoder.1 with
  | none =>
      rw [mode] at found
      have all : format ∈ Format.all := by cases format <;> decide
      obtain ⟨after, state, looped, agrees, accepted⟩ :=
        @receiveAutodetectLoop_accept server star marker format frame count Format.all all
          { buf := receive.buf, packet := packet, state := receive.parserState } framing.valid
          (framing.opened mode) found
      refine ⟨after, state, ?_, agrees, accepted⟩
      simp only [receiveParse, framing.parser, mode, receiveAutodetectParse, looped,
        Except.ok_bind, Option.isSome_some, Except.pure_eq_ok]
  | some chosen =>
      have same : chosen = format := by
        obtain ⟨looked, _⟩ := front_frameCode.mp found
        rw [mode] at looked
        simpa only [reduceCtorEq, false_and, false_or, Option.some.injEq] using looked
      subst same
      obtain ⟨after, parsed, accepted⟩ := @Format.parse_accept server chosen
        { buf := receive.buf, packet := packet, state := receive.parserState } frame count
        framing.valid here
      refine ⟨after, receive.parserState, ?_, .inl rfl, accepted⟩
      simp only [receiveParse, framing.parser, mode, receiveParseWrapper, parsed, Except.ok_bind,
        Except.pure_eq_ok]

/-- The parser of a connection takes nothing else. -/
theorem Framing.receiveParse_reject (star : server.jansson.Rejects '*'.toUInt8)
    (marker : server.jansson.Rejects beastMarker) (framing : Framing start receive decoder)
    (nothing : (frameCode decoder.1).front receive.buf.window = none) (packet : Packet) :
    ∃ left state, receiveParse server receive packet =
        .ok (false, { receive with parserState := state }, left) ∧
      (state = receive.parserState ∨ AirspyAdsbSpent receive.buf.window) := by
  cases mode : decoder.1 with
  | none =>
      rw [mode] at nothing
      obtain ⟨left, state, looped, agrees⟩ :=
        @receiveAutodetectLoop_reject server star marker packet Format.all
          { buf := receive.buf, packet := packet, state := receive.parserState } framing.valid
          (framing.opened mode) nothing
      refine ⟨left, state, ?_, agrees⟩
      have parser := framing.parser
      rw [mode] at parser
      simp only [receiveParse, parser, receiveAutodetectParse, looped, Except.ok_bind,
        Option.isSome_none, Except.pure_eq_ok]
  | some chosen =>
      have here := frameCode_none nothing (.inr mode)
      obtain ⟨left, state, parsed, agrees⟩ := @Format.parse_reject server chosen
        (framing.framed chosen mode)
        { buf := receive.buf, packet := packet, state := receive.parserState } framing.valid here
      refine ⟨left, state, ?_, agrees.imp_right And.right⟩
      simp only [receiveParse, framing.parser, mode, receiveParseWrapper, parsed, Except.ok_bind,
        Except.pure_eq_ok]

/-- **The framed formats.** A connection decodes the frames of the framed formats. -/
theorem receiveReader_decodes (star : server.jansson.Rejects '*'.toUInt8)
    (marker : server.jansson.Rejects beastMarker) (start : Receive) :
    (receiveReader server).Decodes (fun decoder => frameCode decoder.1)
      (frameNext server (receivePacket start)) (Framing start) where
  unread framing := framing.valid.window_length.symm
  fill := by
    intro receive decoder chunk framing notFull short
    obtain ⟨filled, fill, valid, _, window⟩ := framing.valid.fill notFull chunk short
    refine ⟨{ receive with buf := filled }, ?_, ?_, window⟩
    · change (bufFill receive.buf chunk >>= _) = _
      rw [fill]
      rfl
    · refine ⟨framing.id, framing.stat, valid, framing.parser, fun mode => ?_, framing.framed, ?_⟩
      · change Opened filled.window
        rw [window]
        exact (framing.opened mode).append chunk
      · refine framing.mlat.imp_right fun timeless => ?_
        change Timeless decoder.1 filled.window
        rw [window]
        exact timeless.append chunk
  accept := by
    rintro receive decoder ⟨format, frame⟩ count framing found
    obtain ⟨after, state, parsed, agrees, accepted⟩ :=
      framing.receiveParse_accept star marker found (receivePacket receive)
    have stale : state.mlatState = decoder.2 ∨ frame.reception = none := by
      rcases agrees with rfl | timeless
      · exact framing.timeless found
      · exact .inr timeless
    have packet : after.packet = (frame.store (receivePacket start) decoder.2).1 := by
      rw [accepted.packet, framing.packet]
      exact Frame.store_fst stale _
    refine ⟨{ receive with buf := after.buf, parserState := after.state, parser := some format },
      ?_, ⟨framing.id, framing.stat, accepted.valid, rfl, nofun, ?_, ?_⟩, accepted.window⟩
    · rw [turn_of_found parsed, packet]
      rfl
    · intro other same
      cases same
      rcases (front_frameCode.mp found).1 with ⟨_, member⟩ | mode
      · exact member
      · exact framing.framed _ mode
    · rcases stale with same | timeless
      · refine .inl ?_
        change after.state.mlatState = (frame.store (receivePacket start) decoder.2).2
        rw [accepted.state, framing.packet, same]
      · refine .inr ?_
        cases Format.eq_raw (front_frameCode.mp found).2 timeless
        exact timeless_raw _
  reject := by
    intro receive decoder framing nothing
    obtain ⟨left, state, parsed, agrees⟩ :=
      framing.receiveParse_reject star marker nothing (receivePacket receive)
    refine ⟨{ receive with parserState := state }, ?_,
      ⟨framing.id, framing.stat, framing.valid, framing.parser, framing.opened, framing.framed, ?_⟩,
      rfl⟩
    · exact turn_of_not_found parsed
    · rcases agrees with rfl | spent
      · exact framing.mlat
      · exact .inr (timeless_spent spent decoder.1)
  short := by
    rintro decoder input ⟨format, frame⟩ count found
    exact (format.code_marked (front_frameCode.mp found).2).2.1

end Adsbus

import Adsbus.Core.Buf
import Adsbus.Core.Packet
import Adsbus.Foundation.Recognizer

/-! # Attempts at parsing

A parser looks at the front of the receive buffer. It returns whether it found a
record; then it has consumed it and filled in the packet. It also updates the
state it keeps for the connection, and a failed attempt may leave changes in the
packet and in the state behind.

The framed formats are those whose records can be told from their bytes alone.
Their parsers are described by a recognizer of frames (`Adsbus.Parses`).
-/

namespace Adsbus

/-- The receive formats, in the order of `parsers`. -/
inductive Format
  | airspyAdsb
  | beast
  | json
  | proto
  | raw
  deriving DecidableEq, Repr

/-- The parser state of a connection. The state structures of all formats start with the MLAT
state, and those of json and proto are the same, so that one record stands for each of them laid
over `parser_state`. -/
structure ParserState where
  mlatState : MlatState
  mlatTimestampMhz : UInt16
  mlatTimestampMax : UInt64
  rssiMax : UInt32
  haveHeader : Bool
  deriving DecidableEq, Repr

/-- `parser_state` of a new connection, filled with zeros. -/
def parserStateInit : ParserState where
  mlatState := { timestampLast := 0, timestampGeneration := 0 }
  mlatTimestampMhz := 0
  mlatTimestampMax := 0
  rssiMax := 0
  haveHeader := false

/-- What a parser is given and changes. -/
structure Attempt where
  buf : Buf UInt8
  packet : Packet
  state : ParserState
  deriving DecidableEq

/-- A text in a buffer of its own. -/
def attemptOn (text : Bytes) (state : ParserState) : Attempt where
  buf := bufHolding (Cells.fill bufLenMax 0) text
  packet :=
    { sourceId := .ofAscii "", inputStat := ⟨0, 0⟩, type := .none, hops := 0
      payload := Cells.fill packetPayloadLenMax 0, mlatTimestamp := 0, rssi := 0 }
  state := state

/-- A parser: whether it found a record, and what it left. -/
abbrev Parse := Attempt → Except Fault (Bool × Attempt)

/-- The parsers of a list, one `||` after another. -/
def parseFirst : List Parse → Parse
  | [], attempt => .ok (false, attempt)
  | parse :: parses, attempt => do
      let (found, attempt) ← parse attempt
      if found then
        return (true, attempt)
      else
        parseFirst parses attempt

/-! ## Frames -/

/-- When and how strongly a frame was received: its counter with the bound and the rate of the
counter's clock, and its scaled signal strength. -/
structure Reception where
  timestamp : UInt64
  max : UInt64
  mhz : UInt16
  rssi : UInt32
  ticking : mhz ≠ 0
  deriving DecidableEq

/-- A record of one of the framed formats. -/
structure Frame where
  type : PacketType
  data : Bytes
  reception : Option Reception
  deriving DecidableEq

/-- What accepting a frame stores in the packet and in the MLAT state. -/
def Frame.store (frame : Frame) (packet : Packet) (state : MlatState) : Packet × MlatState :=
  let packet :=
    { packet with type := frame.type, payload := packet.payload.overwrite 0 frame.data }
  match frame.reception with
  | none => (packet, state)
  | some reception =>
      let wide := packetMlatTimestampScaleWidthIn reception.timestamp reception.max state
      let timestamp :=
        wide.1 * (packetMlatMhz / reception.mhz.toUInt32).toUInt64 % packetMlatMax
      ({ packet with mlatTimestamp := timestamp, rssi := reception.rssi }, wide.2)

/-- What is stored of a frame with a payload of its type. -/
theorem Frame.store_fields {frame : Frame} (length : frame.data.length = packetPayloadLen frame.type)
    (packet : Packet) (state : MlatState) :
    (frame.store packet state).1.type = frame.type ∧
      (frame.store packet state).1.data = frame.data := by
  have payload : (packet.payload.overwrite 0 frame.data).slice 0 (packetPayloadLen frame.type) =
      frame.data := by
    rw [← length]
    refine Cells.slice_overwrite_same _ 0 _ ?_
    rw [Nat.zero_add, length]
    exact packetPayloadLen_le frame.type
  rw [Frame.store]
  cases frame.reception with
  | none => exact ⟨rfl, payload⟩
  | some reception => exact ⟨rfl, payload⟩

/-- The attempt after a frame of the given length was accepted. -/
structure Attempt.Accepted (attempt after : Attempt) (frame : Frame) (count : Nat) : Prop where
  valid : after.buf.Valid
  window : after.buf.window = attempt.buf.window.drop count
  packet : after.packet = (frame.store attempt.packet attempt.state.mlatState).1
  state : after.state =
    { attempt.state with
      mlatState := (frame.store attempt.packet attempt.state.mlatState).2 }

/-- The frames of a format start with the same byte, fit the buffer, and all of them or none tell
when they were received. -/
def Marked (code : Recognizer UInt8 Frame) (first : UInt8) (timed : Bool) : Prop :=
  ∀ {input frame count}, code.front input = some (frame, count) →
    input[0]? = some first ∧ count ≤ bufLenMax ∧ frame.reception.isSome = timed

/-- No frame is found in an input, whatever follows it. -/
def Dead (code : Recognizer UInt8 Frame) (input : Bytes) : Prop :=
  ∀ more, code.front (input ++ more) = none

theorem Dead.append {code : Recognizer UInt8 Frame} {input : Bytes} (dead : Dead code input)
    (more : Bytes) : Dead code (input ++ more) := fun further => by
  rw [List.append_assoc]
  exact dead _

/-- A parser takes the frames of a recognizer, which are some of all the frames of its format.
When there is no frame of the format it may have changed the state, but then the window is
`spent`. -/
structure Parses (parse : Parse) (code all : Recognizer UInt8 Frame) (spent : Bytes → Prop) :
    Prop where
  accept : ∀ {attempt : Attempt} {frame count}, attempt.buf.Valid →
    code.front attempt.buf.window = some (frame, count) →
      ∃ after, parse attempt = .ok (true, after) ∧ attempt.Accepted after frame count
  reject : ∀ {attempt : Attempt}, attempt.buf.Valid → all.front attempt.buf.window = none →
    ∃ packet mlatState, parse attempt = .ok (false,
        { attempt with packet := packet, state := { attempt.state with mlatState := mlatState } }) ∧
      (mlatState = attempt.state.mlatState ∨ spent attempt.buf.window)

/-- What a parser of all frames found is a frame. -/
theorem Parses.found {parse : Parse} {code : Recognizer UInt8 Frame} {spent : Bytes → Prop}
    (parses : Parses parse code code spent) {attempt after : Attempt} (valid : attempt.buf.Valid)
    (found : parse attempt = .ok (true, after)) :
    ∃ frame count, code.front attempt.buf.window = some (frame, count) ∧
      attempt.Accepted after frame count := by
  cases front : code.front attempt.buf.window with
  | none =>
      obtain ⟨_, _, rejected, _⟩ := parses.reject valid front
      rw [found, Except.ok.injEq, Prod.mk.injEq] at rejected
      exact absurd rejected.1 (by decide)
  | some result =>
      obtain ⟨frame, count⟩ := result
      obtain ⟨after', parsed, accepted⟩ := parses.accept valid front
      rw [found, Except.ok.injEq, Prod.mk.injEq] at parsed
      obtain ⟨_, rfl⟩ := parsed
      exact ⟨frame, count, rfl, accepted⟩

/-- A parser that used up its buffer took one frame. -/
theorem Parses.whole {parse : Parse} {code : Recognizer UInt8 Frame} {spent : Bytes → Prop}
    (parses : Parses parse code code spent) {attempt after : Attempt} (valid : attempt.buf.Valid)
    (found : parse attempt = .ok (true, after)) (empty : after.buf.length = 0) :
    ∃ frame, code.front attempt.buf.window = some (frame, attempt.buf.window.length) ∧
      after.packet = (frame.store attempt.packet attempt.state.mlatState).1 := by
  obtain ⟨frame, count, front, accepted⟩ := parses.found valid found
  have inside := code.inside front
  have left := congrArg List.length accepted.window
  rw [accepted.valid.window_length, empty, List.length_drop] at left
  have all : count = attempt.buf.window.length := by omega
  rw [all] at front
  exact ⟨frame, front, accepted.packet⟩

/-- A parser does nothing at the front of the frames of a recognizer. -/
def Skips (parse : Parse) (code : Recognizer UInt8 Frame) : Prop :=
  ∀ attempt result, attempt.buf.Valid → code.front attempt.buf.window = some result →
    parse attempt = .ok (false, attempt)

/-- Parsers that each take a part of the frames, and skip those of the later parts, take all of
them together. -/
theorem Parses.first (parsers : List (Parse × Recognizer UInt8 Frame))
    {all : Recognizer UInt8 Frame} {spent : Bytes → Prop}
    (parts : ∀ part ∈ parsers, Parses part.1 part.2 all spent)
    (skips : parsers.Pairwise fun part later => Skips part.1 later.2)
    (covered : ∀ input result, all.front input = some result →
      ∃ part ∈ parsers, part.2.front input = some result) :
    Parses (parseFirst (parsers.map Prod.fst)) all all spent where
  accept := by
    intro attempt frame count valid found
    obtain ⟨part, member, here⟩ := covered _ _ found
    clear covered
    induction parsers with
    | nil => exact (List.not_mem_nil member).elim
    | cons first parsers ih =>
        obtain ⟨skipsLater, skips⟩ := List.pairwise_cons.mp skips
        rcases List.mem_cons.mp member with rfl | later
        · obtain ⟨after, parsed, accepted⟩ := (parts _ List.mem_cons_self).accept valid here
          refine ⟨after, ?_, accepted⟩
          simp only [List.map_cons, parseFirst, parsed, Except.ok_bind, ↓reduceIte,
            Except.pure_eq_ok]
        · obtain ⟨after, parsed, accepted⟩ :=
            ih (fun part member => parts part (List.mem_cons_of_mem _ member)) skips later
          refine ⟨after, ?_, accepted⟩
          simp only [List.map_cons, parseFirst, skipsLater part later attempt _ valid here,
            Except.ok_bind, Bool.false_eq_true, ↓reduceIte, parsed]
  reject := by
    intro attempt valid none
    clear covered skips
    induction parsers generalizing attempt with
    | nil => exact ⟨attempt.packet, attempt.state.mlatState, rfl, .inl rfl⟩
    | cons first parsers ih =>
        obtain ⟨packet, mlatState, parsed, same⟩ :=
          (parts first List.mem_cons_self).reject valid none
        obtain ⟨packet', mlatState', rest, same'⟩ :=
          @ih (fun part member => parts part (List.mem_cons_of_mem _ member))
            { attempt with packet := packet, state := { attempt.state with mlatState := mlatState } }
            valid none
        refine ⟨packet', mlatState', ?_, ?_⟩
        · simp only [List.map_cons, parseFirst, parsed, Except.ok_bind, Bool.false_eq_true,
            ↓reduceIte, rest]
        · rcases same' with rfl | spent
          · exact same
          · exact .inr spent

/-! ## Grammars -/

/-- A parser accepts exactly the texts of a grammar at the front of its buffer: whether it finds one,
that there is no other text of the grammar there, that it is consumed whole, and what is stored of
the fields it is made of. Nothing is consumed where none is found. -/
def AcceptsExactly {φ : Type} (grammar : φ → Bytes → Prop) (stored : φ → Attempt → Attempt → Prop)
    (parse : Parse) (attempt : Attempt) : Prop :=
  ∃ found after, parse attempt = .ok (found, after) ∧
    (found = true ↔ ∃ fields text, grammar fields text ∧ text <+: attempt.buf.window) ∧
    (∀ fields text, grammar fields text → text <+: attempt.buf.window →
      (∀ fields' text', grammar fields' text' → text' <+: attempt.buf.window →
        fields' = fields ∧ text' = text) ∧
      after.buf.window = attempt.buf.window.drop text.length ∧ stored fields attempt after) ∧
    (found = false → after.buf = attempt.buf)

/-- What a text of the grammar at the front of the buffer gives. -/
theorem AcceptsExactly.accepts {φ : Type} {grammar : φ → Bytes → Prop}
    {stored : φ → Attempt → Attempt → Prop} {parse : Parse} {attempt : Attempt}
    (exact : AcceptsExactly grammar stored parse attempt) {fields : φ} {text : Bytes}
    (spelled : grammar fields text) (there : text <+: attempt.buf.window) :
    ∃ after, parse attempt = .ok (true, after) ∧
      after.buf.window = attempt.buf.window.drop text.length ∧ stored fields attempt after := by
  obtain ⟨found, after, parsed, finds, stores, _⟩ := exact
  obtain ⟨_, window, stored⟩ := stores fields text spelled there
  rw [finds.mpr ⟨fields, text, spelled, there⟩] at parsed
  exact ⟨after, parsed, window, stored⟩

/-- The frames of a recognizer as the texts of a grammar. -/
structure Spells {φ : Type} (code : Recognizer UInt8 Frame) (grammar : φ → Bytes → Prop)
    (made : φ → Frame → Prop) : Prop where
  front : ∀ {fields text input}, grammar fields text → text <+: input →
    ∃ frame, code.front input = some (frame, text.length) ∧ made fields frame
  text : ∀ {input frame count}, code.front input = some (frame, count) →
    ∃ fields text, grammar fields text ∧ text <+: input
  fields : ∀ {fields fields' text frame}, grammar fields text → grammar fields' text →
    made fields frame → made fields' frame → fields = fields'

/-- At the front of an input there is at most one text of the grammar. -/
theorem Spells.unique {φ : Type} {code : Recognizer UInt8 Frame}
    {grammar : φ → Bytes → Prop} {made : φ → Frame → Prop} (spells : Spells code grammar made)
    {fields fields' : φ} {text text' input : Bytes} (spelled : grammar fields text)
    (there : text <+: input) (spelled' : grammar fields' text') (there' : text' <+: input) :
    fields' = fields ∧ text' = text := by
  obtain ⟨frame, front, makes⟩ := spells.front spelled there
  obtain ⟨frame', front', makes'⟩ := spells.front spelled' there'
  rw [front, Option.some.injEq, Prod.mk.injEq] at front'
  obtain ⟨rfl, length⟩ := front'
  obtain rfl : text' = text :=
    (List.prefix_of_prefix_length_le there' there length.ge).eq_of_length length.symm
  exact ⟨spells.fields spelled' spelled makes' makes, rfl⟩

/-- A parser that takes the frames of a recognizer accepts the texts they are spelled in. -/
theorem Parses.acceptsExactly {φ : Type} {parse : Parse} {code : Recognizer UInt8 Frame}
    {spent : Bytes → Prop} (parses : Parses parse code code spent) {grammar : φ → Bytes → Prop}
    {made : φ → Frame → Prop} (spells : Spells code grammar made)
    {stored : φ → Attempt → Attempt → Prop} {attempt : Attempt} (valid : attempt.buf.Valid)
    (stores : ∀ {fields text frame after count}, grammar fields text → made fields frame →
      attempt.Accepted after frame count → stored fields attempt after) :
    AcceptsExactly grammar stored parse attempt := by
  cases front : code.front attempt.buf.window with
  | none =>
      obtain ⟨packet, mlatState, rejected, _⟩ := parses.reject valid front
      have nothing : ∀ fields text, grammar fields text → ¬ text <+: attempt.buf.window := by
        intro fields text spelled there
        obtain ⟨frame, here, _⟩ := spells.front spelled there
        cases front.symm.trans here
      refine ⟨false, _, rejected, ⟨fun found => absurd found Bool.false_ne_true, ?_⟩,
        fun fields text spelled there => absurd there (nothing fields text spelled), fun _ => rfl⟩
      rintro ⟨fields, text, spelled, there⟩
      exact absurd there (nothing fields text spelled)
  | some result =>
      obtain ⟨frame, count⟩ := result
      obtain ⟨after, parsed, accepted⟩ := parses.accept valid front
      refine ⟨true, after, parsed, ⟨fun _ => spells.text front, fun _ => rfl⟩, ?_,
        fun missed => absurd missed.symm Bool.false_ne_true⟩
      intro fields text spelled there
      refine ⟨fun fields' text' => spells.unique spelled there, ?_⟩
      obtain ⟨frame', here, makes⟩ := spells.front spelled there
      rw [front, Option.some.injEq, Prod.mk.injEq] at here
      obtain ⟨rfl, rfl⟩ := here
      exact ⟨accepted.window, stores spelled makes accepted⟩

end Adsbus

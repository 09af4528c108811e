import Adsbus.Core.Mlat
import Adsbus.Formats.AirspyAdsb
import Adsbus.Formats.Beast

/-! # Formats with a clock

The frames of beast and airspy_adsb carry the counter of a receiver. A parser that
reads such frames one after another counts how often the counter decreased
(`Adsbus.Clocked.decode_eq`).
-/

namespace Adsbus

/-- The packets of texts that arrive one after another, each in a buffer of its own. -/
def parseTexts (parse : Parse) (memory : Cells UInt8 bufLenMax) (base : Packet) :
    ParserState → List Bytes → Except Fault (List Packet)
  | _, [] => .ok []
  | state, text :: texts => do
      let (found, after) ←
        parse { buf := bufHolding memory text, packet := base, state := state }
      let packets ← parseTexts parse memory base after.state texts
      return if found then after.packet :: packets else packets

/-- The formats whose frames carry a counter. -/
inductive Clocked
  | airspyAdsb
  | beast
  deriving DecidableEq

namespace Clocked

def parse : Clocked → Parse
  | airspyAdsb => airspyAdsbParse
  | beast => beastParse

def serialize : Clocked → Packet → Except Fault Bytes
  | airspyAdsb => airspyAdsbSerialize
  | beast => beastSerialize

def code : Clocked → Recognizer UInt8 Frame
  | airspyAdsb => airspyAdsbCode
  | beast => beastCode

/-- The bits of the counter. -/
def width : Clocked → Nat
  | airspyAdsb => 32
  | beast => 48

/-- The bound of the counter that the parser uses. -/
def max : Clocked → UInt64
  | airspyAdsb => airspyAdsbMlatMax
  | beast => beastMlatMax

/-- The ticks of the packet's clock in a tick of the serializer's. -/
def ticks : Clocked → Nat
  | airspyAdsb => 6
  | beast => 10

/-- The fields of a frame. -/
def Fields : Clocked → Type
  | airspyAdsb => AirspyAdsbLine
  | beast => BeastFields

variable {clocked : Clocked}

/-- The text of a frame. -/
def text : {clocked : Clocked} → clocked.Fields → Bytes
  | airspyAdsb, line => AirspyAdsbLine.text line
  | beast, fields => BeastFields.text fields

/-- The number in the counter's field. -/
def timestamp : {clocked : Clocked} → clocked.Fields → Nat
  | airspyAdsb, line => AirspyAdsbLine.timestamp line
  | beast, fields => bigEndian (BeastFields.mlat fields)

/-- The frame that the fields make. -/
def frame : {clocked : Clocked} → clocked.Fields → Frame
  | airspyAdsb, line => AirspyAdsbLine.frame line
  | beast, fields => BeastFields.frame fields

/-- The rate of the counter's clock. -/
def mhz : {clocked : Clocked} → clocked.Fields → UInt16
  | airspyAdsb, line => (AirspyAdsbLine.reception line).mhz
  | beast, _ => beastMlatMhz

theorem max_toNat (clocked : Clocked) : clocked.max.toNat = 2 ^ clocked.width - 1 := by
  cases clocked <;> rfl

theorem timestamp_lt (fields : clocked.Fields) : timestamp fields < 2 ^ clocked.width := by
  cases clocked with
  | airspyAdsb => exact AirspyAdsbLine.timestamp_lt fields
  | beast =>
      have bound := bigEndian_lt (BeastFields.mlat fields)
      rw [BeastFields.mlatLength fields] at bound
      exact bound

/-- The reception of a frame. -/
theorem frame_reception (fields : clocked.Fields) :
    ∃ reception, (frame fields).reception = some reception ∧
      reception.timestamp.toNat = timestamp fields ∧ reception.max = clocked.max ∧
      reception.mhz = mhz fields := by
  cases clocked with
  | airspyAdsb =>
      refine ⟨_, rfl, ?_, rfl, rfl⟩
      have small := AirspyAdsbLine.timestamp_lt fields
      exact UInt64.toNat_ofNat_of_lt' (Nat.lt_trans small (by decide))
  | beast => exact ⟨_, rfl, toNat_beastParseMlat (BeastFields.mlatLength fields), rfl, rfl⟩

theorem front (fields : clocked.Fields) :
    clocked.code.front (text fields) = some (frame fields, (text fields).length) := by
  cases clocked with
  | airspyAdsb =>
      have found := AirspyAdsbLine.front fields []
      rwa [List.append_nil] at found
  | beast =>
      have found := BeastFields.front fields []
      rwa [List.append_nil] at found

theorem text_length_le (fields : clocked.Fields) : (text fields).length ≤ bufLenMax := by
  have small : ∀ type : PacketType, packetPayloadLen type * 2 + 21 ≤ 256 := by
    intro type
    cases type <;> decide
  cases clocked with
  | airspyAdsb => exact (AirspyAdsbLine.text_length_le fields).trans (small _)
  | beast =>
      exact (BeastFields.text_length_le fields).trans
        (Nat.le_trans (Nat.add_le_add_left (by decide) _) (small _))

/-- **One frame.** A frame alone in the buffer is accepted and used up. -/
theorem parse_text (fields : clocked.Fields) (memory : Cells UInt8 bufLenMax) (base : Packet)
    (state : ParserState) :
    ∃ after, clocked.parse { buf := bufHolding memory (text fields), packet := base, state := state } =
        .ok (true, after) ∧ after.buf.length = 0 ∧
      after.packet = ((frame fields).store base state.mlatState).1 ∧
      after.state = { state with mlatState := ((frame fields).store base state.mlatState).2 } := by
  have short := text_length_le fields
  have valid := Buf.valid_bufHolding memory short
  have window := Buf.window_bufHolding memory short
  have found := front fields
  obtain ⟨spent, parses⟩ : ∃ spent, Parses clocked.parse clocked.code clocked.code spent := by
    cases clocked with
    | airspyAdsb => exact ⟨_, airspyAdsbParse_parses⟩
    | beast => exact ⟨_, beastParse_parses⟩
  rw [← window] at found
  let attempt : Attempt :=
    { buf := bufHolding memory (text fields), packet := base, state := state }
  obtain ⟨after, parsed, accepted⟩ := @Parses.accept _ _ _ _ parses attempt _ _ valid found
  refine ⟨after, parsed, ?_, accepted.packet, accepted.state⟩
  rw [← accepted.valid.window_length, accepted.window, window]
  simp only [List.drop_length, List.length_nil]

/-- The timestamps that a fresh connection decodes from frames. -/
def decode (clocked : Clocked) (memory : Cells UInt8 bufLenMax) (base : Packet)
    (texts : List Bytes) : Except Fault (List Nat) :=
  (parseTexts clocked.parse memory base parserStateInit texts).map fun packets =>
    packets.map fun packet => packet.mlatTimestamp.toNat

/-- A frame takes the count of wraps one step further. -/
theorem store_frame (fields : clocked.Fields) (base : Packet) {state : MlatState}
    {last wraps : Nat} (counts : state.Counts clocked.max last wraps) :
    ((frame fields).store base state).1.mlatTimestamp.toNat =
        mlatScaled clocked.max (mhz fields) (Unwrap.seen last wraps (timestamp fields))
          (timestamp fields) ∧
      ((frame fields).store base state).2.Counts clocked.max (timestamp fields)
        (Unwrap.seen last wraps (timestamp fields)) := by
  obtain ⟨reception, received, read, bound, rate⟩ := frame_reception fields
  rw [← bound] at counts
  have scaled := counts.scaled reception.timestamp reception.mhz
  have next := (counts.widthIn reception.timestamp).2
  rw [read, bound] at scaled next
  rw [rate] at scaled
  simp only [Frame.store, received]
  rw [bound, rate]
  exact ⟨scaled, next⟩

theorem parseTexts_frames {ι : Type} (fields : ι → clocked.Fields)
    (memory : Cells UInt8 bufLenMax) (base : Packet) {state : ParserState} {last wraps : Nat}
    (counts : state.mlatState.Counts clocked.max last wraps) (items : List ι) :
    ∃ packets, parseTexts clocked.parse memory base state
        (items.map fun item => text (fields item)) = .ok packets ∧
      (packets.map fun packet => packet.mlatTimestamp.toNat) =
        (Unwrap.count (fun item => timestamp (fields item)) last wraps items).map fun counted =>
          mlatScaled clocked.max (mhz (fields counted.1)) counted.2
            (timestamp (fields counted.1)) := by
  induction items generalizing state last wraps with
  | nil => exact ⟨[], rfl, rfl⟩
  | cons item items ih =>
      obtain ⟨after, parsed, _, packet, left⟩ := parse_text (fields item) memory base state
      obtain ⟨scaled, next⟩ := store_frame (fields item) base counts
      have counts' : after.state.mlatState.Counts clocked.max (timestamp (fields item))
          (Unwrap.seen last wraps (timestamp (fields item))) := by
        rw [left]
        exact next
      obtain ⟨packets, rest, read⟩ := ih counts'
      refine ⟨after.packet :: packets, ?_, ?_⟩
      · simp only [List.map_cons, parseTexts, parsed, Except.ok_bind, rest, ↓reduceIte,
          Except.pure_eq_ok]
      · rw [List.map_cons, read, packet, scaled, Unwrap.count, List.map_cons]

/-- **Decoding frames.** Every timestamp is scaled with the wraps up to it. -/
theorem decode_eq {ι : Type} (fields : ι → clocked.Fields) (memory : Cells UInt8 bufLenMax)
    (base : Packet) (items : List ι) :
    clocked.decode memory base (items.map fun item => text (fields item)) =
      .ok ((Unwrap.count (fun item => timestamp (fields item)) 0 0 items).map fun counted =>
        mlatScaled clocked.max (mhz (fields counted.1)) counted.2
          (timestamp (fields counted.1))) := by
  obtain ⟨packets, parsed, read⟩ := @parseTexts_frames _ _ fields memory base parserStateInit _ _
    (MlatState.counts_fresh clocked.max) items
  rw [decode, parsed, Except.map, read]

/-! ## What is sent -/

/-- The fields that are written for a packet. -/
def sent : (clocked : Clocked) → (packet : Packet) → packet.type ∈ PacketType.frames →
    clocked.Fields
  | airspyAdsb, packet, framed => AirspyAdsbLine.sent packet framed
  | beast, packet, framed => BeastFields.sent packet framed

theorem serialize_eq (clocked : Clocked) {packet : Packet}
    (framed : packet.type ∈ PacketType.frames) :
    clocked.serialize packet = .ok (text (clocked.sent packet framed)) := by
  cases clocked with
  | airspyAdsb => exact airspyAdsbSerialize_sent framed
  | beast => exact beastSerialize_eq framed

/-- The counter that is sent. -/
theorem timestamp_sent (clocked : Clocked) {packet : Packet}
    (framed : packet.type ∈ PacketType.frames) :
    timestamp (clocked.sent packet framed) =
      packet.mlatTimestamp.toNat / clocked.ticks % clocked.max.toNat := by
  cases clocked with
  | airspyAdsb => rfl
  | beast =>
      have sent : (packet.mlatTimestamp / 10 % beastMlatMax).toNat =
          packet.mlatTimestamp.toNat / 10 % beastMlatMax.toNat := by
        rw [UInt64.toNat_mod, UInt64.toNat_div]
        rfl
      refine (bigEndian_beastWriteMlat ?_).trans sent
      rw [sent]
      exact Nat.lt_trans (Nat.mod_lt _ (by decide)) (by decide)

theorem mlatTicks_sent (clocked : Clocked) {packet : Packet}
    (framed : packet.type ∈ PacketType.frames) :
    mlatTicks (mhz (clocked.sent packet framed)) = clocked.ticks := by
  cases clocked with
  | airspyAdsb =>
      change mlatTicks (AirspyAdsbLine.sent packet framed).reception.mhz = 6
      rw [AirspyAdsbLine.reception_sent]
      change mlatTicks airspyAdsbSendMhz = 6
      decide
  | beast =>
      change mlatTicks beastMlatMhz = 10
      decide

/-- A packet received at a time. -/
def packetAt (timestamp : UInt64) : Packet where
  sourceId := .ofAscii ""
  inputStat := ⟨0, 0⟩
  type := .modeAc
  hops := 0
  payload := Cells.fill packetPayloadLenMax 0
  mlatTimestamp := timestamp
  rssi := 0

/-- A beast frame with a counter. -/
def beastAt (counter : Nat) : BeastFields where
  type := .modeAc
  mlat := beastWriteMlat (UInt64.ofNat counter)
  rssi := 0x80
  data := [0, 0]
  framed := by decide
  mlatLength := rfl
  dataLength := rfl

end Clocked

end Adsbus

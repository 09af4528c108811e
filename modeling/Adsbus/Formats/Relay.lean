import Adsbus.Formats.Clocked

/-! # Relays

A relay parses what it receives and serializes it in the same format. Over
airspy_adsb, a signal strength is rounded down once; over beast, one that is
rounded down to zero is sent on as the strongest (`Adsbus.Clocked.relay_rssi_iff`).
A frame is sent on as it was received, unless its counter has its largest value,
or a beast frame has no signal strength (`Adsbus.Clocked.resend_iff`).
-/

namespace Adsbus

namespace Clocked

variable {clocked : Clocked}

/-- One hop: the frame of a packet, as the next relay parses it. -/
def relayHop (clocked : Clocked) (memory : Cells UInt8 bufLenMax) (base : Packet)
    (state : ParserState) (packet : Packet) : Except Fault (Option Packet) := do
  let text ← clocked.serialize packet
  let (found, after) ←
    clocked.parse { buf := bufHolding memory text, packet := base, state := state }
  return if found then some after.packet else none

/-- Hops one after another, each over a connection in some state. -/
def relay (clocked : Clocked) (memory : Cells UInt8 bufLenMax) (base : Packet) :
    List ParserState → Packet → Except Fault (Option Packet)
  | [], packet => .ok (some packet)
  | state :: hops, packet => do
      match ← clocked.relayHop memory base state packet with
      | none => return none
      | some packet => clocked.relay memory base hops packet

/-! ## Signal strength -/

/-- A quantisation step of the signal strength. -/
def rssiStep : Clocked → Nat
  | airspyAdsb => 65537
  | beast => 16843009

/-- The signal strength behind a hop. -/
def relayedRssi : Clocked → Nat → Nat
  | airspyAdsb, rssi => rssi / 65537 * 65537
  | beast, rssi => if rssi = 0 then 4294967295 else rssi / 16843009 * 16843009

theorem store_frame_rssi (fields : clocked.Fields) (base : Packet) (state : MlatState) :
    ∃ reception, (frame fields).reception = some reception ∧
      ((frame fields).store base state).1.rssi = reception.rssi := by
  obtain ⟨reception, received, _⟩ := frame_reception fields
  exact ⟨reception, received, by simp only [Frame.store, received]⟩

theorem sent_rssi (clocked : Clocked) {packet : Packet}
    (framed : packet.type ∈ PacketType.frames) {reception : Reception}
    (received : (frame (clocked.sent packet framed)).reception = some reception) :
    reception.rssi.toNat = clocked.relayedRssi packet.rssi.toNat := by
  have bound := packet.rssi.toNat_lt
  cases clocked with
  | airspyAdsb =>
      have same : some (AirspyAdsbLine.sent packet framed).reception = some reception := received
      rw [AirspyAdsbLine.reception_sent, Option.some.injEq] at same
      rw [← same]
      change (packet.rssi / 65537 * 65537).toNat = packet.rssi.toNat / 65537 * 65537
      rw [UInt32.toNat_mul, UInt32.toNat_div]
      change packet.rssi.toNat / 65537 * 65537 % 2 ^ 32 = _
      omega
  | beast =>
      have same : (beastSentRssi packet).toUInt32 * (packetRssiMax / beastRssiMax) = reception.rssi :=
        congrArg Reception.rssi (Option.some.inj received)
      have step : (packetRssiMax / beastRssiMax).toNat = 16843009 := by decide
      rw [← same, UInt32.toNat_mul, step, UInt8.toNat_toUInt32, beastSentRssi]
      by_cases silent : packet.rssi = 0
      · rw [if_pos silent, silent]
        rfl
      · have positive : packet.rssi.toNat ≠ 0 := fun zero => silent (UInt32.toNat_inj.mp zero)
        rw [if_neg silent, relayedRssi, if_neg positive, UInt32.toNat_toUInt8, UInt32.toNat_div]
        have byte : packet.rssi.toNat / 16843009 < 2 ^ 8 := by omega
        have whole := Nat.div_mul_le_self packet.rssi.toNat 16843009
        change packet.rssi.toNat / 16843009 % 2 ^ 8 * 16843009 % 2 ^ 32 = _
        rw [Nat.mod_eq_of_lt byte, Nat.mod_eq_of_lt (by omega)]

theorem type_frame_sent (clocked : Clocked) {packet : Packet}
    (framed : packet.type ∈ PacketType.frames) :
    (frame (clocked.sent packet framed)).type = packet.type := by
  cases clocked <;> rfl

/-- A hop changes the signal strength in the way of its format. -/
theorem relayHop_eq (clocked : Clocked) (memory : Cells UInt8 bufLenMax) (base : Packet)
    (state : ParserState) {packet : Packet} (framed : packet.type ∈ PacketType.frames) :
    ∃ next, clocked.relayHop memory base state packet = .ok (some next) ∧
      next.type = packet.type ∧ next.rssi.toNat = clocked.relayedRssi packet.rssi.toNat := by
  obtain ⟨after, parsed, _, stored, _⟩ :=
    parse_text (clocked.sent packet framed) memory base state
  obtain ⟨reception, received, rssi⟩ :=
    store_frame_rssi (clocked.sent packet framed) base state.mlatState
  refine ⟨after.packet, ?_, ?_, ?_⟩
  · simp only [relayHop, clocked.serialize_eq framed, Except.ok_bind, parsed, ↓reduceIte,
      Except.pure_eq_ok]
  · rw [stored, ← clocked.type_frame_sent framed]
    simp only [Frame.store, received]
  · rw [stored, rssi, clocked.sent_rssi framed received]

theorem relay_eq (clocked : Clocked) (memory : Cells UInt8 bufLenMax) (base : Packet)
    (hops : List ParserState) {packet : Packet} (framed : packet.type ∈ PacketType.frames) :
    ∃ final, clocked.relay memory base hops packet = .ok (some final) ∧
      final.rssi.toNat = clocked.relayedRssi^[hops.length] packet.rssi.toNat := by
  induction hops generalizing packet with
  | nil => exact ⟨packet, rfl, rfl⟩
  | cons state hops ih =>
      obtain ⟨next, hop, type, rssi⟩ := clocked.relayHop_eq memory base state framed
      obtain ⟨final, relayed, last⟩ := @ih next (by rw [type]; exact framed)
      refine ⟨final, ?_, ?_⟩
      · simp only [relay, hop, Except.ok_bind, relayed]
      · rw [last, rssi, List.length_cons, Function.iterate_succ_apply]

theorem relayedRssi_airspyAdsb (rssi hops : Nat) :
    airspyAdsb.relayedRssi^[hops + 1] rssi = rssi / 65537 * 65537 := by
  have fixed : airspyAdsb.relayedRssi (rssi / 65537 * 65537) = rssi / 65537 * 65537 := by
    rw [relayedRssi, Nat.mul_div_cancel _ (by decide)]
  exact (Function.iterate_succ_apply _ _ _).trans (Function.iterate_fixed fixed hops)

theorem relayedRssi_strong {rssi : Nat} (strong : 16843009 ≤ rssi) (hops : Nat) :
    beast.relayedRssi^[hops + 1] rssi = rssi / 16843009 * 16843009 := by
  have once : beast.relayedRssi rssi = rssi / 16843009 * 16843009 := if_neg (by omega)
  have fixed : beast.relayedRssi (rssi / 16843009 * 16843009) = rssi / 16843009 * 16843009 := by
    rw [relayedRssi, if_neg (by omega), Nat.mul_div_cancel _ (by decide)]
  rw [Function.iterate_succ_apply, once, Function.iterate_fixed fixed]

theorem relayedRssi_absent (hops : Nat) : beast.relayedRssi^[hops + 1] 0 = 4294967295 :=
  (Function.iterate_succ_apply _ _ _).trans (Function.iterate_fixed (by decide) hops)

theorem relayedRssi_weak {rssi : Nat} (weak : rssi < 16843009) (positive : rssi ≠ 0) :
    beast.relayedRssi rssi = 0 := by
  rw [relayedRssi, if_neg positive, Nat.div_eq_of_lt weak, Nat.zero_mul]

/-- **Relayed signal strengths.** Over any number of hops a signal strength loses less than one
step, unless it is sent over beast and would be rounded down to none: then it is none after the
first hop, and the strongest after the second. -/
theorem relay_rssi_iff (clocked : Clocked) (memory : Cells UInt8 bufLenMax) (base packet : Packet)
    (framed : packet.type ∈ PacketType.frames) {hops : List ParserState} (some : hops ≠ []) :
    (∃ final, clocked.relay memory base hops packet = .ok (.some final) ∧
        final.rssi.toNat ≤ packet.rssi.toNat ∧
        packet.rssi.toNat - final.rssi.toNat < clocked.rssiStep) ↔
      clocked = airspyAdsb ∨ 16843009 ≤ packet.rssi.toNat ∨
        hops.length = 1 ∧ packet.rssi.toNat ≠ 0 := by
  obtain ⟨final, relayed, rssi⟩ := clocked.relay_eq memory base hops framed
  obtain ⟨more, length⟩ := Nat.exists_eq_succ_of_ne_zero (List.length_eq_zero_iff.not.mpr some)
  have bound := packet.rssi.toNat_lt
  rw [length] at rssi ⊢
  simp only [relayed, Except.ok.injEq, Option.some.injEq, exists_eq_left']
  cases clocked with
  | airspyAdsb =>
      rw [rssi, relayedRssi_airspyAdsb, rssiStep]
      simp only [true_or, iff_true]
      omega
  | beast =>
      simp only [reduceCtorEq, false_or, rssiStep]
      by_cases strong : 16843009 ≤ packet.rssi.toNat
      · rw [rssi, relayedRssi_strong strong]
        simp only [strong, true_or, iff_true]
        omega
      · by_cases absent : packet.rssi.toNat = 0
        · rw [rssi, absent, relayedRssi_absent]
          omega
        · have first := relayedRssi_weak (Nat.not_le.mp strong) absent
          rw [Function.iterate_succ_apply, first] at rssi
          cases more with
          | zero =>
              rw [Function.iterate_zero_apply] at rssi
              omega
          | succ more =>
              rw [relayedRssi_absent] at rssi
              omega

/-- A strong signal over two hops. -/
theorem relay_rssi_strong :
    ∃ final, beast.relay (Cells.fill bufLenMax 0) (packetAt 0) [parserStateInit, parserStateInit]
        { packetAt 0 with rssi := 0x80000000 } = .ok (some final) ∧
      final.rssi.toNat ≤ 0x80000000 ∧ 0x80000000 - final.rssi.toNat < 16843009 :=
  (@relay_rssi_iff beast (Cells.fill bufLenMax 0) (packetAt 0)
    { packetAt 0 with rssi := 0x80000000 } (by decide) [parserStateInit, parserStateInit]
    (by decide)).mpr (by decide)

/-- A weak signal is the strongest behind two hops. -/
theorem relay_rssi_weak :
    ¬ ∃ final, beast.relay (Cells.fill bufLenMax 0) (packetAt 0) [parserStateInit, parserStateInit]
        { packetAt 0 with rssi := 100 } = .ok (some final) ∧
      final.rssi.toNat ≤ 100 ∧ 100 - final.rssi.toNat < 16843009 := by
  rintro ⟨final, relayed, most, _⟩
  obtain ⟨final', relayed', rssi⟩ := @relay_eq beast (Cells.fill bufLenMax 0) (packetAt 0)
    [parserStateInit, parserStateInit] { packetAt 0 with rssi := 100 } (by decide)
  have same := relayed.symm.trans relayed'
  simp only [Except.ok.injEq, Option.some.injEq] at same
  have strongest : beast.relayedRssi^[2] 100 = 4294967295 := by decide
  rw [same, rssi] at most
  exact absurd (Nat.le_trans (Nat.le_of_eq strongest.symm) most) (by decide)

end Clocked

/-! ## Frames that are sent on -/

/-- What a fresh connection makes of a frame's counter. -/
theorem Clocked.store_fresh {clocked : Clocked} (fields : clocked.Fields)
    (ticks : mlatTicks (Clocked.mhz fields) = clocked.ticks) (base : Packet) :
    ((Clocked.frame fields).store base parserStateInit.mlatState).1.mlatTimestamp.toNat =
      Clocked.timestamp fields * clocked.ticks := by
  have scaled := (Clocked.store_frame fields base (MlatState.counts_fresh clocked.max)).1
  have small : Clocked.timestamp fields * clocked.ticks < packetMlatMax.toNat :=
    Nat.lt_of_le_of_lt
      (Nat.mul_le_mul (Nat.le_of_lt (Clocked.timestamp_lt fields)) (Nat.le_refl _))
      (by cases clocked <;> decide)
  rw [Unwrap.seen_zero, mlatScaled_of_lt (by rwa [Nat.zero_mul, Nat.zero_add, ticks]), ticks,
    Nat.zero_mul, Nat.zero_add] at scaled
  exact scaled

/-- A frame is sent on with its counter modulo the bound. -/
theorem Clocked.timestamp_resent {clocked : Clocked} (fields : clocked.Fields)
    (ticks : mlatTicks (Clocked.mhz fields) = clocked.ticks) (base : Packet)
    (framed : ((Clocked.frame fields).store base parserStateInit.mlatState).1.type ∈
      PacketType.frames) :
    Clocked.timestamp (clocked.sent _ framed) = Clocked.timestamp fields % clocked.max.toNat := by
  rw [Clocked.timestamp_sent, Clocked.store_fresh fields ticks,
    Nat.mul_div_cancel _ (by cases clocked <;> decide)]

/-- A line as the program writes it. -/
structure AirspyAdsbLine.Canonical (line : AirspyAdsbLine) : Prop where
  payload : ∀ c ∈ line.payload, IsUpperHex c
  mlat : ∀ c ∈ line.mlat, IsUpperHex c
  rssi : ∀ c ∈ line.rssi, IsUpperHex c
  precision : line.precision = ascii "0A"
  ending : line.ending = ['\r'.toUInt8, '\n'.toUInt8]

/-- A beast frame is sent on as it was received unless a field has the value that the serializer
does not write. -/
theorem BeastFields.resent (fields : BeastFields) (base : Packet) :
    beastSerialize (fields.frame.store base parserStateInit.mlatState).1 = .ok fields.text ↔
      fields.mlat ≠ List.replicate 6 0xff ∧ fields.rssi ≠ 0 := by
  obtain ⟨type, data⟩ := @Frame.store_fields fields.frame fields.dataLength base
    parserStateInit.mlatState
  have framed : (fields.frame.store base parserStateInit.mlatState).1.type ∈ PacketType.frames := by
    rw [type]
    exact fields.framed
  have counter : bigEndian (BeastFields.sent _ framed).mlat =
      bigEndian fields.mlat % beastMlatMax.toNat :=
    @Clocked.timestamp_resent .beast fields (by decide : mlatTicks beastMlatMhz = 10) base framed
  have mlat : (BeastFields.sent _ framed).mlat = fields.mlat ↔
      fields.mlat ≠ List.replicate 6 0xff := by
    have length : (BeastFields.sent _ framed).mlat.length = fields.mlat.length :=
      (BeastFields.mlatLength _).trans fields.mlatLength.symm
    have bound := bigEndian_lt fields.mlat
    rw [fields.mlatLength] at bound
    have max : beastMlatMax.toNat = 281474976710655 := rfl
    have largest : fields.mlat = List.replicate 6 0xff ↔ bigEndian fields.mlat = 281474976710655 :=
      ⟨fun same => by rw [same]; rfl, fun same => bigEndian_inj fields.mlatLength same⟩
    have same : (BeastFields.sent _ framed).mlat = fields.mlat ↔
        bigEndian fields.mlat % beastMlatMax.toNat = bigEndian fields.mlat := by
      rw [← counter]
      exact ⟨congrArg bigEndian, bigEndian_inj length⟩
    rw [same, ne_eq, largest, max]
    omega
  have rssi : (BeastFields.sent _ framed).rssi = fields.rssi ↔ fields.rssi ≠ 0 := by
    have all : ∀ value : Fin 256,
        (if (UInt8.ofNat value).toUInt32 * (packetRssiMax / beastRssiMax) = 0 then 0xff
          else ((UInt8.ofNat value).toUInt32 * (packetRssiMax / beastRssiMax) /
            0x1010101).toUInt8) = UInt8.ofNat value ↔ UInt8.ofNat value ≠ 0 := by decide +kernel
    have here := all ⟨fields.rssi.toNat, fields.rssi.toNat_lt⟩
    rw [UInt8.ofNat_toNat] at here
    exact here
  have told := @text_inj (BeastFields.sent _ framed) fields type
  rw [beastSerialize_eq framed, Except.ok.injEq, told, mlat, rssi]
  exact and_congr_right fun _ => and_iff_left data

/-- An airspy_adsb line is sent on as it was received unless its counter has the value that the
serializer does not write. -/
theorem AirspyAdsbLine.resent {line : AirspyAdsbLine} (canonical : line.Canonical) (base : Packet) :
    airspyAdsbSerialize (line.frame.store base parserStateInit.mlatState).1 = .ok line.text ↔
      line.timestamp ≠ 2 ^ 32 - 1 := by
  obtain ⟨type, data⟩ := @Frame.store_fields line.frame line.dataLength base
    parserStateInit.mlatState
  have framed : (line.frame.store base parserStateInit.mlatState).1.type ∈ PacketType.frames := by
    rw [type]
    exact line.framed
  have precision : line.precision = (AirspyAdsbLine.sent _ framed).precision := by
    rw [canonical.precision]
    change _ = hexFromIntUpper 10 1
    decide
  have payload : (AirspyAdsbLine.sent _ framed).payload = line.payload := by
    change hexFromBinUpper (line.frame.store base parserStateInit.mlatState).1.data = _
    rw [data]
    exact hexFromBinUpper_unhex (line.payloadLength.trans (Nat.mul_comm _ _)) canonical.payload
      line.decoded
  have rssi : (AirspyAdsbLine.sent _ framed).rssi = line.rssi := by
    obtain ⟨value, read⟩ :=
      unhexNat_of_isHex (fun c member => (canonical.rssi c member).isHex) 0
    have bound := unhexNat_lt read
    rw [line.rssiLength, Nat.zero_add, Nat.one_mul] at bound
    have stored : (line.frame.store base parserStateInit.mlatState).1.rssi.toNat =
        value * 65537 := by
      change (UInt32.ofInt (hexToInt line.rssi) * (packetRssiMax / airspyAdsbRssiMax)).toNat = _
      have step : (packetRssiMax / airspyAdsbRssiMax).toNat = 65537 := by decide
      rw [hexToInt_eq (by rw [line.rssiLength]; decide), read, Option.elim_some, UInt32.ofInt,
        Int.emod_eq_of_lt (by omega) (by omega), Int.toNat_natCast, UInt32.toNat_mul, step,
        UInt32.toNat_ofNat_of_lt' (by change value < 2 ^ 32; omega), Nat.mod_eq_of_lt (by omega)]
    refine hexFromIntUpper_unhexNat line.rssiLength canonical.rssi ?_
    rw [read, UInt32.toNat_toUInt64, UInt32.toNat_div, stored]
    exact congrArg some (Nat.mul_div_cancel _ (by decide)).symm
  have ticks : mlatTicks line.reception.mhz = 6 := by
    change mlatTicks (2 * UInt16.ofInt (hexToInt line.precision)) = 6
    rw [canonical.precision]
    decide
  have counter : (AirspyAdsbLine.sent _ framed).timestamp =
      line.timestamp % airspyAdsbMlatMax.toNat :=
    @Clocked.timestamp_resent .airspyAdsb line ticks base framed
  have max : airspyAdsbMlatMax.toNat = 4294967295 := rfl
  have bound := line.timestamp_lt
  have mlat : (AirspyAdsbLine.sent _ framed).mlat = line.mlat ↔ line.timestamp ≠ 2 ^ 32 - 1 := by
    rw [max] at counter
    constructor
    · intro same
      have counted := (AirspyAdsbLine.sent _ framed).counted
      rw [same, line.counted, counter, Option.some.injEq] at counted
      omega
    · intro small
      refine hexFromIntUpper_unhexNat line.mlatLength canonical.mlat ?_
      rw [line.counted, UInt64.toNat_mod, UInt64.toNat_div]
      change some line.timestamp = some (AirspyAdsbLine.sent _ framed).timestamp
      rw [counter, Nat.mod_eq_of_lt (by omega)]
  have told : (AirspyAdsbLine.sent _ framed).text = line.text ↔
      (AirspyAdsbLine.sent _ framed).mlat = line.mlat := by
    have ending : (AirspyAdsbLine.sent _ framed).ending = line.ending := canonical.ending.symm
    simp only [text, body, payload, ← precision, rssi, ending, List.append_cancel_right_eq,
      List.cons.injEq, List.append_cancel_left_eq, true_and]
  rw [airspyAdsbSerialize_sent framed, Except.ok.injEq, told, mlat]

/-- **Frames are sent on as they were received.** A beast frame is, unless its counter is all ones
or it has no signal strength; an airspy_adsb line is, unless its counter is all ones. -/
theorem resent_iff (base : Packet) :
    (∀ buf after, buf.Valid →
      beastParse { buf := buf, packet := base, state := parserStateInit } = .ok (true, after) →
      after.buf.length = 0 →
      ∃ fields : BeastFields, buf.window = fields.text ∧
        (beastSerialize after.packet = .ok buf.window ↔
          fields.mlat ≠ List.replicate 6 0xff ∧ fields.rssi ≠ 0)) ∧
    ∀ buf after, buf.Valid →
      airspyAdsbParse { buf := buf, packet := base, state := parserStateInit } = .ok (true, after) →
      after.buf.length = 0 →
      ∃ line : AirspyAdsbLine, buf.window = line.text ∧ (line.Canonical →
        (airspyAdsbSerialize after.packet = .ok buf.window ↔ line.timestamp ≠ 2 ^ 32 - 1)) := by
  constructor
  · intro buf after valid found empty
    obtain ⟨frame, front, stored⟩ := @Parses.whole _ _ _ beastParse_parses _ _ valid found empty
    obtain ⟨fields, whole, rfl⟩ := BeastFields.of_front front
    rw [List.take_length] at whole
    refine ⟨fields, whole, ?_⟩
    rw [stored, whole]
    exact fields.resent base
  · intro buf after valid found empty
    obtain ⟨frame, front, stored⟩ :=
      @Parses.whole _ _ _ airspyAdsbParse_parses _ _ valid found empty
    obtain ⟨line, whole, rfl⟩ := AirspyAdsbLine.of_front front
    rw [List.take_length] at whole
    refine ⟨line, whole, fun canonical => ?_⟩
    rw [stored, whole]
    exact AirspyAdsbLine.resent canonical base

/-- The frame of a packet is sent on as it was received. -/
theorem resent_frame :
    ∃ after, beastParse
        { buf := bufHolding (Cells.fill bufLenMax 0) (Clocked.beastAt 5).text
          packet := Clocked.packetAt 0, state := parserStateInit } = .ok (true, after) ∧
      after.buf.length = 0 ∧ beastSerialize after.packet = .ok (Clocked.beastAt 5).text := by
  have fits := @Clocked.text_length_le .beast (Clocked.beastAt 5)
  obtain ⟨after, parsed, empty, stored, _⟩ := @Clocked.parse_text .beast (Clocked.beastAt 5)
    (Cells.fill bufLenMax 0) (Clocked.packetAt 0) parserStateInit
  obtain ⟨fields, whole, resent⟩ := (resent_iff (Clocked.packetAt 0)).1 _ after
    (Buf.valid_bufHolding (Cells.fill bufLenMax 0) fits) parsed empty
  rw [Buf.window_bufHolding _ fits] at whole resent
  have frame := (fields.front []).symm.trans
    ((congrArg (fun text => beastCode.front (text ++ [])) whole).symm.trans
      ((Clocked.beastAt 5).front []))
  have type : fields.type = (Clocked.beastAt 5).type := by
    simp only [Option.some.injEq, Prod.mk.injEq] at frame
    exact congrArg Frame.type frame.1
  obtain ⟨mlat, rssi, _⟩ := (BeastFields.text_inj type).mp whole.symm
  refine ⟨after, parsed, empty, resent.mpr ?_⟩
  rw [mlat, rssi]
  decide

/-- A beast frame without a signal strength. -/
def silentFields : BeastFields := { Clocked.beastAt 5 with rssi := 0 }

/-- A beast frame without a signal strength is not sent on as it was received. -/
theorem silent_changed :
    ∃ after, beastParse
        { buf := bufHolding (Cells.fill bufLenMax 0) silentFields.text
          packet := Clocked.packetAt 0, state := parserStateInit } = .ok (true, after) ∧
      after.buf.length = 0 ∧ beastSerialize after.packet ≠ .ok silentFields.text := by
  obtain ⟨after, parsed, empty, stored, _⟩ := @Clocked.parse_text .beast silentFields
    (Cells.fill bufLenMax 0) (Clocked.packetAt 0) parserStateInit
  refine ⟨after, parsed, empty, fun same => ?_⟩
  rw [stored] at same
  exact ((silentFields.resent (Clocked.packetAt 0)).mp same).2 rfl

end Adsbus

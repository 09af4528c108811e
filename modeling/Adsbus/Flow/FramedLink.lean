import Adsbus.Flow.Framed
import Adsbus.Formats.Clocked

/-! # Links in the framed formats

What a fresh connection does with a stream that starts like a frame depends on
the stream only, not on how it is cut into reads (`Adsbus.framed_cuts_agree`);
and on the output of a framed serializer it finds the format and the packets
(`Adsbus.framed_link`).
-/

namespace Adsbus

open Reader

variable {server : Server}

/-! ## Runs -/

/-- What a fresh connection decodes a stream to. -/
def framedDecode (server : Server) (start : Receive) (stream : Bytes) :
    (Option Format × MlatState) × List Packet × Bytes :=
  Recognizer.decode (fun decoder => frameCode decoder.1) (frameNext server (receivePacket start))
    (none, parserStateInit.mlatState) stream

/-- The first byte of a stream is that of its first cut. -/
theorem Opened.of_append {first rest : Bytes} (opened : Opened (first ++ rest))
    (nonempty : first ≠ []) : Opened first := by
  have inside := List.length_pos_iff.mpr nonempty
  rw [Opened, List.getElem?_append_left inside] at opened
  exact opened

/-- A fresh connection decodes its stream. -/
theorem run_framed (star : server.jansson.Rejects '*'.toUInt8)
    (marker : server.jansson.Rejects beastMarker) {random : Cells UInt8 16} {stat : Stat}
    {memory : Cells UInt8 bufLenMax} {cuts : List Bytes} (opened : Opened cuts.flatten)
    (fits : (receiveReader server).Fits ⟨receiveNew random stat memory, .live⟩ cuts) :
    let decoded := framedDecode server (receiveNew random stat memory) cuts.flatten
    ∃ final status, (receiveReader server).run ⟨receiveNew random stat memory, .live⟩ cuts =
        .ok (⟨final, status⟩, decoded.2.1) ∧
      Framing (receiveNew random stat memory) final decoded.1 ∧
      (status = .live ∧ final.buf.length ≠ bufLenMax ∧ final.buf.window = decoded.2.2 ∨
        status = .overrun ∧ bufLenMax ≤ decoded.2.2.length) := by
  cases cuts with
  | nil => exact absurd opened (by simp only [Opened, List.flatten_nil, List.getElem?_nil,
      reduceCtorEq, or_self, not_false_eq_true])
  | cons chunk chunks =>
      obtain ⟨nonempty, short⟩ := fits.1 rfl
      have fresh := Buf.valid_bufInit memory
      have notFull : (bufInit memory).length ≠ bufLenMax := nofun
      obtain ⟨filled, fill, valid, _, window⟩ := fresh.fill notFull chunk short
      rw [Buf.window_bufInit, List.nil_append] at window
      have framing : Framing (receiveNew random stat memory)
          { receiveNew random stat memory with buf := filled }
          (none, parserStateInit.mlatState) := by
        refine ⟨rfl, rfl, valid, rfl, fun _ => ?_, nofun, .inl rfl⟩
        change Opened filled.window
        rw [window]
        exact opened.of_append nonempty
      have filled' : (receiveReader server).fill (receiveNew random stat memory) chunk =
          .ok { receiveNew random stat memory with buf := filled } := by
        change (bufFill (bufInit memory) chunk >>= _) = _
        rw [fill]
        rfl
      have window' : (receiveReader server).window
          { receiveNew random stat memory with buf := filled } = chunk := window
      have ran := (receiveReader_decodes star marker _).run chunks filled' framing fits
      rw [window'] at ran
      exact ran

/-- The end of the file closes a connection and gives nothing. -/
theorem run_end {receive : Receive} (valid : receive.buf.Valid) {status : Status}
    (notFull : status = .live → receive.buf.length ≠ bufLenMax) :
    ∃ final, (receiveReader server).run ⟨receive, status⟩ [[]] = .ok (final, []) ∧
      final.reader.parser = receive.parser := by
  by_cases live : status = .live
  · subst live
    obtain ⟨filled, fill, _⟩ := valid.fill (notFull rfl) [] (Nat.zero_le _)
    refine ⟨⟨{ receive with buf := filled }, .ended⟩, ?_, rfl⟩
    have filled' : (receiveReader server).fill receive [] =
        .ok { receive with buf := filled } := by
      change (bufFill receive.buf [] >>= _) = _
      rw [fill]
      rfl
    simp only [Reader.run, Reader.read, filled', Except.ok_bind, ↓reduceIte, Except.pure_eq_ok,
      List.append_nil]
  · exact ⟨_, run_of_not_live live _, rfl⟩

/-! ## Cuts -/

/-- What a packet says, apart from where it came from. -/
def Packet.content (packet : Packet) :
    PacketType × Cells UInt8 packetPayloadLenMax × UInt64 × UInt32 × UInt32 :=
  (packet.type, packet.payload, packet.mlatTimestamp, packet.rssi, packet.hops)

/-- A packet from another connection. -/
def Packet.from (start : Receive) (packet : Packet) : Packet :=
  { packet with sourceId := start.id, inputStat := start.stat }

@[simp] theorem Packet.content_from (start : Receive) (packet : Packet) :
    (packet.from start).content = packet.content := rfl

/-- Connections differ only in where they say that their packets came from. -/
theorem framedDecode_from (start other : Receive) (stream : Bytes) :
    framedDecode server other stream =
      let decoded := framedDecode server start stream
      (decoded.1, decoded.2.1.map (Packet.from other), decoded.2.2) := by
  have next : frameNext server (receivePacket other) = fun decoder named =>
      ((frameNext server (receivePacket start) decoder named).1,
        (frameNext server (receivePacket start) decoder named).2.map (Packet.from other)) := by
    funext decoder ⟨format, frame⟩
    have stored : ∀ frame : Frame, frame.store (receivePacket other) decoder.2 =
        (((frame.store (receivePacket start) decoder.2).1.from other),
          (frame.store (receivePacket start) decoder.2).2) := by
      rintro ⟨type, data, reception⟩
      cases reception <;> rfl
    simp only [frameNext, stored, passedOn, apply_ite (List.map (Packet.from other)), List.map_nil,
      List.map_cons]
    rfl
  rw [framedDecode, next]
  exact Recognizer.decode_map (Packet.from other) _ stream

/-- **Framed streams do not depend on the cuts.** Two fresh connections that read the same stream
to its end, however cut, send packets with the same contents and select the same parser, when the
stream starts like a frame. -/
theorem framed_cuts_agree (star : server.jansson.Rejects '*'.toUInt8)
    (marker : server.jansson.Rejects beastMarker) {stream : Bytes} (opened : Opened stream)
    {random random' : Cells UInt8 16} {stat stat' : Stat} {memory memory' : Cells UInt8 bufLenMax}
    {cuts cuts' : List Bytes} (whole : cuts.flatten = stream) (whole' : cuts'.flatten = stream)
    (fits : (receiveReader server).Fits ⟨receiveNew random stat memory, .live⟩ cuts)
    (fits' : (receiveReader server).Fits ⟨receiveNew random' stat' memory', .live⟩ cuts') :
    ∃ final final' packets packets',
      receiveRun server sendLog ⟨receiveNew random stat memory, .live⟩ [] (cuts ++ [[]]) =
        .ok (final, packets) ∧
      receiveRun server sendLog ⟨receiveNew random' stat' memory', .live⟩ [] (cuts' ++ [[]]) =
        .ok (final', packets') ∧
      packets.map Packet.content = packets'.map Packet.content ∧
      final.reader.parser = final'.reader.parser := by
  subst whole
  have complete : ∀ {random : Cells UInt8 16} {stat : Stat} {memory : Cells UInt8 bufLenMax}
      {cuts : List Bytes}, Opened cuts.flatten →
      (receiveReader server).Fits ⟨receiveNew random stat memory, .live⟩ cuts →
      ∃ final, receiveRun server sendLog ⟨receiveNew random stat memory, .live⟩ [] (cuts ++ [[]]) =
          .ok (final, (framedDecode server (receiveNew random stat memory) cuts.flatten).2.1) ∧
        final.reader.parser =
          (framedDecode server (receiveNew random stat memory) cuts.flatten).1.1 := by
    intro random stat memory cuts opened fits
    obtain ⟨last, status, ran, framing, how⟩ := run_framed star marker opened fits
    obtain ⟨final, ended, parser⟩ := @run_end server last framing.valid status fun live => by
      rcases how with ⟨_, notFull, _⟩ | ⟨overrun, _⟩
      · exact notFull
      · rw [overrun] at live
        cases live
    refine ⟨final, receiveRun_log ?_, by rw [parser, framing.parser]⟩
    simp only [run_append, ran, Except.ok_bind, ended, Except.pure_eq_ok, List.append_nil]
  obtain ⟨final, ran, parser⟩ := complete opened fits
  obtain ⟨final', ran', parser'⟩ := complete (by rwa [whole']) fits'
  rw [whole', framedDecode_from (receiveNew random stat memory)] at ran' parser'
  refine ⟨final, final', _, _, ran, ran', ?_, by rw [parser, parser']⟩
  simp only [List.map_map, Function.comp_def, Packet.content_from]

/-- Two frames that are read at once, or cut inside each and between them. -/
theorem framed_cuts_agree_two :
    ∃ final final' packets packets',
      receiveRun flatServer sendLog
        ⟨receiveNew (Cells.fill 16 0) ⟨0, 0⟩ (Cells.fill bufLenMax 0), .live⟩ []
        ([ascii "*00", ascii "00;\n*12", ascii "34;\n"] ++ [[]]) = .ok (final, packets) ∧
      receiveRun flatServer sendLog
        ⟨receiveNew (Cells.fill 16 1) ⟨0, 1⟩ (Cells.fill bufLenMax 1), .live⟩ []
        ([ascii "*0000;\n*1234;\n"] ++ [[]]) = .ok (final', packets') ∧
      packets.length = 2 ∧ final.reader.parser = some .raw ∧
      packets.map Packet.content = packets'.map Packet.content ∧
      final.reader.parser = final'.reader.parser := by
  obtain ⟨final, final', packets, packets', ran, ran', contents, parser⟩ :=
    framed_cuts_agree flatServer_star flatServer_marker
      (.inl rfl : Opened (ascii "*0000;\n*1234;\n"))
      (rfl : [ascii "*00", ascii "00;\n*12", ascii "34;\n"].flatten = _)
      (List.flatten_singleton : [ascii "*0000;\n*1234;\n"].flatten = _)
      (by decide +kernel :
        (receiveReader flatServer).Fits
          ⟨receiveNew (Cells.fill 16 0) ⟨0, 0⟩ (Cells.fill bufLenMax 0), .live⟩ _)
      (by decide +kernel :
        (receiveReader flatServer).Fits
          ⟨receiveNew (Cells.fill 16 1) ⟨0, 1⟩ (Cells.fill bufLenMax 1), .live⟩ _)
  have read : (receiveRun flatServer sendLog
      ⟨receiveNew (Cells.fill 16 0) ⟨0, 0⟩ (Cells.fill bufLenMax 0), .live⟩ []
      ([ascii "*00", ascii "00;\n*12", ascii "34;\n"] ++ [[]])).toOption.map
        (fun result => (result.2.length, result.1.reader.parser)) = some (2, some .raw) := by
    decide +kernel
  rw [ran] at read
  obtain ⟨count, selected⟩ := Prod.mk.inj (Option.some.inj read)
  exact ⟨final, final', packets, packets', ran, ran', count, selected, contents, parser⟩

/-! ## Links -/

/-- The framed formats with their serializers. -/
def framedLinks : List (Format × (Packet → Except Fault Bytes)) :=
  [(.airspyAdsb, airspyAdsbSerialize), (.beast, beastSerialize),
    (.raw, fun packet => .ok (rawSerialize packet))]

/-- A serialized packet is a frame. -/
theorem front_framedLinks {format : Format} {serialize : Packet → Except Fault Bytes}
    (link : (format, serialize) ∈ framedLinks) {packet : Packet} (typed : packet.type ≠ .none) :
    ∃ out reception, serialize packet = .ok out ∧ ∀ more, format.code.front (out ++ more) =
      some ({ type := packet.type, data := packet.data, reception := reception }, out.length) := by
  have frames : packet.type ∈ PacketType.frames := by
    cases kind : packet.type with
    | none => exact absurd kind typed
    | modeAc => decide
    | modeSShort => decide
    | modeSLong => decide
  simp only [framedLinks, List.mem_cons, Prod.mk.injEq, List.not_mem_nil, or_false] at link
  rcases link with ⟨rfl, rfl⟩ | ⟨rfl, rfl⟩ | ⟨rfl, rfl⟩
  · obtain ⟨out, serialized, _, front⟩ := front_airspyAdsbSerialize frames
    exact ⟨out, _, serialized, front⟩
  · obtain ⟨out, reception, serialized, _, front⟩ := front_beastSerialize frames
    exact ⟨out, reception, serialized, front⟩
  · exact ⟨_, none, rfl, front_rawSerialize frames⟩

/-- A packet that was sent over a framed link, as a connection passes it on. -/
structure Carried (id : CString) (sent packet : Packet) : Prop where
  type : packet.type = sent.type
  data : packet.data = sent.data
  hops : packet.hops = 1
  sourceId : packet.sourceId = id

/-- A frame of a packet gives the packet. -/
theorem frameNext_carried (hops : 1 ≤ server.receiveMaxHops) (start : Receive)
    (decoder : Option Format × MlatState) (format : Format) {sent : Packet}
    (typed : sent.type ≠ .none) (reception : Option Reception) :
    ∃ mlat packet, frameNext server (receivePacket start) decoder
        (format, { type := sent.type, data := sent.data, reception := reception }) =
          ((some format, mlat), [packet]) ∧ Carried start.id sent packet := by
  have payload : ((Cells.fill packetPayloadLenMax 0).overwrite 0 sent.data).slice 0
      (packetPayloadLen sent.type) = sent.data := by
    have length := sent.data_length
    rw [← length]
    refine Cells.slice_overwrite_same _ 0 _ ?_
    have := packetPayloadLen_le sent.type
    omega
  have allowed : ¬ (0 : UInt32) + 1 > server.receiveMaxHops := UInt32.not_lt.mpr hops
  cases reception with
  | none =>
      simp only [frameNext, passedOn, Frame.store, receivePacket, typed, allowed, ↓reduceIte]
      exact ⟨_, _, rfl, rfl, payload, rfl, rfl⟩
  | some reception =>
      simp only [frameNext, passedOn, Frame.store, receivePacket, typed, allowed, ↓reduceIte]
      exact ⟨_, _, rfl, rfl, payload, rfl, rfl⟩

/-- The texts of packets are decoded to them. -/
theorem decode_framedLinks (hops : 1 ≤ server.receiveMaxHops) (start : Receive) {format : Format}
    {serialize : Packet → Except Fault Bytes} (link : (format, serialize) ∈ framedLinks)
    (packets : List Packet) (typed : ∀ packet ∈ packets, packet.type ≠ .none)
    {mode : Option Format} (detecting : mode = none ∨ mode = some format) (mlat : MlatState) :
    ∃ texts mlat' emitted, packets.mapM serialize = .ok texts ∧
      Recognizer.decode (fun decoder => frameCode decoder.1)
        (frameNext server (receivePacket start)) (mode, mlat) texts.flatten =
          ((if packets = [] then mode else some format, mlat'), emitted, []) ∧
      packets.Forall₂ (Carried start.id) emitted := by
  induction packets generalizing mode mlat with
  | nil =>
      refine ⟨[], mlat, [], rfl, ?_, .nil⟩
      rw [List.flatten_nil, Recognizer.decode_of_none (Recognizer.front_nil _), if_pos rfl]
  | cons packet packets ih =>
      obtain ⟨here, later⟩ := List.forall_mem_cons.mp typed
      obtain ⟨out, reception, serialized, front⟩ := front_framedLinks link here
      have framed : format ∈ Format.framed := by
        simp only [framedLinks, List.mem_cons, Prod.mk.injEq, List.not_mem_nil, or_false] at link
        rcases link with ⟨rfl, _⟩ | ⟨rfl, _⟩ | ⟨rfl, _⟩ <;> decide
      obtain ⟨mlat', first, next, carried⟩ :=
        frameNext_carried hops start (mode, mlat) format here reception
      obtain ⟨texts, mlat'', emitted, rest, decoded, all⟩ := ih later (.inr rfl) mlat'
      refine ⟨out :: texts, mlat'', first :: emitted, ?_, ?_, .cons carried all⟩
      · rw [List.mapM_cons, serialized, Except.ok_bind, rest]
        rfl
      · have found : (frameCode mode).front (out ++ texts.flatten) =
            some ((format, { type := packet.type, data := packet.data, reception := reception }),
              out.length) :=
          front_frameCode.mpr ⟨detecting.imp_left fun none => ⟨none, framed⟩, front _⟩
        rw [List.flatten_cons]
        refine Eq.trans (Recognizer.decode_of_some found) ?_
        rw [next, List.drop_left, decoded]
        simp only [ite_self, reduceCtorEq, ↓reduceIte, List.singleton_append]

theorem opened_framedLinks {format : Format} {serialize : Packet → Except Fault Bytes}
    (link : (format, serialize) ∈ framedLinks) {packet : Packet} (typed : packet.type ≠ .none)
    {out : Bytes} (serialized : serialize packet = .ok out) (more : Bytes) :
    Opened (out ++ more) := by
  obtain ⟨out', _, serialized', front⟩ := front_framedLinks link typed
  rw [serialized, Except.ok.injEq] at serialized'
  subst serialized'
  have first := (format.code_marked (front more)).1
  cases format with
  | beast => exact .inr first
  | airspyAdsb => exact .inl first
  | raw => exact .inl first
  | json => exact .inl first
  | proto => exact .inl first

/-- **Framed links are faithful.** A fresh connection that reads the output of a framed serializer,
however cut, selects the parser of the format, sends as many packets with the same types and
payloads in the same order, and is left with an empty buffer. -/
theorem framed_link (star : server.jansson.Rejects '*'.toUInt8)
    (marker : server.jansson.Rejects beastMarker) (hops : 1 ≤ server.receiveMaxHops)
    {format : Format} {serialize : Packet → Except Fault Bytes}
    (link : (format, serialize) ∈ framedLinks) {packets : List Packet} (some : packets ≠ [])
    (typed : ∀ packet ∈ packets, packet.type ≠ .none) :
    ∃ texts, packets.mapM serialize = .ok texts ∧
      ∀ random stat memory cuts, cuts.flatten = texts.flatten →
        (receiveReader server).Fits ⟨receiveNew random stat memory, .live⟩ cuts →
        ∃ final emitted,
          receiveRun server sendLog ⟨receiveNew random stat memory, .live⟩ [] cuts =
            .ok (⟨final, .live⟩, emitted) ∧
          final.parser = .some format ∧ final.buf.length = 0 ∧
          packets.Forall₂ (Carried final.id) emitted := by
  obtain ⟨texts, _, _, serialized, _⟩ := decode_framedLinks hops
    (receiveNew (Cells.fill 16 0) ⟨0, 0⟩ (Cells.fill bufLenMax 0)) link packets typed (.inl rfl)
    parserStateInit.mlatState
  refine ⟨texts, serialized, fun random stat memory cuts whole fits => ?_⟩
  obtain ⟨texts', mlat, emitted, serialized', decoded, carried⟩ :=
    decode_framedLinks hops (receiveNew random stat memory) link packets typed (.inl rfl)
      parserStateInit.mlatState
  rw [serialized, Except.ok.injEq] at serialized'
  subst serialized'
  have opened : Opened cuts.flatten := by
    rw [whole]
    cases packets with
    | nil => exact absurd rfl some
    | cons packet packets =>
        rw [List.mapM_cons, Except.bind_eq_ok] at serialized
        obtain ⟨out, here, serialized⟩ := serialized
        rw [Except.bind_eq_ok] at serialized
        obtain ⟨rest, _, same⟩ := serialized
        cases same
        exact opened_framedLinks link (typed packet List.mem_cons_self) here _
  obtain ⟨final, status, ran, framing, how⟩ := run_framed star marker opened fits
  rw [whole, framedDecode, decoded, if_neg some] at ran framing how
  rcases how with ⟨rfl, _, window⟩ | ⟨_, long⟩
  · refine ⟨final, emitted, receiveRun_log ran, framing.parser, ?_, ?_⟩
    · rw [← framing.valid.window_length, window, List.length_nil]
    · rw [framing.id]
      exact carried
  · change bufLenMax ≤ 0 at long
    exact absurd long (by decide)

/-- Two raw frames, the first of them cut. -/
theorem framed_link_raw :
    ∃ final emitted,
      receiveRun flatServer sendLog
        ⟨receiveNew (Cells.fill 16 0) ⟨0, 0⟩ (Cells.fill bufLenMax 0), .live⟩ []
        [(rawSerialize (Clocked.packetAt 0)).take 5,
          (rawSerialize (Clocked.packetAt 0)).drop 5 ++ rawSerialize (Clocked.packetAt 1)] =
        .ok (⟨final, .live⟩, emitted) ∧
      final.parser = some .raw ∧ final.buf.length = 0 ∧
      [Clocked.packetAt 0, Clocked.packetAt 1].Forall₂ (Carried final.id) emitted := by
  have link : (Format.raw, fun packet => .ok (rawSerialize packet)) ∈ framedLinks :=
    List.mem_cons_of_mem _ (List.mem_cons_of_mem _ List.mem_cons_self)
  obtain ⟨texts, serialized, linked⟩ := @framed_link flatServer flatServer_star flatServer_marker
    (by decide) _ _ link [Clocked.packetAt 0, Clocked.packetAt 1] (by decide) (by decide)
  cases serialized
  refine linked _ _ _ [_, _] ?_ (by decide +kernel)
  simp only [List.reverse_cons, List.reverse_nil, List.nil_append, List.cons_append,
    List.flatten_cons, List.flatten_nil, List.append_nil]
  rw [← List.append_assoc, List.take_append_drop]

end Adsbus

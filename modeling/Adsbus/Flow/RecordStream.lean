import Adsbus.Flow.RecordFormats
import Adsbus.Formats.Hello
import Adsbus.Formats.RecordLink

/-! # Links of records

What a sender of json or proto writes, from its hello on, is read by a fresh
connection of another server as the packets it stands for, each with one more
hop (`Adsbus.record_link`). Every text fits the window with the line feed that
the text before it may have left.
-/

namespace Adsbus

open Reader

variable {server : Server}

/-- A packet that was sent over a record link, as a connection passes it on. -/
structure Relayed (sent packet : Packet) : Prop where
  sourceId : packet.sourceId = sent.sourceId
  type : packet.type = sent.type
  data : packet.data = sent.data
  rssi : packet.rssi = sent.rssi
  hops : packet.hops.toNat = sent.hops.toNat + 1

/-- The formats that are sequences of records, with the hello of a server and the serializer of
its packets. -/
def recordLinks (server : Server) (senderId : CString) :
    List (Format × Except Fault Bytes × (Packet → Except Fault Bytes)) :=
  [(.json, jsonHello server.jansson senderId, fun packet => jsonSerialize server.jansson packet []),
    (.proto, protoHello server.protobuf senderId,
      fun packet => protoSerialize server.protobuf packet [])]

/-- A packet that a server passes on when it is received over a record link. -/
structure Packet.Passes (packet : Packet) (server : Server) : Prop where
  sane : packet.Sane
  hops : packet.hops.toNat ≤ 65535
  allowed : packet.hops.toNat + 1 ≤ server.receiveMaxHops.toNat

/-- A sender writes texts of records, each with the same padding behind it. -/
structure RecordSender (records : Records server Record) (senderId : CString)
    (hello : Except Fault Bytes) (serialize : Packet → Except Fault Bytes) (tail : Bytes) :
    Prop where
  parses : records.parseRecord = Record.parse server.serverId
  padding : ∀ c ∈ tail, records.pad c = true
  hello : ∃ text, ∃ greeting : SentHeader, hello = .ok (text ++ tail) ∧
    greeting.header = protoHelloHeader senderId ∧ records.IsText text greeting.record ∧
    text.length ≤ bufLenMax ∧ Alone server records.format text
  packet : ∀ packet : Packet, packet.Sane → ∃ text, ∃ sent : SentPacket,
    serialize packet = .ok (text ++ tail) ∧ sent.Of packet ∧ records.IsText text sent.record ∧
    tail.length + text.length ≤ bufLenMax
  short : tail.length < bufLenMax

/-! ## One packet -/

/-- A record says what its packet is, but for the timestamp. -/
theorem SentPacket.Of.packet {packet : Packet} {sent : SentPacket} (of : sent.Of packet) :
    sent.packet.sourceId = packet.sourceId ∧ sent.packet.hops = packet.hops ∧
      sent.packet.rssi = (if packet.rssi ≠ 0 then some packet.rssi else none) ∧
      sent.packet.payload = packet.data := by
  cases kind : sent.record with
  | json obj =>
      rw [of.json obj kind]
      exact ⟨rfl, rfl, rfl, rfl⟩
  | proto msg =>
      rw [of.proto msg kind]
      exact ⟨rfl, rfl, rfl, rfl⟩

/-- What is read of a packet's record is passed on with one more hop. -/
theorem passedOn_of_readAs {packet : Packet} (passes : packet.Passes server) {sent : SentPacket}
    (of : sent.Of packet) {start : Receive} {senderId : CString} {wraps : Nat} {received : Packet}
    (read : sent.ReadAs (protoHelloHeader senderId) (receivePacket start) wraps received) :
    ∃ relayed, passedOn server received = [relayed] ∧ Relayed packet relayed := by
  obtain ⟨sourceId, hops, rssi, payload⟩ := of.packet
  have typed : received.type = packet.type := read.type.trans of.type
  have kept : received.hops = packet.hops := by
    have small := passes.hops
    rw [read.hops, hops, ← UInt32.toNat_inj, UInt16.toNat_toUInt32, UInt32.toNat_toUInt16]
    exact Nat.mod_eq_of_lt (by omega)
  have next : (received.hops + 1).toNat = packet.hops.toNat + 1 := by
    have small := passes.hops
    rw [kept, UInt32.toNat_add]
    exact Nat.mod_eq_of_lt (by change packet.hops.toNat + 1 < 2 ^ 32; omega)
  have strong : received.rssi = packet.rssi := by
    have scaled := read.rssi
    rw [AdsbPacket.scaledRssi, rssi] at scaled
    by_cases absent : packet.rssi = 0
    · rw [if_neg (not_not.mpr absent)] at scaled
      rw [absent]
      exact (Except.ok.inj scaled).symm
    · rw [if_pos absent] at scaled
      change packetRssiScaleIn packet.rssi packetRssiMax = _ at scaled
      rw [packetRssiScaleIn_of_pos (by decide), show packetRssiMax / packetRssiMax = 1 by decide,
        UInt32.mul_one] at scaled
      exact (Except.ok.inj scaled).symm
  have data : received.data = packet.data := by
    rw [Packet.data, read.payload, payload, typed, ← packet.data_length]
    refine Cells.slice_overwrite_same _ 0 _ ?_
    rw [Nat.zero_add, packet.data_length]
    exact packetPayloadLen_le packet.type
  have some : received.type ≠ .none := by
    rw [typed]
    exact passes.sane.type
  have allowed : ¬ received.hops + 1 > server.receiveMaxHops := by
    rw [gt_iff_lt, UInt32.lt_iff_toNat_lt, next]
    exact Nat.not_lt.mpr passes.allowed
  refine ⟨{ received with hops := received.hops + 1 }, ?_, ?_⟩
  · rw [passedOn, if_neg some, if_neg allowed]
  · exact ⟨read.sourceId.trans sourceId, typed, data, strong, next⟩

/-! ## A stream -/

namespace RecordSender

variable {records : Records server Record} {senderId : CString} {hello : Except Fault Bytes}
  {serialize : Packet → Except Fault Bytes} {tail : Bytes}

/-- The records of packets give the packets. -/
theorem script (sender : RecordSender records senderId hello serialize tail)
    (other : senderId ≠ server.serverId) (start : Receive) {packets : List Packet}
    (passes : ∀ packet ∈ packets, packet.Passes server) {state : ParserState} {counted : Nat × Nat}
    (greeted : state.Greeted (protoHelloHeader senderId) counted) :
    ∃ texts items scripted, packets.mapM serialize = .ok texts ∧
      (∀ item ∈ items, records.IsText item.1 item.2) ∧
      records.script (receivePacket start) state true items = some scripted ∧
      Spaced records.pad bufLenMax scripted (tail ++ texts.flatten) ∧
      packets.Forall₂ Relayed (scripted.flatMap Item.outputs) := by
  induction packets generalizing state counted with
  | nil =>
      refine ⟨[], [], [], rfl, List.forall_mem_nil _, rfl, ?_, .nil⟩
      rw [List.flatten_nil, List.append_nil]
      exact .nil sender.padding sender.short
  | cons packet packets ih =>
      obtain ⟨here, later⟩ := List.forall_mem_cons.mp passes
      obtain ⟨text, sent, serialized, of, isText, short⟩ := sender.packet packet here.sane
      obtain ⟨received, after, parsed, read, next⟩ := greeted.parse
        (protoHelloHeader_accepted other) (receivePacket start) sent.within_max
      obtain ⟨texts, items, scripted, rest, areTexts, script, spaced, relayed⟩ := ih later next
      obtain ⟨first, passed, same⟩ := passedOn_of_readAs here of read
      refine ⟨(text ++ tail) :: texts, (text, sent.record) :: items,
        { frame := text, outputs := [first], led := true } :: scripted, ?_,
        List.forall_mem_cons.mpr ⟨isText, areTexts⟩, ?_, ?_, .cons same relayed⟩
      · rw [List.mapM_cons, serialized, Except.ok_bind, rest]
        rfl
      · rw [Records.script_of_parsed (by rw [sender.parses]; exact parsed) script, passed]
      · rw [List.flatten_cons, List.append_assoc]
        exact .cons (fun c member => ⟨rfl, sender.padding c member⟩) short spaced

/-- A fresh connection that reads what a sender writes, however cut, sends its packets on. -/
theorem receive (sender : RecordSender records senderId hello serialize tail)
    (other : senderId ≠ server.serverId) {packets : List Packet}
    (passes : ∀ packet ∈ packets, packet.Passes server) :
    ∃ greeting texts, hello = .ok greeting ∧ packets.mapM serialize = .ok texts ∧
      ∀ random stat memory cuts, cuts.flatten = greeting ++ texts.flatten →
        (receiveReader server).Fits ⟨receiveNew random stat memory, .live⟩ cuts →
        ∃ final emitted,
          receiveRun server sendLog ⟨receiveNew random stat memory, .live⟩ [] cuts =
            .ok (⟨final, .live⟩, emitted) ∧
          final.parser = some records.format ∧ packets.Forall₂ Relayed emitted := by
  obtain ⟨text, greeting, greets, header, isText, short, alone⟩ := sender.hello
  have greeted := ParserState.greeted_withHeader greeting.header
  rw [header] at greeted
  obtain ⟨texts, _, _, serialized, _⟩ :=
    sender.script other (receiveNew (Cells.fill 16 0) ⟨0, 0⟩ (Cells.fill bufLenMax 0)) passes greeted
  refine ⟨text ++ tail, texts, greets, serialized, fun random stat memory cuts whole fits => ?_⟩
  obtain ⟨texts', items, scripted, serialized', areTexts, script, spaced, relayed⟩ :=
    sender.script other (receiveNew random stat memory) passes greeted
  rw [serialized, Except.ok.injEq] at serialized'
  subst serialized'
  have accepted : greeting.header.Accepted server.serverId := by
    rw [header]
    exact protoHelloHeader_accepted other
  have nothing : passedOn server { receivePacket (receiveNew random stat memory) with type := .none } =
      [] := if_pos rfl
  have scripted' : records.script (receivePacket (receiveNew random stat memory)) parserStateInit
      false ((text, greeting.record) :: items) =
        some ({ frame := text, outputs := [], led := false } :: scripted) := by
    have parsed := greeting.parse accepted (receivePacket (receiveNew random stat memory))
      parserStateInit
    rw [← sender.parses, header] at parsed
    rw [Records.script_of_parsed parsed script, nothing]
  have spaced' : Spaced records.pad bufLenMax ({ frame := text, outputs := [], led := false } ::
      scripted) cuts.flatten := by
    rw [whole, List.append_assoc, ← List.nil_append (text ++ _)]
    exact .cons (List.forall_mem_nil _) (by rw [List.length_nil, Nat.zero_add]; exact short) spaced
  have isReady := Records.ready_receiveNew random stat memory
    (List.forall_mem_cons.mpr ⟨isText, areTexts⟩) alone scripted'
  obtain ⟨final, ran, parser⟩ := Records.run_script isReady spaced' fits
  exact ⟨final, _, ran, parser, relayed⟩

end RecordSender

/-! ## The senders -/

/-- The text of flat members is that of an object that holds them. -/
theorem jsonText_of_flat {jansson : Jansson} (loads : jansson.Loads) (dumps : jansson.Dumps)
    {fields : List (Bytes × Json)} (flat : Json.Flat fields) :
    ∃ loaded, (Json.object loaded).Holds fields ∧
      JsonText jansson (jansson.text (.object fields)) loaded := by
  obtain ⟨loaded, holds, whole⟩ := loads flat
  exact ⟨loaded, holds, dumps.object_opens flat.keys, whole⟩

/-- The hello that the json serializer sends. -/
def jsonHelloSent (senderId : CString) {obj : Json}
    (holds : obj.Holds (Content.header (protoHelloHeader senderId)).fields) : SentHeader where
  header := protoHelloHeader senderId
  record := .json obj
  encoded := .json holds
  natural := fun _ _ => (by decide : packetMlatMax.toNat < 2 ^ 63)

/-- The record that the json serializer sends for a packet. -/
def jsonSent (packet : Packet) (sane : packet.Sane) {obj : Json}
    (holds : obj.Holds (Content.packet packet.type (jsonPacket packet)).fields) : SentPacket where
  type := packet.type
  packet := jsonPacket packet
  record := .json obj
  typed := sane.type
  encoded := .json holds
  natural := by
    intro _ _ timestamp member
    obtain ⟨whole, _, rfl⟩ := Option.mem_map.mp member
    rw [UInt64.toNat_mod]
    exact Nat.lt_trans (Nat.mod_lt _ (by decide)) (by decide)
  sourceId := sane.sourceId
  payload := packet.data_length

theorem jsonSent_of (packet : Packet) (sane : packet.Sane) {obj : Json}
    (holds : obj.Holds (Content.packet packet.type (jsonPacket packet)).fields) :
    (jsonSent packet sane holds).Of packet where
  type := rfl
  json := fun _ _ => rfl
  proto := nofun

/-- The json sender. -/
theorem jsonSender (positions : server.jansson.Positions) (stable : server.jansson.Stable)
    (skips : server.jansson.SkipsSpace) (loads : server.jansson.Loads)
    (dumps : server.jansson.Dumps) (sender : Cells UInt8 16) :
    RecordSender (jsonRecords server positions stable skips) (uuidGen sender)
      (jsonHello server.jansson (uuidGen sender))
      (fun packet => jsonSerialize server.jansson packet []) ['\n'.toUInt8] where
  parses := rfl
  padding := fun c member => by
    rw [List.mem_singleton.mp member]
    rfl
  hello := by
    have flat := flat_jsonHelloObject sender
    have short := jsonHelloText_length dumps sender
    obtain ⟨loaded, holds, isText⟩ := jsonText_of_flat loads dumps flat
    obtain ⟨rest, opens⟩ := isText.opens
    refine ⟨_, jsonHelloSent (uuidGen sender) holds, jsonHello_eq dumps sender, rfl,
      ⟨loaded, rfl, isText⟩, ?_, ?_⟩
    · rw [bufLenMax]
      omega
    · rw [opens]
      exact alone_json rest
  packet := by
    intro packet sane
    have short := jsonPacketText_length dumps sane
    have flat : Json.Flat (Content.packet packet.type (jsonPacket packet)).fields :=
      Content.flat_packet packet.type sane.sourceId
    obtain ⟨loaded, holds, isText⟩ := jsonText_of_flat loads dumps flat
    rw [← jsonPacketObject_fields] at isText
    refine ⟨_, jsonSent packet sane holds, jsonSerialize_eq dumps sane,
      jsonSent_of packet sane holds, ⟨loaded, rfl, isText⟩, ?_⟩
    rw [List.length_singleton, bufLenMax]
    omega
  short := by decide

/-- The proto sender. -/
theorem protoSender (positions : server.jansson.Positions) (skips : server.jansson.SkipsSpace)
    (opens : server.jansson.Opens) (packs : server.protobuf.Packs)
    (unpacks : server.protobuf.Unpacks) (sender : Cells UInt8 16) :
    RecordSender (protoRecords server unpacks) (uuidGen sender)
      (protoHello server.protobuf (uuidGen sender))
      (fun packet => protoSerialize server.protobuf packet []) [] where
  parses := rfl
  padding := List.forall_mem_nil _
  hello := by
    have length := protoHelloMessage_length sender
    have small : (protoHelloMessage (uuidGen sender)).wire.length < 128 := by omega
    have whole := (protoWrapToBuf_eq packs small).2
    refine ⟨Wire.blob 1 (protoHelloMessage (uuidGen sender)).wire, protoHelloSent (uuidGen sender),
      ?_, rfl, ⟨_, rfl, rfl, Nat.lt_trans small (by decide)⟩, ?_, ?_⟩
    · rw [List.append_nil]
      exact protoHello_eq packs sender
    · rw [whole, bufLenMax]
      omega
    · -- The length is the character o.
      rw [Wire.blob_one, length, Wire.varint_of_lt (by decide)]
      exact alone_proto positions skips (opens 111 (by decide) (by decide) (by decide)) _
  packet := by
    intro packet sane
    have short := protoMessage_length sane
    have small : (protoMessage packet).wire.length < 128 := by omega
    have whole := (protoWrapToBuf_eq packs small).2
    refine ⟨Wire.blob 1 (protoMessage packet).wire, protoSent packet sane, ?_, protoSent_of packet sane,
      ⟨_, rfl, rfl, by omega⟩, ?_⟩
    · rw [List.append_nil]
      exact protoSerialize_eq packs sane
    · rw [whole, List.length_nil, bufLenMax]
      omega
  short := by decide

/-- **Record links are faithful.** A fresh connection that reads what a json or a proto sender of
another server writes, however cut, selects the parser of the format, sends its packets with one
more hop, in order, and is never dropped. -/
theorem record_link (positions : server.jansson.Positions) (stable : server.jansson.Stable)
    (skips : server.jansson.SkipsSpace) (opens : server.jansson.Opens)
    (loads : server.jansson.Loads) (dumps : server.jansson.Dumps) (packs : server.protobuf.Packs)
    (unpacks : server.protobuf.Unpacks) {sender : Cells UInt8 16}
    (other : uuidGen sender ≠ server.serverId) {format : Format} {hello : Except Fault Bytes}
    {serialize : Packet → Except Fault Bytes}
    (link : (format, hello, serialize) ∈ recordLinks server (uuidGen sender))
    {packets : List Packet} (passes : ∀ packet ∈ packets, packet.Passes server) :
    ∃ greeting texts, hello = .ok greeting ∧ packets.mapM serialize = .ok texts ∧
      ∀ random stat memory cuts, cuts.flatten = greeting ++ texts.flatten →
        (receiveReader server).Fits ⟨receiveNew random stat memory, .live⟩ cuts →
        ∃ final emitted,
          receiveRun server sendLog ⟨receiveNew random stat memory, .live⟩ [] cuts =
            .ok (⟨final, .live⟩, emitted) ∧
          final.parser = some format ∧ packets.Forall₂ Relayed emitted := by
  simp only [recordLinks, List.mem_cons, Prod.mk.injEq, List.not_mem_nil, or_false] at link
  rcases link with ⟨rfl, rfl, rfl⟩ | ⟨rfl, rfl, rfl⟩
  · exact (jsonSender positions stable skips loads dumps sender).receive other passes
  · exact (protoSender positions skips opens packs unpacks sender).receive other passes

/-- What a proto sender writes of two packets, its hello first. -/
def twoStream : Bytes :=
  match protoHello flatServer.protobuf (uuidGen (Cells.fill 16 0)),
    [stampedPacket 3, stampedPacket 5].mapM fun packet =>
      protoSerialize flatServer.protobuf packet [] with
  | .ok greeting, .ok texts => greeting ++ texts.flatten
  | _, _ => []

/-- It is cut in the hello and in the first packet. -/
theorem record_link_two :
    ∃ final emitted,
      receiveRun flatServer sendLog
        ⟨receiveNew (Cells.fill 16 0) ⟨0, 0⟩ (Cells.fill bufLenMax 0), .live⟩ []
        [twoStream.take 30, (twoStream.drop 30).take 70, twoStream.drop 100] =
        .ok (⟨final, .live⟩, emitted) ∧
      final.parser = some .proto ∧ [stampedPacket 3, stampedPacket 5].Forall₂ Relayed emitted := by
  have first : (stampedPacket 3).Passes flatServer :=
    ⟨stampedPacket_sane (by decide), by decide, by decide⟩
  have second : (stampedPacket 5).Passes flatServer :=
    ⟨stampedPacket_sane (by decide), by decide, by decide⟩
  have passes : ∀ packet ∈ [stampedPacket 3, stampedPacket 5], packet.Passes flatServer :=
    List.forall_mem_cons.mpr ⟨first, List.forall_mem_singleton.mpr second⟩
  have other : uuidGen (Cells.fill 16 0) ≠ flatServer.serverId := by decide +kernel
  obtain ⟨greeting, texts, greets, serialized, linked⟩ := @record_link flatServer
    Jansson.flat_positions Jansson.flat_stable Jansson.flat_skipsSpace Jansson.flat_opens
    Jansson.flat_loads Jansson.flat_dumps Protobuf.reading_packs Protobuf.reading_unpacks _ other
    _ _ _ (List.mem_cons_of_mem _ List.mem_cons_self) _ passes
  have stream : twoStream = greeting ++ texts.flatten := by rw [twoStream, greets, serialized]
  have whole : [twoStream.take 30, (twoStream.drop 30).take 70, twoStream.drop 100].flatten =
      greeting ++ texts.flatten := by
    have behind : twoStream.drop 100 = (twoStream.drop 30).drop 70 := by rw [List.drop_drop]
    rw [← stream, behind]
    simp only [List.flatten_cons, List.flatten_nil, List.append_nil, List.take_append_drop]
  exact linked _ _ _ _ whole (by decide +kernel)

end Adsbus

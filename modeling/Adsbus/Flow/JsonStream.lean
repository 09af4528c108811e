import Adsbus.Flow.RecordStream

/-! # Separators in a json stream

The separators behind an object are consumed with it where they have been read by
then. Separators that are read later stay in front of the next object and take up
space in the buffer until it is complete, so a stream can be cut so that a
connection is dropped when an object and the separators before it do not fit the
buffer together (`Adsbus.json_cuts_agree_iff`).
-/

namespace Adsbus

open Reader

variable {server : Server}

/-- A json stream: an object, other objects behind separators, and separators at the end. -/
structure JsonStream where
  first : Bytes
  others : List (Bytes × Bytes)
  tail : Bytes
  separated : ∀ other ∈ others, ∀ c ∈ other.1, jsonSeparator c = true
  ended : ∀ c ∈ tail, jsonSeparator c = true

/-- Texts of objects that `json_parse` takes one after another. -/
def JsonTaken (server : Server) (base : Packet) : ParserState → List Bytes → Prop
  | _, [] => True
  | state, text :: texts => ∃ fields packet after, JsonText server.jansson text fields ∧
      jsonParseObject server.serverId (.object fields) base state = .ok (true, packet, after) ∧
      JsonTaken server base after texts

/-- Behind a header, the texts of packets are taken. -/
theorem jsonTaken_packets {header : AdsbHeader} (accepted : header.Accepted server.serverId)
    (base : Packet) {state : ParserState} {counted : Nat × Nat}
    (greeted : state.Greeted header counted) {packets : List (Bytes × SentPacket)}
    (written : ∀ item ∈ packets, ∃ fields, item.2.record = .json (.object fields) ∧
      JsonText server.jansson item.1 fields)
    (within : ∀ item ∈ packets, item.2.Within header.rssiMax) :
    JsonTaken server base state (packets.map Prod.fst) := by
  induction packets generalizing state counted with
  | nil => trivial
  | cons item packets ih =>
      obtain ⟨here, later⟩ := List.forall_mem_cons.mp written
      obtain ⟨within, within'⟩ := List.forall_mem_cons.mp within
      obtain ⟨fields, record, isText⟩ := here
      obtain ⟨packet, after, parsed, _, next⟩ := greeted.parse accepted base within
      rw [record] at parsed
      exact ⟨fields, packet, after, isText, parsed, ih next later within'⟩

/-- The texts of a header and of the packets behind it are taken. -/
theorem jsonTaken_header {text : Bytes} {greeting : SentHeader}
    (accepted : greeting.header.Accepted server.serverId) (base : Packet)
    {fields : List (Bytes × Json)} (record : greeting.record = .json (.object fields))
    (isText : JsonText server.jansson text fields) {packets : List (Bytes × SentPacket)}
    (written : ∀ item ∈ packets, ∃ fields, item.2.record = .json (.object fields) ∧
      JsonText server.jansson item.1 fields)
    (within : ∀ item ∈ packets, item.2.Within greeting.header.rssiMax) :
    JsonTaken server base parserStateInit (text :: packets.map Prod.fst) := by
  have parsed := greeting.parse accepted base parserStateInit
  rw [record] at parsed
  exact ⟨fields, _, _, isText, parsed, jsonTaken_packets accepted base
    (ParserState.greeted_withHeader greeting.header) written within⟩

namespace JsonStream

/-- The bytes of a stream. -/
def text (stream : JsonStream) : Bytes :=
  stream.first ++ (stream.others.flatMap (fun other => other.1 ++ other.2) ++ stream.tail)

/-- Every object is valid where it stands. -/
def Taken (stream : JsonStream) (server : Server) (start : Receive) : Prop :=
  JsonTaken server (receivePacket start) parserStateInit
    (stream.first :: stream.others.map Prod.snd)

/-- Each object fits a window together with the separators before it, and those at the end do not
fill it. -/
def Within (stream : JsonStream) (capacity : Nat) : Prop :=
  stream.first.length ≤ capacity ∧
    (∀ other ∈ stream.others, other.1.length + other.2.length ≤ capacity) ∧
    stream.tail.length < capacity

/-- Whatever the cuts, a connection emits the same and is not dropped. -/
def CutsAgree (stream : JsonStream) (server : Server) (start : Receive) : Prop :=
  ∀ cuts cuts', cuts.flatten = stream.text → cuts'.flatten = stream.text →
    (receiveReader server).Fits ⟨start, .live⟩ cuts →
    (receiveReader server).Fits ⟨start, .live⟩ cuts' →
    ∃ final final' packets,
      receiveRun server sendLog ⟨start, .live⟩ [] cuts = .ok (⟨final, .live⟩, packets) ∧
      receiveRun server sendLog ⟨start, .live⟩ [] cuts' = .ok (⟨final', .live⟩, packets)

/-! ## The script of a stream -/

variable {positions : server.jansson.Positions} {stable : server.jansson.Stable}
  {skips : server.jansson.SkipsSpace}

/-- The frame of an object can be told from separators. -/
theorem begins_jsonText {jansson : Jansson} {text : Bytes} {fields : List (Bytes × Json)}
    (isText : JsonText jansson text fields) (outputs : List Packet) (led : Bool) :
    (Item.mk text outputs led).Begins jsonSeparator := by
  obtain ⟨rest, opens⟩ := isText.opens
  exact ⟨123, rest, opens, by decide⟩

/-- The script of the objects behind the first. -/
theorem script_others {base : Packet} {state : ParserState} {others : List (Bytes × Bytes)}
    {tail : Bytes} (taken : JsonTaken server base state (others.map Prod.snd))
    (separated : ∀ other ∈ others, ∀ c ∈ other.1, jsonSeparator c = true)
    (ended : ∀ c ∈ tail, jsonSeparator c = true) :
    ∃ items scripted,
      (∀ item ∈ items, (jsonRecords server positions stable skips).IsText item.1 item.2) ∧
      (jsonRecords server positions stable skips).script base state true items = some scripted ∧
      ∀ capacity, Spaced jsonSeparator capacity scripted
          (others.flatMap (fun other => other.1 ++ other.2) ++ tail) ↔
        (∀ other ∈ others, other.1.length + other.2.length ≤ capacity) ∧
          tail.length < capacity := by
  induction others generalizing state with
  | nil =>
      refine ⟨[], [], List.forall_mem_nil _, rfl, fun capacity => ?_⟩
      rw [List.flatMap_nil, List.nil_append, spaced_nil_iff ended]
      simp only [List.not_mem_nil, false_implies, implies_true, true_and]
  | cons other others ih =>
      obtain ⟨gap, text⟩ := other
      obtain ⟨here, later⟩ := List.forall_mem_cons.mp separated
      obtain ⟨fields, packet, after, isText, parsed, taken⟩ := taken
      obtain ⟨items, scripted, texts, script, spaced⟩ := ih taken later
      refine ⟨(text, .json (.object fields)) :: items, _,
        List.forall_mem_cons.mpr ⟨⟨fields, rfl, isText⟩, texts⟩,
        Records.script_of_parsed parsed script true, fun capacity => ?_⟩
      rw [List.flatMap_cons, List.append_assoc, List.append_assoc,
        spaced_cons_iff (begins_jsonText isText _ _) fun c member => ⟨rfl, here c member⟩,
        spaced capacity, List.forall_mem_cons, and_assoc]

/-- The script of a stream, and when its objects fit a window. -/
theorem Taken.script (positions : server.jansson.Positions) (stable : server.jansson.Stable)
    (skips : server.jansson.SkipsSpace) {stream : JsonStream} {random : Cells UInt8 16} {stat : Stat}
    {memory : Cells UInt8 bufLenMax} (taken : stream.Taken server (receiveNew random stat memory)) :
    ∃ scripted, (jsonRecords server positions stable skips).Ready (receiveNew random stat memory)
        (receiveNew random stat memory) scripted ∧
      ∀ capacity, Spaced jsonSeparator capacity scripted stream.text ↔ stream.Within capacity := by
  obtain ⟨first, others, tail, separated, ended⟩ := stream
  obtain ⟨fields, packet, after, isText, parsed, taken⟩ := taken
  obtain ⟨items, scripted, texts, script, spaced⟩ :=
    @script_others server positions stable skips _ _ _ _ taken separated ended
  have alone : Alone server .json first := by
    obtain ⟨rest, rfl⟩ := isText.opens
    exact alone_json rest
  refine ⟨_, Records.ready_receiveNew random stat memory
    (List.forall_mem_cons.mpr ⟨⟨fields, rfl, isText⟩, texts⟩) alone
    (Records.script_of_parsed parsed script false), fun capacity => ?_⟩
  rw [text, ← List.nil_append (first ++ _),
    spaced_cons_iff (begins_jsonText isText _ _) (List.forall_mem_nil _), spaced capacity, Within,
    List.length_nil, Nat.zero_add]

/-- A window as long as the stream holds it. -/
theorem within_text (stream : JsonStream) : stream.Within (stream.text.length + 1) := by
  have length : stream.text.length = stream.first.length +
      ((stream.others.map fun other => other.1 ++ other.2).flatten.length + stream.tail.length) := by
    rw [text, List.length_append, List.length_append, List.flatMap]
  refine ⟨by omega, fun other member => ?_, by omega⟩
  have part := (List.sublist_flatten_of_mem (List.mem_map_of_mem
    (f := fun other : Bytes × Bytes => other.1 ++ other.2) member)).length_le
  rw [List.length_append] at part
  omega

/-! ## Cuts -/

/-- A stream that fits is read the same however it is cut. -/
theorem Taken.agree (positions : server.jansson.Positions) (stable : server.jansson.Stable)
    (skips : server.jansson.SkipsSpace) {stream : JsonStream} {random : Cells UInt8 16}
    {stat : Stat} {memory : Cells UInt8 bufLenMax}
    (taken : stream.Taken server (receiveNew random stat memory))
    (within : stream.Within bufLenMax) : stream.CutsAgree server (receiveNew random stat memory) := by
  obtain ⟨scripted, isReady, spaced⟩ := taken.script positions stable skips
  have laid := (spaced bufLenMax).mpr within
  intro cuts cuts' whole whole' fits fits'
  obtain ⟨final, ran, _⟩ := Records.run_script isReady (by rw [whole]; exact laid) fits
  obtain ⟨final', ran', _⟩ := Records.run_script isReady (by rw [whole']; exact laid) fits'
  exact ⟨final, final', _, ran, ran'⟩

/-- A stream that does not fit is dropped when it is read byte by byte. -/
theorem Taken.dropped (positions : server.jansson.Positions) (stable : server.jansson.Stable)
    (skips : server.jansson.SkipsSpace) {stream : JsonStream} {random : Cells UInt8 16}
    {stat : Stat} {memory : Cells UInt8 bufLenMax}
    (taken : stream.Taken server (receiveNew random stat memory))
    (tight : ¬ stream.Within bufLenMax) :
    ¬ stream.CutsAgree server (receiveNew random stat memory) := by
  obtain ⟨scripted, isReady, spaced⟩ := taken.script positions stable skips
  have follows := (jsonRecords server positions stable skips).follows (receiveNew random stat memory)
  obtain ⟨final, outputs, ran, fits⟩ := follows.run_singles
    ((jsonRecords server positions stable skips).hungry _) (by decide : 0 < bufLenMax) isReady
    (Buf.window_bufInit memory) ((spaced _).mpr stream.within_text)
    (fun laid => tight ((spaced _).mp laid))
  intro agree
  obtain ⟨live, _, packets, same, _⟩ := agree _ _ (flatten_singles _) (flatten_singles _) fits fits
  rw [receiveRun_log ran, Except.ok.injEq, Prod.mk.injEq, Connection.mk.injEq] at same
  exact absurd same.1.2 (by decide)

end JsonStream

/-- **Cuts of a json stream.** All cuts of a stream of valid objects are read the same, and none of
them gets the connection dropped, exactly when each object fits the buffer together with the
separators before it and those at the end do not fill it. -/
theorem json_cuts_agree_iff (positions : server.jansson.Positions) (stable : server.jansson.Stable)
    (skips : server.jansson.SkipsSpace) {stream : JsonStream} {random : Cells UInt8 16}
    {stat : Stat} {memory : Cells UInt8 bufLenMax}
    (taken : stream.Taken server (receiveNew random stat memory)) :
    stream.CutsAgree server (receiveNew random stat memory) ↔ stream.Within bufLenMax :=
  ⟨fun agree => by_contra fun tight => taken.dropped positions stable skips tight agree,
    taken.agree positions stable skips⟩

/-! ## Keep-alive line feeds -/

theorem jsonText_flat {fields : List (Bytes × Json)} (flat : Json.Flat fields) :
    JsonText .flat (Jansson.flat.text (.object fields)) fields :=
  ⟨Jansson.flat_dumps.object_opens flat.keys, Jansson.flat_loadb flat⟩

/-- A hello, some line feeds and a packet. -/
def keepAlive (count : Nat) : JsonStream where
  first := Jansson.flat.text (.object (jsonHelloObject (uuidGen (Cells.fill 16 0))))
  others := [(List.replicate count '\n'.toUInt8,
    Jansson.flat.text (.object (jsonPacketObject (stampedPacket 3))))]
  tail := ['\n'.toUInt8]
  separated := by
    intro other member c inside
    rw [List.mem_singleton.mp member] at inside
    rw [List.eq_of_mem_replicate inside]
    rfl
  ended c member := by
    rw [List.mem_singleton.mp member]
    rfl

theorem keepAlive_taken (count : Nat) (random : Cells UInt8 16) (stat : Stat)
    (memory : Cells UInt8 bufLenMax) :
    (keepAlive count).Taken flatServer (receiveNew random stat memory) := by
  have sane := stampedPacket_sane (show (3 : UInt64) ≤ packetMlatMax by decide)
  have holds : (Json.object (jsonPacketObject (stampedPacket 3))).Holds
      (Content.packet (stampedPacket 3).type (jsonPacket (stampedPacket 3))).fields := fun key => by
    rw [jsonPacketObject_fields, Json.get?]
  have flat : Json.Flat (jsonPacketObject (stampedPacket 3)) := by
    rw [jsonPacketObject_fields]
    exact Content.flat_packet (stampedPacket 3).type sane.sourceId
  have other : uuidGen (Cells.fill 16 0) ≠ flatServer.serverId := by decide +kernel
  exact @jsonTaken_header flatServer _ (@jsonHelloSent (uuidGen (Cells.fill 16 0))
      (.object (jsonHelloObject (uuidGen (Cells.fill 16 0)))) fun _ => rfl)
    (protoHelloHeader_accepted other) _ _ rfl (jsonText_flat (flat_jsonHelloObject _))
    [(_, jsonSent (stampedPacket 3) sane holds)]
    (List.forall_mem_singleton.mpr ⟨_, rfl, jsonText_flat flat⟩)
    (List.forall_mem_singleton.mpr (SentPacket.within_max _))

theorem keepAlive_length :
    (Jansson.flat.text (.object (jsonPacketObject (stampedPacket 3)))).length = 87 := by
  decide +kernel

theorem keepAlive_within (count : Nat) :
    (keepAlive count).Within bufLenMax ↔ count + 87 ≤ bufLenMax := by
  have hello := jsonHelloText_length Jansson.flat_dumps (Cells.fill 16 0)
  simp only [JsonStream.Within, keepAlive, List.forall_mem_singleton, List.length_replicate,
    keepAlive_length, List.length_singleton]
  exact ⟨fun within => within.2.1, fun within => ⟨hello.trans (by decide), within, by decide⟩⟩

/-- One line feed between the objects. -/
theorem json_cuts_agree_one : (keepAlive 1).CutsAgree flatServer
    (receiveNew (Cells.fill 16 0) ⟨0, 0⟩ (Cells.fill bufLenMax 0)) :=
  (json_cuts_agree_iff Jansson.flat_positions Jansson.flat_stable Jansson.flat_skipsSpace
    (keepAlive_taken 1 _ _ _)).mpr ((keepAlive_within 1).mpr (by decide))

/-- A packet of less than 200 bytes behind 256 line feeds, which may be read one by one. -/
theorem json_cuts_differ :
    (Jansson.flat.text (.object (jsonPacketObject (stampedPacket 3)))).length ≤ 200 ∧
      ¬ (keepAlive 256).CutsAgree flatServer
        (receiveNew (Cells.fill 16 0) ⟨0, 0⟩ (Cells.fill bufLenMax 0)) := by
  refine ⟨by rw [keepAlive_length]; decide, JsonStream.Taken.dropped Jansson.flat_positions
    Jansson.flat_stable Jansson.flat_skipsSpace (keepAlive_taken 256 _ _ _) fun within => ?_⟩
  exact absurd ((keepAlive_within 256).mp within) (by decide)

end Adsbus

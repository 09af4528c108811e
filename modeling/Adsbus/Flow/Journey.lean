import Adsbus.Flow.FramedLink
import Adsbus.Flow.Origin
import Adsbus.Flow.RecordStream
import Adsbus.Flow.SendWrite
import Adsbus.Transport.Output

/-! # Chains of instances

An instance reads a stream in one format and writes what it has read in another. Instances that
are connected one behind another, each with whatever format, pass every packet on, in order, with
the type and the payload that it had at first (`Adsbus.journey_faithful`).
-/

namespace Adsbus

open Reader

variable {server : Server}

/-! ## Lists related item by item -/

section Related

variable {α β γ : Type} {first : α → β → Prop} {second : β → γ → Prop} {whole : α → γ → Prop}

theorem exists_of_forall₂ {sent : List α} {received : List β} (related : sent.Forall₂ first received)
    {item : β} (member : item ∈ received) : ∃ source ∈ sent, first source item := by
  induction related with
  | nil => cases member
  | cons here _ ih =>
      rcases List.mem_cons.mp member with same | later
      · exact ⟨_, List.mem_cons_self, same ▸ here⟩
      · obtain ⟨source, among, related⟩ := ih later
        exact ⟨source, List.mem_cons_of_mem _ among, related⟩

theorem forall₂_comp (compose : ∀ a b c, first a b → second b c → whole a c) {sent : List α}
    {between : List β} {received : List γ} (earlier : sent.Forall₂ first between)
    (later : between.Forall₂ second received) : sent.Forall₂ whole received := by
  induction earlier generalizing received with
  | nil =>
      cases later
      exact .nil
  | cons here _ ih =>
      cases later with
      | cons there others => exact .cons (compose _ _ _ here there) (ih others)

end Related

/-! ## Reading -/

/-- A packet that is fit for `send_write`, from the socket of a connection. -/
structure Packet.SentOn (stat : Stat) (packet : Packet) : Prop where
  sane : packet.Sane
  inputStat : packet.inputStat = stat

theorem Receive.Sound.drain (positions : server.jansson.Positions) {turns : Nat}
    {receive : Receive} (sound : receive.Sound) (enough : receive.buf.length < turns) :
    ∃ after packets, (receiveReader server).drain turns receive = .ok (after, packets) ∧
      after.Sound ∧ after.stat = receive.stat ∧
      ∀ packet ∈ packets, packet.SentOn receive.stat := by
  induction turns generalizing receive with
  | zero => exact (Nat.not_lt_zero _ enough).elim
  | succ turns ih =>
      rw [Reader.drain]
      split
      · exact ⟨receive, [], rfl, sound, rfl, List.forall_mem_nil _⟩
      · obtain ⟨found, next, packet, turned, sound', sane⟩ := sound.receiveTurn positions
        have attempted := (receiveTurn_windowed server sound.valid).2 _ _ _ turned
        obtain ⟨stat, origin⟩ := receiveTurn_origin turned
        have turn : (receiveReader server).turn receive = .ok (found, next, packet.toList) := by
          change (Adsbus.receiveTurn server receive >>= _) = _
          rw [turned]
          rfl
        have here : ∀ sent ∈ packet.toList, sent.SentOn receive.stat := by
          intro sent member
          have given := Option.mem_toList.mp member
          exact ⟨sane sent given, origin sent given⟩
        rw [turn, Except.ok_bind]
        cases found with
        | false => exact ⟨next, _, rfl, sound', stat, here⟩
        | true =>
            have shorter := attempted.shorter
            obtain ⟨after, others, drained, sound'', stat', later⟩ := ih sound' (by omega)
            refine ⟨after, packet.toList ++ others, ?_, sound'', stat'.trans stat, ?_⟩
            · simp only [↓reduceIte, drained, Except.ok_bind, Except.pure_eq_ok]
            · intro sent member
              rcases List.mem_append.mp member with member | member
              · exact here sent member
              · exact stat ▸ later sent member

theorem Connected.read (positions : server.jansson.Positions)
    {connection : Connection Receive} (connected : Connected connection) {input : Bytes}
    (short : connection.status = .live → input.length ≤ connection.reader.buf.room) :
    ∃ next packets, (receiveReader server).read connection input = .ok (next, packets) ∧
      Connected next ∧ next.reader.stat = connection.reader.stat ∧
      ∀ packet ∈ packets, packet.SentOn connection.reader.stat := by
  by_cases live : connection.status = .live
  · obtain ⟨receive, status⟩ := connection
    cases live
    obtain ⟨filled, took, valid, _⟩ :=
      connected.sound.valid.fill (connected.notFull rfl) input (short rfl)
    have sound : { receive with buf := filled : Receive }.Sound :=
      ⟨connected.sound.id, valid, connected.sound.scaled⟩
    have fill : (receiveReader server).fill receive input =
        .ok { receive with buf := filled } := by
      change (bufFill receive.buf input >>= _) = _
      rw [took]
      rfl
    by_cases ended : input = []
    · subst ended
      refine ⟨⟨{ receive with buf := filled }, .ended⟩, [], ?_,
        ⟨sound, fun live => by cases live⟩, rfl, List.forall_mem_nil _⟩
      simp only [Reader.read, fill, Except.ok_bind, ↓reduceIte, Except.pure_eq_ok]
    · obtain ⟨after, packets, drained, sound', stat, sent⟩ :=
        sound.drain positions (Nat.lt_succ_self filled.length)
      refine ⟨_, packets, read_of_drain ended fill drained, ⟨sound', fun live full => ?_⟩, stat, sent⟩
      change (if after.buf.length = bufLenMax then Status.overrun else .live) = .live at live
      rw [if_pos full] at live
      cases live
  · exact ⟨connection, [], read_of_not_live live input, connected, rfl, List.forall_mem_nil _⟩

/-- Whatever a connection reads, it fails no assertion, and the packets that it passes on are fit
for `send_write`. -/
theorem Connected.run (positions : server.jansson.Positions)
    {connection : Connection Receive} (connected : Connected connection)
    {inputs : List Bytes} (fits : (receiveReader server).Fits connection inputs) :
    ∃ final packets, (receiveReader server).run connection inputs = .ok (final, packets) ∧
      ∀ packet ∈ packets, packet.SentOn connection.reader.stat := by
  induction inputs generalizing connection with
  | nil => exact ⟨connection, [], rfl, List.forall_mem_nil _⟩
  | cons input inputs ih =>
      obtain ⟨next, first, done, connected', stat, here⟩ :=
        connected.read positions fun live => (fits.1 live).2
      obtain ⟨final, others, ran, later⟩ := ih connected' (fits.2 next first done)
      refine ⟨final, first ++ others, ?_, fun packet member => ?_⟩
      · simp only [Reader.run, done, Except.ok_bind, ran, Except.pure_eq_ok]
      · rcases List.mem_append.mp member with member | member
        · exact here packet member
        · exact stat ▸ later packet member

/-- A connection can always be given the bytes of a text one by one. -/
theorem Connected.fits_singles (positions : server.jansson.Positions)
    {connection : Connection Receive} (connected : Connected connection) (text : Bytes) :
    (receiveReader server).Fits connection (singles text) := by
  induction text generalizing connection with
  | nil => trivial
  | cons c text ih =>
      have room : connection.status = .live → [c].length ≤ connection.reader.buf.room := fun live =>
        connected.sound.valid.room_pos (connected.notFull live)
      obtain ⟨_, _, read, connected', _⟩ := connected.read positions room
      refine ⟨fun live => ⟨List.cons_ne_nil _ _, room live⟩, fun next outputs done => ?_⟩
      cases read.symm.trans done
      exact ih connected'

theorem connected_receiveNew (random : Cells UInt8 16) (stat : Stat)
    (memory : Cells UInt8 bufLenMax) : Connected ⟨receiveNew random stat memory, .live⟩ :=
  ⟨.receiveNew random stat memory, fun _ full => by cases full⟩

/-! ## One instance -/

section Sending

variable {outside : Outside} {sending after : Sending} {packet : Packet}

/-- What was written to a descriptor. -/
def Sending.bytesTo (sending : Sending) (fd : Nat) : Bytes :=
  ((sending.written.filter fun write => write.1 = fd).map Prod.snd).flatten

/-- A packet in a format that keeps no counts: the time makes no difference. -/
def Serializer.text (server : Server) (serializer : Serializer) (packet : Packet) :
    Except Fault Bytes :=
  (serializer.serialize server 0 packet ⟨0, fun _ => 0, 0⟩).map Prod.fst

theorem Serializer.text_eq {serializer : Serializer} (counts : serializer ≠ .stats) (now : Int64)
    (packet : Packet) (stats : StatsState) :
    (serializer.serialize server now packet stats).map Prod.fst = serializer.text server packet := by
  have same : ∀ {result : Except Fault Bytes} {stats stats' : StatsState},
      ((result.map fun buf => (buf, stats)).map Prod.fst) =
        (result.map fun buf => (buf, stats')).map Prod.fst := by
    intro result stats stats'
    cases result <;> rfl
  rw [text]
  unfold serialize
  cases serializer with
  | airspyAdsb => exact same
  | beast => exact same
  | json => exact same
  | proto => exact same
  | raw => rfl
  | stats => exact absurd rfl counts

theorem Serializer.text_of_map {serializer : Serializer} {result : Except Fault Bytes}
    (made : serializer.serialize server 0 packet ⟨0, fun _ => 0, 0⟩ =
      result.map fun buf => (buf, ⟨0, fun _ => 0, 0⟩)) :
    serializer.text server packet = result := by
  rw [text, made]
  cases result <;> rfl

/-- With one connection, a packet from elsewhere is written to it. -/
theorem sendWrite_alone {serializer : Serializer} (counts : serializer ≠ .stats) {send : Send}
    (alone : sending.sendHead = Function.update (fun _ => []) serializer [send])
    (elsewhere : send.stat ≠ packet.inputStat) {text : Bytes}
    (made : serializer.text server packet = .ok text)
    (ran : sendWrite server outside sending packet = .ok after) :
    after.sendHead = sending.sendHead ∧ after.packets = sending.packets ++ [packet] ∧
      after.bytesTo send.fd = sending.bytesTo send.fd ++ text := by
  have wrote := sendWrite_wrote ran
  refine ⟨wrote.sendHead, sendWrite_packets ran, ?_⟩
  have serializes : serialized server (outside.clock sending.packets.length) packet
      sending.statsState serializer = text := by
    have made' := (serializer.text_eq counts (outside.clock sending.packets.length) packet
      sending.statsState).trans made
    rw [serialized]
    cases ran' : serializer.serialize server (outside.clock sending.packets.length) packet
        sending.statsState with
    | error _ =>
        rw [ran'] at made'
        cases made'
    | ok result =>
        rw [ran'] at made'
        cases made'
        rfl
  have writes : fanOut packet (serialized server (outside.clock sending.packets.length) packet
      sending.statsState) sending.sendHead = formatWrites packet text [send] := by
    have own : (Function.update (fun _ => []) serializer [send] : Serializer → List Send)
        serializer = [send] := Function.update_self ..
    rw [← serializes, alone, fanOut, Serializer.all]
    cases serializer <;> simp [Function.update_apply]
  rw [Sending.bytesTo, Sending.bytesTo, wrote.written, writes, List.filter_append, List.map_append,
    List.flatten_append, formatWrites]
  by_cases silent : text = []
  · rw [if_pos silent, silent, List.filter_nil, List.map_nil, List.flatten_nil]
  · have there : Adsbus.elsewhere packet [send] = [send] := by
      simp [Adsbus.elsewhere, elsewhere]
    rw [if_neg silent, there]
    simp

/-- With one connection, packets from elsewhere are written to it one after another. -/
theorem sendWrites_alone (dumps : server.jansson.Dumps) (packs : server.protobuf.Packs)
    {serializer : Serializer} (counts : serializer ≠ .stats) {send : Send} {stat : Stat}
    (elsewhere : send.stat ≠ stat) {packets : List Packet}
    (fit : ∀ packet ∈ packets, packet.SentOn stat)
    (alone : sending.sendHead = Function.update (fun _ => []) serializer [send]) :
    ∃ after texts, packets.foldlM (sendWrite server outside) sending = .ok after ∧
      packets.mapM (serializer.text server) = .ok texts ∧
      after.packets = sending.packets ++ packets ∧
      after.bytesTo send.fd = sending.bytesTo send.fd ++ texts.flatten := by
  induction packets generalizing sending with
  | nil => exact ⟨sending, [], rfl, rfl, (List.append_nil _).symm, (List.append_nil _).symm⟩
  | cons packet packets ih =>
      obtain ⟨⟨sane, inputStat⟩, later⟩ := List.forall_mem_cons.mp fit
      obtain ⟨text, stats, made, _⟩ := serializer.serialize_fits dumps packs sane 0 ⟨0, fun _ => 0, 0⟩
      have here : serializer.text server packet = .ok text := by
        rw [Serializer.text, made]
        rfl
      obtain ⟨between, ran⟩ := @sendWrite_total server outside packet sending dumps packs sane
      obtain ⟨sendHead, listed, written⟩ :=
        sendWrite_alone counts alone (inputStat.symm ▸ elsewhere) here ran
      obtain ⟨after, texts, rest, mapped, listed', written'⟩ := ih later (sendHead.trans alone)
      refine ⟨after, text :: texts, ?_, ?_, ?_, ?_⟩
      · rw [List.foldlM_cons, ran, Except.ok_bind, rest]
      · rw [List.mapM_cons, here, Except.ok_bind, mapped]
        rfl
      · rw [listed', listed, List.append_assoc, List.singleton_append]
      · rw [written', written, List.append_assoc, List.flatten_cons]

/-- A process with one receive connection reads from it. -/
theorem Process.run_reads (connection : Connection Receive) (sending : Sending)
    (inputs : List Bytes) :
    Process.run server outside ⟨[connection], sending⟩ (inputs.map (Event.read 0)) =
      (receiveRun server (sendWrite server outside) connection sending inputs).map
        fun result => ⟨[result.1], result.2⟩ := by
  induction inputs generalizing connection sending with
  | nil => rfl
  | cons input inputs ih =>
      rw [List.map_cons, Process.run, List.foldlM_cons, receiveRun]
      simp only [Process.step, List.getElem?_cons_zero, List.set_cons_zero]
      cases receiveRead server (sendWrite server outside) connection sending input with
      | error _ => rfl
      | ok result => exact ih result.1 result.2

end Sending

/-! ## Links -/

/-- The formats whose packets carry their source and their hops. -/
def Serializer.carries : Serializer → Bool
  | .json | .proto => true
  | _ => false

/-- An instance, and the format in which it sends. -/
structure Sender where
  server : Server
  serializer : Serializer

/-- What is written to a connection, from its hello on. -/
def Sender.stream (sender : Sender) (packets : List Packet) : Except Fault Bytes := do
  let hello ← Output.sendGetHello sender.server sender.serializer
  let texts ← packets.mapM (sender.serializer.text sender.server)
  return hello ++ texts.flatten

/-- The libraries of a server read what they write. -/
structure Server.Faithful (server : Server) : Prop where
  positions : server.jansson.Positions
  stable : server.jansson.Stable
  skips : server.jansson.SkipsSpace
  opens : server.jansson.Opens
  loads : server.jansson.Loads
  dumps : server.jansson.Dumps
  packs : server.protobuf.Packs
  unpacks : server.protobuf.Unpacks

/-- A sender of packets, under an id of its own. -/
structure Sender.Works (sender : Sender) : Prop where
  faithful : sender.server.Faithful
  named : ∃ random, sender.server.serverId = uuidGen random
  packets : sender.serializer ≠ .stats

/-- A receive connection that is to be given a stream in pieces. -/
structure Reading where
  server : Server
  random : Cells UInt8 16
  stat : Stat
  memory : Cells UInt8 bufLenMax
  cut : Bytes → List Bytes

def Reading.start (reading : Reading) : Connection Receive :=
  ⟨receiveNew reading.random reading.stat reading.memory, .live⟩

/-- The pieces make up the stream, and none is longer than the space that is offered. -/
def Reading.Cuts (reading : Reading) : Prop :=
  ∀ stream, (reading.cut stream).flatten = stream ∧
    (receiveReader reading.server).Fits reading.start (reading.cut stream)

/-- A sender writes to another instance, with the same libraries. -/
structure Sender.Joins (sender : Sender) (reading : Reading) : Prop where
  jansson : reading.server.jansson = sender.server.jansson
  protobuf : reading.server.protobuf = sender.server.protobuf
  other : sender.serializer.carries = true → sender.server.serverId ≠ reading.server.serverId

/-- The hops after a link. -/
def Serializer.hopsAfter (serializer : Serializer) (hops : Nat) : Nat :=
  if serializer.carries then hops + 1 else 1

/-- The hops of a packet let it through a link. -/
def Serializer.Admits (serializer : Serializer) (server : Server) (hops : Nat) : Prop :=
  (serializer.carries = true → hops ≤ 65535) ∧
    serializer.hopsAfter hops ≤ server.receiveMaxHops.toNat

/-- A packet as it is passed on behind a link. -/
structure Conveyed (serializer : Serializer) (random : Cells UInt8 16) (sent packet : Packet) :
    Prop where
  type : packet.type = sent.type
  data : packet.data = sent.data
  hops : packet.hops.toNat = serializer.hopsAfter sent.hops.toNat
  sourceId : packet.sourceId = if serializer.carries then sent.sourceId else uuidGen random
  rssi : serializer.carries = true → packet.rssi = sent.rssi

theorem Sender.Works.greets {sender : Sender} (works : sender.Works) :
    ∃ hello, Output.sendGetHello sender.server sender.serializer = .ok hello := by
  obtain ⟨faithful, ⟨random, named⟩, _⟩ := works
  obtain ⟨server, serializer⟩ := sender
  dsimp only at named
  cases serializer with
  | json => exact ⟨_, (congrArg (jsonHello _) named).trans (jsonHello_eq faithful.dumps random)⟩
  | proto => exact ⟨_, (congrArg (protoHello _) named).trans (protoHello_eq faithful.packs random)⟩
  | _ => exact ⟨[], rfl⟩

/-- A framed link. -/
theorem framed_conveys (opens : server.jansson.Opens) (hops : 1 ≤ server.receiveMaxHops)
    {format : Format} {serialize : Packet → Except Fault Bytes}
    (link : (format, serialize) ∈ framedLinks) {packets : List Packet}
    (typed : ∀ packet ∈ packets, packet.type ≠ .none) :
    ∃ texts, packets.mapM serialize = .ok texts ∧
      ∀ random stat memory cuts, cuts.flatten = texts.flatten →
        (receiveReader server).Fits ⟨receiveNew random stat memory, .live⟩ cuts →
        ∃ final emitted, (receiveReader server).run ⟨receiveNew random stat memory, .live⟩ cuts =
            .ok (final, emitted) ∧ packets.Forall₂ (Carried (uuidGen random)) emitted := by
  have star := opens '*'.toUInt8 (by decide) (by decide) (by decide)
  have marker := opens beastMarker (by decide) (by decide) (by decide)
  obtain ⟨texts, _, _, serialized, _⟩ := decode_framedLinks hops
    (receiveNew (Cells.fill 16 0) ⟨0, 0⟩ (Cells.fill bufLenMax 0)) link packets typed (.inl rfl)
    parserStateInit.mlatState
  refine ⟨texts, serialized, fun random stat memory cuts whole fits => ?_⟩
  obtain ⟨texts', mlat, emitted, serialized', decoded, carried⟩ :=
    decode_framedLinks hops (receiveNew random stat memory) link packets typed (.inl rfl)
      parserStateInit.mlatState
  cases serialized.symm.trans serialized'
  cases packets with
  | nil =>
      cases serialized
      cases carried
      cases cuts with
      | nil => exact ⟨_, [], rfl, .nil⟩
      | cons cut cuts =>
          exact absurd (List.append_eq_nil_iff.mp whole).1 (fits.1 rfl).1
  | cons packet packets =>
      have opened : Opened cuts.flatten := by
        rw [whole]
        rw [List.mapM_cons] at serialized
        obtain ⟨out, here, rest⟩ := Except.bind_eq_ok.mp serialized
        obtain ⟨outs, _, same⟩ := Except.bind_eq_ok.mp rest
        cases same
        exact opened_framedLinks link (typed packet List.mem_cons_self) here _
      obtain ⟨final, status, ran, _⟩ := run_framed star marker opened fits
      rw [whole, framedDecode, decoded] at ran
      exact ⟨_, emitted, ran, carried⟩

/-- A record link. -/
theorem record_conveys {records : Records server Record} {senderId : CString}
    {hello : Except Fault Bytes} {serialize : Packet → Except Fault Bytes} {tail : Bytes}
    (positions : server.jansson.Positions)
    (sender : RecordSender records senderId hello serialize tail)
    (other : senderId ≠ server.serverId) {packets : List Packet}
    (passes : ∀ packet ∈ packets, packet.Passes server) :
    ∃ greeting texts, hello = .ok greeting ∧ packets.mapM serialize = .ok texts ∧
      ∀ random stat memory cuts, cuts.flatten = greeting ++ texts.flatten →
        (receiveReader server).Fits ⟨receiveNew random stat memory, .live⟩ cuts →
        ∃ final emitted, (receiveReader server).run ⟨receiveNew random stat memory, .live⟩ cuts =
            .ok (final, emitted) ∧ packets.Forall₂ Relayed emitted := by
  obtain ⟨greeting, texts, greets, serialized, receives⟩ := sender.receive other passes
  refine ⟨greeting, texts, greets, serialized, fun random stat memory cuts whole fits => ?_⟩
  obtain ⟨_, emitted, logged, _, relayed⟩ := receives random stat memory cuts whole fits
  obtain ⟨final, emitted', ran, _⟩ :=
    (connected_receiveNew random stat memory).run positions fits
  cases logged.symm.trans (receiveRun_log ran)
  exact ⟨_, emitted, ran, relayed⟩

theorem conveyed_of_carried {serializer : Serializer} (framed : serializer.carries = false)
    {random : Cells UInt8 16} {sent packet : Packet} (carried : Carried (uuidGen random) sent packet) :
    Conveyed serializer random sent packet where
  type := carried.type
  data := carried.data
  hops := by
    rw [carried.hops, Serializer.hopsAfter, framed]
    rfl
  sourceId := by
    rw [carried.sourceId, framed]
    rfl
  rssi := fun records => absurd (framed.symm.trans records) Bool.false_ne_true

theorem conveyed_of_relayed {serializer : Serializer} (records : serializer.carries = true)
    {random : Cells UInt8 16} {sent packet : Packet} (relayed : Relayed sent packet) :
    Conveyed serializer random sent packet where
  type := relayed.type
  data := relayed.data
  hops := by rw [relayed.hops, Serializer.hopsAfter, if_pos records]
  sourceId := by rw [relayed.sourceId, if_pos records]
  rssi := fun _ => relayed.rssi

theorem Server.Faithful.of_eq {other : Server} (faithful : server.Faithful)
    (jansson : other.jansson = server.jansson) (protobuf : other.protobuf = server.protobuf) :
    other.Faithful := by
  obtain ⟨_, _, _, _⟩ := server
  obtain ⟨_, _, _, _⟩ := other
  cases jansson
  cases protobuf
  exact ⟨faithful.positions, faithful.stable, faithful.skips, faithful.opens, faithful.loads,
    faithful.dumps, faithful.packs, faithful.unpacks⟩

section Links

variable {sender : Sender} {reading : Reading} {packets : List Packet}
  {serialize : Packet → Except Fault Bytes}

theorem Sender.stream_eq {greeting : Bytes} {texts : List Bytes}
    (greets : Output.sendGetHello sender.server sender.serializer = .ok greeting)
    (text : ∀ packet, sender.serializer.text sender.server packet = serialize packet)
    (serialized : packets.mapM serialize = .ok texts) :
    sender.stream packets = .ok (greeting ++ texts.flatten) := by
  rw [Sender.stream, greets, Except.ok_bind, funext text, serialized, Except.ok_bind,
    Except.pure_eq_ok]

theorem Sender.Works.stream (works : sender.Works) (sane : ∀ packet ∈ packets, packet.Sane) :
    ∃ stream, sender.stream packets = .ok stream := by
  obtain ⟨greeting, greets⟩ := works.greets
  have text : ∀ packet ∈ packets, sender.serializer.text sender.server packet =
      .ok ((sender.serializer.text sender.server packet).toOption.getD []) := by
    intro packet member
    obtain ⟨out, stats, made, _⟩ := sender.serializer.serialize_fits works.faithful.dumps
      works.faithful.packs (sane packet member) 0 ⟨0, fun _ => 0, 0⟩
    rw [Serializer.text, made]
    rfl
  exact ⟨_, stream_eq greets (fun _ => rfl)
    (@Except.mapM_eq_ok _ _ _ _ _ (fun packet =>
      (sender.serializer.text sender.server packet).toOption.getD []) text)⟩

theorem Sender.conveys_framed (faithful : reading.server.Faithful) (cuts : reading.Cuts)
    (limit : 1 ≤ reading.server.receiveMaxHops) {format : Format}
    (link : (format, serialize) ∈ framedLinks) (plain : sender.serializer.carries = false)
    (greets : Output.sendGetHello sender.server sender.serializer = .ok [])
    (text : ∀ packet, sender.serializer.text sender.server packet = serialize packet)
    (typed : ∀ packet ∈ packets, packet.type ≠ .none) :
    ∃ stream final emitted, sender.stream packets = .ok stream ∧
      (receiveReader reading.server).run reading.start (reading.cut stream) =
        .ok (final, emitted) ∧
      packets.Forall₂ (Conveyed sender.serializer reading.random) emitted := by
  obtain ⟨texts, serialized, reads⟩ := framed_conveys faithful.opens limit link typed
  obtain ⟨whole, fits⟩ := cuts ([] ++ texts.flatten)
  obtain ⟨final, emitted, ran, carried⟩ := reads _ _ _ _ whole fits
  exact ⟨_, final, emitted, stream_eq greets text serialized, ran,
    carried.imp fun _ _ => conveyed_of_carried plain⟩

theorem Sender.conveys_records (faithful : reading.server.Faithful) (cuts : reading.Cuts)
    {records : Records reading.server Record} {senderId : CString} {hello : Except Fault Bytes}
    {tail : Bytes} (sends : RecordSender records senderId hello serialize tail)
    (other : senderId ≠ reading.server.serverId) (carries : sender.serializer.carries = true)
    (greets : Output.sendGetHello sender.server sender.serializer = hello)
    (text : ∀ packet, sender.serializer.text sender.server packet = serialize packet)
    (passes : ∀ packet ∈ packets, packet.Passes reading.server) :
    ∃ stream final emitted, sender.stream packets = .ok stream ∧
      (receiveReader reading.server).run reading.start (reading.cut stream) =
        .ok (final, emitted) ∧
      packets.Forall₂ (Conveyed sender.serializer reading.random) emitted := by
  obtain ⟨greeting, texts, here, serialized, reads⟩ :=
    record_conveys faithful.positions sends other passes
  obtain ⟨whole, fits⟩ := cuts (greeting ++ texts.flatten)
  obtain ⟨final, emitted, ran, relayed⟩ := reads _ _ _ _ whole fits
  exact ⟨_, final, emitted, stream_eq (greets.trans here) text serialized, ran,
    relayed.imp fun _ _ => conveyed_of_relayed carries⟩

/-- **One link.** An instance that reads what another has written, however cut, passes its packets
on. -/
theorem Sender.conveys (works : sender.Works) (joins : sender.Joins reading) (cuts : reading.Cuts)
    (limit : 1 ≤ reading.server.receiveMaxHops) (sane : ∀ packet ∈ packets, packet.Sane)
    (admits : ∀ packet ∈ packets, sender.serializer.Admits reading.server packet.hops.toNat) :
    ∃ stream final emitted, sender.stream packets = .ok stream ∧
      (receiveReader reading.server).run reading.start (reading.cut stream) =
        .ok (final, emitted) ∧
      packets.Forall₂ (Conveyed sender.serializer reading.random) emitted := by
  have faithful := works.faithful.of_eq joins.jansson joins.protobuf
  obtain ⟨random, named⟩ := works.named
  have other := joins.other
  have passes : sender.serializer.carries = true →
      ∀ packet ∈ packets, packet.Passes reading.server := by
    intro records packet member
    obtain ⟨small, allowed⟩ := admits packet member
    rw [Serializer.hopsAfter, if_pos records] at allowed
    exact ⟨sane packet member, small records, allowed⟩
  have typed := fun packet member => (sane packet member).type
  obtain ⟨server, serializer⟩ := sender
  dsimp only at named other passes
  cases serializer with
  | airspyAdsb =>
      exact conveys_framed faithful cuts limit List.mem_cons_self rfl rfl (fun _ => Serializer.text_of_map rfl) typed
  | beast =>
      exact conveys_framed faithful cuts limit (List.mem_cons_of_mem _ List.mem_cons_self) rfl rfl
        (fun _ => Serializer.text_of_map rfl) typed
  | raw =>
      exact conveys_framed faithful cuts limit (List.mem_cons_of_mem _ (List.mem_cons_of_mem _
        List.mem_cons_self)) rfl rfl (fun _ => rfl) typed
  | json =>
      refine conveys_records faithful cuts (jsonSender faithful.positions faithful.stable
        faithful.skips faithful.loads faithful.dumps random) (named ▸ other rfl) rfl ?_
        (fun packet => ?_) (passes rfl)
      · rw [joins.jansson, ← named]
        rfl
      · rw [joins.jansson]
        exact Serializer.text_of_map rfl
  | proto =>
      refine conveys_records faithful cuts (protoSender faithful.positions faithful.skips
        faithful.opens faithful.packs faithful.unpacks random) (named ▸ other rfl) rfl ?_
        (fun packet => ?_) (passes rfl)
      · rw [joins.protobuf, ← named]
        rfl
      · rw [joins.protobuf]
        exact Serializer.text_of_map rfl
  | stats => exact absurd rfl works.packets

end Links

/-! ## Chains -/

/-- An instance that reads from one connection and writes to another one, whose peer keeps up. -/
structure Station where
  reading : Reading
  clock : Nat → Int64
  serializer : Serializer
  send : Send

namespace Station

variable (station : Station)

def sender : Sender := ⟨station.reading.server, station.serializer⟩

/-- Each `write` takes all its bytes. -/
def outside : Outside := ⟨station.clock, fun _ => true⟩

/-- What happens to the process: both connections are opened, and the stream is read. -/
def events (stream : Bytes) : List Event :=
  .sendNew station.serializer station.send ::
    .receiveNew station.reading.random station.reading.stat station.reading.memory ::
      (station.reading.cut stream).map (Event.read 0)

/-- The packets that the instance gives to `send_write` while it reads a stream, and what it writes
meanwhile, its hello first. -/
def forward (stream : Bytes) : Except Fault (List Packet × Bytes) := do
  let hello ← Output.sendGetHello station.reading.server station.serializer
  let process ← Process.run station.reading.server station.outside
    ⟨[], ⟨fun _ => [], ⟨0, fun _ => 0, 0⟩, [], [], []⟩⟩ (station.events stream)
  return (process.sending.packets, hello ++ process.sending.bytesTo station.send.fd)

/-- The instance sends packets, reads in any pieces, and its connections are on different files. -/
structure Works : Prop where
  sender : station.sender.Works
  cuts : station.reading.Cuts
  limit : 1 ≤ station.reading.server.receiveMaxHops
  elsewhere : station.send.stat ≠ station.reading.stat

variable {station}

/-- What the instance reads, it writes. -/
theorem forward_of_run (works : station.Works) {stream : Bytes} {final : Connection Receive}
    {packets : List Packet} (ran : (receiveReader station.reading.server).run station.reading.start
      (station.reading.cut stream) = .ok (final, packets)) :
    ∃ written, station.sender.stream packets = .ok written ∧
      station.forward stream = .ok (packets, written) ∧ ∀ packet ∈ packets, packet.Sane := by
  obtain ⟨sends, cuts, _, elsewhere⟩ := works
  have faithful : station.reading.server.Faithful := sends.faithful
  obtain ⟨_, packets', ran', fit⟩ := (connected_receiveNew station.reading.random
    station.reading.stat station.reading.memory).run faithful.positions (cuts stream).2
  cases ran.symm.trans ran'
  obtain ⟨hello, greets⟩ := sends.greets
  change Output.sendGetHello station.reading.server station.serializer = _ at greets
  obtain ⟨after, texts, wrote, mapped, listed, written⟩ := @sendWrites_alone
    station.reading.server station.outside
    ⟨Function.update (fun _ => []) station.serializer [station.send], ⟨0, fun _ => 0, 0⟩, [], [], []⟩
    faithful.dumps faithful.packs station.serializer sends.packets station.send station.reading.stat
    elsewhere packets fit rfl
  have reads := (Process.run_reads station.reading.start
    ⟨Function.update (fun _ => []) station.serializer [station.send], ⟨0, fun _ => 0, 0⟩, [], [], []⟩
    (station.reading.cut stream)).trans (congrArg (Except.map _)
      ((receiveRun_of_run ran _).trans (congrArg (Except.map _) wrote)))
  refine ⟨hello ++ texts.flatten, ?_, ?_, fun packet member => (fit packet member).sane⟩
  · exact Sender.stream_eq greets (fun _ => rfl) mapped
  · rw [forward, greets, Except.ok_bind, events]
    change (Process.run station.reading.server station.outside
      ⟨[station.reading.start], ⟨Function.update (fun _ => []) station.serializer [station.send],
        ⟨0, fun _ => 0, 0⟩, [], [], []⟩⟩ ((station.reading.cut stream).map (Event.read 0)) >>= _) = _
    rw [reads]
    change Except.ok (after.packets, hello ++ after.bytesTo station.send.fd) = _
    rw [listed, written]
    rfl

end Station

/-- One instance after another reads what the one before it has written. -/
def journey : List Station → List Packet × Bytes → Except Fault (List Packet × Bytes)
  | [], result => .ok result
  | station :: stations, (_, stream) => do
      let result ← station.forward stream
      journey stations result

/-- A chain of instances behind a sender. -/
def Chain : Sender → List Station → Prop
  | _, [] => True
  | sender, station :: stations =>
      sender.Joins station.reading ∧ station.Works ∧ Chain station.sender stations

/-- The hops of a packet let it through all links. -/
def Admitted : Serializer → List Station → Nat → Prop
  | _, [], _ => True
  | serializer, station :: stations, hops =>
      serializer.Admits station.reading.server hops ∧
        Admitted station.serializer stations (serializer.hopsAfter hops)

/-- The hops of a packet behind all links. -/
def hopsArrived : Serializer → List Station → Nat → Nat
  | _, [], hops => hops
  | serializer, station :: stations, hops =>
      hopsArrived station.serializer stations (serializer.hopsAfter hops)

/-- The source of a packet behind all links: each link that does not carry it puts the connection
in its place. -/
def sourceArrived : Serializer → List Station → CString → CString
  | _, [], sourceId => sourceId
  | serializer, station :: stations, sourceId =>
      sourceArrived station.serializer stations
        (if serializer.carries then sourceId else uuidGen station.reading.random)

/-- Each link carries the source and the hops of its packets. -/
def carriesAll : Serializer → List Station → Bool
  | _, [] => true
  | serializer, station :: stations => serializer.carries && carriesAll station.serializer stations

/-- A packet as it arrives at the end of a chain. -/
structure Arrived (serializer : Serializer) (stations : List Station) (sent packet : Packet) :
    Prop where
  type : packet.type = sent.type
  data : packet.data = sent.data
  hops : packet.hops.toNat = hopsArrived serializer stations sent.hops.toNat
  sourceId : packet.sourceId = sourceArrived serializer stations sent.sourceId
  rssi : carriesAll serializer stations = true → packet.rssi = sent.rssi

theorem Conveyed.arrived {serializer : Serializer} {station : Station} {stations : List Station}
    {sent between packet : Packet} (first : Conveyed serializer station.reading.random sent between)
    (rest : Arrived station.serializer stations between packet) :
    Arrived serializer (station :: stations) sent packet where
  type := rest.type.trans first.type
  data := rest.data.trans first.data
  hops := by rw [rest.hops, first.hops, hopsArrived]
  sourceId := by rw [rest.sourceId, first.sourceId, sourceArrived]
  rssi := by
    intro carries
    obtain ⟨here, later⟩ := Bool.and_eq_true_iff.mp carries
    exact (rest.rssi later).trans (first.rssi here)

/-- A server under an id made of one byte. -/
def serverNumbered (byte : UInt8) : Server :=
  { flatServer with serverId := uuidGen (Cells.fill 16 byte) }

/-- A connection of such a server that is read byte by byte. -/
def bytewise (byte : UInt8) : Reading :=
  ⟨serverNumbered byte, Cells.fill 16 byte, ⟨0, 3⟩, Cells.fill bufLenMax 0, singles⟩

theorem serverNumbered_faithful (byte : UInt8) : (serverNumbered byte).Faithful :=
  ⟨Jansson.flat_positions, Jansson.flat_stable, Jansson.flat_skipsSpace, Jansson.flat_opens,
    Jansson.flat_loads, Jansson.flat_dumps, Protobuf.reading_packs, Protobuf.reading_unpacks⟩

theorem bytewise_works (byte : UInt8) {serializer : Serializer} (counts : serializer ≠ .stats) :
    Station.Works ⟨bytewise byte, fun _ => 0, serializer, ⟨4, ⟨0, 4⟩⟩⟩ where
  sender := ⟨serverNumbered_faithful byte, ⟨Cells.fill 16 byte, rfl⟩, counts⟩
  cuts := fun stream => ⟨flatten_singles stream, Connected.fits_singles Jansson.flat_positions
    (connected_receiveNew (Cells.fill 16 byte) ⟨0, 3⟩ (Cells.fill bufLenMax 0)) stream⟩
  limit := (by decide : (1 : UInt32) ≤ 10)
  elsewhere := (by decide : (⟨0, 4⟩ : Stat) ≠ ⟨0, 3⟩)

/-- A packet of another type and with another payload. -/
def shortPacket : Packet :=
  { stampedPacket 5 with type := .modeSShort, payload := Cells.fill packetPayloadLenMax 7 }

theorem shortPacket_sane : shortPacket.Sane where
  sourceId := rfl
  type := nofun
  mlatTimestamp := by decide

end Adsbus

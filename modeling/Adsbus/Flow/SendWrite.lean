import Adsbus.Flow.Safe
import Adsbus.Flow.SendLinks

/-! # Sending over the lists in memory

`send_write` follows the pointers of the lists of send connections. Whatever connections have come
and gone, it writes the fan-out over those that are there (`Adsbus.fanned_out`): every one of them
on another socket than the packet's gets its format's text once, in order, whichever writes fail,
and none on the packet's own socket gets anything.
-/

namespace Adsbus

open Reader

variable {α : Type} [DecidableEq α]

namespace Links

/-! ## send_write -/

section Code

variable (head : Serializer → α) (server : Server) (outside : Outside) (links : Links α)

/-- The outer loop's body in `send_write`, from one state of sending to another. -/
inductive SendFormat (now : Int64) (packet : Packet) (sending : Sending) (serializer : Serializer) :
    Sending → Prop
  | empty (none : listIsEmpty links.heap (head serializer) = true) :
      SendFormat now packet sending serializer sending
  | silent {buf : Bytes} {statsState : StatsState}
      (some : listIsEmpty links.heap (head serializer) = false)
      (serialized : serializer.serialize server now packet sending.statsState =
        .ok (buf, statsState))
      (length : buf.length = 0) :
      SendFormat now packet sending serializer { sending with statsState := statsState }
  | loud {buf : Bytes} {statsState : StatsState} {after : Sending}
      (some : listIsEmpty links.heap (head serializer) = false)
      (serialized : serializer.serialize server now packet sending.statsState =
        .ok (buf, statsState))
      (length : buf.length ≠ 0)
      (loop : ListForEachEntrySafe links.heap (head serializer)
        (fun sending addr => sendTo outside packet buf sending (links.sends addr))
        { sending with statsState := statsState } after) :
      SendFormat now packet sending serializer after

/-- The outer loop. -/
inductive SendFormats (now : Int64) (packet : Packet) : List Serializer → Sending → Sending → Prop
  | done (sending : Sending) : SendFormats now packet [] sending sending
  | format {serializer : Serializer} {serializers : List Serializer}
      {sending between after : Sending}
      (first : links.SendFormat head server outside now packet sending serializer between)
      (rest : SendFormats now packet serializers between after) :
      SendFormats now packet (serializer :: serializers) sending after

/-- `send_write`. -/
structure SendWrite (sending : Sending) (packet : Packet) (after : Sending) : Prop where
  sane : packetSanityCheck packet = .ok ()
  formats : links.SendFormats head server outside (outside.clock sending.packets.length) packet
    Serializer.all { sending with packets := sending.packets ++ [packet] } after

end Code

/-! ## Refinement -/

variable {head : Serializer → α} {fstat : Nat → Stat} {server : Server} {outside : Outside}
  {links : Links α} {now : Int64} {packet : Packet} {sending after : Sending}

theorem Sound.sendFormat_iff (sound : links.Sound head fstat)
    (listed : sending.sendHead = links.sendHead) {serializer : Serializer} :
    links.SendFormat head server outside now packet sending serializer after ↔
      sendFormat server outside now packet sending serializer = .ok after := by
  have represents := sound.threads.represents serializer
  have isEmpty : listIsEmpty links.heap (head serializer) = true ↔
      sending.sendHead serializer = [] := by
    rw [represents.isEmpty_iff, listed, sendHead, List.map_eq_nil_iff]
  have folds : ∀ (buf : Bytes) (statsState : StatsState),
      ListForEachEntrySafe links.heap (head serializer)
          (fun sending addr => sendTo outside packet buf sending (links.sends addr))
          { sending with statsState := statsState } after ↔
        after = (sending.sendHead serializer).foldl (sendTo outside packet buf)
          { sending with statsState := statsState } := by
    intro buf statsState
    rw [represents.forEachEntrySafe, listed, sendHead, List.foldl_map]
  rw [sendFormat]
  constructor
  · intro ran
    cases ran with
    | empty none => rw [if_pos (isEmpty.mp none)]
    | silent some serialized length =>
        rw [if_neg (isEmpty.not.mp (Bool.eq_false_iff.mp some)), serialized, Except.ok_bind]
        exact if_pos length
    | loud some serialized length loop =>
        rw [if_neg (isEmpty.not.mp (Bool.eq_false_iff.mp some)), serialized, Except.ok_bind]
        exact (if_neg length).trans (congrArg Except.ok ((folds _ _).mp loop).symm)
  · intro ran
    split at ran
    · rename_i none
      cases ran
      exact .empty (isEmpty.mpr none)
    · rename_i some
      have some := Bool.eq_false_iff.mpr (isEmpty.not.mpr some)
      obtain ⟨⟨buf, statsState⟩, serialized, rest⟩ := Except.bind_eq_ok.mp ran
      dsimp only at rest
      split at rest
      · rename_i length
        cases rest
        exact .silent some serialized length
      · rename_i length
        exact .loud some serialized length ((folds buf statsState).mpr (Except.ok.inj rest).symm)

/-- No format changes the lists. -/
theorem sendHead_of_sendFormat {serializer : Serializer}
    (ran : sendFormat server outside now packet sending serializer = .ok after) :
    after.sendHead = sending.sendHead := (sendFormat_wrote ran).1.sendHead

theorem Sound.sendFormats_iff (sound : links.Sound head fstat) {serializers : List Serializer}
    (listed : sending.sendHead = links.sendHead) :
    links.SendFormats head server outside now packet serializers sending after ↔
      serializers.foldlM (Adsbus.sendFormat server outside now packet) sending = .ok after := by
  induction serializers generalizing sending with
  | nil =>
      constructor
      · intro ran
        cases ran
        rfl
      · intro ran
        cases ran
        exact .done _
  | cons serializer serializers ih =>
      rw [List.foldlM_cons, Except.bind_eq_ok]
      constructor
      · intro ran
        cases ran with
        | format first rest =>
            have first := (sound.sendFormat_iff listed).mp first
            exact ⟨_, first, (ih ((sendHead_of_sendFormat first).trans listed)).mp rest⟩
      · rintro ⟨between, first, rest⟩
        exact .format ((sound.sendFormat_iff listed).mpr first)
          ((ih ((sendHead_of_sendFormat first).trans listed)).mpr rest)

/-- **Refinement.** Over lists in memory, `send_write` does what it does over the sequences that
they stand for. -/
theorem Sound.sendWrite_iff (sound : links.Sound head fstat)
    (listed : sending.sendHead = links.sendHead) :
    links.SendWrite head server outside sending packet after ↔
      sendWrite server outside sending packet = .ok after := by
  have listed' : { sending with packets := sending.packets ++ [packet] : Sending }.sendHead =
      links.sendHead := listed
  rw [sendWrite, Except.bind_eq_ok]
  constructor
  · rintro ⟨sane, formats⟩
    exact ⟨(), sane, (sound.sendFormats_iff listed').mp formats⟩
  · rintro ⟨_, sane, formats⟩
    exact ⟨sane, (sound.sendFormats_iff listed').mpr formats⟩

/-! ## Fan-out -/

omit [DecidableEq α] in
/-- All connections have descriptors of their own. -/
theorem Sound.distinct (sound : links.Sound head fstat) :
    ((connections links.sendHead).map fun connection => connection.2.fd).Nodup := by
  have eq : (connections links.sendHead).map (fun connection => connection.2.fd) =
      (Serializer.all.flatMap links.conns).map fun addr => (links.sends addr).fd := by
    rw [connections, List.map_flatMap, List.map_flatMap]
    simp only [sendHead, List.map_map]
    rfl
  rw [eq]
  refine List.Nodup.map_on (fun addr there addr' there' same => ?_) (List.nodup_flatMap.mpr ⟨?_, ?_⟩)
  · obtain ⟨serializer, _, member⟩ := List.mem_flatMap.mp there
    obtain ⟨other, _, member'⟩ := List.mem_flatMap.mp there'
    exact sound.sendFd serializer other addr member addr' member' same
  · exact fun serializer _ =>
      (List.nodup_cons.mp (sound.threads.represents serializer).distinct).2
  · have all : Serializer.all.Nodup := by decide
    refine all.imp fun different addr there there' => ?_
    exact sound.threads.apart _ _ different addr (List.mem_cons_of_mem _ there)
      (List.mem_cons_of_mem _ there')

end Links

/-- What `send_write` does for a packet: the fan-out of the serializers' texts, with a shutdown for
each of its writes that fails. A connection gets its format's text once, or nothing if this is empty
or the packet came from its socket, and nothing else is written. -/
structure FansOut (server : Server) (outside : Outside) (sendHead : Serializer → List Send)
    (sending : Sending) (packet : Packet) (texts : Serializer → Bytes) (after : Sending) :
    Prop where
  serialized : ∀ serializer : Serializer, ∃ statsState,
    serializer.serialize server (outside.clock sending.packets.length) packet sending.statsState =
      .ok (texts serializer, statsState)
  kept : after.sendHead = sendHead
  written : after.written = sending.written ++ fanOut packet texts sendHead
  shutDown : after.shutDown = sending.shutDown ++
    refused outside.takes sending.written.length (fanOut packet texts sendHead)
  each : ∀ serializer, ∀ send ∈ sendHead serializer,
    (fanOut packet texts sendHead).filter (fun write => write.1 = send.fd) =
      if texts serializer ≠ [] ∧ send.stat ≠ packet.inputStat then [(send.fd, texts serializer)]
      else []
  only : ∀ write ∈ fanOut packet texts sendHead, ∃ serializer, ∃ send ∈ sendHead serializer,
    write = (send.fd, texts serializer) ∧ send.stat ≠ packet.inputStat

section FanOut

variable {head : Serializer → α} {fstat : Nat → Stat} {server : Server} {outside : Outside}
  {links : Links α} {packet : Packet} {sending : Sending}

/-- `send_write` fails no assertion on such a packet, whatever was sent before. -/
theorem sendWrite_total (dumps : server.jansson.Dumps) (packs : server.protobuf.Packs)
    (sane : packet.Sane) : ∃ after, sendWrite server outside sending packet = .ok after := by
  have format : ∀ {sending : Sending} (now : Int64) (serializer : Serializer), True →
      ∃ after, sendFormat server outside now packet sending serializer = .ok after ∧ True := by
    intro sending now serializer _
    rw [sendFormat]
    split
    · exact ⟨sending, rfl, trivial⟩
    · obtain ⟨buf, statsState, serialized, _⟩ :=
        serializer.serialize_fits dumps packs sane now sending.statsState
      rw [serialized, Except.ok_bind]
      dsimp only
      split
      · exact ⟨_, rfl, trivial⟩
      · exact ⟨_, rfl, trivial⟩
  have checked : packetSanityCheck packet = .ok () := packetSanityCheck_eq_ok.mpr sane
  rw [sendWrite, checked, Except.ok_bind]
  exact (Except.exists_foldlM (format _) Serializer.all trivial).imp fun _ => And.left

/-- A packet that passes the checks is fanned out. -/
theorem Links.Sound.fansOut (sound : links.Sound head fstat) (dumps : server.jansson.Dumps)
    (packs : server.protobuf.Packs) (sane : packetSanityCheck packet = .ok ())
    (listed : sending.sendHead = links.sendHead) :
    ∃ after texts, (∀ last,
        links.SendWrite head server outside sending packet last ↔ last = after) ∧
      FansOut server outside links.sendHead sending packet texts after := by
  obtain ⟨after, ran⟩ : ∃ after, sendWrite server outside sending packet = .ok after :=
    sendWrite_total dumps packs (packetSanityCheck_eq_ok.mp sane)
  obtain ⟨kept, written, shutDown⟩ := sendWrite_wrote ran
  rw [listed] at kept written shutDown
  refine ⟨after, serialized server (outside.clock sending.packets.length) packet sending.statsState,
    fun last => ?_, fun serializer => ?_, kept, written, shutDown, fun serializer send member =>
      fanOut_connection sound.distinct packet _ member, fun write member => mem_fanOut member⟩
  · rw [sound.sendWrite_iff listed, ran, Except.ok.injEq]
    exact eq_comm
  · obtain ⟨buf, statsState, made, _⟩ := serializer.serialize_fits dumps packs
      (packetSanityCheck_eq_ok.mp sane) (outside.clock sending.packets.length) sending.statsState
    exact ⟨statsState, by rw [serialized, made]⟩

omit [DecidableEq α] in
/-- A connection with another identity than a receive connection is on another file. -/
theorem Links.Sound.elsewhere (sound : links.Sound head fstat) {receiver : Receiver}
    (member : receiver ∈ links.receives) {serializer : Serializer} {send : Send}
    (listed : send ∈ links.sendHead serializer) (differs : send.stat ≠ receiver.stat) :
    links.files send.fd ≠ links.files receiver.fd := by
  obtain ⟨addr, there, rfl⟩ := List.mem_map.mp listed
  obtain ⟨file, opened, sendStat⟩ := sound.sendStat serializer addr there
  obtain ⟨file', opened', receiveStat⟩ := sound.receiveStat receiver member
  rw [opened, opened', ne_eq, Option.some.injEq]
  rintro rfl
  exact differs (sendStat.trans receiveStat.symm)

/-- **Fan-out without echo or loss.** Whatever connections have come and gone: every packet that
passes the checks is fanned out to the connections that are there, whichever writes fail; and of the
packets that come from a receive connection, none is written to its socket, which is the one behind
the send half as well if it is one of two halves. -/
theorem fanned_out (injective : Function.Injective head) (dumps : server.jansson.Dumps)
    (packs : server.protobuf.Packs) {memory : Heap α} {sends : α → Send}
    {trace : List (Links α × Links.Change α)}
    (run : Run (Links.step head fstat) (Links.init head memory sends) trace links) :
    (∀ sending packet, sending.sendHead = links.sendHead → packetSanityCheck packet = .ok () →
      ∀ outside, ∃ after texts, (∀ last,
          links.SendWrite head server outside sending packet last ↔ last = after) ∧
        FansOut server outside links.sendHead sending packet texts after) ∧
    ∀ receiver ∈ links.receives, ∀ (connection after : Connection Receive) (input : Bytes)
      (packets : List Packet), connection.reader.stat = receiver.stat →
        receiveRead server sendLog connection [] input = .ok (after, packets) →
          after.reader.stat = receiver.stat ∧
            ∀ packet ∈ packets, ∀ texts, ∀ write ∈ fanOut packet texts links.sendHead,
              links.files write.1 ≠ links.files receiver.fd ∧
                ∀ pair ∈ links.sendReceives, pair.2 = receiver.fd → write.1 ≠ pair.1 := by
  have sound := Links.sound_of_run injective run
  refine ⟨fun sending packet listed sane outside => sound.fansOut dumps packs sane listed,
    fun receiver member connection after input packets stat ran => ?_⟩
  obtain ⟨kept, origin⟩ := receiveRead_origin ran
  refine ⟨kept.trans stat, fun packet passed texts write written => ?_⟩
  obtain ⟨serializer, send, listed, rfl, differs⟩ := mem_fanOut written
  rw [origin packet passed, stat] at differs
  have other := sound.elsewhere member listed differs
  refine ⟨other, fun pair paired half same => other ?_⟩
  obtain ⟨file, first, second⟩ := sound.paired pair paired
  rw [show send.fd = pair.1 from same, first, ← half, second]

end FanOut

/-- Files have their numbers for identities. -/
def numbered (file : Nat) : Stat := ⟨file.toUInt64, file.toUInt64⟩

/-- A short frame from a socket. -/
def shortFrame (inputStat : Stat) : Packet where
  sourceId := .ofAscii "me"
  inputStat := inputStat
  type := .modeSShort
  hops := 1
  payload := Cells.fill packetPayloadLenMax 0
  mlatTimestamp := 7
  rssi := 5

/-- Both halves of a connection on one socket, and a packet from another one. -/
theorem fanned_out_pair : ∃ trace links,
    Run (Links.step (some : Serializer → Option Serializer) numbered)
      (Links.init some (fun _ => ⟨none, none⟩) fun _ => ⟨0, numbered 0⟩) trace links ∧
    links.sendReceives = [(3, 4)] ∧ links.sendHead .raw = [⟨3, numbered 7⟩] ∧
    ∃ after texts, FansOut flatServer stillOutside links.sendHead
      ⟨links.sendHead, ⟨0, fun _ => 0, 0⟩, [], [], []⟩ (shortFrame (numbered 8)) texts after := by
  have opened : (Links.init some (fun _ => ⟨none, none⟩) fun _ => ⟨0, numbered 0⟩).step
      (some : Serializer → Option Serializer) numbered (.opened 3 7) _ := ⟨rfl, rfl⟩
  have run := Run.step (Run.step .start opened) (show Links.step _ _ _ (.sendReceiveNew .raw none 3 4) _
    from ⟨⟨nofun, ⟨fun _ _ => nofun, nofun⟩, fun serializer => by cases serializer <;> decide, rfl⟩,
      rfl⟩)
  obtain ⟨after, texts, _, fans⟩ := (@fanned_out _ _ _ _ flatServer _ (Option.some_injective _)
    Jansson.flat_dumps Protobuf.reading_packs _ _ _ run).1 ⟨_, ⟨0, fun _ => 0, 0⟩, [], [], []⟩
      (shortFrame (numbered 8)) rfl (by decide +kernel) stillOutside
  exact ⟨_, _, run, rfl, rfl, after, texts, fans⟩

end Adsbus

import Adsbus.Flow.Send

/-! # Fan-out

What `send_write` writes for a packet: for each format in turn, the text that its serializer makes
of the packet, to each connection of the format in the order in which they were added, but to none
with the identity of the socket that the packet came from. Which of the writes fail makes no
difference to the others.
-/

namespace Adsbus

variable {server : Server} {outside : Outside} {packet : Packet}

/-- The text that a serializer makes of a packet, given the counts of stats before the call. -/
def serialized (server : Server) (now : Int64) (packet : Packet) (stats : StatsState)
    (serializer : Serializer) : Bytes :=
  match serializer.serialize server now packet stats with
  | .ok (buf, _) => buf
  | .error _ => []

/-- The connections on other sockets than the one that a packet came from. -/
def elsewhere (packet : Packet) (sends : List Send) : List Send :=
  sends.filter fun send => send.stat ≠ packet.inputStat

/-- The writes of a text to the connections of a format. -/
def formatWrites (packet : Packet) (buf : Bytes) (sends : List Send) : List (Nat × Bytes) :=
  if buf = [] then [] else (elsewhere packet sends).map fun send => (send.fd, buf)

/-- The writes for a packet. -/
def fanOut (packet : Packet) (texts : Serializer → Bytes) (sendHead : Serializer → List Send) :
    List (Nat × Bytes) :=
  Serializer.all.flatMap fun serializer => formatWrites packet (texts serializer) (sendHead serializer)

/-- The descriptors of the writes that fail, of those that come after so many others. -/
def refused (takes : Nat → Bool) (before : Nat) (writes : List (Nat × Bytes)) : List Nat :=
  (writes.zipIdx before).filterMap fun (write, index) => if takes index then none else some write.1

theorem refused_append (takes : Nat → Bool) (before : Nat) (first second : List (Nat × Bytes)) :
    refused takes before (first ++ second) =
      refused takes before first ++ refused takes (before + first.length) second := by
  rw [refused, List.zipIdx_append, List.filterMap_append]
  rfl

/-- What a number of writes leave. -/
structure Sending.Wrote (outside : Outside) (sending after : Sending)
    (writes : List (Nat × Bytes)) : Prop where
  sendHead : after.sendHead = sending.sendHead
  written : after.written = sending.written ++ writes
  shutDown : after.shutDown =
    sending.shutDown ++ refused outside.takes sending.written.length writes

namespace Sending.Wrote

variable {sending between after : Sending} {first second : List (Nat × Bytes)}

theorem nothing (outside : Outside) (sending : Sending) : sending.Wrote outside sending [] where
  sendHead := rfl
  written := (List.append_nil _).symm
  shutDown := (List.append_nil _).symm

theorem trans (wrote : sending.Wrote outside between first)
    (wrote' : between.Wrote outside after second) :
    sending.Wrote outside after (first ++ second) where
  sendHead := wrote'.sendHead.trans wrote.sendHead
  written := by rw [wrote'.written, wrote.written, List.append_assoc]
  shutDown := by
    rw [wrote'.shutDown, wrote.shutDown, wrote.written, refused_append, List.append_assoc,
      List.length_append]

end Sending.Wrote

theorem foldl_sendTo_statsState {buf : Bytes} (sends : List Send) (sending : Sending) :
    (sends.foldl (sendTo outside packet buf) sending).statsState = sending.statsState := by
  induction sends generalizing sending with
  | nil => rfl
  | cons send sends ih =>
      rw [List.foldl_cons, ih, sendTo]
      split <;> rfl

theorem foldl_sendTo_packets {buf : Bytes} (sends : List Send) (sending : Sending) :
    (sends.foldl (sendTo outside packet buf) sending).packets = sending.packets := by
  induction sends generalizing sending with
  | nil => rfl
  | cons send sends ih =>
      rw [List.foldl_cons, ih, sendTo]
      split <;> rfl

@[simp] theorem formatWrites_nil (packet : Packet) (buf : Bytes) :
    formatWrites packet buf [] = [] := by
  rw [formatWrites]
  split <;> rfl

/-- The inner loop writes to each connection elsewhere. -/
theorem foldl_sendTo_wrote {buf : Bytes} (nonempty : buf ≠ []) (sends : List Send)
    (sending : Sending) :
    sending.Wrote outside (sends.foldl (sendTo outside packet buf) sending)
      (formatWrites packet buf sends) := by
  induction sends generalizing sending with
  | nil =>
      rw [formatWrites_nil]
      exact .nothing outside sending
  | cons send sends ih =>
      have rest := ih (sendTo outside packet buf sending send)
      rw [formatWrites, if_neg nonempty, elsewhere] at rest ⊢
      rw [List.foldl_cons]
      by_cases own : send.stat = packet.inputStat
      · rw [List.filter_cons_of_neg (by simpa using own)]
        rwa [sendTo, if_pos own] at rest ⊢
      · rw [List.filter_cons_of_pos (by simpa using own), List.map_cons, ← List.singleton_append]
        refine Sending.Wrote.trans ?_ rest
        rw [sendTo, if_neg own]
        refine ⟨rfl, rfl, ?_⟩
        simp only [refused, List.zipIdx_singleton, List.filterMap_cons, List.filterMap_nil]
        split <;> simp_all

/-- Only the serializer of stats keeps anything. -/
theorem Serializer.serialize_stats {serializer : Serializer} (other : serializer ≠ .stats)
    {now : Int64} {stats after : StatsState} {buf : Bytes}
    (ran : serializer.serialize server now packet stats = .ok (buf, after)) : after = stats := by
  have mapped : ∀ {result : Except Fault Bytes},
      (result.map fun buf => (buf, stats)) = .ok (buf, after) → after = stats := by
    intro result ran
    cases result with
    | error _ => cases ran
    | ok _ =>
        cases ran
        rfl
  unfold serialize at ran
  cases serializer with
  | airspyAdsb => exact mapped ran
  | beast => exact mapped ran
  | json => exact mapped ran
  | proto => exact mapped ran
  | raw =>
      cases ran
      rfl
  | stats => exact absurd rfl other

variable {sending after : Sending} {now : Int64}

/-- **One format.** -/
theorem sendFormat_wrote {serializer : Serializer}
    (ran : sendFormat server outside now packet sending serializer = .ok after) :
    sending.Wrote outside after (formatWrites packet
        (serialized server now packet sending.statsState serializer) (sending.sendHead serializer)) ∧
      (serializer ≠ .stats → after.statsState = sending.statsState) := by
  rw [sendFormat] at ran
  split at ran
  · rename_i empty
    cases ran
    rw [empty, formatWrites_nil]
    exact ⟨.nothing outside sending, fun _ => rfl⟩
  · obtain ⟨⟨buf, stats⟩, made, rest⟩ := Except.bind_eq_ok.mp ran
    have text : serialized server now packet sending.statsState serializer = buf := by
      rw [serialized, made]
    have kept : serializer ≠ .stats → stats = sending.statsState := fun other =>
      serializer.serialize_stats other made
    rw [text]
    dsimp only at rest
    split at rest
    · rename_i silent
      cases rest
      rw [formatWrites, if_pos (List.eq_nil_of_length_eq_zero silent)]
      exact ⟨⟨rfl, (List.append_nil _).symm, (List.append_nil _).symm⟩, kept⟩
    · rename_i loud
      cases rest
      have nonempty : buf ≠ [] := fun empty => loud (by rw [empty, List.length_nil])
      obtain ⟨sendHead, written, shutDown⟩ := @foldl_sendTo_wrote outside packet buf nonempty
        (sending.sendHead serializer) { sending with statsState := stats }
      exact ⟨⟨sendHead, written, shutDown⟩, fun other =>
        (foldl_sendTo_statsState _ _).trans (kept other)⟩

/-- Formats that keep nothing, one after another. -/
theorem sendFormats_wrote {serializers : List Serializer} (others : .stats ∉ serializers)
    (ran : serializers.foldlM (sendFormat server outside now packet) sending = .ok after) :
    sending.Wrote outside after (serializers.flatMap fun serializer => formatWrites packet
        (serialized server now packet sending.statsState serializer) (sending.sendHead serializer)) ∧
      after.statsState = sending.statsState := by
  induction serializers generalizing sending with
  | nil =>
      cases ran
      exact ⟨.nothing outside _, rfl⟩
  | cons serializer serializers ih =>
      rw [List.mem_cons, not_or] at others
      rw [List.foldlM_cons] at ran
      obtain ⟨between, first, rest⟩ := Except.bind_eq_ok.mp ran
      obtain ⟨wrote, kept⟩ := sendFormat_wrote first
      have kept := kept (Ne.symm others.1)
      obtain ⟨wrote', kept'⟩ := ih others.2 rest
      rw [kept, wrote.sendHead] at wrote'
      exact ⟨wrote.trans wrote', kept'.trans kept⟩

/-! ## Each connection -/

/-- All connections with their formats, in the order in which `send_write` comes to them. -/
def connections (sendHead : Serializer → List Send) : List (Serializer × Send) :=
  Serializer.all.flatMap fun serializer => (sendHead serializer).map fun send => (serializer, send)

theorem Serializer.mem_all (serializer : Serializer) : serializer ∈ Serializer.all := by
  cases serializer <;> decide

theorem mem_connections {sendHead : Serializer → List Send} {serializer : Serializer} {send : Send} :
    (serializer, send) ∈ connections sendHead ↔ send ∈ sendHead serializer := by
  simp only [connections, List.mem_flatMap, List.mem_map, Prod.mk.injEq]
  constructor
  · rintro ⟨_, _, _, member, rfl, rfl⟩
    exact member
  · exact fun member => ⟨serializer, serializer.mem_all, send, member, rfl, rfl⟩

/-- The fan-out visits the connections one after another. -/
theorem fanOut_eq (packet : Packet) (texts : Serializer → Bytes)
    (sendHead : Serializer → List Send) :
    fanOut packet texts sendHead =
      ((connections sendHead).filter fun connection =>
        texts connection.1 ≠ [] ∧ connection.2.stat ≠ packet.inputStat).map fun connection =>
          (connection.2.fd, texts connection.1) := by
  rw [fanOut, connections, List.filter_flatMap, List.map_flatMap]
  congr 1
  funext serializer
  rw [formatWrites, elsewhere, List.filter_map, List.map_map]
  split
  · rename_i silent
    rw [List.filter_eq_nil_iff.mpr fun send _ => by simp [silent], List.map_nil]
  · rename_i loud
    congr 1
    refine List.filter_congr fun send _ => ?_
    simp [loud]

/-- Nothing else is written. -/
theorem mem_fanOut {texts : Serializer → Bytes} {sendHead : Serializer → List Send}
    {write : Nat × Bytes} (member : write ∈ fanOut packet texts sendHead) :
    ∃ serializer, ∃ send ∈ sendHead serializer,
      write = (send.fd, texts serializer) ∧ send.stat ≠ packet.inputStat := by
  rw [fanOut_eq] at member
  obtain ⟨⟨serializer, send⟩, inside, rfl⟩ := List.mem_map.mp member
  obtain ⟨there, wanted⟩ := List.mem_filter.mp inside
  exact ⟨serializer, send, mem_connections.mp there, rfl, (of_decide_eq_true wanted).2⟩

/-- Of entries with different keys, those with the key of one are that one. -/
theorem filter_map_key {ι κ β : Type} [DecidableEq κ] {entries : List ι} {key : ι → κ}
    (distinct : (entries.map key).Nodup) (keep : ι → Bool) (make : ι → κ × β)
    (keyed : ∀ entry, (make entry).1 = key entry) {entry : ι} (member : entry ∈ entries) :
    ((entries.filter keep).map make).filter (fun made => made.1 = key entry) =
      if keep entry then [make entry] else [] := by
  induction entries with
  | nil => cases member
  | cons first entries ih =>
      rw [List.map_cons, List.nodup_cons] at distinct
      have others : ∀ other ∈ entries, key other ≠ key first := fun other there same =>
        distinct.1 (same ▸ List.mem_map_of_mem there)
      rcases List.mem_cons.mp member with rfl | member
      · have rest : ((entries.filter keep).map make).filter (fun made => made.1 = key entry) = [] := by
          refine List.filter_eq_nil_iff.mpr fun made there => ?_
          obtain ⟨other, inside, rfl⟩ := List.mem_map.mp there
          simpa [keyed] using others other (List.mem_filter.mp inside).1
        rw [List.filter_cons]
        split
        · rw [List.map_cons, List.filter_cons_of_pos (by simp [keyed]), rest]
        · exact rest
      · have ne : key first ≠ key entry := (others entry member).symm
        rw [List.filter_cons]
        split
        · rw [List.map_cons, List.filter_cons_of_neg (by simpa [keyed] using ne)]
          exact ih distinct.2 member
        · exact ih distinct.2 member

/-- **Each connection.** Where the descriptors differ, a connection gets its format's text once, or
nothing if the text is empty or the packet came from its socket. -/
theorem fanOut_connection {sendHead : Serializer → List Send}
    (distinct : ((connections sendHead).map fun connection => connection.2.fd).Nodup)
    (packet : Packet) (texts : Serializer → Bytes) {serializer : Serializer} {send : Send}
    (member : send ∈ sendHead serializer) :
    (fanOut packet texts sendHead).filter (fun write => write.1 = send.fd) =
      if texts serializer ≠ [] ∧ send.stat ≠ packet.inputStat then [(send.fd, texts serializer)]
      else [] := by
  rw [fanOut_eq, filter_map_key distinct _ _ (fun _ => rfl) (mem_connections.mpr member)]
  simp only [decide_eq_true_eq]

/-! ## All formats -/

/-- **One packet.** What `send_write` writes is the fan-out, whichever writes fail. -/
theorem sendWrite_wrote (ran : sendWrite server outside sending packet = .ok after) :
    sending.Wrote outside after (fanOut packet
      (serialized server (outside.clock sending.packets.length) packet sending.statsState)
      sending.sendHead) := by
  obtain ⟨_, _, ran⟩ := Except.bind_eq_ok.mp ran
  rw [show Serializer.all = [.airspyAdsb, .beast, .json, .proto, .raw] ++ [.stats] from rfl,
    List.foldlM_append] at ran
  obtain ⟨between, first, last⟩ := Except.bind_eq_ok.mp ran
  obtain ⟨wrote, kept⟩ := sendFormats_wrote (by decide) first
  rw [List.foldlM_cons] at last
  obtain ⟨_, stats, done⟩ := Except.bind_eq_ok.mp last
  cases done
  obtain ⟨wrote', _⟩ := sendFormat_wrote stats
  rw [kept, wrote.sendHead] at wrote'
  have both := wrote.trans wrote'
  rw [fanOut, show Serializer.all = [.airspyAdsb, .beast, .json, .proto, .raw] ++ [.stats] from rfl,
    List.flatMap_append, List.flatMap_singleton]
  exact ⟨both.sendHead, both.written, both.shutDown⟩

/-! ## The list of packets -/

theorem sendFormat_packets {now : Int64} {serializer : Serializer}
    (ran : sendFormat server outside now packet sending serializer = .ok after) :
    after.packets = sending.packets := by
  rw [sendFormat] at ran
  split at ran
  · cases ran
    rfl
  · obtain ⟨⟨buf, stats⟩, _, rest⟩ := Except.bind_eq_ok.mp ran
    dsimp only at rest
    split at rest
    · cases rest
      rfl
    · cases rest
      exact foldl_sendTo_packets _ _

theorem sendWrite_packets (ran : sendWrite server outside sending packet = .ok after) :
    after.packets = sending.packets ++ [packet] := by
  obtain ⟨_, _, formats⟩ := Except.bind_eq_ok.mp ran
  exact @Except.foldlM_keeps _ _ _ (fun state => state.packets = sending.packets ++ [packet]) _
    (fun stepped kept => (sendFormat_packets stepped).trans kept) _ _ _ formats rfl

end Adsbus

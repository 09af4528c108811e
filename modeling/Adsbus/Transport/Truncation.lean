import Adsbus.Transport.Greeting

/-! # Frames cut short

A frame that the kernel accepts in part is meant to be the last: the connection is shut
down for writing, and closed when the loop sees that. On a descriptor that is no socket
the shutdown does nothing, and the next frame is written behind the part.
-/

namespace Adsbus.Output

variable {server : Server} {statsState : StatsState} {serializer : Serializer} {stream : Stream}
  {connection : Connection} {outputs : Outputs} {pieces : Pieces}

/-- Nothing is accepted behind a frame that was accepted in part. -/
def Intact (pieces : Pieces) : Prop :=
  pieces.Pairwise fun piece later => 0 < piece.2 → piece.2 < piece.1.length → later.2 = 0

/-- The bytes are frames, some of those that were given, and perhaps a part of another one. -/
def Uncorrupted (given : List Bytes) (bytes : Bytes) : Prop :=
  ∃ (frames : List Bytes) (part : Bytes), frames.Sublist given ∧ bytes = frames.flatten ++ part ∧
    (part = [] ∨ ∃ frame ∈ given, part <+: frame)

/-- The kernel accepts nothing of a frame if it has accepted a part only of an earlier one. -/
def CutsLast (writes : List (Bytes × Option Nat)) : Prop :=
  writes.Pairwise fun write later =>
    ∀ count, write.2 = some count → 0 < count → count < write.1.length → later.2.getD 0 = 0

/-! ## Bytes -/

theorem accepted_cons (piece : Bytes × Nat) (rest : Pieces) :
    accepted (piece :: rest) = piece.1.take piece.2 ++ accepted rest := by
  rw [accepted, List.map_cons, List.flatten_cons]
  rfl

theorem accepted_of_zero (nothing : ∀ piece ∈ pieces, piece.2 = 0) : accepted pieces = [] := by
  induction pieces with
  | nil => rfl
  | cons piece rest ih =>
      obtain ⟨here, later⟩ := List.forall_mem_cons.mp nothing
      rw [accepted_cons, here, List.take_zero, ih later, List.append_nil]

/-- If nothing is accepted behind a part, the bytes are whole frames and one part at most. -/
theorem Intact.uncorrupted (intact : Intact pieces) :
    Uncorrupted (pieces.map Prod.fst) (accepted pieces) := by
  induction pieces with
  | nil => exact ⟨[], [], List.nil_sublist _, rfl, .inl rfl⟩
  | cons piece rest ih =>
      obtain ⟨here, later⟩ := List.pairwise_cons.mp intact
      obtain ⟨frames, part, among, bytes, last⟩ := ih later
      have among' : frames.Sublist ((piece :: rest).map Prod.fst) := among.cons _
      have last' : part = [] ∨ ∃ frame ∈ (piece :: rest).map Prod.fst, part <+: frame :=
        last.imp_right fun ⟨frame, member, start⟩ => ⟨frame, List.mem_cons_of_mem _ member, start⟩
      rw [accepted_cons]
      by_cases whole : piece.1.length ≤ piece.2
      · rw [List.take_of_length_le whole, bytes, ← List.append_assoc]
        exact ⟨piece.1 :: frames, part, among.cons_cons _, rfl, last'⟩
      · by_cases nothing : piece.2 = 0
        · rw [nothing, List.take_zero, List.nil_append]
          exact ⟨frames, part, among', bytes, last'⟩
        · have none : ∀ other ∈ rest, other.2 = 0 := fun other member =>
            here other member (Nat.pos_of_ne_zero nothing) (Nat.lt_of_not_le whole)
          rw [accepted_of_zero none, List.append_nil]
          refine ⟨[], piece.1.take piece.2, List.nil_sublist _, rfl, .inr ⟨piece.1, ?_, ?_⟩⟩
          · exact List.mem_cons_self
          · exact List.take_prefix _ _

/-! ## Writes -/

/-- What the kernel accepts of a write while the descriptor is not shut down. -/
def taken (write : Bytes × Option Nat) : Bytes × Nat :=
  (write.1, write.2.elim 0 fun count => min count write.1.length)

theorem Stream.write_pieces (stream : Stream) (write : Bytes × Option Nat) :
    (stream.write write.1 write.2).2.pieces =
      stream.pieces ++ [if stream.shut then (write.1, 0) else taken write] := by
  obtain ⟨frame, answer⟩ := write
  rw [Stream.write]
  cases stream.shut with
  | true => rfl
  | false => cases answer <;> rfl

theorem Stream.send_pieces (stream : Stream) (write : Bytes × Option Nat) :
    (stream.send write).pieces =
      stream.pieces ++ [if stream.shut then (write.1, 0) else taken write] := by
  rw [← stream.write_pieces write, Stream.send]
  split <;> rfl

theorem Stream.send_socket (stream : Stream) (write : Bytes × Option Nat) :
    (stream.send write).socket = stream.socket := by
  have kept : (stream.write write.1 write.2).2.socket = stream.socket := by
    rw [Stream.write]
    split <;> rfl
  rw [Stream.send]
  split <;> exact kept

theorem Stream.sends_socket (stream : Stream) (writes : List (Bytes × Option Nat)) :
    (writes.foldl Stream.send stream).socket = stream.socket := by
  induction writes generalizing stream with
  | nil => rfl
  | cons write writes ih => rw [List.foldl_cons, ih, stream.send_socket]

/-- A descriptor stays as it is, or is a socket that is shut down. -/
theorem Stream.send_shut (stream : Stream) (write : Bytes × Option Nat) :
    (stream.send write).shut = (stream.shut ||
      (stream.socket && !decide ((taken write).2 = write.1.length ∧ write.2 ≠ none))) := by
  obtain ⟨frame, answer⟩ := write
  rw [Stream.send, Stream.write]
  cases shut : stream.shut with
  | true => simp [Stream.shutdown]
  | false =>
      cases answer with
      | none => simp [Stream.shutdown]
      | some count =>
          by_cases whole : frame.length ≤ count <;> simp [Stream.shutdown, taken, whole]

/-- Every frame is given to a write. -/
theorem Stream.sends_frames (stream : Stream) (writes : List (Bytes × Option Nat)) :
    (writes.foldl Stream.send stream).pieces.map Prod.fst =
      stream.pieces.map Prod.fst ++ writes.map Prod.fst := by
  induction writes generalizing stream with
  | nil => exact (List.append_nil _).symm
  | cons write writes ih =>
      rw [List.foldl_cons, ih, stream.send_pieces, List.map_append, List.append_assoc]
      split <;> rfl

/-- On what is no socket every write is as the kernel answers. -/
theorem Stream.sends_pieces (writes : List (Bytes × Option Nat)) (other : stream.socket = false)
    (opened : stream.shut = false) :
    (writes.foldl Stream.send stream).pieces = stream.pieces ++ writes.map taken := by
  induction writes generalizing stream with
  | nil => exact (List.append_nil _).symm
  | cons write writes ih =>
      have stays : (stream.send write).shut = false := by
        rw [stream.send_shut, opened, other]
        rfl
      rw [List.foldl_cons, ih ((stream.send_socket write).trans other) stays, stream.send_pieces,
        opened, List.append_assoc]
      rfl

/-- A socket that is not shut down has accepted no frame in part. -/
structure Stream.Tidy (stream : Stream) : Prop where
  intact : Intact stream.pieces
  whole : stream.shut = false → ∀ piece ∈ stream.pieces, 0 < piece.2 → piece.1.length ≤ piece.2

theorem Stream.Tidy.send (tidy : stream.Tidy) (socket : stream.socket = true)
    (write : Bytes × Option Nat) : (stream.send write).Tidy := by
  constructor
  · rw [stream.send_pieces, Intact, List.pairwise_append]
    refine ⟨tidy.intact, List.pairwise_singleton _ _, fun piece before last member => ?_⟩
    intro some part
    cases List.mem_singleton.mp member
    cases shut : stream.shut with
    | true => rfl
    | false => exact absurd (tidy.whole shut piece before some) (Nat.not_le_of_lt part)
  · intro opened piece member some
    rw [stream.send_shut, socket, Bool.true_and, Bool.or_eq_false_iff, Bool.not_eq_false',
      decide_eq_true_iff] at opened
    obtain ⟨before, whole, _⟩ := opened
    rw [stream.send_pieces, before] at member
    rcases List.mem_append.mp member with earlier | last
    · exact tidy.whole before piece earlier some
    · cases List.mem_singleton.mp last
      exact whole.ge

theorem Stream.Tidy.sends (tidy : stream.Tidy) (socket : stream.socket = true)
    (writes : List (Bytes × Option Nat)) : (writes.foldl Stream.send stream).Tidy := by
  induction writes generalizing stream with
  | nil => exact tidy
  | cons write writes ih =>
      exact ih (tidy.send socket write) ((stream.send_socket write).trans socket)

/-- Frames are not empty, so that something of each is accepted when the kernel takes something. -/
theorem intact_map_taken {writes : List (Bytes × Option Nat)}
    (nonempty : ∀ write ∈ writes, write.1 ≠ []) :
    Intact (writes.map taken) ↔ CutsLast writes := by
  rw [Intact, List.pairwise_map, CutsLast]
  refine List.Pairwise.iff_of_mem fun {write later} _ member => ?_
  have positive := List.length_pos_iff.mpr (nonempty later member)
  obtain ⟨frame, answer⟩ := write
  obtain ⟨frame', answer'⟩ := later
  have nothing : (taken (frame', answer')).2 = 0 ↔ answer'.getD 0 = 0 := by
    cases answer' with
    | none => exact Iff.rfl
    | some count =>
        change min count frame'.length = 0 ↔ count = 0
        change 0 < frame'.length at positive
        omega
  rw [nothing]
  cases answer with
  | none => simp [taken]
  | some count =>
      change (0 < min count frame.length → min count frame.length < frame.length → _) ↔
        ∀ other, some count = some other → 0 < other → other < frame.length → _
      constructor
      · rintro after other ⟨⟩ some part
        exact after (by omega) (by omega)
      · intro after some part
        exact after count rfl (by omega) (by omega)

/-! ## Runs -/

/-- **Outputs are not corrupted, on sockets.** Nothing is accepted on a connection behind a frame that
was accepted in part, exactly if its descriptor is a socket or the kernel takes nothing more of its
own; then the bytes accepted are frames, and perhaps a part of one at the end. -/
theorem intact_iff {trace : List (Outputs × Event)}
    (run : OutputRun server statsState trace outputs)
    (member : connection ∈ outputs.sendHead serializer) :
    (∀ write ∈ connection.writes, IsFrame server serializer write.1) ∧
      (Intact connection.stream.pieces ↔
        connection.stream.socket = true ∨ CutsLast connection.writes) ∧
      (Intact connection.stream.pieces → Uncorrupted (connection.writes.map Prod.fst)
        (accepted connection.stream.pieces)) := by
  have follows := follow_of_run run serializer connection member
  obtain ⟨hello, opened, _, live, _, sends⟩ := follows.opened
  have unshut := (Opener.connect_accepted live).2
  refine ⟨follows.frames, ?_, fun intact => ?_⟩
  · rw [sends, Stream.sends_socket]
    by_cases socket : opened.socket = true
    · have tidy : Stream.Tidy { opened with pieces := [] } :=
        ⟨List.Pairwise.nil, fun _ piece absent => absurd absent List.not_mem_nil⟩
      exact iff_of_true (tidy.sends socket connection.writes).intact (.inl socket)
    · have other : Stream.socket { opened with pieces := [] } = false := Bool.not_eq_true _ ▸ socket
      rw [Stream.sends_pieces _ other unshut, List.nil_append, intact_map_taken
        fun write made => (follows.frames write made).1]
      exact ⟨.inr, fun either => either.resolve_left socket⟩
  · have frames : connection.stream.pieces.map Prod.fst = connection.writes.map Prod.fst := by
      rw [sends]
      exact Stream.sends_frames { opened with pieces := [] } connection.writes
    exact frames ▸ intact.uncorrupted

/-- Two packets for the raw output on standard output, the first of which is accepted in part. -/
def partThenWhole (socket : Bool) : List Event :=
  [.connect .raw ⟨1, 2⟩ .stdout ⟨socket, none, []⟩,
    .sendWrite 0 modeAcPacket fun _ _ => some 1, .sendWrite 0 modeAcPacket fun _ _ => some 1000]

theorem intact_socket : ∃ trace outputs connection, OutputRun flatServer statsNone trace outputs ∧
    connection ∈ outputs.sendHead .raw ∧ connection.writes.length = 2 ∧
      Intact connection.stream.pieces := by
  have reached : (outputsAfter flatServer (outputsInit statsNone) (partThenWhole true)).toOption.map
      (fun next => (next.sendHead .raw).map fun connection =>
        (connection.writes.length, connection.stream.socket)) = some [(2, true)] := by
    decide +kernel
  obtain ⟨trace, outputs, connection, run, member, view⟩ := of_outputsAfter reached
  obtain ⟨two, socket⟩ := Prod.mk.inj view
  exact ⟨trace, outputs, connection, run, member, two, (intact_iff run member).2.1.mpr (.inl socket)⟩

/-- On a pipe the second frame follows the first byte of the first one. -/
theorem output_corrupted : ¬ ∀ server statsState serializer trace outputs connection,
    OutputRun server statsState trace outputs → connection ∈ outputs.sendHead serializer →
      Uncorrupted (connection.writes.map Prod.fst) (accepted connection.stream.pieces) := by
  intro uncorrupted
  have reached : (outputsAfter flatServer (outputsInit statsNone) (partThenWhole false)).toOption.map
      (fun next => (next.sendHead .raw).map fun connection =>
        (connection.writes.map Prod.fst, accepted connection.stream.pieces)) =
          some [([ascii "*0000;\n", ascii "*0000;\n"], ascii "**0000;\n")] := by decide +kernel
  obtain ⟨trace, outputs, connection, run, member, view⟩ := of_outputsAfter reached
  obtain ⟨given, bytes⟩ := Prod.mk.inj view
  obtain ⟨frames, part, among, same, last⟩ :=
    uncorrupted flatServer statsNone .raw trace outputs connection run member
  rw [given] at among last
  rw [bytes] at same
  have impossible : ∀ frames ∈ [ascii "*0000;\n", ascii "*0000;\n"].sublists, ∀ count ≤ 7,
      ascii "**0000;\n" ≠ frames.flatten ++ (ascii "*0000;\n").take count := by decide +kernel
  have start : part <+: ascii "*0000;\n" := by
    rcases last with rfl | ⟨frame, member, start⟩
    · exact List.nil_prefix
    · rcases List.mem_cons.mp member with rfl | member
      · exact start
      · cases List.mem_singleton.mp member
        exact start
  rw [List.prefix_iff_eq_take.mp start] at same
  exact impossible frames (List.mem_sublists.mpr among) part.length start.length_le same

end Adsbus.Output

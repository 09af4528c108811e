import Adsbus.Transport.Output

/-! # How outputs begin

The hello of a send connection is complete before its flow is started, and written once,
for every transport but the outgoing one. There the kernel may take the connection
without the hello, and nothing writes it again.
-/

namespace Adsbus.Output

open EventLoop (errnoInProgress)

variable {server : Server} {statsState : StatsState} {serializer : Serializer} {hello : Bytes}
  {world : World} {stream : Stream} {connection : Connection} {outputs next : Outputs}

theorem accepted_append (before after : Pieces) :
    accepted (before ++ after) = accepted before ++ accepted after := by
  rw [accepted, List.map_append, List.flatten_append]
  rfl

theorem accepted_whole (buf : Bytes) {count : Nat} (whole : buf.length ≤ count) :
    accepted [(buf, min count buf.length)] = buf := by
  rw [min_eq_right whole]
  exact (List.append_nil _).trans (List.take_length ..)

/-! ## Opened descriptors -/

/-- The socket can be used in the end: the first error that is reported for it, apart from those of
a connection in progress, is none. -/
def Address.connects (address : Address) : Bool :=
  (match address.sendto with
    | .queued => true
    | .fails errno _ => decide (errno = errnoInProgress)) &&
      decide (address.errors.find? (· ≠ errnoInProgress) = some 0)

/-- The kernel queues the hello for the first address that can be connected to. -/
def queuesHello (addrs : List Address) : Bool :=
  (addrs.find? Address.connects).any fun address => address.sendto = .queued

theorem queuesHello_cons (address : Address) (addrs : List Address) :
    queuesHello (address :: addrs) =
      if address.connects then decide (address.sendto = .queued) else queuesHello addrs := by
  rw [queuesHello, List.find?_cons]
  cases address.connects <;> rfl

/-- A hello that is written before the flow starts is written whole. -/
theorem flowNewSendHello_accepted {socket : Bool} {answer : Option Nat}
    (live : flowNewSendHello hello answer (.new socket) = some stream) :
    accepted stream.pieces = hello ∧ stream.shut = false := by
  by_cases empty : hello.length = 0
  · simp only [flowNewSendHello, flowSendHello, empty, ↓reduceIte] at live
    cases live
    exact ⟨(List.length_eq_zero_iff.mp empty).symm, rfl⟩
  · cases answer with
    | none =>
        simp only [flowNewSendHello, flowSendHello, empty, Stream.write, Stream.new,
          Bool.false_eq_true, ↓reduceIte, reduceCtorEq] at live
    | some count =>
        simp only [flowNewSendHello, flowSendHello, empty, Stream.write, Stream.new,
          Bool.false_eq_true, ↓reduceIte, List.nil_append, decide_eq_true_eq,
          Option.ite_none_right_eq_some] at live
        obtain ⟨whole, same⟩ := live
        cases same
        exact ⟨accepted_whole hello whole, rfl⟩

/-- What the events of a socket come to. -/
theorem outgoingConnectHandler_eq (connectNext : Option Stream) (errors : List Nat) :
    outgoingConnectHandler connectNext stream errors =
      (errors.find? (· ≠ errnoInProgress)).bind fun error =>
        if error = 0 then some stream else connectNext := by
  induction errors with
  | nil => rfl
  | cons error errors ih =>
      rw [outgoingConnectHandler, outgoingConnectResult, ih, List.find?_cons]
      by_cases waits : error = errnoInProgress
      · simp only [waits, ne_eq, not_true_eq_false, decide_false]
        rfl
      · simp only [waits, ne_eq, not_false_eq_true, decide_true, ↓reduceIte, Option.bind_some]

/-- The first address that can be connected to decides whether the hello was queued. -/
theorem outgoingConnectNext_accepted {addrs : List Address}
    (live : outgoingConnectNext hello addrs = some stream) :
    accepted stream.pieces = (if queuesHello addrs then hello else []) ∧ stream.shut = false := by
  induction addrs with
  | nil => cases live
  | cons address addrs ih =>
      obtain ⟨sendto, errors⟩ := address
      rw [queuesHello_cons]
      cases sendto with
      | queued =>
          have queued : accepted ((Stream.new true).write hello (some hello.length)).2.pieces =
              hello := accepted_whole hello (le_refl _)
          have busy : errnoInProgress ≠ 0 := by decide
          simp only [outgoingConnectNext, outgoingConnectResult, outgoingConnectHandler_eq, busy,
            ↓reduceIte] at live
          obtain ⟨error, first, ends⟩ := Option.bind_eq_some_iff.mp live
          split at ends
          · next connected =>
              cases ends
              subst connected
              simp only [Address.connects, first, Bool.true_and, decide_true, ↓reduceIte, queued]
              exact ⟨trivial, rfl⟩
          · next failed =>
              simp only [Address.connects, first, Option.some.injEq, failed, decide_false,
                Bool.and_false, Bool.false_eq_true, ↓reduceIte]
              exact ih ends
      | fails errno nonzero =>
          simp only [outgoingConnectNext, outgoingConnectResult, outgoingConnectHandler_eq] at live
          rw [if_neg nonzero] at live
          split at live
          · next waits =>
              obtain ⟨error, first, ends⟩ := Option.bind_eq_some_iff.mp live
              split at ends
              · next connected =>
                  cases ends
                  subst connected
                  simp only [Address.connects, waits, first, decide_true, Bool.and_self, ↓reduceIte,
                    reduceCtorEq, decide_false, Bool.false_eq_true]
                  exact ⟨rfl, rfl⟩
              · next failed =>
                  simp only [Address.connects, first, Option.some.injEq, failed, decide_false,
                    Bool.and_false, Bool.false_eq_true, ↓reduceIte]
                  exact ih ends
          · next refused =>
              simp only [Address.connects, refused, decide_false, Bool.false_and,
                Bool.false_eq_true, ↓reduceIte]
              exact ih live

/-- The hello is on a descriptor that is live, unless it belongs to an outgoing connection for which
the kernel did not queue it. -/
theorem Opener.connect_accepted {opener : Opener} (live : opener.connect hello world = some stream) :
    accepted stream.pieces =
        (if opener = .outgoing ∧ queuesHello world.addrs = false then [] else hello) ∧
      stream.shut = false := by
  cases opener with
  | outgoing =>
      obtain ⟨bytes, shut⟩ := outgoingConnectNext_accepted live
      refine ⟨?_, shut⟩
      rw [bytes]
      cases queuesHello world.addrs <;> rfl
  | incoming | file | exec | stdout => exact flowNewSendHello_accepted live

/-! ## Runs -/

/-- The bytes that were accepted on the descriptor, from its opening on. -/
def Connection.received (connection : Connection) : Bytes :=
  accepted (connection.greeting ++ connection.stream.pieces)

/-- The bytes begin with the hello, and what is behind it was accepted of frames. -/
def Connection.Greeted (connection : Connection) (hello : Bytes) : Prop :=
  connection.received = hello ++ accepted connection.stream.pieces

/-- **Every output starts with its hello, when the kernel takes it.** Whatever is sent, the bytes
accepted on a connection are the hello and then frames, exactly if the connection is not an outgoing
one or the hello was queued for the first address that could be connected to (or there is none to
send). -/
theorem greeted_iff {trace : List (Outputs × Event)}
    (run : OutputRun server statsState trace outputs)
    (member : connection ∈ outputs.sendHead serializer)
    (gets : sendGetHello server serializer = .ok hello) :
    connection.Greeted hello ↔
      hello = [] ∨ connection.opener ≠ .outgoing ∨ queuesHello connection.world.addrs = true := by
  obtain ⟨hello', stream, gets', live, greeting, _⟩ :=
    (follow_of_run run serializer connection member).opened
  cases gets.symm.trans gets'
  obtain ⟨bytes, _⟩ := Opener.connect_accepted live
  rw [Connection.Greeted, Connection.received, accepted_append, List.append_left_inj, greeting, bytes]
  split
  · next lost =>
      constructor
      · exact fun empty => .inl empty.symm
      · rintro (empty | other | queued)
        · exact empty.symm
        · exact absurd lost.1 other
        · exact absurd (lost.2.symm.trans queued) Bool.false_ne_true
  · next kept =>
      refine ⟨fun _ => ?_, fun _ => rfl⟩
      by_cases outgoing : connection.opener = .outgoing
      · exact .inr (.inr ((Bool.not_eq_false _).mp fun lost => kept ⟨outgoing, lost⟩))
      · exact .inr (.inl outgoing)

/-- An outgoing connection, and a packet for it. -/
def connectAndSend (sendto : Sendto) : List Event :=
  [.connect .proto ⟨1, 2⟩ .outgoing ⟨true, none, [⟨sendto, [0]⟩]⟩,
    .sendWrite 0 modeAcPacket fun _ _ => some 1000]

/-- The kernel queues the hello. -/
theorem greeted_queued : ∃ trace outputs connection hello,
    OutputRun flatServer statsNone trace outputs ∧ connection ∈ outputs.sendHead .proto ∧
      sendGetHello flatServer .proto = .ok hello ∧ connection.opener = .outgoing ∧
        connection.Greeted hello := by
  have reached : (outputsAfter flatServer (outputsInit statsNone)
      (connectAndSend .queued)).toOption.map (fun next => (next.sendHead .proto).map fun connection =>
        (connection.opener, queuesHello connection.world.addrs)) = some [(.outgoing, true)] := by
    decide +kernel
  have sends : (sendGetHello flatServer .proto).toOption.isSome = true := by decide +kernel
  obtain ⟨trace, outputs, connection, run, member, view⟩ := of_outputsAfter reached
  obtain ⟨outgoing, queued⟩ := Prod.mk.inj view
  cases gets : sendGetHello flatServer .proto with
  | error fault =>
      rw [gets] at sends
      cases sends
  | ok hello =>
      exact ⟨trace, outputs, connection, hello, run, member, rfl, outgoing,
        (greeted_iff run member gets).mpr (.inr (.inr queued))⟩

/-- The kernel connects without the hello, as it does when it has no cookie of the server, and the
connection begins with a packet. -/
theorem greeting_lost : ¬ ∀ server statsState serializer trace outputs connection hello,
    OutputRun server statsState trace outputs → connection ∈ outputs.sendHead serializer →
      sendGetHello server serializer = .ok hello → connection.stream.pieces ≠ [] →
        connection.Greeted hello := by
  intro greeted
  have reached : (outputsAfter flatServer (outputsInit statsNone)
      (connectAndSend (.fails errnoInProgress (by decide)))).toOption.map (fun next =>
        (next.sendHead .proto).map fun connection => (connection.stream.pieces.isEmpty,
          (sendGetHello flatServer .proto).toOption.map fun hello =>
            hello.isPrefixOf connection.received)) = some [(false, some false)] := by
    decide +kernel
  obtain ⟨trace, outputs, connection, run, member, view⟩ := of_outputsAfter reached
  obtain ⟨written, differs⟩ := Prod.mk.inj view
  obtain ⟨hello, gets, differs⟩ := Option.map_eq_some_iff.mp differs
  have starts : connection.Greeted hello := by
    refine greeted flatServer statsNone .proto trace outputs connection hello run member ?_ ?_
    · cases said : sendGetHello flatServer .proto with
      | error fault =>
          rw [said] at gets
          cases gets
      | ok other =>
          rw [said] at gets
          cases gets
          rfl
    · rintro empty
      rw [empty] at written
      cases written
  have starts' : hello.isPrefixOf connection.received = true :=
    List.isPrefixOf_iff_prefix.mpr ⟨_, starts.symm⟩
  exact Bool.false_ne_true (differs.symm.trans starts')

end Adsbus.Output

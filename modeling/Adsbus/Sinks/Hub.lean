import Adsbus.Foundation.Channel
import Adsbus.Foundation.Runs
import Mathlib.Data.List.Perm.Basic
import Mathlib.Logic.Function.Basic

/-! # The hub of adsb-ws

One goroutine reads lines from the standard input, one runs the hub, and each client of the
stream has one that registers, writes what its channel brings it and unregisters. The channels
`register`, `unregister` and `broadcast` are unbuffered: a send on them is a step of the sender
and of the hub at once, which the hub takes only in its `select`. The buffered sends of the hub
are steps of their own, so that clients may receive in between.
-/

namespace Adsbus.AdsbWs

/-- A line of the input, as it is broadcast. -/
abbrev Message := List UInt8

/-- `bufio.Reader.ReadBytes('\n')`: everything up to the first line feed and that, or `none`
at the end of an input that has no line feed left. -/
def readBytes : List UInt8 → Option (Message × List UInt8)
  | [] => none
  | byte :: input =>
    if byte = 10 then some ([byte], input)
    else (readBytes input).map fun (line, rest) => (byte :: line, rest)

theorem readBytes_ne_nil {input rest : List UInt8} {message : Message}
    (read : readBytes input = some (message, rest)) : message ≠ [] := by
  cases input with
  | nil => exact nomatch read
  | cons byte input =>
      rw [readBytes] at read
      split at read
      · obtain ⟨rfl, rfl⟩ := read
        exact List.cons_ne_nil _ _
      · obtain ⟨_, _, same⟩ := Option.map_eq_some_iff.mp read
        obtain ⟨rfl, rfl⟩ := same
        exact List.cons_ne_nil _ _

/-- Where `serveStream` is for a client. -/
inductive Phase
  | registering
  | writePump
  | unregistering
  | returned
deriving DecidableEq, Repr

/-- A client: its channel, where its goroutine is, and everything the hub has queued for it. -/
structure Connection where
  send : Channel Message
  phase : Phase
  queued : List Message
deriving DecidableEq, Repr

/-- The connection `serveStream` makes. -/
def Connection.new : Connection :=
  { send := .make 256, phase := .registering, queued := [] }

/-- Where the hub is: in its `select`, before the greeting of a new client, or in the loop that
sends a message to the clients it has not yet come to. -/
inductive Doing
  | select
  | greet (client : Nat)
  | send (message : Message) (remaining : List Nat)
deriving DecidableEq, Repr

/-- The hub, its clients and its input. `heard` is every message broadcast so far. -/
structure System where
  connections : List Nat
  greeting : Message
  doing : Doing
  client : Nat → Connection
  input : List UInt8
  heard : List Message

/-- The program before its first step. -/
def System.start (input : List UInt8) : System :=
  { connections := [], greeting := [], doing := .select, client := fun _ => .new,
    input := input, heard := [] }

/-- The steps: a client registers, is greeted, unregisters; a line is broadcast to the clients
in the order the map's iteration takes; the hub sends it to the next of them; a client's
`writePump` receives, and its write succeeds or not. -/
inductive Act
  | register (client : Nat)
  | greet
  | unregister (client : Nat)
  | broadcast (order : List Nat)
  | deliver
  | receive (client : Nat) (written : Bool)
deriving DecidableEq, Repr

namespace System

/-- The system with one client changed. -/
def setClient (system : System) (client : Nat) (connection : Connection) : System :=
  { system with client := Function.update system.client client connection }

/-- `c.send <- message` on a channel that had room. -/
def queue (system : System) (client : Nat) (send : Channel Message) (message : Message) : System :=
  system.setClient client { system.client client with
    send := send, queued := (system.client client).queued ++ [message] }

/-- `close(c.send)` and `delete(h.connections, c)`. -/
def drop (system : System) (client : Nat) : Except ChannelPanic System :=
  match (system.client client).send.close with
  | .error error => .error error
  | .ok send =>
    .ok { system.setClient client { system.client client with send := send } with
      connections := system.connections.erase client }

/-- The case of `h.register`. -/
def register (system : System) (client : Nat) : Option (Except ChannelPanic System) :=
  if system.doing = .select ∧ (system.client client).phase = .registering then
    some (.ok { system.setClient client { system.client client with phase := .writePump } with
      connections := system.connections.insert client, doing := .greet client })
  else none

/-- `c.send <- h.greeting`, which waits for room. -/
def greet (system : System) : Option (Except ChannelPanic System) :=
  match system.doing with
  | .greet client =>
    match (system.client client).send.send system.greeting with
    | .error error => some (.error error)
    | .ok none => none
    | .ok (some send) =>
      some (.ok { system.queue client send system.greeting with doing := .select })
  | _ => none

/-- The case of `h.unregister`. -/
def unregister (system : System) (client : Nat) : Option (Except ChannelPanic System) :=
  if system.doing = .select ∧ (system.client client).phase = .unregistering then
    let after := system.setClient client { system.client client with phase := .returned }
    if client ∈ system.connections then some (after.drop client) else some (.ok after)
  else none

/-- The case of `h.broadcast`, with the line `readInput` has read. -/
def broadcast (system : System) (order : List Nat) : Option (Except ChannelPanic System) :=
  match system.doing, readBytes system.input with
  | .select, some (message, input) =>
    if order.Perm system.connections then
      some (.ok { system with
        greeting := if system.greeting.length = 0 then message else system.greeting,
        doing := .send message order, input := input, heard := system.heard ++ [message] })
    else none
  | _, _ => none

/-- One turn of the loop of a broadcast. -/
def deliver (system : System) : Option (Except ChannelPanic System) :=
  match system.doing with
  | .send _ [] => some (.ok { system with doing := .select })
  | .send message (client :: remaining) =>
    match (system.client client).send.send message with
    | .error error => some (.error error)
    | .ok (some send) =>
      some (.ok { system.queue client send message with doing := .send message remaining })
    | .ok none => some ({ system with doing := .send message remaining }.drop client)
  | _ => none

/-- One turn of `writePump`. -/
def receive (system : System) (client : Nat) (written : Bool) :
    Option (Except ChannelPanic System) :=
  if (system.client client).phase = .writePump then
    match (system.client client).send.receive with
    | .value _ send =>
      some (.ok (system.setClient client { system.client client with
        send := send, phase := if written then .writePump else .unregistering }))
    | .ended =>
      some (.ok (system.setClient client { system.client client with phase := .unregistering }))
    | .empty => none
  else none

/-- What an action does: `none` when it cannot be taken now, an error when the hub panics. -/
def step (system : System) : Act → Option (Except ChannelPanic System)
  | .register client => system.register client
  | .greet => system.greet
  | .unregister client => system.unregister client
  | .broadcast order => system.broadcast order
  | .deliver => system.deliver
  | .receive client written => system.receive client written

@[simp] theorem setClient_client {system : System} {client other : Nat} {connection : Connection} :
    (system.setClient client connection).client other =
      if other = client then connection else system.client other := by
  simp only [setClient, Function.update_apply]

@[simp] theorem queue_client {system : System} {client other : Nat} {send : Channel Message}
    {message : Message} :
    (system.queue client send message).client other =
      if other = client then
        { system.client client with
          send := send, queued := (system.client client).queued ++ [message] }
      else system.client other := setClient_client

/-- What the hub does when nothing panics, one constructor for each way a step can end. -/
inductive Moves (system : System) : Act → System → Prop
  | register {client : Nat} (selects : system.doing = .select)
      (registering : (system.client client).phase = .registering) :
      Moves system (.register client)
        { system.setClient client { system.client client with phase := .writePump } with
          connections := system.connections.insert client, doing := .greet client }
  | greet {client : Nat} {send : Channel Message} (greets : system.doing = .greet client)
      (isOpen : send.closed = false) :
      Moves system .greet
        { system.queue client send system.greeting with doing := .select }
  | leave {client : Nat} (selects : system.doing = .select)
      (absent : client ∉ system.connections)
      (unregistering : (system.client client).phase = .unregistering) :
      Moves system (.unregister client)
        (system.setClient client { system.client client with phase := .returned })
  | unregister {client : Nat} {send : Channel Message} (selects : system.doing = .select)
      (unregistering : (system.client client).phase = .unregistering) (closed : send.closed) :
      Moves system (.unregister client)
        { system.setClient client { system.client client with send := send, phase := .returned }
          with connections := system.connections.erase client }
  | broadcast {order : List Nat} {message : Message} {input : List UInt8}
      (selects : system.doing = .select) (read : readBytes system.input = some (message, input))
      (all : order.Perm system.connections) :
      Moves system (.broadcast order)
        { system with
          greeting := if system.greeting.length = 0 then message else system.greeting,
          doing := .send message order, input := input, heard := system.heard ++ [message] }
  | deliver {client : Nat} {remaining : List Nat} {message : Message} {send : Channel Message}
      (sends : system.doing = .send message (client :: remaining)) (isOpen : send.closed = false) :
      Moves system .deliver
        { system.queue client send message with doing := .send message remaining }
  | overflow {client : Nat} {remaining : List Nat} {message : Message} {send : Channel Message}
      (sends : system.doing = .send message (client :: remaining)) (closed : send.closed) :
      Moves system .deliver
        { system.setClient client { system.client client with send := send } with
          doing := .send message remaining, connections := system.connections.erase client }
  | delivered {message : Message} (sends : system.doing = .send message []) :
      Moves system .deliver { system with doing := .select }
  | receive {client : Nat} {written : Bool} {send : Channel Message}
      (pumping : (system.client client).phase = .writePump)
      (same : send.closed = (system.client client).send.closed) :
      Moves system (.receive client written)
        (system.setClient client { system.client client with
          send := send, phase := if written then .writePump else .unregistering })
  | ended {client : Nat} {written : Bool} (pumping : (system.client client).phase = .writePump) :
      Moves system (.receive client written)
        (system.setClient client { system.client client with phase := .unregistering })

/-- What every state of the program keeps: a client is connected exactly while its channel is
open, the loop of a broadcast has only connected clients before it, and the greeting is the
first line. -/
structure Sound (system : System) : Prop where
  distinct : system.connections.Nodup
  unregistered : ∀ client, (system.client client).phase = .registering →
    system.client client = .new ∧ client ∉ system.connections
  listed : ∀ client, (system.client client).phase ≠ .registering →
    (client ∈ system.connections ↔ (system.client client).send.closed = false)
  greets : ∀ client, system.doing = .greet client →
    client ∈ system.connections ∧ (system.client client).queued = []
  sends : ∀ message remaining, system.doing = .send message remaining →
    remaining.Nodup ∧ ∀ client ∈ remaining, client ∈ system.connections
  greeting : system.greeting = system.heard.head?.getD []
  lines : ∀ message ∈ system.heard, message ≠ []

variable {system next : System} {act : Act} {outcome : Except ChannelPanic System}

/-- A connected client's channel is open. -/
theorem Sound.isOpen (sound : system.Sound) {client : Nat} (connected : client ∈ system.connections) :
    (system.client client).phase ≠ .registering ∧ (system.client client).send.closed = false := by
  have registered : (system.client client).phase ≠ .registering :=
    fun registering => (sound.unregistered client registering).2 connected
  exact ⟨registered, (sound.listed client registered).mp connected⟩

/-- The hub does not panic, and moves as `Moves` says. -/
theorem Sound.moves (sound : system.Sound) (taken : system.step act = some outcome) :
    ∃ next, outcome = .ok next ∧ system.Moves act next := by
  cases act with
  | register client =>
      simp only [step, System.register, Option.ite_none_right_eq_some, Option.some.injEq] at taken
      obtain ⟨⟨selects, registering⟩, rfl⟩ := taken
      exact ⟨_, rfl, .register selects registering⟩
  | greet =>
      simp only [step, System.greet] at taken
      split at taken
      case h_2 => exact nomatch taken
      case h_1 client greets =>
        have isOpen := (sound.isOpen (sound.greets client greets).1).2
        rcases Channel.send_cases isOpen system.greeting with full | queued
        · rw [full] at taken
          exact nomatch taken
        · rw [queued] at taken
          obtain rfl := Option.some.inj taken
          exact ⟨_, rfl, .greet greets isOpen⟩
  | unregister client =>
      simp only [step, System.unregister, Option.ite_none_right_eq_some] at taken
      obtain ⟨⟨selects, unregistering⟩, taken⟩ := taken
      split at taken
      case isFalse absent =>
        obtain rfl := Option.some.inj taken
        exact ⟨_, rfl, .leave selects absent unregistering⟩
      case isTrue connected =>
        have closes := Channel.close_of_open (sound.isOpen connected).2
        simp only [drop, setClient, Function.update_self, closes, Option.some.injEq] at taken
        obtain rfl := taken
        refine ⟨_, rfl, ?_⟩
        simp only [Function.update_idem]
        exact .unregister selects unregistering rfl
  | broadcast order =>
      simp only [step, System.broadcast] at taken
      split at taken
      case h_2 => exact nomatch taken
      case h_1 message input selects read =>
        simp only [Option.ite_none_right_eq_some, Option.some.injEq] at taken
        obtain ⟨all, rfl⟩ := taken
        exact ⟨_, rfl, .broadcast selects read all⟩
  | deliver =>
      simp only [step, System.deliver] at taken
      split at taken
      case h_1 message sends =>
        obtain rfl := Option.some.inj taken
        exact ⟨_, rfl, .delivered sends⟩
      case h_3 => exact nomatch taken
      case h_2 message client remaining sends =>
        have connected := (sound.sends message _ sends).2 client List.mem_cons_self
        have isOpen := (sound.isOpen connected).2
        rcases Channel.send_cases isOpen message with full | queued
        · have closes := Channel.close_of_open isOpen
          simp only [full, drop, closes, Option.some.injEq] at taken
          obtain rfl := taken
          exact ⟨_, rfl, .overflow sends rfl⟩
        · rw [queued] at taken
          obtain rfl := Option.some.inj taken
          exact ⟨_, rfl, .deliver sends isOpen⟩
  | receive client written =>
      simp only [step, System.receive, Option.ite_none_right_eq_some] at taken
      obtain ⟨pumping, taken⟩ := taken
      split at taken
      case h_1 message send received =>
        obtain rfl := Option.some.inj taken
        exact ⟨_, rfl, .receive pumping (Channel.receive_value received).2⟩
      case h_2 =>
        obtain rfl := Option.some.inj taken
        exact ⟨_, rfl, .ended pumping⟩
      case h_3 => exact nomatch taken

theorem start_sound (input : List UInt8) : (System.start input).Sound where
  distinct := .nil
  unregistered := fun _ _ => ⟨rfl, List.not_mem_nil⟩
  listed := fun _ registered => absurd rfl registered
  greets := fun _ greets => nomatch greets
  sends := fun _ _ sends => nomatch sends
  greeting := rfl
  lines := fun _ heard => nomatch heard

/-- A registered client stays registered, and an open channel open, when only what is queued
changes. -/
theorem Sound.change (sound : system.Sound) {client : Nat} {connection : Connection}
    (registered : (system.client client).phase ≠ .registering)
    (stays : connection.phase ≠ .registering)
    (same : connection.send.closed = (system.client client).send.closed)
    (quiet : system.doing = .greet client → connection.queued = []) :
    (system.setClient client connection).Sound where
  distinct := sound.distinct
  unregistered := by
    intro other registering
    rw [setClient_client] at registering ⊢
    split at registering
    · exact absurd registering stays
    · case isFalse different =>
        rw [if_neg different]
        exact sound.unregistered other registering
  listed := by
    intro other otherRegistered
    rw [setClient_client] at otherRegistered ⊢
    split at otherRegistered
    · case isTrue equal =>
        subst equal
        rw [if_pos rfl, same]
        exact sound.listed other registered
    · case isFalse different =>
        rw [if_neg different]
        exact sound.listed other otherRegistered
  greets := by
    intro other greets
    refine ⟨(sound.greets other greets).1, ?_⟩
    rw [setClient_client]
    split
    · case isTrue equal =>
        subst equal
        exact quiet greets
    · exact (sound.greets other greets).2
  sends := sound.sends
  greeting := sound.greeting
  lines := sound.lines

/-- The hub goes on to another place. -/
theorem Sound.goOn (sound : system.Sound) {doing : Doing}
    (greets : ∀ client, doing = .greet client →
      client ∈ system.connections ∧ (system.client client).queued = [])
    (sends : ∀ message remaining, doing = .send message remaining →
      remaining.Nodup ∧ ∀ client ∈ remaining, client ∈ system.connections) :
    { system with doing := doing }.Sound :=
  { sound with greets := greets, sends := sends }

/-- A dropped client's channel is closed, and the others go on. -/
theorem Sound.dropped (sound : system.Sound) {client : Nat} (connection : Connection)
    (doing : Doing) (stays : connection.phase ≠ .registering)
    (closed : connection.send.closed)
    (greets : ∀ other, doing ≠ .greet other)
    (sends : ∀ message remaining, doing = .send message remaining →
      (client :: remaining).Nodup ∧ ∀ other ∈ remaining, other ∈ system.connections) :
    { system.setClient client connection with
      doing := doing, connections := system.connections.erase client }.Sound where
  distinct := sound.distinct.erase client
  unregistered := by
    intro other registering
    change ((system.setClient client connection).client other).phase = _ at registering
    change (system.setClient client connection).client other = _ ∧ _
    rw [setClient_client] at registering ⊢
    split at registering
    · exact absurd registering stays
    · case isFalse different =>
        rw [if_neg different]
        obtain ⟨fresh, absent⟩ := sound.unregistered other registering
        exact ⟨fresh, fun kept => absent (List.mem_of_mem_erase kept)⟩
  listed := by
    intro other registered
    change ((system.setClient client connection).client other).phase ≠ _ at registered
    change _ ↔ ((system.setClient client connection).client other).send.closed = _
    rw [setClient_client] at registered ⊢
    rw [sound.distinct.mem_erase_iff]
    split at registered
    · case isTrue equal =>
        rw [if_pos equal, closed]
        simp only [equal, ne_eq, not_true_eq_false, false_and, Bool.true_eq_false]
    · case isFalse different =>
        rw [if_neg different, sound.listed other registered]
        exact and_iff_right different
  greets := fun other isGreet => absurd isGreet (greets other)
  sends := by
    intro message remaining isSend
    obtain ⟨distinct, connected⟩ := sends message remaining isSend
    refine ⟨(List.nodup_cons.mp distinct).2, fun other member => ?_⟩
    refine sound.distinct.mem_erase_iff.mpr ⟨?_, connected other member⟩
    intro equal
    exact (List.nodup_cons.mp distinct).1 (equal ▸ member)
  greeting := sound.greeting
  lines := sound.lines

/-- Every move keeps the system sound. -/
theorem Sound.step (sound : system.Sound) (moves : system.Moves act next) : next.Sound := by
  cases moves with
  | @register client selects registering =>
      obtain ⟨fresh, absent⟩ := sound.unregistered client registering
      rw [List.insert_of_not_mem absent]
      refine { sound with
        distinct := ?_, unregistered := ?_, listed := ?_, greets := ?_,
        sends := (fun _ _ sends => nomatch sends) }
      · exact List.nodup_cons.mpr ⟨absent, sound.distinct⟩
      · intro other otherRegistering
        change ((system.setClient client _).client other).phase = _ at otherRegistering
        change (system.setClient client _).client other = _ ∧ _
        rw [setClient_client] at otherRegistering ⊢
        split at otherRegistering
        · exact nomatch otherRegistering
        · case isFalse different =>
            rw [if_neg different, List.mem_cons]
            obtain ⟨otherFresh, otherAbsent⟩ := sound.unregistered other otherRegistering
            exact ⟨otherFresh, fun member => member.elim different otherAbsent⟩
      · intro other otherRegistered
        change ((system.setClient client _).client other).phase ≠ _ at otherRegistered
        change _ ↔ ((system.setClient client _).client other).send.closed = _
        rw [setClient_client] at otherRegistered ⊢
        rw [List.mem_cons]
        split at otherRegistered
        · case isTrue equal =>
            rw [if_pos equal, fresh]
            exact iff_of_true (.inl equal) rfl
        · case isFalse different =>
            rw [if_neg different, or_iff_right different]
            exact sound.listed other otherRegistered
      · intro other greets
        obtain rfl := Doing.greet.inj greets
        refine ⟨List.mem_cons_self, ?_⟩
        change ((system.setClient client _).client client).queued = _
        rw [setClient_client, if_pos rfl, fresh]
        rfl
  | @greet client send greets isOpen =>
      have connected := (sound.greets client greets).1
      obtain ⟨registered, wasOpen⟩ := sound.isOpen connected
      have idle : { system with doing := .select }.Sound :=
        sound.goOn (fun _ greets => nomatch greets) fun _ _ sends => nomatch sends
      exact idle.change registered registered (isOpen.trans wasOpen.symm) fun greets => nomatch greets
  | leave selects absent unregistering =>
      refine sound.change ?_ (fun registering => nomatch registering) rfl fun greets => ?_
      · rw [unregistering]
        exact fun registering => nomatch registering
      · rw [selects] at greets
        exact nomatch greets
  | @unregister client send selects unregistering closed =>
      have onward : { system.setClient client { system.client client with
          send := send, phase := .returned } with
          doing := .select, connections := system.connections.erase client }.Sound :=
        sound.dropped _ .select (fun registering => nomatch registering) closed
          (fun _ greets => nomatch greets) fun _ _ sends => nomatch sends
      rwa [← selects] at onward
  | @broadcast order message input selects read all =>
      refine { sound with
        greets := (fun _ greets => nomatch greets), sends := ?_, greeting := ?_, lines := ?_ }
      · intro sent remaining sends
        obtain ⟨rfl, rfl⟩ := Doing.send.inj sends
        exact ⟨all.nodup_iff.mpr sound.distinct, fun client member => all.mem_iff.mp member⟩
      · change (if system.greeting.length = 0 then message else system.greeting) = _
        rw [sound.greeting]
        cases heard : system.heard with
        | nil => rfl
        | cons first rest =>
            have line := sound.lines first (heard ▸ List.mem_cons_self)
            exact if_neg fun empty => line (List.length_eq_zero_iff.mp empty)
      · intro line member
        rcases List.mem_append.mp member with earlier | last
        · exact sound.lines line earlier
        · rw [List.mem_singleton.mp last]
          exact readBytes_ne_nil read
  | @deliver client remaining message send sends isOpen =>
      obtain ⟨distinct, connected⟩ := sound.sends message _ sends
      obtain ⟨registered, wasOpen⟩ := sound.isOpen (connected client List.mem_cons_self)
      have onward : { system with doing := .send message remaining }.Sound := by
        refine sound.goOn (fun _ greets => nomatch greets) fun sent rest isSend => ?_
        obtain ⟨rfl, rfl⟩ := Doing.send.inj isSend
        exact ⟨(List.nodup_cons.mp distinct).2, fun other member =>
          connected other (List.mem_cons_of_mem _ member)⟩
      exact onward.change registered registered (isOpen.trans wasOpen.symm)
        fun greets => nomatch greets
  | @overflow client remaining message send sends closed =>
      obtain ⟨distinct, connected⟩ := sound.sends message _ sends
      have registered := (sound.isOpen (connected client List.mem_cons_self)).1
      refine sound.dropped { system.client client with send := send } _ registered closed
        (fun _ greets => nomatch greets) fun sent rest isSend => ?_
      obtain ⟨rfl, rfl⟩ := Doing.send.inj isSend
      exact ⟨distinct, fun other member => connected other (List.mem_cons_of_mem _ member)⟩
  | delivered sends => exact sound.goOn (fun _ greets => nomatch greets) fun _ _ sends => nomatch sends
  | @receive client written send pumping same =>
      refine sound.change ?_ ?_ same fun greets => (sound.greets client greets).2
      · rw [pumping]
        exact fun registering => nomatch registering
      · cases written <;> exact fun registering => nomatch registering
  | @ended client written pumping =>
      refine sound.change ?_ (fun registering => nomatch registering) rfl
        fun greets => (sound.greets client greets).2
      rw [pumping]
      exact fun registering => nomatch registering

end System
end Adsbus.AdsbWs

import Adsbus.Sinks.Hub

/-! # What the hub delivers

A client that registers follows the broadcast from there: what the hub queues for it is the
greeting and then the lines broadcast since, in order and each once, up to the one now being
sent. Only a client that has been dropped falls behind.
-/

namespace Adsbus.AdsbWs

namespace System

variable {system next joined : System} {act : Act} {client : Nat}

/-- What a broadcast that is under way has not yet queued for a client. -/
def owed (system : System) (client : Nat) : List Message :=
  match system.doing with
  | .send message remaining => if client ∈ remaining then [message] else []
  | _ => []

theorem owed_select (selects : system.doing = .select) : system.owed client = [] := by
  simp only [owed, selects]

theorem owed_greet {other : Nat} (greets : system.doing = .greet other) :
    system.owed client = [] := by
  simp only [owed, greets]

theorem owed_send {message : Message} {remaining : List Nat}
    (sends : system.doing = .send message remaining) :
    system.owed client = if client ∈ remaining then [message] else [] := by
  simp only [owed, sends]

/-- **A client's messages.** Since the client registered in the state `joined` the hub has
heard `run` and then `rest`; it has queued the greeting of that moment, unless it is just about
to, and `run`. For a connected client `rest` is what is now being sent to it. -/
structure Follows (joined system : System) (client : Nat) (run rest : List Message) : Prop where
  registered : (system.client client).phase ≠ .registering
  heard : system.heard = joined.heard ++ (run ++ rest)
  queued : system.doing = .greet client ∧ system.greeting = joined.greeting ∧
      run = [] ∧ (system.client client).queued = [] ∨
    system.doing ≠ .greet client ∧ (system.client client).queued = joined.greeting :: run
  current : client ∈ system.connections → rest = system.owed client

variable {run rest : List Message}

/-- What a move leaves alone, as far as one client can tell. -/
theorem Follows.quiet (follows : Follows joined system client run rest)
    (registered : (next.client client).phase ≠ .registering) (heard : next.heard = system.heard)
    (queued : (next.client client).queued = (system.client client).queued)
    (doing : next.doing = system.doing ∧ next.greeting = system.greeting ∨
      system.doing ≠ .greet client ∧ next.doing ≠ .greet client)
    (current : client ∈ next.connections →
      client ∈ system.connections ∧ next.owed client = system.owed client) :
    Follows joined next client run rest where
  registered := registered
  heard := heard.trans follows.heard
  queued := by
    rw [queued]
    rcases doing with ⟨same, greeting⟩ | ⟨before, after⟩
    · rw [same, greeting]
      exact follows.queued
    · exact .inr ⟨after, (follows.queued.resolve_left fun greets => before greets.1).2⟩
  current := by
    intro connected
    obtain ⟨wasConnected, same⟩ := current connected
    rw [same]
    exact follows.current wasConnected

/-- A client that changes in its channel and phase only has the same messages queued. -/
theorem setClient_same (other : Nat) (connection : Connection)
    (registered : (system.client client).phase ≠ .registering)
    (stays : connection.phase ≠ .registering)
    (queued : connection.queued = (system.client other).queued) :
    ((system.setClient other connection).client client).phase ≠ .registering ∧
      ((system.setClient other connection).client client).queued =
        (system.client client).queued := by
  rw [setClient_client]
  split
  case isTrue equal => exact ⟨stays, equal ▸ queued⟩
  case isFalse => exact ⟨registered, rfl⟩

/-- A client follows the broadcast from its registration on. -/
theorem Moves.follows (sound : system.Sound) (moves : system.Moves (.register client) next) :
    Follows system next client [] [] := by
  cases moves with
  | register selects registering =>
      have unchanged : ((system.setClient client { system.client client with
          phase := .writePump }).client client).queued = [] := by
        rw [setClient_client, if_pos rfl, (sound.unregistered client registering).1]
        rfl
      refine ⟨?_, (List.append_nil _).symm, .inl ⟨rfl, rfl, rfl, unchanged⟩, fun _ => rfl⟩
      change ((system.setClient client _).client client).phase ≠ _
      rw [setClient_client, if_pos rfl]
      exact fun registering => nomatch registering

/-- Every move keeps a client following the broadcast. -/
theorem Follows.step (follows : Follows joined system client run rest) (sound : system.Sound)
    (moves : system.Moves act next) : ∃ run rest, Follows joined next client run rest := by
  have registered := follows.registered
  cases moves with
  | @register other selects registering =>
      have different : client ≠ other := by
        intro equal
        subst equal
        exact registered registering
      obtain ⟨phase, queued⟩ := setClient_same other
        { system.client other with phase := .writePump } registered (fun registering => by cases registering)
        rfl
      refine ⟨run, rest, follows.quiet phase rfl queued (.inr ⟨?_, ?_⟩) fun connected => ?_⟩
      · rw [selects]
        exact fun greets => by cases greets
      · intro greets
        exact different (Doing.greet.inj greets).symm
      · refine ⟨(List.mem_insert_iff.mp connected).resolve_left different, ?_⟩
        rw [owed_select selects]
        rfl
  | @greet other send greets isOpen =>
      by_cases equal : client = other
      · subst equal
        obtain ⟨-, greeting, rfl, queued⟩ :=
          follows.queued.resolve_right fun elsewhere => elsewhere.1 greets
        refine ⟨[], rest, ⟨?_, follows.heard, .inr ⟨(fun greets => by cases greets), ?_⟩, ?_⟩⟩
        · change ((system.queue client send system.greeting).client client).phase ≠ _
          rw [queue_client, if_pos rfl]
          exact registered
        · change ((system.queue client send system.greeting).client client).queued = _
          rw [queue_client, if_pos rfl, ← greeting]
          change (system.client client).queued ++ _ = _
          rw [queued]
          rfl
        · intro connected
          rw [follows.current connected, owed_greet greets]
          rfl
      · refine ⟨run, rest, follows.quiet ?_ rfl ?_ (.inr ⟨?_, fun greets => by cases greets⟩)
          fun connected => ⟨connected, (owed_greet greets).symm⟩⟩
        · change ((system.queue other send system.greeting).client client).phase ≠ _
          rw [queue_client, if_neg equal]
          exact registered
        · change ((system.queue other send system.greeting).client client).queued = _
          rw [queue_client, if_neg equal]
        · rw [greets]
          exact fun same => equal (Doing.greet.inj same).symm
  | @leave other selects absent unregistering =>
      obtain ⟨phase, queued⟩ := setClient_same other { system.client other with phase := .returned }
        registered (fun registering => by cases registering) rfl
      exact ⟨run, rest, follows.quiet phase rfl queued (.inl ⟨rfl, rfl⟩) fun connected =>
        ⟨connected, rfl⟩⟩
  | @unregister other send selects unregistering closed =>
      obtain ⟨phase, queued⟩ := setClient_same other { system.client other with
          send := send, phase := .returned } registered (fun registering => by cases registering) rfl
      exact ⟨run, rest, follows.quiet phase rfl queued (.inl ⟨rfl, rfl⟩) fun connected =>
        ⟨List.mem_of_mem_erase connected, rfl⟩⟩
  | @broadcast order message input selects read all =>
      refine ⟨run, rest ++ [message], ⟨registered, ?_, .inr ⟨(fun greets => by cases greets), ?_⟩, ?_⟩⟩
      · change system.heard ++ [message] = _
        rw [follows.heard]
        simp only [List.append_assoc]
      · refine (follows.queued.resolve_left fun greets => ?_).2
        rw [selects] at greets
        cases greets.1
      · intro connected
        rw [follows.current connected, owed_select selects, owed_send rfl,
          if_pos (all.mem_iff.mpr connected)]
        rfl
  | @deliver other remaining message send sends isOpen =>
      obtain ⟨distinct, connected⟩ := sound.sends message _ sends
      have notGreeting : system.doing ≠ .greet client := by
        rw [sends]
        exact fun greets => by cases greets
      by_cases equal : client = other
      · subst equal
        have queued := (follows.queued.resolve_left fun greets => notGreeting greets.1).2
        have current := follows.current (connected client List.mem_cons_self)
        rw [owed_send sends, if_pos List.mem_cons_self] at current
        refine ⟨run ++ [message], [], ⟨?_, ?_, .inr ⟨(fun greets => by cases greets), ?_⟩, ?_⟩⟩
        · change ((system.queue client send message).client client).phase ≠ _
          rw [queue_client, if_pos rfl]
          exact registered
        · change system.heard = _
          rw [follows.heard, current, List.append_nil]
        · change ((system.queue client send message).client client).queued = _
          rw [queue_client, if_pos rfl]
          change (system.client client).queued ++ _ = _
          rw [queued]
          rfl
        · intro _
          rw [owed_send rfl, if_neg (List.nodup_cons.mp distinct).1]
      · refine ⟨run, rest, follows.quiet ?_ rfl ?_
          (.inr ⟨notGreeting, fun greets => by cases greets⟩) fun connected => ⟨connected, ?_⟩⟩
        · change ((system.queue other send message).client client).phase ≠ _
          rw [queue_client, if_neg equal]
          exact registered
        · change ((system.queue other send message).client client).queued = _
          rw [queue_client, if_neg equal]
        · rw [owed_send sends, owed_send rfl]
          simp only [List.mem_cons, equal, false_or]
  | @overflow other remaining message send sends closed =>
      have notGreeting : system.doing ≠ .greet client := by
        rw [sends]
        exact fun greets => by cases greets
      obtain ⟨phase, queued⟩ := setClient_same other { system.client other with send := send }
        registered ((sound.isOpen ((sound.sends message _ sends).2 other List.mem_cons_self)).1) rfl
      refine ⟨run, rest, follows.quiet phase rfl queued
        (.inr ⟨notGreeting, fun greets => by cases greets⟩) fun connected => ?_⟩
      obtain ⟨different, stayed⟩ := sound.distinct.mem_erase_iff.mp connected
      refine ⟨stayed, ?_⟩
      rw [owed_send sends, owed_send rfl]
      simp only [List.mem_cons, different, false_or]
  | delivered sends =>
      refine ⟨run, rest, follows.quiet registered rfl rfl (.inr ⟨?_, fun greets => by cases greets⟩)
        fun connected => ⟨connected, ?_⟩⟩
      · rw [sends]
        exact fun greets => by cases greets
      · rw [owed_send sends]
        rfl
  | @receive other written send pumping same =>
      obtain ⟨phase, queued⟩ := setClient_same other { system.client other with
          send := send, phase := if written then .writePump else .unregistering } registered
        (by cases written <;> exact Phase.noConfusion) rfl
      exact ⟨run, rest, follows.quiet phase rfl queued (.inl ⟨rfl, rfl⟩) fun connected =>
        ⟨connected, rfl⟩⟩
  | @ended other written pumping =>
      obtain ⟨phase, queued⟩ := setClient_same other { system.client other with
          phase := .unregistering } registered (fun registering => by cases registering) rfl
      exact ⟨run, rest, follows.quiet phase rfl queued (.inl ⟨rfl, rfl⟩) fun connected =>
        ⟨connected, rfl⟩⟩

/-- What has been heard so far starts with the first line of the input. -/
def Hears (input : List UInt8) (system : System) : Prop :=
  system.heard = [] ∧ system.input = input ∨
    ∃ first left, readBytes input = some (first, left) ∧ system.heard.head? = some first

theorem Hears.step {input : List UInt8} (hears : system.Hears input) (moves : system.Moves act next) :
    next.Hears input := by
  cases moves with
  | broadcast selects read all =>
      refine .inr ?_
      rcases hears with ⟨silent, untouched⟩ | ⟨first, left, firstRead, heard⟩
      · refine ⟨_, _, untouched ▸ read, ?_⟩
        change (system.heard ++ _).head? = _
        rw [silent]
        rfl
      · refine ⟨first, left, firstRead, ?_⟩
        change (system.heard ++ _).head? = _
        rw [List.head?_append, heard]
        rfl
  | register | greet | leave | unregister | deliver | overflow | delivered | receive | ended =>
      exact hears

/-- The first message of a client that is not empty is the first one heard. -/
theorem Follows.first (follows : Follows joined system client run rest)
    (greeting : joined.greeting = joined.heard.head?.getD []) (lines : ∀ line ∈ system.heard, line ≠ [])
    {message : Message}
    (first : (system.client client).queued.find? (fun line => line ≠ []) = some message) :
    system.heard.head? = some message := by
  rcases follows.queued with ⟨-, -, -, queued⟩ | ⟨-, queued⟩
  · rw [queued] at first
    exact nomatch first
  · rw [queued, greeting] at first
    rw [follows.heard]
    cases heard : joined.heard with
    | nil =>
        rw [heard] at first
        cases run with
        | nil => exact nomatch first
        | cons line run =>
            have present : line ∈ system.heard := by
              rw [follows.heard]
              exact List.mem_append_right _ (List.mem_append_left _ List.mem_cons_self)
            simp only [List.head?_nil, Option.getD_none, ne_eq, not_true_eq_false, decide_false,
              Bool.false_eq_true, not_false_eq_true, List.find?_cons_of_neg, lines line present,
              decide_true, List.find?_cons_of_pos, Option.some.injEq] at first
            rw [← first]
            rfl
    | cons line earlier =>
        have present : line ∈ system.heard := by
          rw [follows.heard, heard]
          exact List.mem_append_left _ List.mem_cons_self
        simp only [heard, List.head?_cons, Option.getD_some, ne_eq, lines line present,
          not_false_eq_true, decide_true, List.find?_cons_of_pos, Option.some.injEq] at first
        rw [← first]
        rfl

end System

/-- A step of the program, which ends when the hub panics. -/
def Taken : Except ChannelPanic System → Act → Except ChannelPanic System → Prop
  | .ok system, act, outcome => system.step act = some outcome
  | .error _, _, _ => False

variable {input : List UInt8} {trace : List (Except ChannelPanic System × Act)}
  {outcome : Except ChannelPanic System}

/-- What a run keeps: the hub has not panicked, and every client follows the broadcast from
where it registered. -/
theorem Run.follows (taken : Run Taken (.ok (.start input)) trace outcome) :
    ∃ system, outcome = .ok system ∧ system.Sound ∧ system.Hears input ∧
      ∀ joined client, (.ok joined, .register client) ∈ trace →
        joined.Sound ∧ ∃ run rest, System.Follows joined system client run rest := by
  induction taken with
  | start =>
      exact ⟨_, rfl, System.start_sound input, .inl ⟨rfl, rfl⟩, fun _ _ joins => nomatch joins⟩
  | step earlier taken ih =>
      obtain ⟨system, rfl, sound, hears, follows⟩ := ih
      obtain ⟨next, rfl, moves⟩ := sound.moves taken
      refine ⟨next, rfl, sound.step moves, hears.step moves, fun joined client joins => ?_⟩
      rcases List.mem_cons.mp joins with now | before
      · obtain ⟨same, rfl⟩ := Prod.mk.inj now
        obtain rfl := Except.ok.inj same
        exact ⟨sound, [], [], moves.follows sound⟩
      · obtain ⟨joinedSound, run, rest, followed⟩ := follows joined client before
        exact ⟨joinedSound, followed.step sound moves⟩

/-- **The hub.** Whatever the order of its steps, the hub never sends on a closed channel and
never closes one twice; once registered a client is connected exactly while its channel is open;
it is sent the greeting of the moment it registered and then a contiguous run of what is
broadcast after it, complete while it is connected; and its first message that is not empty is
the first line of the input. -/
theorem hub_delivers (taken : Run Taken (.ok (.start input)) trace outcome) :
    ∃ system, outcome = .ok system ∧
      (∀ client, if (system.client client).phase = .registering then
          client ∉ system.connections ∧ (system.client client).queued = []
        else client ∈ system.connections ↔ (system.client client).send.closed = false) ∧
      ∀ joined client, (.ok joined, .register client) ∈ trace →
        ∃ run rest, System.Follows joined system client run rest ∧
          ∀ message, (system.client client).queued.find? (fun line => line ≠ []) = some message →
            ∃ left, readBytes input = some (message, left) := by
  obtain ⟨system, same, sound, hears, follows⟩ := Run.follows taken
  refine ⟨system, same, fun client => ?_, fun joined client joins => ?_⟩
  · by_cases registering : (system.client client).phase = .registering
    · obtain ⟨fresh, absent⟩ := sound.unregistered client registering
      rw [if_pos registering, fresh]
      exact ⟨absent, rfl⟩
    · rw [if_neg registering]
      exact sound.listed client registering
  · obtain ⟨joinedSound, run, rest, followed⟩ := follows joined client joins
    refine ⟨run, rest, followed, fun message first => ?_⟩
    have heard := followed.first joinedSound.greeting sound.lines first
    rcases hears with ⟨silent, -⟩ | ⟨line, left, read, isFirst⟩
    · rw [silent] at heard
      exact nomatch heard
    · rw [isFirst] at heard
      obtain rfl := Option.some.inj heard
      exact ⟨left, read⟩

/-- A client that registers before the line `a` is broadcast gets the empty greeting and it. -/
theorem hub_delivers_line :
    ∃ trace system, Run Taken (.ok (.start [97, 10])) trace (.ok system) ∧
      (system.client 0).queued = [[], [97, 10]] ∧ 0 ∈ system.connections ∧
      (system.client 0).send.closed = false := by
  have steps : ∃ joined greeted told queued,
      Taken (.ok (.start [97, 10])) (.register 0) (.ok joined) ∧
      Taken (.ok joined) .greet (.ok greeted) ∧ Taken (.ok greeted) (.broadcast [0]) (.ok told) ∧
      Taken (.ok told) .deliver (.ok queued) ∧ (queued.client 0).phase = .writePump ∧
      (queued.client 0).queued = [[], [97, 10]] ∧ queued.connections = [0] :=
    ⟨_, _, _, _, rfl, rfl, rfl, rfl, rfl, rfl, rfl⟩
  obtain ⟨joined, greeted, told, queued, registers, greets, broadcasts, delivers, pumping, messages,
    connected⟩ := steps
  have run := (((Run.start.step registers).step greets).step broadcasts).step delivers
  obtain ⟨system, same, listed, -⟩ := hub_delivers run
  obtain rfl := Except.ok.inj same
  have isOpen := listed 0
  rw [if_neg (by rw [pumping]; exact Phase.noConfusion), connected] at isOpen
  refine ⟨_, _, run, messages, ?_, isOpen.mp List.mem_cons_self⟩
  rw [connected]
  exact List.mem_cons_self

end Adsbus.AdsbWs

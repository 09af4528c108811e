import Adsbus.Flow.Framed
import Adsbus.Foundation.Script

/-! # Receiving records

A json or a proto connection reads a sequence of records, the first of which is a
header. What a record does depends on those before it, so the connection follows
a script (`Adsbus.Records.script`) that is found by parsing record after record.
Which format it is shows in the first record: the other parsers must find
nothing in it (`Adsbus.Alone`).
-/

namespace Adsbus

open Reader

/-- A format that is a sequence of records: the parser of its records, their texts, and the padding
that may stand between them. -/
structure Records (server : Server) (ω : Type) where
  format : Format
  opening : UInt8
  pad : UInt8 → Bool
  parseRecord : ω → Packet → ParserState → Except Fault (Bool × Packet × ParserState)
  IsText : Bytes → ω → Prop
  opens : ∀ {text record}, IsText text record → ∃ rest, text = opening :: rest
  unpadded : pad opening = false
  accept : ∀ {attempt : Attempt} {text record gap more packet state}, attempt.buf.Valid →
    IsText text record → (∀ c ∈ gap, pad c = true) →
    attempt.buf.window = gap ++ (text ++ more) →
    parseRecord record attempt.packet attempt.state = .ok (true, packet, state) →
      ∃ rest, format.parse server attempt =
          .ok (true, { buf := rest, packet := packet, state := state }) ∧
        rest.Valid ∧ rest.window = more.dropWhile pad
  reject : ∀ {attempt : Attempt} {text record gap part}, attempt.buf.Valid →
    IsText text record → (∀ c ∈ gap, pad c = true) → part <+: text → part ≠ text →
    attempt.buf.window = gap ++ part → format.parse server attempt = .ok (false, attempt)
  finish : ∀ {attempt : Attempt}, attempt.buf.Valid →
    (∀ c ∈ attempt.buf.window, pad c = true) → format.parse server attempt = .ok (false, attempt)

variable {server : Server} {ω : Type}

/-- No other format finds something in a text or in a part of it. -/
def Alone (server : Server) (format : Format) (text : Bytes) : Prop :=
  ∀ other ≠ format, ∀ attempt : Attempt, attempt.buf.Valid → attempt.buf.window ≠ [] →
    (attempt.buf.window <+: text ∨ text <+: attempt.buf.window) →
      ∃ packet, other.parse server attempt = .ok (false, { attempt with packet := packet })

/-- The framed formats find nothing in a window that starts with none of their marks. -/
theorem Format.parse_unmarked {format : Format} (framed : format ∈ Format.framed)
    {attempt : Attempt} (valid : attempt.buf.Valid) {first : UInt8}
    (begins : attempt.buf.window[0]? = some first) (unmarked : first ≠ format.first)
    (star : first ≠ '*'.toUInt8) :
    ∃ packet, format.parse server attempt = .ok (false, { attempt with packet := packet }) := by
  have nothing : format.code.front attempt.buf.window = none := by
    cases found : format.code.front attempt.buf.window with
    | none => rfl
    | some result =>
        have mark := (format.code_marked found).1
        rw [begins, Option.some.injEq] at mark
        exact absurd mark unmarked
  obtain ⟨packet, state, parsed, left⟩ := @Format.parse_reject server format framed attempt valid nothing
  rcases left with rfl | ⟨_, spent, _⟩
  · exact ⟨packet, parsed⟩
  · rw [begins, Option.some.injEq] at spent
    exact absurd spent star

/-- Trying the formats finds the one whose record it is. -/
theorem receiveAutodetectLoop_alone {format : Format} {text : Bytes}
    (alone : Alone server format text) {formats : List Format} (member : format ∈ formats)
    {attempt after : Attempt} (valid : attempt.buf.Valid) (nonempty : attempt.buf.window ≠ [])
    (inside : attempt.buf.window <+: text ∨ text <+: attempt.buf.window)
    (parsed : format.parse server attempt = .ok (true, after)) :
    receiveAutodetectLoop server attempt.packet formats attempt = .ok (some format, after) := by
  induction formats with
  | nil => exact (List.not_mem_nil member).elim
  | cons head formats ih =>
      rw [receiveAutodetectLoop]
      by_cases same : head = format
      · rw [same, parsed]
        rfl
      · have later := (List.mem_cons.mp member).resolve_left (Ne.symm same)
        obtain ⟨packet, rejected⟩ := alone head same attempt valid nonempty inside
        rw [rejected, Except.ok_bind]
        simp only [Bool.false_eq_true, ↓reduceIte, ne_eq, List.ne_nil_of_mem later,
          not_false_eq_true]
        exact ih later

/-- Trying the formats on a part of a record finds nothing. -/
theorem receiveAutodetectLoop_part {format : Format} {text : Bytes}
    (alone : Alone server format text) (origPacket : Packet) (formats : List Format)
    {attempt : Attempt} (valid : attempt.buf.Valid) (nonempty : attempt.buf.window ≠ [])
    (inside : attempt.buf.window <+: text)
    (rejected : ∀ packet, format.parse server { attempt with packet := packet } =
      .ok (false, { attempt with packet := packet })) :
    ∃ packet, receiveAutodetectLoop server origPacket formats attempt =
      .ok (none, { attempt with packet := packet }) := by
  induction formats generalizing attempt with
  | nil => exact ⟨attempt.packet, rfl⟩
  | cons head formats ih =>
      obtain ⟨packet, failed⟩ : ∃ packet,
          head.parse server attempt = .ok (false, { attempt with packet := packet }) := by
        by_cases same : head = format
        · rw [same]
          exact ⟨attempt.packet, rejected attempt.packet⟩
        · exact alone head same attempt valid nonempty (.inl inside)
      rw [receiveAutodetectLoop, failed, Except.ok_bind]
      simp only [Bool.false_eq_true, ↓reduceIte]
      split
      · exact @ih { attempt with packet := origPacket } valid nonempty inside rejected
      · exact ⟨packet, rfl⟩

namespace Records

variable (records : Records server ω)

/-- The script of some records: what each gives, from a state on. Padding may stand before all of
them but a first. -/
def script (base : Packet) : ParserState → (led : Bool) → List (Bytes × ω) →
    Option (List (Item UInt8 Packet))
  | _, _, [] => some []
  | state, led, (text, record) :: items =>
      match records.parseRecord record base state with
      | .ok (true, packet, state) =>
          (script base state true items).map fun rest =>
            { frame := text, outputs := passedOn server packet, led := led } :: rest
      | _ => none

variable {records}

theorem script_of_parsed {base packet : Packet} {state after : ParserState} {text : Bytes}
    {record : ω} {items : List (Bytes × ω)} {scripted : List (Item UInt8 Packet)}
    (parsed : records.parseRecord record base state = .ok (true, packet, after))
    (rest : records.script base after true items = some scripted) (led : Bool) :
    records.script base state led ((text, record) :: items) =
      some ({ frame := text, outputs := passedOn server packet, led := led } :: scripted) := by
  simp only [Records.script, parsed, rest, Option.map_some]

theorem script_cons {base : Packet} {state : ParserState} {led : Bool} {text : Bytes} {record : ω}
    {items : List (Bytes × ω)} {scripted : List (Item UInt8 Packet)}
    (script : records.script base state led ((text, record) :: items) = some scripted) :
    ∃ packet after rest,
      records.parseRecord record base state = .ok (true, packet, after) ∧
      records.script base after true items = some rest ∧
      scripted = { frame := text, outputs := passedOn server packet, led := led } :: rest := by
  simp only [Records.script] at script
  split at script
  · rename_i packet after parsed
    obtain ⟨rest, scripted', same⟩ := Option.map_eq_some_iff.mp script
    exact ⟨packet, after, rest, parsed, scripted', same.symm⟩
  · cases script

/-- A connection that is about to read some records, with or without having chosen its parser. -/
inductive Mode (records : Records server ω) (base : Packet) (receive : Receive) :
    List (Bytes × ω) → List (Item UInt8 Packet) → Prop
  | locked {items : List (Bytes × ω)} {scripted : List (Item UInt8 Packet)}
      (parser : receive.parser = some records.format)
      (script : records.script base receive.parserState true items = some scripted) :
      Mode records base receive items scripted
  | fresh {text : Bytes} {record : ω} {items : List (Bytes × ω)}
      {scripted : List (Item UInt8 Packet)} (parser : receive.parser = none)
      (alone : Alone server records.format text)
      (script : records.script base receive.parserState false ((text, record) :: items) =
        some scripted) : Mode records base receive ((text, record) :: items) scripted

/-- A connection as a reader of records. -/
structure Ready (records : Records server ω) (start receive : Receive)
    (scripted : List (Item UInt8 Packet)) : Prop where
  id : receive.id = start.id
  stat : receive.stat = start.stat
  valid : receive.buf.Valid
  mode : ∃ items, (∀ item ∈ items, records.IsText item.1 item.2) ∧
    records.Mode (receivePacket start) receive items scripted

variable {start receive : Receive} {scripted : List (Item UInt8 Packet)}

theorem Ready.packet (isReady : records.Ready start receive scripted) :
    receivePacket receive = receivePacket start := by
  simp only [receivePacket, isReady.id, isReady.stat]

/-- The frames of a script are the texts of its records. -/
theorem script_begins {base : Packet} {state : ParserState} {led : Bool} {items : List (Bytes × ω)}
    (texts : ∀ item ∈ items, records.IsText item.1 item.2)
    (script : records.script base state led items = some scripted) :
    ∀ item ∈ scripted, item.Begins records.pad := by
  induction items generalizing state led scripted with
  | nil =>
      cases script
      exact fun item member => (List.not_mem_nil member).elim
  | cons head items ih =>
      obtain ⟨text, record⟩ := head
      obtain ⟨packet, after, rest, _, script', rfl⟩ := script_cons script
      obtain ⟨here, later⟩ := List.forall_mem_cons.mp texts
      refine List.forall_mem_cons.mpr ⟨?_, ih later script'⟩
      obtain ⟨others, opens⟩ := records.opens here
      exact ⟨records.opening, others, opens, records.unpadded⟩

/-- A complete record is taken by the parser of the connection, and chooses it. -/
theorem Ready.accept {item : Item UInt8 Packet} {gap more : Bytes}
    (isReady : records.Ready start receive (item :: scripted)) (leads : item.Leads records.pad gap)
    (window : receive.buf.window = gap ++ (item.frame ++ more)) :
    ∃ taken, (receiveReader server).turn receive = .ok (true, taken, item.outputs) ∧
      records.Ready start taken scripted ∧ taken.buf.window = more.dropWhile records.pad := by
  have valid := isReady.valid
  have base := isReady.packet
  obtain ⟨items, texts, mode⟩ := isReady.mode
  cases mode with
  | locked parser script =>
      cases items with
      | nil => cases script
      | cons head items =>
          obtain ⟨text, record⟩ := head
          obtain ⟨packet, after, rest, parsed, script', same⟩ := script_cons script
          cases same
          obtain ⟨here, later⟩ := List.forall_mem_cons.mp texts
          obtain ⟨buf, found, valid', left⟩ := @Records.accept _ _ records
            { buf := receive.buf, packet := receivePacket receive, state := receive.parserState }
            text record gap more packet after valid here (fun c member => (leads c member).2) window
            (by rw [base]; exact parsed)
          refine ⟨{ receive with buf := buf, parserState := after }, ?_,
            ⟨isReady.id, isReady.stat, valid', items, later, .locked parser script'⟩, left⟩
          exact turn_of_found (by
            simp only [receiveParse, parser, receiveParseWrapper, found, Except.ok_bind,
              Except.pure_eq_ok])
  | @fresh text record items scripted parser alone script =>
      obtain ⟨packet, after, rest, parsed, script', same⟩ := script_cons script
      cases same
      obtain ⟨here, later⟩ := List.forall_mem_cons.mp texts
      have tight : gap = [] := by
        cases gap with
        | nil => rfl
        | cons c gap => exact absurd (leads c List.mem_cons_self).1 Bool.false_ne_true
      subst tight
      obtain ⟨buf, found, valid', left⟩ := @Records.accept _ _ records
        { buf := receive.buf, packet := receivePacket receive, state := receive.parserState }
        text record [] more packet after valid here (fun c member => (List.not_mem_nil member).elim)
        window (by rw [base]; exact parsed)
      have all : records.format ∈ Format.all := by cases records.format <;> decide
      obtain ⟨others, opens⟩ := records.opens here
      change receive.buf.window = text ++ more at window
      change text = _ at opens
      have nonempty : receive.buf.window ≠ [] := by
        rw [window, opens]
        exact List.cons_ne_nil _ _
      have detected := @receiveAutodetectLoop_alone server records.format text alone Format.all all
        { buf := receive.buf, packet := receivePacket receive, state := receive.parserState } _ valid
        nonempty (.inr (by rw [window]; exact List.prefix_append _ _)) found
      refine ⟨{ receive with
        buf := buf, parserState := after, parser := some records.format }, ?_,
        ⟨isReady.id, isReady.stat, valid', items, later, .locked rfl script'⟩, left⟩
      exact turn_of_found (by
        simp only [receiveParse, parser, receiveAutodetectParse, detected, Except.ok_bind,
          Except.pure_eq_ok, Option.isSome_some])

/-- Less than a record is left. -/
theorem Ready.reject (isReady : records.Ready start receive scripted)
    (waiting : Waiting records.pad scripted receive.buf.window)
    (nonempty : receive.buf.window ≠ []) :
    (receiveReader server).turn receive = .ok (false, receive, []) := by
  have valid := isReady.valid
  obtain ⟨items, texts, mode⟩ := isReady.mode
  generalize view : receive.buf.window = window at waiting nonempty
  cases mode with
  | locked parser script =>
      have rejected : records.format.parse server
          { buf := receive.buf, packet := receivePacket receive, state := receive.parserState } =
          .ok (false,
            { buf := receive.buf, packet := receivePacket receive, state := receive.parserState }) := by
        cases waiting with
        | nil padding => exact records.finish valid (by rw [view]; exact padding)
        | cons leads inside proper =>
            cases items with
            | nil => cases script
            | cons head items =>
                obtain ⟨text, record⟩ := head
                obtain ⟨packet, after, rest, parsed, script', same⟩ := script_cons script
                cases same
                exact records.reject valid (texts _ List.mem_cons_self)
                  (fun c member => (leads c member).2) inside proper view
      have same : { receive with parser := some records.format : Receive } = receive := by
        rw [← parser]
      refine @turn_of_not_found _ _ _ (receivePacket receive) ?_
      simp only [receiveParse, parser, receiveParseWrapper, rejected, Except.ok_bind,
        Except.pure_eq_ok]
      rw [same]
  | @fresh text record items scripted parser alone script =>
      obtain ⟨packet, after, rest, parsed, script', same⟩ := script_cons script
      cases same
      cases waiting with
      | @cons _ _ gap part leads inside proper =>
          have tight : gap = [] := by
            cases gap with
            | nil => rfl
            | cons c gap => exact absurd (leads c List.mem_cons_self).1 Bool.false_ne_true
          subst tight
          rw [List.nil_append] at view nonempty
          obtain ⟨left, looped⟩ := @receiveAutodetectLoop_part server records.format text alone
            (receivePacket receive) Format.all
            { buf := receive.buf, packet := receivePacket receive, state := receive.parserState }
            valid (by rw [view]; exact nonempty) (by rw [view]; exact inside)
            (fun packet => @Records.reject _ _ records
              { buf := receive.buf, packet := packet, state := receive.parserState } text record []
              part valid (texts _ List.mem_cons_self)
              (fun c member => (List.not_mem_nil member).elim) inside proper view)
          have same : { receive with parser := none : Receive } = receive := by
            rw [← parser]
          refine @turn_of_not_found _ _ _ left ?_
          simp only [receiveParse, parser, receiveAutodetectParse, looped, Except.ok_bind,
            Except.pure_eq_ok, Option.isSome_none]
          rw [same]

variable (records)

/-- **The record formats.** A connection follows the script of the records that it reads. -/
theorem follows (start : Receive) :
    (receiveReader server).Follows records.pad (records.Ready start) where
  unread isReady := isReady.valid.window_length.symm
  fill := by
    intro receive scripted chunk isReady notFull short
    obtain ⟨filled, fill, valid, _, window⟩ := isReady.valid.fill notFull chunk short
    refine ⟨{ receive with buf := filled }, ?_, ⟨isReady.id, isReady.stat, valid, ?_⟩, window⟩
    · change (bufFill receive.buf chunk >>= _) = _
      rw [fill]
      rfl
    · obtain ⟨items, texts, mode⟩ := isReady.mode
      refine ⟨items, texts, ?_⟩
      cases mode with
      | locked parser script => exact .locked parser script
      | fresh parser alone script => exact .fresh parser alone script
  begins := by
    intro receive scripted isReady
    obtain ⟨items, texts, mode⟩ := isReady.mode
    cases mode with
    | locked _ script => exact script_begins texts script
    | fresh _ _ script => exact script_begins texts script
  accept isReady leads window := isReady.accept leads window
  reject isReady waiting nonempty := ⟨_, isReady.reject waiting nonempty, isReady, rfl⟩

theorem hungry (start : Receive) : (receiveReader server).Hungry (records.Ready start) :=
  fun isReady notFull => isReady.valid.room_pos notFull

variable {records}

/-- A connection that has read all its records has chosen its parser. -/
theorem Ready.parser (isReady : records.Ready start receive []) :
    receive.parser = some records.format := by
  obtain ⟨items, texts, mode⟩ := isReady.mode
  generalize none : ([] : List (Item UInt8 Packet)) = scripted at mode
  cases mode with
  | locked parser _ => exact parser
  | fresh _ _ script =>
      obtain ⟨_, _, _, _, _, same⟩ := script_cons script
      rw [same] at none
      cases none

/-- A fresh connection is ready for a first record that no other format finds. -/
theorem ready_receiveNew (random : Cells UInt8 16) (stat : Stat) (memory : Cells UInt8 bufLenMax)
    {text : Bytes} {record : ω} {items : List (Bytes × ω)}
    (texts : ∀ item ∈ (text, record) :: items, records.IsText item.1 item.2)
    (alone : Alone server records.format text)
    (script : records.script (receivePacket (receiveNew random stat memory)) parserStateInit false
      ((text, record) :: items) = some scripted) :
    records.Ready (receiveNew random stat memory) (receiveNew random stat memory) scripted :=
  ⟨rfl, rfl, Buf.valid_bufInit memory, _, texts, .fresh rfl alone script⟩

/-- A fresh connection that reads a text of the script of some records, however cut, sends what
they give. -/
theorem run_script {random : Cells UInt8 16} {stat : Stat} {memory : Cells UInt8 bufLenMax}
    (isReady : records.Ready (receiveNew random stat memory) (receiveNew random stat memory) scripted)
    {cuts : List Bytes} (spaced : Spaced records.pad bufLenMax scripted cuts.flatten)
    (fits : (receiveReader server).Fits ⟨receiveNew random stat memory, .live⟩ cuts) :
    ∃ final, receiveRun server sendLog ⟨receiveNew random stat memory, .live⟩ [] cuts =
        .ok (⟨final, .live⟩, scripted.flatMap Item.outputs) ∧
      final.parser = some records.format := by
  have follows := records.follows (receiveNew random stat memory)
  have empty : (receiveReader server).window (receiveNew random stat memory) = [] :=
    Buf.window_bufInit memory
  obtain ⟨final, ran, done, _⟩ := follows.run isReady cuts
    (by rw [empty]; exact spaced)
    (by rw [empty]; exact Spaced.stalled (follows.begins isReady) spaced)
    (by rw [empty]; exact (by decide : 0 < bufLenMax)) fits
  exact ⟨final, receiveRun_log ran, done.parser⟩

end Records

end Adsbus

import Adsbus.Flow.FanOut
import Adsbus.Flow.Gate
import Adsbus.Formats.Hops
import Mathlib.Algebra.BigOperators.Group.Multiset.Basic
import Mathlib.Data.Fintype.Lattice

/-! # Networks

Instances of the program that are joined by json and proto links. What an instance writes to a link
is on its way until the instance at the other end reads it. Nothing is assumed of the order in which
texts are read, nor of the connections that read them: each is in any state in which it finds the
text at the front of its buffer. A text may also be lost, and any text may come from outside.

The limit of an instance is any number of 32 bits (`Adsbus.receiveInit_onto`).

With each text goes what no instance sees: which text from outside it is a copy of, and the hops of
the copies before it (`Adsbus.Flight.trail`).
-/

namespace Adsbus

/-! ## Limits -/

/-- `isspace`. -/
def isspace (c : UInt8) : Bool := c = 32 || 9 ≤ c && c ≤ 13

/-- `isdigit`. -/
def isdigit (c : UInt8) : Bool := 48 ≤ c && c ≤ 57

/-- `strtoul` with base 10: the number, and the characters behind it. -/
def strtoul (text : Bytes) : UInt64 × Bytes :=
  let spaceless := text.dropWhile isspace
  let negative := spaceless.head? = some '-'.toUInt8
  let body := if negative ∨ spaceless.head? = some '+'.toUInt8 then spaceless.tail else spaceless
  let digits := body.takeWhile isdigit
  if digits = [] then (0, text)
  else
    let value := digits.foldl (fun value c => value * 10 + (c - 48).toNat) 0
    (if value ≥ 2 ^ 64 then 0xffffffffffffffff
      else if negative then -UInt64.ofNat value else UInt64.ofNat value,
      body.drop digits.length)

/-- `receive_init` with the value of `ADSBUS_MAX_HOPS`: `receive_max_hops`, or nothing when an
assertion fails. -/
def receiveInit : Option CString → Option UInt32
  | none => some 10
  | some maxHops =>
      let (maxHopsUl, endPtr) := strtoul maxHops.bytes
      if maxHops.bytes = [] then none
      else if endPtr ≠ [] then none
      else if maxHopsUl > 0xffffffff then none
      else some maxHopsUl.toUInt32

theorem digit_spec {value : Nat} (small : value < 10) :
    isdigit (Json.digit value) = true ∧ isspace (Json.digit value) = false ∧
      Json.digit value ≠ 45 ∧ Json.digit value ≠ 43 ∧ Json.digit value ≠ 0 ∧
      (Json.digit value - 48).toNat = value := by
  have all : ∀ value : Fin 10, isdigit (Json.digit value) = true ∧
      isspace (Json.digit value) = false ∧ Json.digit value ≠ 45 ∧ Json.digit value ≠ 43 ∧
      Json.digit value ≠ 0 ∧ (Json.digit value - 48).toNat = value := by decide
  exact all ⟨value, small⟩

/-- The text of a number is read as that number. -/
theorem strtoul_digits {digits : List Nat} (nonempty : digits ≠ [])
    (small : ∀ value ∈ digits, value < 10)
    (fits : digits.foldl (fun value digit => value * 10 + digit) 0 < 2 ^ 64) :
    strtoul (digits.map Json.digit) =
      (UInt64.ofNat (digits.foldl (fun value digit => value * 10 + digit) 0), []) := by
  obtain ⟨first, rest, rfl⟩ := List.exists_cons_of_ne_nil nonempty
  obtain ⟨_, noSpace, noMinus, noPlus, _⟩ := digit_spec (small first List.mem_cons_self)
  have spaceless : ((first :: rest).map Json.digit).dropWhile isspace =
      (first :: rest).map Json.digit := by
    rw [List.map_cons, List.dropWhile_cons, noSpace]
    rfl
  have unsigned : ((first :: rest).map Json.digit).head? ≠ some '-'.toUInt8 ∧
      ((first :: rest).map Json.digit).head? ≠ some '+'.toUInt8 :=
    ⟨fun same => noMinus (Option.some.inj same), fun same => noPlus (Option.some.inj same)⟩
  have whole : ((first :: rest).map Json.digit).takeWhile isdigit =
      (first :: rest).map Json.digit := by
    refine List.takeWhile_eq_self_iff.mpr fun c member => ?_
    obtain ⟨value, inside, rfl⟩ := List.mem_map.mp member
    exact (digit_spec (small value inside)).1
  have read : ((first :: rest).map Json.digit).foldl
      (fun value c => value * 10 + (c - 48).toNat) 0 =
        (first :: rest).foldl (fun value digit => value * 10 + digit) 0 := by
    rw [List.foldl_map]
    refine List.foldl_ext _ _ _ fun value digit member => ?_
    rw [(digit_spec (small digit member)).2.2.2.2.2]
  simp only [strtoul, spaceless, unsigned.1, unsigned.2, or_self, ↓reduceIte, whole, read,
    List.drop_length, List.map_eq_nil_iff, reduceCtorEq, ge_iff_le, Nat.not_le.mpr fits]

/-- **Limits.** Any number of 32 bits is taken for the limit. -/
theorem receiveInit_onto (limit : UInt32) :
    ∃ maxHops, receiveInit (some maxHops) = some limit := by
  have bound := limit.toNat_lt
  have small : ∀ value ∈ 0 :: (Nat.digits 10 limit.toNat).reverse, value < 10 := by
    refine List.forall_mem_cons.mpr ⟨by decide, fun value member => ?_⟩
    exact Nat.digits_lt_base (by decide) (List.mem_reverse.mp member)
  have total : (0 :: (Nat.digits 10 limit.toNat).reverse).foldl
      (fun value digit => value * 10 + digit) 0 = limit.toNat := by
    rw [List.foldl_cons, List.foldl_reverse]
    conv_rhs => rw [← Nat.ofDigits_digits 10 limit.toNat, Nat.ofDigits_eq_foldr]
    congr 1
    funext digit value
    rw [Nat.add_comm, Nat.mul_comm]
    rfl
  have read := @strtoul_digits (0 :: (Nat.digits 10 limit.toNat).reverse) (List.cons_ne_nil _ _)
    small (by rw [total]; omega)
  rw [total] at read
  refine ⟨⟨(0 :: (Nat.digits 10 limit.toNat).reverse).map Json.digit, fun member => ?_⟩, ?_⟩
  · obtain ⟨value, inside, zero⟩ := List.mem_map.mp member
    exact (digit_spec (small value inside)).2.2.2.2.1 zero
  · have within : ¬ UInt64.ofNat limit.toNat > 0xffffffff := by
      rw [gt_iff_lt, UInt64.lt_iff_toNat_lt, UInt64.toNat_ofNat', Nat.mod_eq_of_lt (by omega)]
      change ¬ 4294967295 < limit.toNat
      omega
    have kept : (UInt64.ofNat limit.toNat).toUInt32 = limit := by
      rw [← UInt32.toNat_inj, UInt64.toNat_toUInt32, UInt64.toNat_ofNat',
        Nat.mod_eq_of_lt (show limit.toNat < 2 ^ 64 by omega), Nat.mod_eq_of_lt bound]
    have nonempty : (0 :: (Nat.digits 10 limit.toNat).reverse).map Json.digit ≠ [] :=
      List.cons_ne_nil _ _
    simp only [receiveInit, read, nonempty, within, kept, ↓reduceIte, ne_eq, not_true_eq_false]

/-! ## Instances and links -/

/-- A send connection, and the instance that reads at its other end. -/
structure Link (ι : Type) where
  send : Send
  reader : ι

/-- Instances, with the settings in which they differ, and their links. -/
structure Network (ι : Type) where
  jansson : Jansson
  protobuf : Protobuf
  serverId : ι → CString
  receiveMaxHops : ι → UInt32
  links : ι → RecordFormat → List (Link ι)

/-- A text on its way to an instance. -/
structure Flight (ι : Type) where
  format : RecordFormat
  reader : ι
  text : Bytes
  origin : Nat
  trail : List Nat

namespace RecordFormat

/-- Both formats, in the order of `serializers`. -/
def all : List RecordFormat := [.json, .proto]

/-- The format that a connection has detected. -/
def format : RecordFormat → Format
  | .json => .json
  | .proto => .proto

/-- The serializer of the format. -/
def serializer : RecordFormat → Serializer
  | .json => .json
  | .proto => .proto

end RecordFormat

namespace Network

variable {ι : Type} (network : Network ι)

/-- What the connections of an instance depend on. -/
def server (node : ι) : Server where
  serverId := network.serverId node
  receiveMaxHops := network.receiveMaxHops node
  jansson := network.jansson
  protobuf := network.protobuf

/-- The record that a text starts with. -/
def record (flight : Flight ι) : Option Record :=
  flight.format.front network.jansson network.protobuf flight.text

/-- The hops of a packet that is on its way. -/
def hops (flight : Flight ι) : Option Nat :=
  (network.record flight).bind Record.hops

/-- The hops of a packet and of the copies before it, the last ones first. -/
def path (flight : Flight ι) : List Nat :=
  (network.hops flight).toList ++ flight.trail

/-- The links that a packet is written to: those on other sockets than the one it came from. -/
def linksFor (node : ι) (packet : Packet) (format : RecordFormat) : List (Link ι) :=
  (network.links node format).filter fun link => link.send.stat ≠ packet.inputStat

/-- The copies of a text that are sent to the links of a format when its packet is passed on. -/
def copiesFor (flight : Flight ι) (packet : Packet) (format : RecordFormat) : List (Flight ι) :=
  match format.serialize network.jansson network.protobuf packet with
  | .error _ => []
  | .ok text =>
      if text = [] then []
      else (network.linksFor flight.reader packet format).map fun link =>
        { format := format, reader := link.reader, text := text, origin := flight.origin
          trail := network.path flight }

/-- The copies of a text that are sent when its packet is passed on. -/
def copies (flight : Flight ι) (packet : Packet) : List (Flight ι) :=
  RecordFormat.all.flatMap (network.copiesFor flight packet)

/-- The send connections of an instance include its links. -/
def Joined (node : ι) (sending : Sending) : Prop :=
  ∀ format : RecordFormat,
    sending.sendHead format.serializer = (network.links node format).map Link.send

/-- `send_write` sends a packet. -/
def Sends (node : ι) (packet : Packet) : Prop :=
  ∃ outside sending after, network.Joined node sending ∧
    sendWrite (network.server node) outside sending packet = .ok after

/-- A connection that finds a text at the front of its buffer, and takes it for a record. -/
structure Ready (flight : Flight ι) (receive : Receive) : Prop where
  valid : receive.buf.Valid
  parser : receive.parser = some flight.format.format
  front : flight.text <+: receive.buf.window
  record : (network.record flight).isSome = true

/-- The texts on their way, and the number of those that came from outside. -/
structure State (ι : Type) where
  flights : Multiset (Flight ι)
  injected : Nat

/-- What happens in a network: a text comes from outside, a connection takes the record at the front
of its buffer, or a text is lost. -/
inductive Act (ι : Type)
  | inject (format : RecordFormat) (reader : ι) (text : Bytes)
  | deliver (flight : Flight ι) (receive : Receive)
  | lose (flight : Flight ι)

/-- Before anything has happened. -/
def State.start : State ι where
  flights := 0
  injected := 0

/-- One step of a network. -/
def Step : State ι → Act ι → State ι → Prop
  | before, .inject format reader text, after =>
      after =
        { flights := { format := format, reader := reader, text := text, origin := before.injected
                       trail := [] } ::ₘ before.flights
          injected := before.injected + 1 }
  | before, .deliver flight receive, after =>
      ∃ left received sent, before.flights = flight ::ₘ left ∧ network.Ready flight receive ∧
        receiveTurn (network.server flight.reader) receive = .ok (true, received, sent) ∧
        (∀ packet ∈ sent, network.Sends flight.reader packet) ∧
        after = { before with
          flights := (sent.elim [] (network.copies flight) : List (Flight ι)) + left }
  | before, .lose flight, after =>
      ∃ left, before.flights = flight ::ₘ left ∧ after = { before with flights := left }

variable {network} {node : ι} {flight : Flight ι}

/-! ## Writing -/

theorem serialize_record (format : RecordFormat) (packet : Packet) (now : Int64)
    (stats : StatsState) :
    format.serializer.serialize (network.server node) now packet stats =
      (format.serialize network.jansson network.protobuf packet).map fun buf => (buf, stats) := by
  cases format <;> rfl

/-- The writes to the links of a format. -/
theorem formatWrites_links {sending : Sending} (joined : network.Joined node sending)
    (packet : Packet) (format : RecordFormat) (text : Bytes) :
    formatWrites packet text (sending.sendHead format.serializer) =
      if text = [] then []
      else (network.linksFor node packet format).map fun link => (link.send.fd, text) := by
  rw [formatWrites, joined, elsewhere, List.filter_map, List.map_map]
  rfl

/-- **Writing.** Among what `send_write` writes are, link by link, the texts of the copies. -/
theorem written_copies {outside : Outside} {sending after : Sending} {packet : Packet}
    (joined : network.Joined node sending)
    (ran : sendWrite (network.server node) outside sending packet = .ok after)
    {texts : RecordFormat → Bytes}
    (serialized : ∀ format : RecordFormat,
      format.serialize network.jansson network.protobuf packet = .ok (texts format)) :
    ∃ first last, after.written = sending.written ++ (first ++
      (RecordFormat.all.flatMap fun format =>
        if texts format = [] then []
        else (network.linksFor node packet format).map fun link => (link.send.fd, texts format)) ++
      last) := by
  have text : ∀ format : RecordFormat, Adsbus.serialized (network.server node)
      (outside.clock sending.packets.length) packet sending.statsState format.serializer =
        texts format := by
    intro format
    rw [Adsbus.serialized, serialize_record, serialized]
    rfl
  let writes := fun serializer => formatWrites packet
    (Adsbus.serialized (network.server node) (outside.clock sending.packets.length) packet
      sending.statsState serializer) (sending.sendHead serializer)
  have linked : (RecordFormat.all.map RecordFormat.serializer).flatMap writes =
      RecordFormat.all.flatMap fun format =>
        if texts format = [] then []
        else (network.linksFor node packet format).map fun link =>
          (link.send.fd, texts format) := by
    simp only [List.flatMap_map, writes, text, formatWrites_links joined]
  have all : Serializer.all.flatMap writes = [.airspyAdsb, .beast].flatMap writes ++
      (RecordFormat.all.map RecordFormat.serializer).flatMap writes ++
        [.raw, .stats].flatMap writes := by
    rw [← List.flatMap_append, ← List.flatMap_append]
    rfl
  exact ⟨_, _, (sendWrite_wrote ran).written.trans
    (congrArg (sending.written ++ ·) (all.trans (by rw [linked])))⟩

end Network

end Adsbus

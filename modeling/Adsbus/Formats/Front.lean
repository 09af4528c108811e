import Adsbus.Formats.Proto

/-! # Records at the front of the buffer

What json and proto find at the front of the buffer is a function of the unread bytes, and once a
record is there it stays there, whatever else is read. For proto that follows from the length
before each record; for json it is a property of the library (`Adsbus.Jansson.Stable`).
-/

namespace Adsbus

/-- The record at the front of the unread bytes, with its length. -/
def protoFront (protobuf : Protobuf) (window : Bytes) : Option (Adsb × Nat) :=
  match window with
  | [] => none
  | tag :: rest =>
    if tag ≠ (1 : UInt8) <<< 3 ||| 2 then none
    else
      match protoParseVarintLoop rest 1 0 0 with
      | none => none
      | some (msgLen, start) =>
          if start + msgLen.toNat > window.length then none
          else
            (protobuf.unpack ((window.drop start).take msgLen.toNat)).map fun msg =>
              (msg, start + msgLen.toNat)

variable {protobuf : Protobuf}

/-- `proto_unwrap` looks at the unread bytes only. -/
theorem protoUnwrap_eq_front {buf : Buf UInt8} (valid : buf.Valid) :
    protoUnwrap protobuf buf = protoFront protobuf buf.window := by
  have length := valid.window_length
  cases view : buf.window with
  | nil =>
      rw [view, List.length_nil] at length
      rw [protoUnwrap, if_pos (by omega), protoFront]
  | cons tag rest =>
      rw [view, List.length_cons] at length
      have first : bufChr buf 0 = tag := by
        refine (valid.window_eq_some.mp ?_).2
        rw [view]
        rfl
      have header : protoParseVarint buf 1 = protoParseVarintLoop rest 1 0 0 := by
        rw [protoParseVarint, Buf.bufAt_eq (by omega), view, List.drop_one, List.tail_cons,
          List.take_of_length_le (by omega)]
      rw [protoUnwrap, if_neg (by omega), first, header, protoFront]
      split
      · rfl
      · cases parsed : protoParseVarintLoop rest 1 0 0 with
        | none => rfl
        | some result =>
            obtain ⟨msgLen, start⟩ := result
            simp only [List.length_cons, length]
            split
            · rfl
            · rw [Buf.bufAt_eq (by omega), view]

theorem protoParseVarintLoop_append {rest : Bytes} {start : Nat} {value shift : UInt64}
    {result : UInt64 × Nat} (parsed : protoParseVarintLoop rest start value shift = some result)
    (more : Bytes) : protoParseVarintLoop (rest ++ more) start value shift = some result := by
  induction rest generalizing start value shift with
  | nil => exact nomatch parsed
  | cons c rest ih =>
      rw [List.cons_append]
      simp only [protoParseVarintLoop] at parsed ⊢
      split_ifs at parsed ⊢
      · exact parsed
      · exact ih parsed

/-- A record at the front stays there. -/
theorem protoFront_append {window : Bytes} {result : Adsb × Nat}
    (found : protoFront protobuf window = some result) (more : Bytes) :
    protoFront protobuf (window ++ more) = some result := by
  cases window with
  | nil => exact nomatch found
  | cons tag rest =>
      rw [List.cons_append]
      rw [protoFront] at found ⊢
      split at found
      · exact nomatch found
      · case isFalse isTag =>
          rw [if_neg isTag]
          cases parsed : protoParseVarintLoop rest 1 0 0 with
          | none =>
              rw [parsed] at found
              exact nomatch found
          | some header =>
              obtain ⟨msgLen, start⟩ := header
              simp only [parsed, protoParseVarintLoop_append parsed more] at found ⊢
              split at found
              · exact nomatch found
              · case isFalse inside =>
                  have longer : (tag :: (rest ++ more)).length =
                      (tag :: rest).length + more.length := by
                    rw [← List.cons_append, List.length_append]
                  rw [if_neg (by omega), ← List.cons_append,
                    List.drop_append_of_le_length (by omega),
                    List.take_append_of_le_length (by rw [List.length_drop]; omega)]
                  exact found

end Adsbus

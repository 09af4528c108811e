import Adsbus.Core.Fault
import Adsbus.Foundation.Cells

/-! # The byte buffer

`struct buf` is an array of `BUF_LEN_MAX` cells with the window of unread
values in it. Reading fills the cells behind the window, consuming advances its
start. The cells outside the window keep whatever was stored there before. -/

namespace Adsbus

/-- `BUF_LEN_MAX`. -/
def bufLenMax : Nat := 256

/-- `struct buf`, over any type of cell. -/
structure Buf (α : Type) where
  buf : Cells α bufLenMax
  start : Nat
  length : Nat
  deriving DecidableEq

variable {α : Type}

/-- `buf_chr(buf, at)`, reading. -/
def bufChr [Inhabited α] (buf : Buf α) (index : Nat) : α :=
  buf.buf.get (buf.start + index)

/-- The `count` values from `buf_at(buf, index)` on. -/
def bufAt (buf : Buf α) (index count : Nat) : List α :=
  buf.buf.slice (buf.start + index) count

/-- `buf_init` on an array that holds anything. -/
def bufInit (cells : Cells α bufLenMax) : Buf α where
  buf := cells
  start := 0
  length := 0

/-- The first half of `buf_fill`: a window ending at the last cell is moved to the front. -/
def bufCompact (buf : Buf α) : Except Fault (Buf α) :=
  if buf.start + buf.length = bufLenMax then do
    check (0 < buf.start) .bufFillStart
    return { buf with
      buf := buf.buf.overwrite 0 (buf.buf.slice buf.start buf.length)
      start := 0 }
  else
    return buf

/-- The count that `buf_fill` offers to `read`. -/
def bufSpace (buf : Buf α) : Nat := bufLenMax - buf.length - buf.start

/-- `buf_fill` when `read` stores `input` and returns its length; no input stands for the end
of the file and for an error. -/
def bufFill (buf : Buf α) (input : List α) : Except Fault (Buf α) := do
  let buf ← bufCompact buf
  return { buf with
    buf := buf.buf.overwrite (buf.start + buf.length) input
    length := buf.length + input.length }

/-- `buf_consume`. -/
def bufConsume (buf : Buf α) (length : Nat) : Except Fault (Buf α) := do
  check (length ≤ buf.length) .bufConsumeLength
  let left := buf.length - length
  return { buf with
    start := if left = 0 then 0 else buf.start + length
    length := left }

/-- A buffer that holds a text at its front, in an array that held something else. -/
def bufHolding (cells : Cells α bufLenMax) (text : List α) : Buf α where
  buf := cells.overwrite 0 text
  start := 0
  length := text.length

namespace Buf

/-- The unread values, in order. -/
def window (buf : Buf α) : List α := buf.buf.slice buf.start buf.length

/-- The count that `buf_fill` offers to `read`, after moving the window where it does. -/
def room (buf : Buf α) : Nat :=
  if buf.start + buf.length = bufLenMax then bufLenMax - buf.length else bufSpace buf

/-- The window lies in the array, and an empty window is at its front. -/
structure Valid (buf : Buf α) : Prop where
  inside : buf.start + buf.length ≤ bufLenMax
  emptyAtFront : buf.length = 0 → buf.start = 0

theorem Valid.window_length {buf : Buf α} (valid : buf.Valid) :
    buf.window.length = buf.length :=
  buf.buf.slice_length _ _ valid.inside

theorem valid_bufInit (cells : Cells α bufLenMax) : (bufInit cells).Valid :=
  ⟨Nat.zero_le _, fun _ => rfl⟩

@[simp] theorem window_bufInit (cells : Cells α bufLenMax) : (bufInit cells).window = [] :=
  cells.slice_zero 0

theorem valid_bufHolding (cells : Cells α bufLenMax) {text : List α}
    (fits : text.length ≤ bufLenMax) : (bufHolding cells text).Valid :=
  ⟨by rw [bufHolding, Nat.zero_add]; exact fits, fun _ => rfl⟩

theorem window_bufHolding (cells : Cells α bufLenMax) {text : List α}
    (fits : text.length ≤ bufLenMax) : (bufHolding cells text).window = text :=
  Cells.slice_overwrite_same cells 0 text (by rw [Nat.zero_add]; exact fits)

/-- Inside the window, `buf_chr` reads the window. -/
theorem Valid.window_getElem? [Inhabited α] {buf : Buf α} (valid : buf.Valid) {index : Nat}
    (inside : index < buf.length) : buf.window[index]? = some (bufChr buf index) := by
  have bound : buf.start + index < bufLenMax := by
    have := valid.inside
    omega
  rw [window, Cells.slice, List.getElem?_take_of_lt inside, List.getElem?_drop,
    Cells.get_eq_of_lt _ _ bound]
  rfl

/-- Reading a value of the window. -/
theorem Valid.window_eq_some [Inhabited α] {buf : Buf α} (valid : buf.Valid) {index : Nat}
    {value : α} :
    buf.window[index]? = some value ↔ index < buf.length ∧ bufChr buf index = value := by
  by_cases inside : index < buf.length
  · rw [valid.window_getElem? inside, Option.some.injEq]
    simp only [inside, true_and]
  · rw [List.getElem?_eq_none (by rw [valid.window_length]; omega)]
    simp only [reduceCtorEq, inside, false_and]

theorem Valid.drop_window [Inhabited α] {buf : Buf α} (valid : buf.Valid) {index : Nat}
    (inside : index < buf.length) :
    buf.window.drop index = bufChr buf index :: buf.window.drop (index + 1) := by
  have bound : index < buf.window.length := by
    rw [valid.window_length]
    exact inside
  have value := valid.window_getElem? inside
  rw [List.getElem?_eq_getElem bound, Option.some.injEq] at value
  rw [List.drop_eq_getElem_cons bound, value]

/-- Inside the window, `buf_at` points into the window. -/
theorem bufAt_eq {buf : Buf α} {index count : Nat} (inside : index + count ≤ buf.length) :
    bufAt buf index count = (buf.window.drop index).take count := by
  rw [window, Cells.drop_slice, Cells.take_slice _ _ _ _ (by omega), bufAt]

theorem Valid.bufAt_length {buf : Buf α} (valid : buf.Valid) {index count : Nat}
    (inside : index + count ≤ buf.length) : (bufAt buf index count).length = count := by
  rw [bufAt_eq inside, List.length_take, List.length_drop, valid.window_length]
  omega

/-- Filling a buffer whose window ends at the last cell moves the window first. -/
theorem bufFill_of_end {buf : Buf α} (full : buf.start + buf.length = bufLenMax)
    (positive : 0 < buf.start) (input : List α) :
    bufFill buf input = .ok
      { buf := (buf.buf.overwrite 0 buf.window).overwrite (0 + buf.length) input
        start := 0
        length := buf.length + input.length } := by
  simp only [bufFill, bufCompact, full, ↓reduceIte, positive, decide_true, check_true, Except.ok_bind,
    Except.pure_eq_ok, window]

/-- Filling a buffer with room behind its window leaves the window in place. -/
theorem bufFill_of_room {buf : Buf α} (room : buf.start + buf.length ≠ bufLenMax)
    (input : List α) :
    bufFill buf input = .ok
      { buf := buf.buf.overwrite (buf.start + buf.length) input
        start := buf.start
        length := buf.length + input.length } := by
  simp only [bufFill, bufCompact, room, ↓reduceIte, Except.ok_bind, Except.pure_eq_ok]

/-- **Filling.** A buffer that is not full of unread values does not run into the assertion,
and what was read is appended to its window. -/
theorem Valid.fill {buf : Buf α} (valid : buf.Valid) (notFull : buf.length ≠ bufLenMax)
    (input : List α) (fits : input.length ≤ buf.room) :
    ∃ filled, bufFill buf input = .ok filled ∧
      filled.Valid ∧
      filled.length = buf.length + input.length ∧
      filled.window = buf.window ++ input := by
  have inside := valid.inside
  have moved := valid.window_length
  by_cases full : buf.start + buf.length = bufLenMax
  · simp only [room, full, ↓reduceIte] at fits
    refine ⟨_, bufFill_of_end full (by omega) input, ?_, rfl, ?_⟩
    · refine ⟨?_, fun _ => rfl⟩
      change 0 + (buf.length + input.length) ≤ bufLenMax
      omega
    · change Cells.slice _ 0 (buf.length + input.length) = _
      rw [Cells.slice_overwrite_append _ 0 buf.length input (by omega)]
      congr 1
      conv_lhs => rw [← moved]
      exact Cells.slice_overwrite_same _ 0 _ (by omega)
  · simp only [room, full, ↓reduceIte, bufSpace] at fits
    refine ⟨_, bufFill_of_room full input, ?_, rfl, ?_⟩
    · refine ⟨?_, fun empty => valid.emptyAtFront (Nat.add_eq_zero_iff.mp empty).1⟩
      change buf.start + (buf.length + input.length) ≤ bufLenMax
      omega
    · exact Cells.slice_overwrite_append _ _ _ input (by omega)

theorem Valid.room_pos {buf : Buf α} (valid : buf.Valid) (notFull : buf.length ≠ bufLenMax) :
    0 < buf.room := by
  have inside := valid.inside
  unfold room bufSpace
  split <;> omega

/-- The space offered to `read` is the room of the buffer. -/
theorem Valid.compact {buf : Buf α} (valid : buf.Valid) (notFull : buf.length ≠ bufLenMax) :
    ∃ moved, bufCompact buf = .ok moved ∧ bufSpace moved = buf.room := by
  have inside := valid.inside
  by_cases full : buf.start + buf.length = bufLenMax
  · have positive : 0 < buf.start := by omega
    refine ⟨{ buf := buf.buf.overwrite 0 buf.window, start := 0, length := buf.length }, ?_, ?_⟩
    · simp only [bufCompact, full, ↓reduceIte, positive, decide_true, check_true, Except.ok_bind,
        Except.pure_eq_ok, window]
    · simp only [bufSpace, room, full, ↓reduceIte, Nat.sub_zero]
  · refine ⟨buf, ?_, ?_⟩
    · simp only [bufCompact, full, ↓reduceIte, Except.pure_eq_ok]
    · simp only [room, full, ↓reduceIte]

/-- **Consuming.** Consuming no more than the window drops its first values. -/
theorem consume {buf : Buf α} (inside : buf.start + buf.length ≤ bufLenMax) (count : Nat)
    (within : count ≤ buf.length) :
    ∃ rest, bufConsume buf count = .ok rest ∧ rest.Valid ∧
      rest.length = buf.length - count ∧ rest.window = buf.window.drop count := by
  refine ⟨_, by
    simp only [bufConsume, within, decide_true, check_true, Except.ok_bind, Except.pure_eq_ok]; rfl, ⟨?_, ?_⟩, rfl, ?_⟩
  · simp only
    split <;> omega
  · intro empty
    simp only at empty
    simp only [empty, ↓reduceIte]
  · simp only [window, Cells.drop_slice]
    split
    · rename_i empty
      rw [empty, Cells.slice_zero, Cells.slice_zero]
    · rfl

/-- What a successful `buf_consume` did. -/
theorem of_bufConsume {buf rest : Buf α} {count : Nat} (done : bufConsume buf count = .ok rest) :
    count ≤ buf.length ∧ rest.length = buf.length - count := by
  unfold bufConsume at done
  by_cases within : count ≤ buf.length
  · simp only [within, decide_true, check_true, Except.ok_bind, Except.pure_eq_ok,
      Except.ok.injEq] at done
    subst done
    exact ⟨within, rfl⟩
  · simp only [within, decide_false, check_false, Except.error_bind, reduceCtorEq] at done

/-- What an attempt that found something, or nothing, leaves of a buffer: an end of its window, or
all of it. -/
inductive Attempted (buf : Buf α) : (found : Bool) → (rest : Buf α) → Prop
  | kept : Attempted buf false buf
  | consumed {rest : Buf α} (valid : rest.Valid) (shorter : rest.length < buf.length)
      (suffix : rest.window <:+ buf.window) : Attempted buf true rest

theorem Attempted.valid {buf rest : Buf α} {found : Bool} (attempted : buf.Attempted found rest)
    (valid : buf.Valid) : rest.Valid := by
  cases attempted with
  | kept => exact valid
  | consumed valid' _ _ => exact valid'

theorem Attempted.eq_of_not_found {buf rest : Buf α} (attempted : buf.Attempted false rest) :
    rest = buf := by
  cases attempted
  rfl

theorem Attempted.shorter {buf rest : Buf α} (attempted : buf.Attempted true rest) :
    rest.length < buf.length := by
  cases attempted with
  | consumed _ shorter _ => exact shorter

theorem Attempted.window_eq {buf rest : Buf α} {found : Bool}
    (attempted : buf.Attempted found rest) (valid : buf.Valid) :
    rest.length ≤ buf.length ∧ rest.window = buf.window.drop (buf.length - rest.length) := by
  cases attempted with
  | kept => exact ⟨Nat.le_refl _, by rw [Nat.sub_self, List.drop_zero]⟩
  | consumed valid' shorter suffix =>
      refine ⟨Nat.le_of_lt shorter, ?_⟩
      rw [← valid.window_length, ← valid'.window_length]
      exact List.suffix_iff_eq_drop.mp suffix

/-- Consuming from a buffer what is at its front, one or more values. -/
theorem Valid.attempted_bufConsume {buf rest : Buf α} (valid : buf.Valid) {count : Nat}
    (positive : 0 < count) (done : bufConsume buf count = .ok rest) :
    buf.Attempted true rest := by
  have within := (of_bufConsume done).1
  obtain ⟨rest', done', valid', length, window⟩ := consume valid.inside count within
  rw [done, Except.ok.injEq] at done'
  subst done'
  refine .consumed valid' (by omega) ?_
  rw [window]
  exact List.drop_suffix _ _

end Buf

end Adsbus

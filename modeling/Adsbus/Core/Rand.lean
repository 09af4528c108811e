import Adsbus.Core.Buf
import Mathlib.Data.List.Nodup
import Mathlib.Algebra.Group.Nat.Defs

/-! # The pool of random bytes

`rand_fill` serves requests from a pool of `BUF_LEN_MAX` bytes read from
`/dev/urandom`, which is read as a stream. The pool only moves values, so it is
modelled over any type of cell: over bytes it is the program's, and over stream
positions (`Adsbus.randPositions`) it says where each delivered byte came from.

A request that the pool cannot serve is read from the stream directly, together
with fresh bytes for the consumed part of the pool, and the whole pool is then
declared unread. That is right unless the pool was empty: `buf_consume` has then
moved the start back to the front, so that no cell is refreshed, and the next
request served from the pool delivers its old bytes again
(`Adsbus.randPositions_nodup_iff`).
-/

namespace Adsbus

/-- `SSIZE_MAX`. -/
def ssizeMax : Nat := 2 ^ 63 - 1

/-- `rand_buf`, and how much of the stream has been read from `rand_fd`. -/
structure Rand (α : Type) where
  buf : Buf α
  position : Nat
  deriving DecidableEq

variable {α β : Type}

/-- The next `count` values of a stream. -/
def streamRead (stream : Nat → α) (position count : Nat) : List α :=
  (List.range' position count).map stream

/-- `rand_init`. -/
def randInit (urandom : Nat → α) : Rand α where
  buf := { buf := Cells.tabulate bufLenMax urandom, start := 0, length := bufLenMax }
  position := bufLenMax

/-- `rand_fill`: what is written to the caller, and the pool left. -/
def randFill (urandom : Nat → α) (rand : Rand α) (size : Nat) :
    Except Fault (List α × Rand α) :=
  if size ≤ rand.buf.length then do
    let value := rand.buf.buf.slice rand.buf.start size
    let buf ← bufConsume rand.buf size
    return (value, { rand with buf := buf })
  else do
    let bytes := rand.buf.start + size
    check (bytes < ssizeMax) .randBytes
    -- `readv` fills the consumed part of the pool first and then the caller's buffer.
    let refill := streamRead urandom rand.position rand.buf.start
    let value := streamRead urandom (rand.position + rand.buf.start) size
    return (value,
      { buf := { buf := rand.buf.buf.overwrite 0 refill, start := 0, length := bufLenMax }
        position := rand.position + bytes })

/-- A sequence of `rand_fill` calls of the given sizes. -/
def randRun (urandom : Nat → α) : Rand α → List Nat → Except Fault (List (List α) × Rand α)
  | rand, [] => .ok ([], rand)
  | rand, size :: sizes => do
      let (value, rand) ← randFill urandom rand size
      let (values, rand) ← randRun urandom rand sizes
      return (value :: values, rand)

/-- The stream positions of the bytes delivered to the calls of the given sizes. -/
def randPositions (sizes : List Nat) : Except Fault (List (List Nat)) := do
  let (values, _) ← randRun id (randInit id) sizes
  return values

/-! ## Delivered values and positions -/

/-- The pool whose values are the images of another pool's. -/
def Rand.map (f : α → β) (rand : Rand α) : Rand β where
  buf := { buf := rand.buf.buf.map f, start := rand.buf.start, length := rand.buf.length }
  position := rand.position

theorem streamRead_map (f : α → β) (stream : Nat → α) (position count : Nat) :
    streamRead (f ∘ stream) position count = (streamRead stream position count).map f := by
  simp only [streamRead, List.map_map]

/-- A request that the pool can serve takes the front of its window. -/
theorem randFill_of_served (urandom : Nat → α) (rand : Rand α) {size : Nat}
    (served : size ≤ rand.buf.length) :
    randFill urandom rand size = .ok (rand.buf.buf.slice rand.buf.start size,
      { buf :=
          { buf := rand.buf.buf
            start := if rand.buf.length - size = 0 then 0 else rand.buf.start + size
            length := rand.buf.length - size }
        position := rand.position }) := by
  simp only [randFill, served, ↓reduceIte, bufConsume, decide_true, check_true, Except.ok_bind, Except.pure_eq_ok]

/-- Any other request is read from the stream, behind the values that refill the pool. -/
theorem randFill_of_read (urandom : Nat → α) (rand : Rand α) {size : Nat}
    (unserved : ¬ size ≤ rand.buf.length) (fits : rand.buf.start + size < ssizeMax) :
    randFill urandom rand size =
      .ok (streamRead urandom (rand.position + rand.buf.start) size,
        { buf :=
            { buf := rand.buf.buf.overwrite 0
                (streamRead urandom rand.position rand.buf.start)
              start := 0
              length := bufLenMax }
          position := rand.position + (rand.buf.start + size) }) := by
  simp only [randFill, unserved, ↓reduceIte, fits, decide_true, check_true, Except.ok_bind, Except.pure_eq_ok]

theorem randFill_of_huge (urandom : Nat → α) (rand : Rand α) {size : Nat}
    (unserved : ¬ size ≤ rand.buf.length) (huge : ¬ rand.buf.start + size < ssizeMax) :
    randFill urandom rand size = .error .randBytes := by
  simp only [randFill, unserved, ↓reduceIte, huge, decide_false, check_false, Except.error_bind]

/-- Serving a request commutes with mapping the values of the stream. -/
theorem randFill_map (f : α → β) (urandom : Nat → α) (rand : Rand α) (size : Nat) :
    randFill (f ∘ urandom) (rand.map f) size =
      (randFill urandom rand size).map fun result => (result.1.map f, result.2.map f) := by
  by_cases served : size ≤ rand.buf.length
  · rw [randFill_of_served urandom rand served, randFill_of_served _ (rand.map f) served]
    simp only [Rand.map, Except.map, Cells.map_slice]
    rfl
  · by_cases fits : rand.buf.start + size < ssizeMax
    · rw [randFill_of_read urandom rand served fits,
        randFill_of_read _ (rand.map f) served fits]
      simp only [Rand.map, Except.map, streamRead_map, Cells.map_overwrite]
    · rw [randFill_of_huge urandom rand served fits,
        randFill_of_huge _ (rand.map f) served fits]
      rfl

theorem randRun_map (f : α → β) (urandom : Nat → α) (rand : Rand α) (sizes : List Nat) :
    randRun (f ∘ urandom) (rand.map f) sizes =
      (randRun urandom rand sizes).map fun result =>
        (result.1.map (List.map f), result.2.map f) := by
  induction sizes generalizing rand with
  | nil => rfl
  | cons size sizes ih =>
      simp only [randRun, randFill_map]
      cases randFill urandom rand size with
      | error fault => rfl
      | ok first =>
          simp only [Except.map, Except.ok_bind, ih]
          cases randRun urandom first.2 sizes <;> rfl

theorem randInit_map (f : α → β) (urandom : Nat → α) :
    randInit (f ∘ urandom) = (randInit urandom).map f := by
  simp only [randInit, Rand.map, Cells.tabulate, Cells.map, List.map_map]

/-- **Delivered bytes are those at the delivered positions**, whatever the stream holds. -/
theorem randRun_eq_positions (urandom : Nat → UInt8) (sizes : List Nat) :
    ((randRun urandom (randInit urandom) sizes).map Prod.fst) =
      (randPositions sizes).map (List.map (List.map urandom)) := by
  have mapped := randRun_map urandom id (randInit id) sizes
  rw [Function.comp_id, ← randInit_map, Function.comp_id] at mapped
  rw [mapped, randPositions]
  cases randRun id (randInit id) sizes <;> rfl

/-! ## No position is delivered twice -/

/-- The unread count after a request, from the unread count before it. -/
def poolLevel (level size : Nat) : Nat :=
  if size ≤ level then level - size else bufLenMax

/-- From a pool with `level` unread bytes on: no request of `BUF_LEN_MAX` bytes or fewer comes
after a request made at an empty pool. -/
def RefillSafe : (level : Nat) → (sizes : List Nat) → Prop
  | _, [] => True
  | 0, _ :: sizes => ∀ later ∈ sizes, bufLenMax < later
  | level + 1, size :: sizes => RefillSafe (poolLevel (level + 1) size) sizes

/-- The positions delivered so far are distinct, and behind the stream's reading position. -/
structure Delivered (rand : Rand Nat) (delivered : List Nat) : Prop where
  nodup : delivered.Nodup
  read : ∀ position ∈ delivered, position < rand.position

/-- A sound pool: its unread cells hold positions that were read and not delivered, and the
other cells hold delivered ones. -/
structure Fresh (rand : Rand Nat) (delivered : List Nat) : Prop
    extends Delivered rand delivered where
  shape : rand.buf.start + rand.buf.length = bufLenMax ∧ 0 < rand.buf.length ∨
    rand.buf.start = 0 ∧ rand.buf.length = 0
  unreadRead : ∀ position ∈ rand.buf.window, position < rand.position
  unreadNodup : rand.buf.window.Nodup
  unreadFresh : ∀ position ∈ rand.buf.window, position ∉ delivered
  consumedDelivered : ∀ position ∈ rand.buf.buf.slice 0 rand.buf.start, position ∈ delivered
  emptyDelivered : rand.buf.length = 0 → ∀ position ∈ rand.buf.buf.toList, position ∈ delivered

/-- A stale pool: full of cells that were all delivered before. -/
structure Stale (rand : Rand Nat) (delivered : List Nat) : Prop
    extends Delivered rand delivered where
  start : rand.buf.start = 0
  length : rand.buf.length = bufLenMax
  cellsDelivered : ∀ position ∈ rand.buf.buf.toList, position ∈ delivered

theorem streamRead_id (position count : Nat) :
    streamRead id position count = List.range' position count :=
  List.map_id _

theorem fresh_randInit : Fresh (randInit id) [] := by
  have window : (randInit id).buf.window = List.range bufLenMax := by
    change Cells.slice _ 0 bufLenMax = _
    rw [Cells.slice_all]
    exact List.map_id _
  refine ⟨⟨List.nodup_nil, fun position member => (List.not_mem_nil member).elim⟩,
    .inl ⟨rfl, by decide⟩, ?_, ?_, fun position _ => List.not_mem_nil, ?_, fun empty => ?_⟩
  · intro position member
    rw [window] at member
    exact List.mem_range.mp member
  · rw [window]
    exact List.nodup_range
  · intro position member
    change position ∈ Cells.slice _ 0 0 at member
    rw [Cells.slice_zero] at member
    exact (List.not_mem_nil member).elim
  · exact absurd empty (by decide)

/-- Positions not read before extend the delivered ones. -/
theorem Delivered.append_read {rand : Rand Nat} {delivered : List Nat}
    (sound : Delivered rand delivered) (first count : Nat) (ahead : rand.position ≤ first) :
    (delivered ++ List.range' first count).Nodup := by
  refine List.nodup_append.mpr ⟨sound.nodup, List.nodup_range', ?_⟩
  rintro old member _ new rfl
  have behind := sound.read old member
  have := (List.mem_range'_1.mp new).1
  omega

/-- A sound pool serves a request from its unread cells and stays sound. -/
theorem Fresh.served {rand : Rand Nat} {delivered : List Nat} (fresh : Fresh rand delivered)
    {size : Nat} (positive : 1 ≤ size) (served : size ≤ rand.buf.length) :
    ∃ value next, randFill id rand size = .ok (value, next) ∧
      next.buf.length = rand.buf.length - size ∧ Fresh next (delivered ++ value) := by
  have shape : rand.buf.start + rand.buf.length = bufLenMax := by
    have := fresh.shape
    omega
  have split : rand.buf.window = rand.buf.buf.slice rand.buf.start size ++
      rand.buf.buf.slice (rand.buf.start + size) (rand.buf.length - size) := by
    rw [← Cells.slice_add, Buf.window, Nat.add_sub_cancel' served]
  have unreadNodup := fresh.unreadNodup
  have unreadFresh := fresh.unreadFresh
  have unreadRead := fresh.unreadRead
  rw [split] at unreadNodup unreadFresh unreadRead
  obtain ⟨valueNodup, restNodup, apart⟩ := List.nodup_append.mp unreadNodup
  have consumed : ∀ position ∈ rand.buf.buf.slice 0 (rand.buf.start + size),
      position ∈ delivered ++ rand.buf.buf.slice rand.buf.start size := by
    intro position member
    rw [Cells.slice_add, Nat.zero_add] at member
    rcases List.mem_append.mp member with old | new
    · exact List.mem_append_left _ (fresh.consumedDelivered position old)
    · exact List.mem_append_right _ new
  refine ⟨_, _, randFill_of_served id rand served, rfl, ⟨?_, ?_⟩, ?_, ?_, ?_, ?_, ?_, ?_⟩
  · refine List.nodup_append.mpr ⟨fresh.nodup, valueNodup, ?_⟩
    rintro old member _ new rfl
    exact unreadFresh old (List.mem_append_left _ new) member
  · intro position member
    rcases List.mem_append.mp member with old | new
    · exact fresh.read position old
    · exact unreadRead position (List.mem_append_left _ new)
  · by_cases empty : rand.buf.length - size = 0
    · exact .inr ⟨by simp only [empty, ↓reduceIte], empty⟩
    · left
      simp only [empty, ↓reduceIte]
      omega
  all_goals
    by_cases empty : rand.buf.length - size = 0
  -- The unread cells left, when none and when some are.
  · simp only [Buf.window, empty, Cells.slice_zero, List.not_mem_nil, false_implies,
      implies_true]
  · intro position member
    simp only [Buf.window, empty, ↓reduceIte] at member
    exact unreadRead position (List.mem_append_right _ member)
  · simp only [Buf.window, empty, Cells.slice_zero, List.nodup_nil]
  · simpa only [Buf.window, empty, ↓reduceIte] using restNodup
  · simp only [Buf.window, empty, Cells.slice_zero, List.not_mem_nil, false_implies,
      implies_true]
  · intro position member old
    simp only [Buf.window, empty, ↓reduceIte] at member
    rcases List.mem_append.mp old with old | value
    · exact unreadFresh position (List.mem_append_right _ member) old
    · exact apart position value position member rfl
  · simp only [empty, ↓reduceIte, Cells.slice_zero, List.not_mem_nil, false_implies,
      implies_true]
  · simpa only [empty, ↓reduceIte] using consumed
  · intro _ position member
    refine consumed position ?_
    rwa [show rand.buf.start + size = bufLenMax by omega, Cells.slice_all]
  · exact fun none => absurd none empty

/-- A sound pool with unread bytes that are too few is refilled and stays sound. -/
theorem Fresh.refilled {rand : Rand Nat} {delivered : List Nat} (fresh : Fresh rand delivered)
    {size : Nat} (unserved : ¬ size ≤ rand.buf.length) (unread : 0 < rand.buf.length)
    (fits : rand.buf.start + size < ssizeMax) :
    ∃ value next, randFill id rand size = .ok (value, next) ∧
      next.buf.length = bufLenMax ∧ Fresh next (delivered ++ value) := by
  have shape : rand.buf.start + rand.buf.length = bufLenMax := by
    have := fresh.shape
    omega
  have pool : (rand.buf.buf.overwrite 0 (List.range' rand.position rand.buf.start)).toList =
      List.range' rand.position rand.buf.start ++ rand.buf.window := by
    rw [Cells.toList_overwrite_zero _ _ (by rw [List.length_range']; omega),
      List.length_range', Buf.window, Cells.slice, List.take_of_length_le]
    rw [List.length_drop, rand.buf.buf.length_eq]
    omega
  have window (cells : Cells Nat bufLenMax) :
      Buf.window { buf := cells, start := 0, length := bufLenMax } = cells.toList :=
    cells.slice_all
  refine ⟨_, _, randFill_of_read id rand unserved fits, rfl, ⟨?_, ?_⟩,
    .inl ⟨rfl, (by decide : 0 < bufLenMax)⟩, ?_, ?_, ?_, ?_,
    fun none => absurd none (by decide : bufLenMax ≠ 0)⟩
  · rw [streamRead_id]
    exact fresh.toDelivered.append_read _ _ (Nat.le_add_right _ _)
  · intro position member
    change position < rand.position + (rand.buf.start + size)
    rcases List.mem_append.mp member with old | new
    · have := fresh.read position old
      omega
    · rw [streamRead_id] at new
      have := (List.mem_range'_1.mp new).2
      omega
  · intro position member
    change position < rand.position + (rand.buf.start + size)
    rw [window, streamRead_id, pool] at member
    rcases List.mem_append.mp member with new | old
    · have := (List.mem_range'_1.mp new).2
      omega
    · have := fresh.unreadRead position old
      omega
  · rw [window, streamRead_id, pool]
    refine List.nodup_append.mpr ⟨List.nodup_range', fresh.unreadNodup, ?_⟩
    rintro new refilled _ old rfl
    have := (List.mem_range'_1.mp refilled).1
    have := fresh.unreadRead new old
    omega
  · intro position member past
    rw [window, streamRead_id, pool] at member
    rw [streamRead_id] at past
    rcases List.mem_append.mp member with new | old <;>
      rcases List.mem_append.mp past with earlier | value
    · have := (List.mem_range'_1.mp new).1
      have := fresh.read position earlier
      omega
    · have := (List.mem_range'_1.mp new).2
      have := (List.mem_range'_1.mp value).1
      omega
    · exact fresh.unreadFresh position old earlier
    · have := fresh.unreadRead position old
      have := (List.mem_range'_1.mp value).1
      omega
  · intro position member
    change position ∈ Cells.slice _ 0 0 at member
    rw [Cells.slice_zero] at member
    exact (List.not_mem_nil member).elim

/-- A request read past a pool whose cells were all delivered leaves a stale pool. -/
theorem Delivered.stale {rand : Rand Nat} {delivered : List Nat}
    (sound : Delivered rand delivered) (start : rand.buf.start = 0)
    (cellsDelivered : ∀ position ∈ rand.buf.buf.toList, position ∈ delivered) {size : Nat}
    (unserved : ¬ size ≤ rand.buf.length) (fits : rand.buf.start + size < ssizeMax) :
    ∃ value next, randFill id rand size = .ok (value, next) ∧ Stale next (delivered ++ value) := by
  refine ⟨_, _, randFill_of_read id rand unserved fits, ⟨?_, ?_⟩, rfl, rfl, ?_⟩
  · rw [streamRead_id]
    exact sound.append_read _ _ (Nat.le_add_right _ _)
  · intro position member
    change position < rand.position + (rand.buf.start + size)
    rcases List.mem_append.mp member with old | new
    · have := sound.read position old
      omega
    · rw [streamRead_id] at new
      have := (List.mem_range'_1.mp new).2
      omega
  · intro position member
    simp only [start] at member
    rw [Cells.toList_overwrite_zero _ _ (Nat.zero_le _)] at member
    exact List.mem_append_left _ (cellsDelivered position member)

/-- From a stale pool, only requests beyond the pool's size deliver no position again. -/
theorem Stale.randRun {rand : Rand Nat} {delivered : List Nat} (stale : Stale rand delivered)
    (sizes : List Nat) (positive : ∀ size ∈ sizes, 1 ≤ size) {values : List (List Nat)}
    {final : Rand Nat} (run : Adsbus.randRun id rand sizes = .ok (values, final)) :
    (delivered ++ values.flatten).Nodup ↔ ∀ size ∈ sizes, bufLenMax < size := by
  induction sizes generalizing rand delivered values with
  | nil =>
      simp only [Adsbus.randRun, Except.ok.injEq, Prod.mk.injEq] at run
      rw [← run.1, List.flatten_nil, List.append_nil]
      exact ⟨fun _ size member => (List.not_mem_nil member).elim, fun _ => stale.nodup⟩
  | cons size sizes ih =>
      simp only [Adsbus.randRun, Except.bind_eq_ok, Except.pure_eq_ok, Except.ok.injEq, Prod.exists,
        Prod.mk.injEq] at run
      obtain ⟨value, middle, first, rest, last, tail, rfl, rfl⟩ := run
      rw [List.flatten_cons, ← List.append_assoc, List.forall_mem_cons]
      by_cases served : size ≤ rand.buf.length
      · rw [randFill_of_served id rand served] at first
        simp only [Except.ok.injEq, Prod.mk.injEq] at first
        have size_pos := positive size List.mem_cons_self
        -- The value starts with a cell that was delivered before.
        have nonempty : value ≠ [] := by
          rw [← first.1, ← List.length_pos_iff, Cells.slice_length]
          · exact size_pos
          · rw [stale.start]
            have := stale.length
            omega
        obtain ⟨position, member⟩ := List.exists_mem_of_ne_nil value nonempty
        have old : position ∈ delivered := by
          refine stale.cellsDelivered position ?_
          rw [← first.1] at member
          exact List.mem_of_mem_drop (List.mem_of_mem_take member)
        constructor
        · intro nodup
          exact ((List.nodup_append.mp (List.nodup_append.mp nodup).1).2.2 position old position
            member rfl).elim
        · intro large
          have := stale.length
          omega
      · have fits : rand.buf.start + size < ssizeMax := by
          by_contra huge
          rw [randFill_of_huge id rand served huge] at first
          exact absurd first (by simp only [reduceCtorEq, not_false_eq_true])
        obtain ⟨value', next, done, still⟩ :=
          stale.toDelivered.stale stale.start stale.cellsDelivered served fits
        rw [done, Except.ok.injEq, Prod.mk.injEq] at first
        obtain ⟨rfl, rfl⟩ := first
        rw [ih still (fun size member => positive size (List.mem_cons_of_mem _ member)) tail]
        have large : bufLenMax < size := by
          have := stale.length
          omega
        exact ⟨fun later => ⟨large, later⟩, And.right⟩

/-- From a sound pool, no position is delivered again exactly when no request that the pool can
serve follows one made at an empty pool. -/
theorem Fresh.randRun {rand : Rand Nat} {delivered : List Nat} (fresh : Fresh rand delivered)
    (sizes : List Nat) (positive : ∀ size ∈ sizes, 1 ≤ size) {values : List (List Nat)}
    {final : Rand Nat} (run : Adsbus.randRun id rand sizes = .ok (values, final)) :
    (delivered ++ values.flatten).Nodup ↔ RefillSafe rand.buf.length sizes := by
  induction sizes generalizing rand delivered values with
  | nil =>
      simp only [Adsbus.randRun, Except.ok.injEq, Prod.mk.injEq] at run
      rw [← run.1, List.flatten_nil, List.append_nil]
      exact ⟨fun _ => trivial, fun _ => fresh.nodup⟩
  | cons size sizes ih =>
      simp only [Adsbus.randRun, Except.bind_eq_ok, Except.pure_eq_ok, Except.ok.injEq, Prod.exists,
        Prod.mk.injEq] at run
      obtain ⟨value, middle, first, rest, last, tail, rfl, rfl⟩ := run
      rw [List.flatten_cons, ← List.append_assoc]
      have laterPositive : ∀ later ∈ sizes, 1 ≤ later := fun later member =>
        positive later (List.mem_cons_of_mem _ member)
      by_cases served : size ≤ rand.buf.length
      · obtain ⟨value', next, done, level, sound⟩ :=
          fresh.served (positive size List.mem_cons_self) served
        rw [done, Except.ok.injEq, Prod.mk.injEq] at first
        obtain ⟨rfl, rfl⟩ := first
        rw [ih sound laterPositive tail, level]
        cases unread : rand.buf.length with
        | zero =>
            have := positive size List.mem_cons_self
            omega
        | succ count => simp only [RefillSafe, poolLevel, ← unread, served, ↓reduceIte]
      · have fits : rand.buf.start + size < ssizeMax := by
          by_contra huge
          rw [randFill_of_huge id rand served huge] at first
          exact absurd first (by simp only [reduceCtorEq, not_false_eq_true])
        cases unread : rand.buf.length with
        | zero =>
            have start : rand.buf.start = 0 := by
              have := fresh.shape
              omega
            obtain ⟨value', next, done, stale⟩ := fresh.toDelivered.stale start
              (fresh.emptyDelivered unread) served fits
            rw [done, Except.ok.injEq, Prod.mk.injEq] at first
            obtain ⟨rfl, rfl⟩ := first
            rw [stale.randRun sizes laterPositive tail, RefillSafe]
        | succ count =>
            obtain ⟨value', next, done, level, sound⟩ :=
              fresh.refilled served (by omega) fits
            rw [done, Except.ok.injEq, Prod.mk.injEq] at first
            obtain ⟨rfl, rfl⟩ := first
            rw [ih sound laterPositive tail, level]
            simp only [RefillSafe, poolLevel, ← unread, served, ↓reduceIte]

/-- **Delivered bytes are distinct bytes of the stream exactly for refill-safe requests.** The
bytes delivered to a sequence of requests are those at the delivered positions, whatever the
stream holds, and no position is delivered twice exactly when no request of `BUF_LEN_MAX` bytes
or fewer comes after one that was made when the pool was empty. -/
theorem randPositions_nodup_iff (sizes : List Nat) (positive : ∀ size ∈ sizes, 1 ≤ size)
    (positions : List (List Nat)) (run : randPositions sizes = .ok positions) :
    (∀ urandom : Nat → UInt8,
      (randRun urandom (randInit urandom) sizes).map Prod.fst =
        .ok (positions.map (List.map urandom))) ∧
    (positions.flatten.Nodup ↔ RefillSafe bufLenMax sizes) := by
  refine ⟨fun urandom => by rw [randRun_eq_positions, run]; rfl, ?_⟩
  simp only [randPositions, Except.bind_eq_ok, Except.pure_eq_ok, Except.ok.injEq, Prod.exists] at run
  obtain ⟨values, final, done, rfl⟩ := run
  exact fresh_randInit.randRun sizes positive done

/-- The requests of `uuid_gen` and `json_init` at start-up read the first bytes of the stream. -/
theorem randPositions_startup :
    (∀ urandom : Nat → UInt8, (randRun urandom (randInit urandom) [16, 8]).map Prod.fst =
      .ok [(List.range' 0 16).map urandom, (List.range' 16 8).map urandom]) ∧
    ((List.range' 0 16 ++ List.range' 16 8).Nodup ↔ RefillSafe bufLenMax [16, 8]) :=
  randPositions_nodup_iff [16, 8] (by decide) [List.range' 0 16, List.range' 16 8] (by rfl)

/-- Sixteen requests of 16 bytes empty the pool; after one more, the next delivers the bytes of
the first again. -/
theorem randPositions_repeat :
    ∃ positions, randPositions (List.replicate 18 16) = .ok positions ∧
      positions[17]? = positions[0]? ∧ ¬ positions.flatten.Nodup := by
  refine ⟨(List.range 17).map (fun call => List.range' (16 * call) 16) ++ [List.range' 0 16],
    by rfl, by rfl, fun nodup => ?_⟩
  exact absurd (List.nodup_iff_count_le_one.mp nodup 0) (by decide +kernel)

end Adsbus

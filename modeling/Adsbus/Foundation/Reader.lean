import Adsbus.Foundation.Except
import Adsbus.Foundation.Recognizer

/-! # Chunked readers

A reader keeps a bounded window of unread input. Each chunk it is given is
appended to the window; then it takes turns at the front of the window until one
finds nothing, and it is dropped when the window is then full. A reader that
decodes the frames of a recognizer (`Reader.Decodes`) emits the same whatever the
cuts, on any input (`Reader.Decodes.run`). Two readers that do the same in related
states emit the same (`Reader.Mirrors.run`).
-/

/-- A reader with states `ρ` over input values `β`, emitting values `α` and failing with `ε`. -/
structure Reader (ρ β α ε : Type) where
  /-- The bound on the window. -/
  capacity : Nat
  /-- The failure of a loop that takes more turns than its bound. -/
  exhausted : ε
  /-- The unread input. -/
  window : ρ → List β
  /-- The length of the unread input, as the reader counts it. -/
  unread : ρ → Nat
  /-- The longest chunk that the reader asks for. -/
  room : ρ → Nat
  /-- Append a chunk to the window. -/
  fill : ρ → List β → Except ε ρ
  /-- One turn: whether to go on, and what was emitted. -/
  turn : ρ → Except ε (Bool × ρ × List α)

namespace Reader

variable {ρ β α ε : Type}

/-- Why a reader is, or is no longer, read. -/
inductive Status
  | live
  | ended
  | overrun
  deriving DecidableEq, Repr

/-- A reader with its status; a dropped one is kept as it was when it was dropped. -/
structure Connection (ρ : Type) where
  reader : ρ
  status : Status
  deriving DecidableEq

/-- Take turns until one finds nothing or no input is left. -/
def drain (reader : Reader ρ β α ε) : (turns : Nat) → ρ → Except ε (ρ × List α)
  | 0, _ => .error reader.exhausted
  | turns + 1, state =>
      if reader.unread state = 0 then
        .ok (state, [])
      else do
        let (more, state, first) ← reader.turn state
        if more then
          let (state, rest) ← reader.drain turns state
          return (state, first ++ rest)
        else
          return (state, first)

/-- Read one chunk; an empty one is the end of the input. -/
def read (reader : Reader ρ β α ε) (connection : Connection ρ) (chunk : List β) :
    Except ε (Connection ρ × List α) :=
  match connection.status with
  | .live => do
      let state ← reader.fill connection.reader chunk
      if chunk = [] then
        return (⟨state, .ended⟩, [])
      else
        let (state, outputs) ← reader.drain (reader.unread state + 1) state
        if reader.unread state = reader.capacity then
          return (⟨state, .overrun⟩, outputs)
        else
          return (⟨state, .live⟩, outputs)
  | _ => .ok (connection, [])

/-- Read chunk after chunk. A dropped reader reads no more of them. -/
def run (reader : Reader ρ β α ε) (connection : Connection ρ) :
    List (List β) → Except ε (Connection ρ × List α)
  | [] => .ok (connection, [])
  | chunk :: chunks => do
      let (connection, first) ← reader.read connection chunk
      let (connection, rest) ← reader.run connection chunks
      return (connection, first ++ rest)

/-- The chunks are possible results of reading: while the reader is live, each holds something
and no more than the reader asked for. -/
def Fits (reader : Reader ρ β α ε) (connection : Connection ρ) : List (List β) → Prop
  | [] => True
  | chunk :: chunks =>
      (connection.status = .live → chunk ≠ [] ∧ chunk.length ≤ reader.room connection.reader) ∧
        ∀ next outputs, reader.read connection chunk = .ok (next, outputs) →
          reader.Fits next chunks

/-- Whether the chunks are possible, by reading them. -/
def decidableFits (reader : Reader ρ β α ε) :
    (connection : Connection ρ) → (chunks : List (List β)) →
      Decidable (reader.Fits connection chunks)
  | _, [] => .isTrue trivial
  | connection, chunk :: chunks =>
      @instDecidableAnd _ _ inferInstance
        (@decidable_of_iff _ (∀ next, reader.read connection chunk = .ok next →
            reader.Fits next.1 chunks) Prod.forall
          (@Except.decidableForallOk _ _ _ _ fun next => decidableFits reader next.1 chunks))

instance (reader : Reader ρ β α ε) (connection : Connection ρ) (chunks : List (List β)) :
    Decidable (reader.Fits connection chunks) := decidableFits reader connection chunks

variable {reader : Reader ρ β α ε}

theorem drain_of_empty {turns : Nat} {state : ρ} (empty : reader.unread state = 0) :
    reader.drain (turns + 1) state = .ok (state, []) := by
  simp only [drain, empty, ↓reduceIte]

theorem drain_of_more {turns : Nat} {state next : ρ} {outputs : List α}
    (unread : reader.unread state ≠ 0) (turned : reader.turn state = .ok (true, next, outputs)) :
    reader.drain (turns + 1) state =
      (reader.drain turns next).map fun rest => (rest.1, outputs ++ rest.2) := by
  simp only [drain, unread, ↓reduceIte, turned, Except.ok_bind]
  cases reader.drain turns next <;> rfl

theorem drain_of_last {turns : Nat} {state next : ρ} {outputs : List α}
    (unread : reader.unread state ≠ 0) (turned : reader.turn state = .ok (false, next, outputs)) :
    reader.drain (turns + 1) state = .ok (next, outputs) := by
  simp only [drain, unread, ↓reduceIte, turned, Except.ok_bind, Bool.false_eq_true,
    Except.pure_eq_ok]

theorem read_of_not_live {connection : Connection ρ} (dropped : connection.status ≠ .live)
    (chunk : List β) : reader.read connection chunk = .ok (connection, []) := by
  obtain ⟨state, status⟩ := connection
  cases status with
  | live => exact (dropped rfl).elim
  | ended => rfl
  | overrun => rfl

theorem run_of_not_live {connection : Connection ρ} (dropped : connection.status ≠ .live)
    (chunks : List (List β)) : reader.run connection chunks = .ok (connection, []) := by
  induction chunks with
  | nil => rfl
  | cons chunk chunks ih =>
      simp only [run, read_of_not_live dropped, Except.ok_bind, ih, Except.pure_eq_ok,
        List.append_nil]

/-- Reading a chunk into a live reader that is then drained. -/
theorem read_of_drain {state filled drained : ρ} {chunk : List β} {outputs : List α}
    (nonempty : chunk ≠ []) (fill : reader.fill state chunk = .ok filled)
    (drain : reader.drain (reader.unread filled + 1) filled = .ok (drained, outputs)) :
    reader.read ⟨state, .live⟩ chunk = .ok
      (⟨drained, if reader.unread drained = reader.capacity then .overrun else .live⟩,
        outputs) := by
  simp only [read, fill, Except.ok_bind, nonempty, ↓reduceIte, drain]
  split <;> rfl

/-- What reading a chunk into a live reader did. -/
theorem of_read {state : ρ} {chunk : List β} {next : Connection ρ} {outputs : List α}
    (done : reader.read ⟨state, .live⟩ chunk = .ok (next, outputs)) :
    ∃ filled, reader.fill state chunk = .ok filled ∧
      (chunk = [] ∧ next = ⟨filled, .ended⟩ ∧ outputs = [] ∨
        chunk ≠ [] ∧ ∃ drained,
          reader.drain (reader.unread filled + 1) filled = .ok (drained, outputs) ∧
          next = ⟨drained, if reader.unread drained = reader.capacity then .overrun else .live⟩) := by
  simp only [read, Except.bind_eq_ok] at done
  obtain ⟨filled, fill, done⟩ := done
  refine ⟨filled, fill, ?_⟩
  by_cases ended : chunk = []
  · rw [if_pos ended] at done
    cases done
    exact .inl ⟨ended, rfl, rfl⟩
  · rw [if_neg ended, Except.bind_eq_ok] at done
    obtain ⟨⟨drained, outputs'⟩, drain, done⟩ := done
    by_cases full : reader.unread drained = reader.capacity
    · simp only [full, ↓reduceIte, Except.pure_eq_ok, Except.ok.injEq, Prod.mk.injEq] at done
      obtain ⟨rfl, rfl⟩ := done
      exact .inr ⟨ended, drained, drain, by rw [if_pos full]⟩
    · simp only [full, ↓reduceIte, Except.pure_eq_ok, Except.ok.injEq, Prod.mk.injEq] at done
      obtain ⟨rfl, rfl⟩ := done
      exact .inr ⟨ended, drained, drain, by rw [if_neg full]⟩

theorem fits_of_not_live {connection : Connection ρ} (dropped : connection.status ≠ .live)
    (chunks : List (List β)) : reader.Fits connection chunks := by
  induction chunks with
  | nil => trivial
  | cons chunk chunks ih =>
      refine ⟨fun live => (dropped live).elim, fun next outputs done => ?_⟩
      rw [read_of_not_live dropped, Except.ok.injEq, Prod.mk.injEq] at done
      rw [← done.1]
      exact ih

theorem fits_cons {connection next : Connection ρ} {chunk : List β} {chunks : List (List β)}
    {outputs : List α}
    (possible : connection.status = .live →
      chunk ≠ [] ∧ chunk.length ≤ reader.room connection.reader)
    (done : reader.read connection chunk = .ok (next, outputs)) (rest : reader.Fits next chunks) :
    reader.Fits connection (chunk :: chunks) := by
  refine ⟨possible, fun next' outputs' done' => ?_⟩
  rw [done, Except.ok.injEq, Prod.mk.injEq] at done'
  rw [← done'.1]
  exact rest

theorem run_append {connection : Connection ρ} (before behind : List (List β)) :
    reader.run connection (before ++ behind) = (do
      let (connection, first) ← reader.run connection before
      let (connection, rest) ← reader.run connection behind
      return (connection, first ++ rest)) := by
  induction before generalizing connection with
  | nil =>
      simp only [List.nil_append, run, Except.ok_bind]
      cases reader.run connection behind <;> rfl
  | cons chunk before ih =>
      simp only [List.cons_append, run, ih, bind_assoc, Except.pure_eq_ok, Except.ok_bind,
        List.append_assoc]

theorem run_cons {connection next final : Connection ρ} {chunk : List β}
    {chunks : List (List β)} {first rest : List α}
    (head : reader.read connection chunk = .ok (next, first))
    (tail : reader.run next chunks = .ok (final, rest)) :
    reader.run connection (chunk :: chunks) = .ok (final, first ++ rest) := by
  simp only [run, head, Except.ok_bind, tail, Except.pure_eq_ok]

/-! ## Decoding readers -/

section Decodes

variable {σ φ : Type}

/-- A reader decodes the frames of a recognizer: related to a state of the decoder, it takes a
frame at the front of its window, emitting what the decoder does, and takes nothing when there is
none. The relation may be to more than one decoder state where the window holds no frame. -/
structure Decodes (reader : Reader ρ β α ε) (code : σ → Recognizer β φ)
    (next : σ → φ → σ × List α) (related : ρ → σ → Prop) : Prop where
  unread : ∀ {state decoder}, related state decoder →
    reader.unread state = (reader.window state).length
  fill : ∀ {state decoder chunk}, related state decoder → reader.unread state ≠ reader.capacity →
    chunk.length ≤ reader.room state →
      ∃ filled, reader.fill state chunk = .ok filled ∧ related filled decoder ∧
        reader.window filled = reader.window state ++ chunk
  accept : ∀ {state decoder frame count}, related state decoder →
    (code decoder).front (reader.window state) = some (frame, count) →
      ∃ taken, reader.turn state = .ok (true, taken, (next decoder frame).2) ∧
        related taken (next decoder frame).1 ∧
        reader.window taken = (reader.window state).drop count
  reject : ∀ {state decoder}, related state decoder →
    (code decoder).front (reader.window state) = none →
      ∃ left, reader.turn state = .ok (false, left, []) ∧ related left decoder ∧
        reader.window left = reader.window state
  short : ∀ {decoder input frame count}, (code decoder).front input = some (frame, count) →
    count ≤ reader.capacity

variable {code : σ → Recognizer β φ} {next : σ → φ → σ × List α} {related : ρ → σ → Prop}

/-- Draining decodes the window. -/
theorem Decodes.drain (decodes : reader.Decodes code next related) {turns : Nat} {state : ρ}
    {decoder : σ} (relation : related state decoder) (enough : reader.unread state < turns) :
    ∃ drained, reader.drain turns state =
        .ok (drained, (Recognizer.decode code next decoder (reader.window state)).2.1) ∧
      related drained (Recognizer.decode code next decoder (reader.window state)).1 ∧
      reader.window drained =
        (Recognizer.decode code next decoder (reader.window state)).2.2 := by
  induction turns generalizing state decoder with
  | zero => exact (Nat.not_lt_zero _ enough).elim
  | succ turns ih =>
      have length := decodes.unread relation
      by_cases empty : reader.unread state = 0
      · have nothing : reader.window state = [] := List.eq_nil_of_length_eq_zero (by omega)
        refine ⟨state, ?_, ?_, ?_⟩ <;>
          rw [nothing, Recognizer.decode_of_none (Recognizer.front_nil _)]
        · exact drain_of_empty empty
        · exact relation
      · cases found : (code decoder).front (reader.window state) with
        | none =>
            obtain ⟨left, turned, still, same⟩ := decodes.reject relation found
            rw [Recognizer.decode_of_none found]
            exact ⟨left, drain_of_last empty turned, still, same⟩
        | some result =>
            obtain ⟨frame, count⟩ := result
            obtain ⟨taken, turned, after, dropped⟩ := decodes.accept relation found
            have positive := (code decoder).nonempty found
            have shorter : reader.unread taken < turns := by
              rw [decodes.unread after, dropped, List.length_drop]
              omega
            obtain ⟨drained, rest, final, left⟩ := ih after shorter
            rw [Recognizer.decode_of_some found, drain_of_more empty turned, rest, ← dropped]
            exact ⟨drained, rfl, final, left⟩

/-- **Decoding readers do not depend on the cuts.** Whatever the chunks, a reader that is a
decoding reader behind its first chunk emits what decoding the whole input emits, and ends related
to the decoder's state. It is dropped only with a full window, and is not full otherwise. -/
theorem Decodes.run (decodes : reader.Decodes code next related) {state filled : ρ}
    {decoder : σ} {chunk : List β} (chunks : List (List β))
    (fill : reader.fill state chunk = .ok filled) (relation : related filled decoder)
    (fits : reader.Fits ⟨state, .live⟩ (chunk :: chunks)) :
    ∃ final status, reader.run ⟨state, .live⟩ (chunk :: chunks) = .ok (⟨final, status⟩,
        (Recognizer.decode code next decoder (reader.window filled ++ chunks.flatten)).2.1) ∧
      related final
        (Recognizer.decode code next decoder (reader.window filled ++ chunks.flatten)).1 ∧
      (status = .live ∧ reader.unread final ≠ reader.capacity ∧ reader.window final =
          (Recognizer.decode code next decoder (reader.window filled ++ chunks.flatten)).2.2 ∨
        status = .overrun ∧ reader.capacity ≤
          (Recognizer.decode code next decoder
            (reader.window filled ++ chunks.flatten)).2.2.length) := by
  induction chunks generalizing state filled decoder chunk with
  | nil =>
      obtain ⟨drained, drain, after, left⟩ :=
        decodes.drain relation (Nat.lt_succ_self (reader.unread filled))
      have read := read_of_drain (fits.1 rfl).1 fill drain
      have length := decodes.unread after
      rw [List.flatten_nil, List.append_nil]
      refine ⟨drained, if reader.unread drained = reader.capacity then .overrun else .live, ?_,
        after, ?_⟩
      · simp only [Reader.run, read, Except.ok_bind, Except.pure_eq_ok, List.append_nil]
      · by_cases full : reader.unread drained = reader.capacity
        · exact .inr ⟨if_pos full, by rw [← left, ← length, full]⟩
        · exact .inl ⟨if_neg full, full, left⟩
  | cons second chunks ih =>
      obtain ⟨drained, drain, after, left⟩ :=
        decodes.drain relation (Nat.lt_succ_self (reader.unread filled))
      have read := read_of_drain (fits.1 rfl).1 fill drain
      have later := fits.2 _ _ read
      have stuck : (code (Recognizer.decode code next decoder _).1).front _ = none :=
        Recognizer.front_decode decoder (reader.window filled)
      rw [List.flatten_cons, Recognizer.decode_append]
      generalize Recognizer.decode code next decoder (reader.window filled) = first
        at drain after left read stuck
      obtain ⟨middle, outputs, remaining⟩ := first
      simp only at drain after left read stuck ⊢
      subst left
      have length := decodes.unread after
      by_cases full : reader.unread drained = reader.capacity
      · rw [if_pos full] at read
        have shut : Recognizer.decode code next middle _ = _ :=
          Recognizer.decode_stuck stuck (fun found => by
            rw [← length, full]
            exact decodes.short found) (second ++ chunks.flatten)
        have dropped : reader.run ⟨drained, .overrun⟩ (second :: chunks) =
            .ok (⟨drained, .overrun⟩, []) :=
          run_of_not_live (by simp only [ne_eq, reduceCtorEq, not_false_eq_true]) _
        rw [shut]
        refine ⟨drained, .overrun, run_cons read dropped, after, .inr ⟨rfl, ?_⟩⟩
        rw [List.length_append]
        omega
      · rw [if_neg full] at read later
        obtain ⟨filled', fill', related', window⟩ :=
          decodes.fill after full (later.1 rfl).2
        obtain ⟨final, status, tail, related'', how⟩ := ih fill' related' later
        rw [window, List.append_assoc] at tail related'' how
        exact ⟨final, status, run_cons read tail, related'', how⟩

end Decodes

/-! ## Readers that do the same -/

section Mirrors

variable {ρ' : Type}

/-- Two readers do the same: in related states they have as much unread input, and what they are
given and the turns they take leads to related states with the same outputs. A turn that goes on
leaves less unread. -/
structure Mirrors (first : Reader ρ β α ε) (second : Reader ρ' β α ε) (related : ρ → ρ' → Prop) :
    Prop where
  capacity : first.capacity = second.capacity
  unread : ∀ {state image}, related state image → first.unread state = second.unread image
  fill : ∀ {state image chunk}, related state image → first.unread state ≠ first.capacity →
    chunk.length ≤ first.room state →
      ∃ filled filled', first.fill state chunk = .ok filled ∧
        second.fill image chunk = .ok filled' ∧ related filled filled'
  turn : ∀ {state image}, related state image → first.unread state ≠ 0 →
    ∃ more after after' outputs, first.turn state = .ok (more, after, outputs) ∧
      second.turn image = .ok (more, after', outputs) ∧ related after after' ∧
      (more = true → first.unread after < first.unread state)

variable {first : Reader ρ β α ε} {second : Reader ρ' β α ε} {related : ρ → ρ' → Prop}

/-- Draining both readers. -/
theorem Mirrors.drain (mirrors : Mirrors first second related) {turns : Nat} {state : ρ}
    {image : ρ'} (relation : related state image) (enough : first.unread state < turns) :
    ∃ drained drained' outputs, first.drain turns state = .ok (drained, outputs) ∧
      second.drain turns image = .ok (drained', outputs) ∧ related drained drained' := by
  induction turns generalizing state image with
  | zero => exact (Nat.not_lt_zero _ enough).elim
  | succ turns ih =>
      have same := mirrors.unread relation
      by_cases empty : first.unread state = 0
      · exact ⟨state, image, [], drain_of_empty empty, drain_of_empty (same ▸ empty), relation⟩
      · have full : second.unread image ≠ 0 := same ▸ empty
        obtain ⟨more, after, after', outputs, turned, turned', relation', shorter⟩ :=
          mirrors.turn relation empty
        cases more with
        | false =>
            exact ⟨after, after', outputs, drain_of_last empty turned, drain_of_last full turned',
              relation'⟩
        | true =>
            obtain ⟨drained, drained', rest, drain, drain', final⟩ :=
              ih relation' (by have := shorter rfl; omega)
            rw [drain_of_more empty turned, drain_of_more full turned', drain, drain']
            exact ⟨drained, drained', _, rfl, rfl, final⟩

/-- **Readers that do the same emit the same**, whatever the chunks. -/
theorem Mirrors.run (mirrors : Mirrors first second related) {state : ρ} {image : ρ'}
    {status : Status} (chunks : List (List β)) (relation : related state image)
    (notFull : status = .live → first.unread state ≠ first.capacity)
    (fits : first.Fits ⟨state, status⟩ chunks) :
    ∃ final final' status' outputs, first.run ⟨state, status⟩ chunks =
        .ok (⟨final, status'⟩, outputs) ∧
      second.run ⟨image, status⟩ chunks = .ok (⟨final', status'⟩, outputs) ∧
      related final final' := by
  induction chunks generalizing state image status with
  | nil => exact ⟨state, image, status, [], rfl, rfl, relation⟩
  | cons chunk chunks ih =>
      by_cases live : status = .live
      · subst live
        obtain ⟨nonempty, short⟩ := fits.1 rfl
        obtain ⟨filled, filled', fill, fill', relation'⟩ :=
          mirrors.fill relation (notFull rfl) short
        obtain ⟨drained, drained', outputs, drain, drain', relation''⟩ :=
          mirrors.drain relation' (Nat.lt_succ_self _)
        have read := read_of_drain nonempty fill drain
        rw [mirrors.unread relation'] at drain'
        have read' := read_of_drain nonempty fill' drain'
        rw [← mirrors.unread relation'', ← mirrors.capacity] at read'
        have later := fits.2 _ _ read
        obtain ⟨final, final', status', rest, ran, ran', last⟩ := ih relation''
          (fun live full => by rw [if_pos full] at live; exact nomatch live) later
        exact ⟨final, final', status', outputs ++ rest, run_cons read ran, run_cons read' ran',
          last⟩
      · exact ⟨state, image, status, [], run_of_not_live live _, run_of_not_live live _, relation⟩

end Mirrors

end Reader

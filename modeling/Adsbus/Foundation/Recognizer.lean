import Mathlib.Data.List.Infix

/-! # Recognizing frames at the front of an input

A recognizer finds a frame at the front of an input. Whether it does, which
frame it finds and how long that frame is depend on the frame's own values only:
more input behind a frame changes nothing, and a frame that lies in a prefix of
the input is found in the prefix already. The sequence of frames at the front of
an input (`Recognizer.decode`) can therefore be found piecewise
(`decode_append`).
-/

/-- Finding a frame and its length at the front of an input. -/
structure Recognizer (β φ : Type) where
  front : List β → Option (φ × Nat)
  nonempty : ∀ {input frame count}, front input = some (frame, count) → 0 < count
  inside : ∀ {input frame count}, front input = some (frame, count) → count ≤ input.length
  determined : ∀ {input frame count}, front input = some (frame, count) →
    ∀ other, input.take count <+: other → front other = some (frame, count)

namespace Recognizer

variable {β φ σ α : Type}

/-- Slices inside a common prefix are the same. -/
theorem slice_eq_of_take_prefix {input other : List β} {count start length : Nat}
    (below : start + length ≤ count) (common : input.take count <+: other)
    (inside : count ≤ input.length) :
    (other.drop start).take length = (input.drop start).take length := by
  obtain ⟨rest, rfl⟩ := common
  have taken : (input.take count).length = count := by
    rw [List.length_take]
    omega
  rw [List.drop_append_of_le_length (by omega),
    List.take_append_of_le_length (by rw [List.length_drop]; omega), List.drop_take, List.take_take,
    Nat.min_eq_left (by omega)]

/-- Reading inside a common prefix gives the same value. -/
theorem getElem?_eq_of_take_prefix {input other : List β} {count index : Nat}
    (common : input.take count <+: other) (inside : count ≤ input.length)
    (below : index < count) : other[index]? = input[index]? := by
  obtain ⟨rest, rfl⟩ := common
  rw [List.getElem?_append_left (by rw [List.length_take]; omega),
    List.getElem?_take_of_lt below]

/-- More input changes no recognized frame. -/
theorem front_append (recognizer : Recognizer β φ) {input : List β} {result : φ × Nat}
    (found : recognizer.front input = some result) (more : List β) :
    recognizer.front (input ++ more) = some result :=
  recognizer.determined found _ ((List.take_prefix _ _).trans (List.prefix_append _ _))

/-- A frame inside a prefix of the input is found in the prefix. -/
theorem front_of_append (recognizer : Recognizer β φ) {input more : List β} {frame : φ}
    {count : Nat} (found : recognizer.front (input ++ more) = some (frame, count))
    (inside : count ≤ input.length) : recognizer.front input = some (frame, count) := by
  refine recognizer.determined found _ ?_
  rw [List.take_append_of_le_length inside]
  exact List.take_prefix _ _

/-- The empty input holds no frame. -/
theorem front_nil (recognizer : Recognizer β φ) : recognizer.front [] = none := by
  cases found : recognizer.front [] with
  | none => rfl
  | some result =>
      obtain ⟨frame, count⟩ := result
      have positive := recognizer.nonempty found
      have inside := recognizer.inside found
      rw [List.length_nil] at inside
      omega

/-- The same frames under other names. -/
def map {ψ : Type} (rename : φ → ψ) (recognizer : Recognizer β φ) : Recognizer β ψ where
  front input := (recognizer.front input).map fun result => (rename result.1, result.2)
  nonempty := by
    intro input frame count found
    obtain ⟨⟨original, _⟩, here, same⟩ := Option.map_eq_some_iff.mp found
    cases same
    exact recognizer.nonempty here
  inside := by
    intro input frame count found
    obtain ⟨⟨original, _⟩, here, same⟩ := Option.map_eq_some_iff.mp found
    cases same
    exact recognizer.inside here
  determined := by
    intro input frame count found other common
    obtain ⟨⟨original, _⟩, here, same⟩ := Option.map_eq_some_iff.mp found
    cases same
    rw [recognizer.determined here other common]
    rfl

theorem front_map_eq_some {ψ : Type} {rename : φ → ψ} {recognizer : Recognizer β φ}
    {input : List β} {named : ψ} {count : Nat} :
    (recognizer.map rename).front input = some (named, count) ↔
      ∃ frame, recognizer.front input = some (frame, count) ∧ rename frame = named := by
  constructor
  · intro found
    obtain ⟨⟨frame, _⟩, here, same⟩ := Option.map_eq_some_iff.mp found
    cases same
    exact ⟨frame, here, rfl⟩
  · rintro ⟨frame, found, rfl⟩
    exact Option.map_eq_some_iff.mpr ⟨_, found, rfl⟩

theorem front_map_eq_none {ψ : Type} {rename : φ → ψ} {recognizer : Recognizer β φ}
    {input : List β} :
    (recognizer.map rename).front input = none ↔ recognizer.front input = none :=
  Option.map_eq_none_iff

/-- The recognizer of nothing. -/
def never : Recognizer β φ where
  front _ := none
  nonempty := nofun
  inside := nofun
  determined := nofun

/-- Two recognizers of which no input is recognized by both. -/
def Apart (first second : Recognizer β φ) : Prop :=
  ∀ input result, second.front input = some result → first.front input = none

/-- The one of several recognizers that finds a frame, when no two of them find one in the same
input. -/
def oneOf (codes : List (Recognizer β φ)) (apart : codes.Pairwise Apart) : Recognizer β φ where
  front input := codes.findSome? fun code => code.front input
  nonempty := by
    intro input frame count found
    obtain ⟨code, _, found⟩ := List.exists_of_findSome?_eq_some found
    exact code.nonempty found
  inside := by
    intro input frame count found
    obtain ⟨code, _, found⟩ := List.exists_of_findSome?_eq_some found
    exact code.inside found
  determined := by
    intro input frame count found other common
    obtain ⟨before, code, behind, rfl, found, _⟩ := List.findSome?_eq_some_iff.mp found
    have elsewhere := code.determined found other common
    refine List.findSome?_eq_some_iff.mpr ⟨before, code, behind, rfl, elsewhere, ?_⟩
    intro earlier member
    exact (List.pairwise_append.mp apart).2.2 earlier member code List.mem_cons_self other _
      elsewhere

theorem front_oneOf_eq_some {codes : List (Recognizer β φ)} {apart : codes.Pairwise Apart}
    {input : List β} {result : φ × Nat} :
    (oneOf codes apart).front input = some result ↔
      ∃ code ∈ codes, code.front input = some result := by
  constructor
  · exact List.exists_of_findSome?_eq_some
  · rintro ⟨code, member, found⟩
    obtain ⟨before, behind, rfl⟩ := List.append_of_mem member
    refine List.findSome?_eq_some_iff.mpr ⟨before, code, behind, rfl, found, ?_⟩
    intro earlier member
    exact (List.pairwise_append.mp apart).2.2 earlier member code List.mem_cons_self input _ found

section Decode

variable (code : σ → Recognizer β φ) (next : σ → φ → σ × List α)

/-- The outputs of the frames at the front of an input, decoded one after another from a state,
with the state and the input left behind the last of them. -/
def decode (state : σ) (input : List β) : σ × List α × List β :=
  match _found : (code state).front input with
  | none => (state, [], input)
  | some (frame, count) =>
      let (state', outputs) := next state frame
      let (final, more, rest) := decode state' (input.drop count)
      (final, outputs ++ more, rest)
termination_by input.length
decreasing_by
  have positive := (code state).nonempty _found
  have inside := (code state).inside _found
  rw [List.length_drop]
  omega

variable {code next}

theorem decode_of_none {state : σ} {input : List β} (none : (code state).front input = none) :
    decode code next state input = (state, [], input) := by
  rw [decode]
  split
  · rfl
  · rename_i found
    rw [none] at found
    exact absurd found (by simp only [reduceCtorEq, not_false_eq_true])

theorem decode_of_some {state : σ} {input : List β} {frame : φ} {count : Nat}
    (some : (code state).front input = some (frame, count)) :
    decode code next state input =
      let rest := decode code next (next state frame).1 (input.drop count)
      (rest.1, (next state frame).2 ++ rest.2.1, rest.2.2) := by
  rw [decode]
  split
  · rename_i found
    rw [some] at found
    exact absurd found (by simp only [reduceCtorEq, not_false_eq_true])
  · rename_i frame' count' found
    rw [some, Option.some.injEq, Prod.mk.injEq] at found
    obtain ⟨rfl, rfl⟩ := found
    rfl

/-- No frame is left at the front of the rest. -/
theorem front_decode (state : σ) (input : List β) :
    (code (decode code next state input).1).front (decode code next state input).2.2 = none := by
  induction size : input.length using Nat.strongRecOn generalizing state input with
  | ind size ih =>
      cases found : (code state).front input with
      | none => rw [decode_of_none found, found]
      | some result =>
          obtain ⟨frame, count⟩ := result
          have positive := (code state).nonempty found
          have inside := (code state).inside found
          rw [decode_of_some found]
          exact ih _ (by rw [List.length_drop]; omega) _ _ rfl

/-- **Decoding piecewise.** Decoding an input with more behind it is decoding the input, and then
what it left with more behind. -/
theorem decode_append (state : σ) (input more : List β) :
    decode code next state (input ++ more) =
      let first := decode code next state input
      let second := decode code next first.1 (first.2.2 ++ more)
      (second.1, first.2.1 ++ second.2.1, second.2.2) := by
  induction size : input.length using Nat.strongRecOn generalizing state input with
  | ind size ih =>
      cases found : (code state).front input with
      | none =>
          rw [decode_of_none found]
          rfl
      | some result =>
          obtain ⟨frame, count⟩ := result
          have positive := (code state).nonempty found
          have inside := (code state).inside found
          rw [decode_of_some ((code state).front_append found more), decode_of_some found,
            List.drop_append_of_le_length inside,
            ih _ (by rw [List.length_drop]; omega) _ _ rfl]
          simp only [List.append_assoc]

/-- Changing the outputs of every frame changes those of the sequence. -/
theorem decode_map {γ : Type} (change : α → γ) (state : σ) (input : List β) :
    decode code (fun state frame => ((next state frame).1, (next state frame).2.map change))
        state input =
      let plain := decode code next state input
      (plain.1, plain.2.1.map change, plain.2.2) := by
  induction size : input.length using Nat.strongRecOn generalizing state input with
  | ind size ih =>
      cases found : (code state).front input with
      | none =>
          rw [decode_of_none found, decode_of_none found]
          rfl
      | some result =>
          obtain ⟨frame, count⟩ := result
          have positive := (code state).nonempty found
          have inside := (code state).inside found
          rw [decode_of_some found, decode_of_some found,
            ih _ (by rw [List.length_drop]; omega) _ _ rfl]
          simp only [List.map_append]

/-- A rest no shorter than every frame stays a rest when more input follows. -/
theorem decode_stuck {state : σ} {input : List β} (none : (code state).front input = none)
    (long : ∀ {more frame count}, (code state).front more = some (frame, count) →
      count ≤ input.length) (more : List β) :
    decode code next state (input ++ more) = (state, [], input ++ more) := by
  refine decode_of_none ?_
  cases found : (code state).front (input ++ more) with
  | none => rfl
  | some result =>
      obtain ⟨frame, count⟩ := result
      rw [(code state).front_of_append found (long found)] at none
      exact absurd none (by simp only [reduceCtorEq, not_false_eq_true])

end Decode

end Recognizer

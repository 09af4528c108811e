import Adsbus.Core.Bytes
import Adsbus.Foundation.JsonReader

/-! # The JSON library

The program reads and writes JSON with jansson, which is given here by what two
of its functions do: `json_loadb` without an end-of-file check and rejecting
duplicate members, and `json_dump_callback`. The properties of them that results
rest on are named, and each result assumes the ones it uses. -/

namespace Adsbus

/-- `json_loadb`: the value at the front of the input and the position behind it; and
`json_dump_callback`: the pieces of text it passes to its callback. -/
structure Jansson where
  loadb : Bytes → Option (Json × Nat)
  dump : Json → List Bytes

namespace Jansson

variable (jansson : Jansson)

/-- The text of a value. -/
def text (value : Json) : Bytes := (jansson.dump value).flatten

/-- No input that starts with a byte is accepted. -/
def Rejects (byte : UInt8) : Prop := ∀ input, jansson.loadb (byte :: input) = none

/-- Only objects and arrays are accepted, behind white space. -/
def Opens : Prop := ∀ byte, ¬ Json.IsSpace byte → byte ≠ 123 → byte ≠ 91 → jansson.Rejects byte

/-- The reported position lies in the input. -/
def Positions : Prop := ∀ {input value position},
  jansson.loadb input = some (value, position) → 0 < position ∧ position ≤ input.length

/-- A value is accepted wherever its text is found, and nothing is read behind it. -/
def Stable : Prop := ∀ {input value position},
  jansson.loadb input = some (value, position) → ∀ other, input.take position <+: other →
    jansson.loadb other = some (value, position)

/-- White space before a value is skipped. -/
def SkipsSpace : Prop := ∀ {c}, Json.IsSpace c → ∀ input,
  jansson.loadb (c :: input) =
    (jansson.loadb input).map fun result => (result.1, result.2 + 1)

/-- The texts of strings and integers, and of objects from those of their members, which may be
written in any order. -/
structure Dumps : Prop where
  string : ∀ {value}, (∀ c ∈ value, Json.IsPlain c) →
    jansson.text (.string value) = Json.quote value
  integer : ∀ value : Int64, jansson.text (.integer value) = Json.decimal value.toInt
  object : ∀ {fields : List (Bytes × Json)}, (∀ field ∈ fields, ∀ c ∈ field.1, Json.IsPlain c) →
    ∃ order : List (Bytes × Json), order.Perm fields ∧ jansson.text (.object fields) =
      Json.braces (order.map fun field => Json.member field.1 (jansson.text field.2))

/-- The text of an object with scalar members is loaded again, up to the order of the members. -/
def Loads : Prop := ∀ {fields}, Json.Flat fields →
  ∃ loaded, (∀ key, loaded.lookup key = fields.lookup key) ∧
    jansson.loadb (jansson.text (.object fields)) =
      some (.object loaded, (jansson.text (.object fields)).length)

variable {jansson}

/-- There is no value in nothing. -/
theorem Positions.loadb_nil (positions : jansson.Positions) : jansson.loadb [] = none := by
  cases found : jansson.loadb [] with
  | none => rfl
  | some result =>
      obtain ⟨positive, inside⟩ := positions found
      exact absurd inside (Nat.not_le.mpr positive)

/-- The length of an object's text, from those of its members. -/
theorem Dumps.object_length (dumps : jansson.Dumps) {fields : List (Bytes × Json)}
    (keys : ∀ field ∈ fields, ∀ c ∈ field.1, Json.IsPlain c) :
    (jansson.text (.object fields)).length =
      (fields.map fun field => (Json.member field.1 (jansson.text field.2)).length).sum +
        2 * (fields.length - 1) + 2 := by
  obtain ⟨order, permuted, text⟩ := dumps.object keys
  rw [text, Json.braces_length, List.map_map, List.length_map, permuted.length_eq]
  have sums := (permuted.map fun field =>
    (Json.member field.1 (jansson.text field.2)).length).sum_eq
  rw [← sums]
  rfl

/-- The text of an object starts with a brace. -/
theorem Dumps.object_opens (dumps : jansson.Dumps) {fields : List (Bytes × Json)}
    (keys : ∀ field ∈ fields, ∀ c ∈ field.1, Json.IsPlain c) :
    ∃ rest, jansson.text (.object fields) = 123 :: rest := by
  obtain ⟨_, _, text⟩ := dumps.object keys
  exact ⟨_, text⟩

theorem Dumps.string_length_le (dumps : jansson.Dumps) {value : Bytes}
    (plain : ∀ c ∈ value, Json.IsPlain c) :
    (jansson.text (.string value)).length ≤ 2 * value.length + 2 := by
  rw [dumps.string plain, Json.quote_length]
  have := Json.escape_length_le value
  omega

/-- The text of a string that needs no escaping. -/
theorem Dumps.string_length (dumps : jansson.Dumps) {value : Bytes}
    (plain : ∀ c ∈ value, Json.IsPlain c)
    (plainer : ∀ c ∈ value, c ≠ Json.quotationMark ∧ c ≠ Json.backslash) :
    (jansson.text (.string value)).length = value.length + 2 := by
  rw [dumps.string plain, Json.quote_length, Json.escape_eq_self plainer]

theorem Dumps.natural_length_le (dumps : jansson.Dumps) {value : Int64} {count : Nat}
    (positive : 0 < count) (natural : 0 ≤ value.toInt) (small : value.toInt < 10 ^ count) :
    (jansson.text (.integer value)).length ≤ count := by
  rw [dumps.integer, Json.decimal, if_neg (by omega)]
  refine Json.decimalNat_length_le positive ?_
  zify
  rwa [abs_of_nonneg natural]

theorem Dumps.integer_length_le (dumps : jansson.Dumps) (value : Int64) :
    (jansson.text (.integer value)).length ≤ 20 := by
  have low := value.le_toInt
  have high := value.toInt_lt
  have digits : (Json.decimalNat value.toInt.natAbs).length ≤ 19 :=
    Json.decimalNat_length_le (by decide) (by omega)
  rw [dumps.integer, Json.decimal]
  split
  · rw [List.length_cons]
    omega
  · omega

/-- A part of a text that was accepted as a whole is not accepted. -/
theorem Stable.of_prefix (stable : jansson.Stable) (positions : jansson.Positions)
    {input part : Bytes} {value : Json} (whole : jansson.loadb input = some (value, input.length))
    (partial' : part <+: input) (proper : part ≠ input) : jansson.loadb part = none := by
  cases found : jansson.loadb part with
  | none => rfl
  | some result =>
      obtain ⟨value', position⟩ := result
      have inside := (positions found).2
      have same := stable found input ((List.take_prefix _ _).trans partial')
      rw [whole, Option.some.injEq, Prod.mk.injEq] at same
      have length := partial'.length_le
      exact absurd (partial'.eq_of_length (by omega)) proper

/-- A text that was accepted as a whole is accepted with more behind it. -/
theorem Stable.append (stable : jansson.Stable) {input : Bytes} {value : Json}
    (whole : jansson.loadb input = some (value, input.length)) (more : Bytes) :
    jansson.loadb (input ++ more) = some (value, input.length) := by
  refine stable whole _ ?_
  rw [List.take_length]
  exact List.prefix_append _ _

/-- White space before a value moves its position. -/
theorem SkipsSpace.append (skips : jansson.SkipsSpace) {space : Bytes}
    (blank : ∀ c ∈ space, Json.IsSpace c) (input : Bytes) :
    jansson.loadb (space ++ input) =
      (jansson.loadb input).map fun result => (result.1, space.length + result.2) := by
  induction space with
  | nil =>
      rw [List.nil_append]
      cases jansson.loadb input with
      | none => rfl
      | some result => simp only [Option.map_some, List.length_nil, Nat.zero_add]
  | cons c space ih =>
      obtain ⟨here, rest⟩ := List.forall_mem_cons.mp blank
      rw [List.cons_append, skips here, ih rest, Option.map_map]
      cases jansson.loadb input with
      | none => rfl
      | some result =>
          simp only [Option.map_some, Function.comp_apply, List.length_cons, Option.some.injEq,
            Prod.mk.injEq, true_and]
          omega

/-! ## A library

What is assumed of jansson holds of the reader of flat objects. -/

/-- The library that reads flat objects. -/
def flat : Jansson where
  loadb input := (Json.reader.scan .start input).map fun result => (.object result.1, result.2)
  dump value := [value.text]

theorem flat_text (value : Json) : flat.text value = value.text :=
  List.append_nil _

theorem flat_positions : flat.Positions := by
  intro input value position loaded
  obtain ⟨result, scanned, same⟩ := Option.map_eq_some_iff.mp loaded
  cases same
  exact Scanner.scan_bounds scanned

theorem flat_stable : flat.Stable := by
  intro input value position loaded other common
  obtain ⟨result, scanned, same⟩ := Option.map_eq_some_iff.mp loaded
  cases same
  exact Option.map_eq_some_iff.mpr ⟨result, Scanner.scan_determined scanned common, rfl⟩

theorem flat_skipsSpace : flat.SkipsSpace := by
  intro c space input
  have notBrace : c ≠ 123 := by
    rintro rfl
    exact absurd space (by decide)
  have step : Json.reader.step .start c = some (.inl .start) := by
    change Json.readStep .start c = _
    simp only [Json.readStep, notBrace, space, ↓reduceIte]
  simp only [flat, Scanner.scan, step, Option.map_map]
  rfl

theorem flat_opens : flat.Opens := by
  intro c noSpace noBrace _ input
  have step : Json.reader.step .start c = none := by
    change Json.readStep .start c = _
    simp only [Json.readStep, noBrace, noSpace, ↓reduceIte]
  simp only [flat, Scanner.scan, step, Option.map_none]

theorem flat_dumps : flat.Dumps where
  string _ := by rw [flat_text, Json.text]
  integer value := by rw [flat_text, Json.text]
  object {fields} _ := by
    refine ⟨fields, List.Perm.refl _, ?_⟩
    simp only [flat_text]
    rw [Json.text, Json.memberTexts_eq]

theorem flat_loadb {fields : List (Bytes × Json)} (isFlat : Json.Flat fields) :
    flat.loadb (flat.text (.object fields)) =
      some (.object fields, (flat.text (.object fields)).length) := by
  rw [flat_text, Json.text_of_flat isFlat]
  exact Option.map_eq_some_iff.mpr ⟨_, Json.scan_flatText isFlat, rfl⟩

theorem flat_loads : flat.Loads := fun isFlat => ⟨_, fun _ => rfl, flat_loadb isFlat⟩

end Jansson

end Adsbus

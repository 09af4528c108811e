import Adsbus.Foundation.Json

/-! # Reading flat objects

A reader of JSON objects whose members are plain strings and integers, the
members in any order and with white space between the tokens. It reads the texts
that `Json.text` writes (`Json.scan_flatText`).
-/

namespace Json

/-- Where a reader is in the text of an object; the text of a string is kept backwards. -/
inductive Reading
  | start
  | opened
  | nextKey (fields : List (List UInt8 × Json))
  | inKey (fields : List (List UInt8 × Json)) (text : List UInt8) (escaped : Bool)
  | behindKey (fields : List (List UInt8 × Json)) (key : List UInt8)
  | value (fields : List (List UInt8 × Json)) (key : List UInt8)
  | inString (fields : List (List UInt8 × Json)) (key text : List UInt8) (escaped : Bool)
  | minus (fields : List (List UInt8 × Json)) (key : List UInt8)
  | inInteger (fields : List (List UInt8 × Json)) (key : List UInt8) (negative : Bool)
      (magnitude : Nat)
  | behindValue (fields : List (List UInt8 × Json))

/-- A step inside a string: its text is continued, or ended. -/
def stringStep (text : List UInt8) (escaped : Bool) (c : UInt8) :
    Option ((List UInt8 × Bool) ⊕ List UInt8) :=
  if escaped then
    if c = quotationMark ∨ c = backslash then some (.inl (c :: text, false)) else none
  else if c = backslash then some (.inl (text, true))
  else if c = quotationMark then some (.inr text.reverse)
  else if IsPlain c then some (.inl (c :: text, false))
  else none

/-- The value of a digit. -/
def digitValue (c : UInt8) : Option Nat := if 48 ≤ c ∧ c ≤ 57 then some (c.toNat - 48) else none

/-- The integer with the given sign and magnitude, if it fits. -/
def signed (negative : Bool) (magnitude : Nat) : Option Int64 :=
  if negative then if magnitude ≤ 2 ^ 63 then some (Int64.ofInt (-magnitude)) else none
  else if magnitude < 2 ^ 63 then some (Int64.ofInt magnitude) else none

/-- Behind a value: another member, or the end of the object. -/
def behindStep (fields : List (List UInt8 × Json)) (c : UInt8) :
    Option (Reading ⊕ List (List UInt8 × Json)) :=
  if c = 44 then some (.inl (.nextKey fields))
  else if c = 125 then some (.inr fields)
  else if IsSpace c then some (.inl (.behindValue fields))
  else none

/-- A step of the reader. A member with the key of an earlier one is rejected. -/
def readStep : Reading → UInt8 → Option (Reading ⊕ List (List UInt8 × Json))
  | .start, c =>
      if c = 123 then some (.inl .opened) else if IsSpace c then some (.inl .start) else none
  | .opened, c =>
      if c = quotationMark then some (.inl (.inKey [] [] false))
      else if c = 125 then some (.inr [])
      else if IsSpace c then some (.inl .opened)
      else none
  | .nextKey fields, c =>
      if c = quotationMark then some (.inl (.inKey fields [] false))
      else if IsSpace c then some (.inl (.nextKey fields))
      else none
  | .inKey fields text escaped, c =>
      match stringStep text escaped c with
      | some (.inl (text, escaped)) => some (.inl (.inKey fields text escaped))
      | some (.inr key) =>
          if key ∈ fields.map Prod.fst then none else some (.inl (.behindKey fields key))
      | none => none
  | .behindKey fields key, c =>
      if c = 58 then some (.inl (.value fields key))
      else if IsSpace c then some (.inl (.behindKey fields key))
      else none
  | .value fields key, c =>
      if c = quotationMark then some (.inl (.inString fields key [] false))
      else if c = 45 then some (.inl (.minus fields key))
      else if IsSpace c then some (.inl (.value fields key))
      else (digitValue c).map fun digit => .inl (.inInteger fields key false digit)
  | .inString fields key text escaped, c =>
      match stringStep text escaped c with
      | some (.inl (text, escaped)) => some (.inl (.inString fields key text escaped))
      | some (.inr text) => some (.inl (.behindValue (fields ++ [(key, .string text)])))
      | none => none
  | .minus fields key, c =>
      (digitValue c).map fun digit => .inl (.inInteger fields key true digit)
  | .inInteger fields key negative magnitude, c =>
      match digitValue c with
      | some digit => some (.inl (.inInteger fields key negative (magnitude * 10 + digit)))
      | none =>
          match signed negative magnitude with
          | some value => behindStep (fields ++ [(key, .integer value)]) c
          | none => none
  | .behindValue fields, c => behindStep fields c

/-- The reader of flat objects. -/
def reader : Scanner Reading UInt8 (List (List UInt8 × Json)) where
  step := readStep

/-! ## Tokens -/

variable {fields : List (List UInt8 × Json)} {key : List UInt8}

theorem walk_escape {value : List UInt8} (plain : ∀ c ∈ value, IsPlain c)
    {state : List UInt8 → Bool → Reading}
    (step : ∀ text escaped c next, stringStep text escaped c = some (.inl next) →
      readStep (state text escaped) c = some (.inl (state next.1 next.2)))
    (text : List UInt8) :
    reader.walk (state text false) (escape value) = some (state (value.reverse ++ text) false) := by
  induction value generalizing text with
  | nil => rfl
  | cons c value ih =>
      obtain ⟨here, rest⟩ := List.forall_mem_cons.mp plain
      rw [escape, List.flatMap_cons, ← escape, List.reverse_cons, List.append_assoc,
        List.singleton_append]
      by_cases special : c = quotationMark ∨ c = backslash
      · rw [if_pos special, List.cons_append, List.singleton_append]
        refine Scanner.walk_cons (step _ _ _ (text, true) ?_) ?_
        · simp only [stringStep, Bool.false_eq_true, ↓reduceIte]
        refine Scanner.walk_cons (step _ _ _ (c :: text, false) ?_) (ih rest (c :: text))
        simp only [stringStep, ↓reduceIte, special]
      · rw [if_neg special, List.singleton_append]
        rw [not_or] at special
        refine Scanner.walk_cons (step _ _ _ (c :: text, false) ?_) (ih rest (c :: text))
        simp only [stringStep, Bool.false_eq_true, ↓reduceIte, special, here]

/-- A quoted string that starts in one state is read into another. -/
theorem walk_quote {value : List UInt8} (plain : ∀ c ∈ value, IsPlain c)
    {first last : Reading} {state : List UInt8 → Bool → Reading}
    (opens : readStep first quotationMark = some (.inl (state [] false)))
    (step : ∀ text escaped c next, stringStep text escaped c = some (.inl next) →
      readStep (state text escaped) c = some (.inl (state next.1 next.2)))
    (closes : readStep (state value.reverse false) quotationMark = some (.inl last)) :
    reader.walk first (quote value) = some last := by
  refine Scanner.walk_cons opens (Scanner.walk_append (walk_escape plain step []) ?_)
  rw [List.append_nil]
  exact Scanner.walk_cons closes rfl

theorem stringStep_quotationMark (text : List UInt8) :
    stringStep text false quotationMark = some (.inr text.reverse) := by
  have different : quotationMark ≠ backslash := by decide
  simp only [stringStep, Bool.false_eq_true, ↓reduceIte, different]

theorem digitValue_digit {value : Nat} (small : value < 10) :
    digitValue (digit value) = some value := by
  have all : ∀ value : Fin 10, digitValue (digit value) = some value.val := by decide
  exact all ⟨value, small⟩

theorem digit_ne {value : Nat} (small : value < 10) :
    digit value ≠ quotationMark ∧ digit value ≠ 45 ∧ ¬ IsSpace (digit value) := by
  have all : ∀ value : Fin 10, digit value ≠ quotationMark ∧ digit value ≠ 45 ∧
      ¬ IsSpace (digit value) := by decide
  exact all ⟨value, small⟩

theorem walk_digits {digits : List Nat} (small : ∀ value ∈ digits, value < 10)
    (negative : Bool) (magnitude : Nat) :
    reader.walk (.inInteger fields key negative magnitude) (digits.map digit) =
      some (.inInteger fields key negative
        (digits.foldl (fun magnitude value => magnitude * 10 + value) magnitude)) := by
  induction digits generalizing magnitude with
  | nil => rfl
  | cons value digits ih =>
      obtain ⟨here, rest⟩ := List.forall_mem_cons.mp small
      have step : readStep (.inInteger fields key negative magnitude) (digit value) =
          some (.inl (.inInteger fields key negative (magnitude * 10 + value))) := by
        simp only [readStep, digitValue_digit here]
      exact Scanner.walk_cons step (ih rest (magnitude * 10 + value))

/-- The text of a natural number is read from a state that takes its first digit. -/
theorem walk_decimalNat {state : Reading} {negative : Bool} (value : Nat)
    (first : ∀ digit' < 10, readStep state (digit digit') =
      some (.inl (.inInteger fields key negative digit'))) :
    reader.walk state (decimalNat value) = some (.inInteger fields key negative value) := by
  rw [decimalNat]
  split
  · rename_i zero
    subst zero
    exact Scanner.walk_cons (first 0 (by decide)) rfl
  · rename_i nonzero
    have small : ∀ digit' ∈ (Nat.digits 10 value).reverse, digit' < 10 := fun digit' member =>
      Nat.digits_lt_base (by decide) (List.mem_reverse.mp member)
    have total : (Nat.digits 10 value).reverse.foldl
        (fun magnitude digit' => magnitude * 10 + digit') 0 = value := by
      rw [List.foldl_reverse]
      conv_rhs => rw [← Nat.ofDigits_digits 10 value, Nat.ofDigits_eq_foldr]
      congr 1
      funext digit' magnitude
      rw [Nat.add_comm, Nat.mul_comm]
      rfl
    cases digits : (Nat.digits 10 value).reverse with
    | nil => exact absurd (Nat.digits_eq_nil_iff_eq_zero.mp (List.reverse_eq_nil_iff.mp digits)) nonzero
    | cons digit' rest =>
        rw [digits] at small total
        obtain ⟨here, later⟩ := List.forall_mem_cons.mp small
        rw [List.foldl_cons, Nat.zero_mul, Nat.zero_add] at total
        rw [List.map_cons]
        refine Scanner.walk_cons (first digit' here) ?_
        rw [walk_digits later, total]

/-- The end of a value: the next member or the end of the object. -/
def Ends (state : Reading) (fields : List (List UInt8 × Json)) : Prop :=
  ∀ c, c = 44 ∨ c = 125 → readStep state c = behindStep fields c

theorem ends_inInteger {negative : Bool} {magnitude : Nat} {value : Int64}
    (same : signed negative magnitude = some value) :
    Ends (.inInteger fields key negative magnitude) (fields ++ [(key, .integer value)]) := by
  intro c which
  have noDigit : digitValue c = none := by rcases which with rfl | rfl <;> decide
  simp only [readStep, noDigit, same]

/-- **Values.** The text of a scalar value is read behind its key. -/
theorem walk_scalarText {value : Json} (scalar : value.IsScalar) :
    ∃ state, reader.walk (.value fields key) value.scalarText = some state ∧
      Ends state (fields ++ [(key, value)]) := by
  cases value with
  | object _ => exact scalar.elim
  | other => exact scalar.elim
  | string text =>
      refine ⟨.behindValue (fields ++ [(key, .string text)]), ?_, fun c _ => rfl⟩
      have opens : readStep (.value fields key) quotationMark =
          some (.inl (.inString fields key [] false)) := by
        simp only [readStep, ↓reduceIte]
      refine @walk_quote _ scalar _ _ (fun text escaped => .inString fields key text escaped)
        opens ?_ ?_
      · intro text escaped c next stepped
        simp only [readStep, stepped]
      · simp only [readStep, stringStep_quotationMark, List.reverse_reverse]
  | integer value =>
      have low := value.le_toInt
      have high := value.toInt_lt
      rw [scalarText, decimal]
      by_cases negative : value.toInt < 0
      · rw [if_pos negative]
        have step : readStep (.value fields key) 45 = some (.inl (.minus fields key)) := rfl
        refine ⟨.inInteger fields key true value.toInt.natAbs,
          Scanner.walk_cons step (walk_decimalNat _ ?_), ends_inInteger ?_⟩
        · intro digit' small
          simp only [readStep, digitValue_digit small, Option.map_some]
        · have back : -(value.toInt.natAbs : Int) = value.toInt := by omega
          rw [signed, if_pos rfl, if_pos (by omega), back, Int64.ofInt_toInt]
      · rw [if_neg negative]
        refine ⟨.inInteger fields key false value.toInt.natAbs, walk_decimalNat _ ?_,
          ends_inInteger ?_⟩
        · intro digit' small
          obtain ⟨quote, minus, space⟩ := digit_ne small
          simp only [readStep, quote, minus, space, ↓reduceIte, digitValue_digit small,
            Option.map_some]
        · have back : (value.toInt.natAbs : Int) = value.toInt := by omega
          rw [signed, if_neg (by decide), if_pos (by omega), back, Int64.ofInt_toInt]

/-- **Members.** The text of a member is read where a key may start. -/
theorem walk_member {state : Reading} {value : Json} (plain : ∀ c ∈ key, IsPlain c)
    (scalar : value.IsScalar) (new : key ∉ fields.map Prod.fst)
    (opens : readStep state quotationMark = some (.inl (.inKey fields [] false))) :
    ∃ last, reader.walk state (member key value.scalarText) = some last ∧
      Ends last (fields ++ [(key, value)]) := by
  obtain ⟨last, read, ends⟩ := @walk_scalarText fields key value scalar
  refine ⟨last, ?_, ends⟩
  have quoted : reader.walk state (quote key) = some (.behindKey fields key) := by
    refine @walk_quote _ plain _ _ (fun text escaped => .inKey fields text escaped) opens ?_ ?_
    · intro text escaped c next stepped
      simp only [readStep, stepped]
    · simp only [readStep, stringStep_quotationMark, List.reverse_reverse, new, ↓reduceIte]
  have colon : readStep (.behindKey fields key) 58 = some (.inl (.value fields key)) := rfl
  have space : readStep (.value fields key) 32 = some (.inl (.value fields key)) := rfl
  rw [member, List.append_assoc]
  exact Scanner.walk_append quoted (Scanner.walk_cons colon (Scanner.walk_cons space read))

/-- Members behind others are read to the end of the object. -/
theorem scan_members {state : Reading} {rest : List (List UInt8 × Json)}
    (ends : Ends state fields)
    (keys : ∀ field ∈ rest, ∀ c ∈ field.1, IsPlain c)
    (scalars : ∀ field ∈ rest, field.2.IsScalar)
    (distinct : ((fields ++ rest).map Prod.fst).Nodup) :
    reader.scan state ((rest.map fun field => [44, 32] ++ member field.1 field.2.scalarText).flatten
      ++ [125]) = some (fields ++ rest,
        (rest.map fun field => [44, 32] ++ member field.1 field.2.scalarText).flatten.length + 1) := by
  induction rest generalizing state fields with
  | nil =>
      have step : reader.step state 125 = some (.inr fields) := ends 125 (.inr rfl)
      rw [List.append_nil]
      change reader.scan state [125] = some (fields, 1)
      simp only [Scanner.scan, step]
  | cons field rest ih =>
      obtain ⟨key, value⟩ := field
      obtain ⟨plain, keys⟩ := List.forall_mem_cons.mp keys
      obtain ⟨scalar, scalars⟩ := List.forall_mem_cons.mp scalars
      have new : key ∉ fields.map Prod.fst := by
        rw [List.map_append, List.map_cons] at distinct
        exact fun member => (List.nodup_append.mp distinct).2.2 key member key
          List.mem_cons_self rfl
      obtain ⟨last, read, ends'⟩ := @walk_member fields key (.nextKey fields) value plain scalar new
        (by simp only [readStep, ↓reduceIte])
      have comma : readStep state 44 = some (.inl (.nextKey fields)) := ends 44 (.inl rfl)
      have space : readStep (.nextKey fields) 32 = some (.inl (.nextKey fields)) := rfl
      have walked : reader.walk state ([44, 32] ++ member key value.scalarText) = some last :=
        Scanner.walk_cons comma (Scanner.walk_cons space read)
      have whole : fields ++ (key, value) :: rest = (fields ++ [(key, value)]) ++ rest := by
        rw [List.append_assoc, List.singleton_append]
      rw [whole] at distinct ⊢
      rw [List.map_cons, List.flatten_cons, List.append_assoc, Scanner.scan_append walked,
        ih ends' keys scalars distinct, Option.map_some]
      simp only [List.length_append, Option.some.injEq, Prod.mk.injEq, true_and]
      omega

theorem intercalate_cons_flatten (separator first : List UInt8) (others : List (List UInt8)) :
    separator.intercalate (first :: others) =
      first ++ (others.map fun other => separator ++ other).flatten := by
  induction others generalizing first with
  | nil => simp only [List.intercalate_singleton, List.map_nil, List.flatten_nil, List.append_nil]
  | cons second others ih =>
      rw [List.intercalate_cons_cons, ih, List.map_cons, List.flatten_cons, List.append_assoc,
        List.append_assoc]

/-- **Objects.** The text of an object with scalar members is read, whatever follows it. -/
theorem scan_flatText {fields : List (List UInt8 × Json)} (flat : Flat fields) :
    reader.scan .start (flatText fields) = some (fields, (flatText fields).length) := by
  have opened : readStep .start 123 = some (.inl .opened) := rfl
  have start : reader.walk .start [123] = some .opened := Scanner.walk_cons opened rfl
  rw [flatText, braces, List.append_assoc]
  rw [Scanner.scan_append start]
  obtain ⟨keys, scalars, distinct⟩ := flat
  cases fields with
  | nil => rfl
  | cons field rest =>
      obtain ⟨key, value⟩ := field
      obtain ⟨plain, keys⟩ := List.forall_mem_cons.mp keys
      obtain ⟨scalar, scalars⟩ := List.forall_mem_cons.mp scalars
      obtain ⟨last, read, ends⟩ := @walk_member [] key .opened value plain scalar
        List.not_mem_nil (by simp only [readStep, ↓reduceIte])
      rw [List.map_cons, intercalate_cons_flatten, List.map_map, List.append_assoc, Scanner.scan_append read]
      have others := scan_members ends keys scalars distinct
      rw [Function.comp_def, others, Option.map_some, Option.map_some]
      simp only [List.length_append, List.length_cons, List.length_nil, List.nil_append,
        List.singleton_append, Option.some.injEq, Prod.mk.injEq, true_and]
      omega

/-! ## Writing -/

mutual

/-- The text of a value; those that are not told apart are all written as one of them. -/
def text : Json → List UInt8
  | object fields => braces (memberTexts fields)
  | string value => quote value
  | integer value => decimal value.toInt
  | other => [110, 117, 108, 108]

/-- The texts of the members of an object. -/
def memberTexts : List (List UInt8 × Json) → List (List UInt8)
  | [] => []
  | (key, value) :: fields => member key value.text :: memberTexts fields

end

theorem memberTexts_eq (fields : List (List UInt8 × Json)) :
    memberTexts fields = fields.map fun field => member field.1 field.2.text := by
  induction fields with
  | nil => rfl
  | cons field fields ih =>
      obtain ⟨key, value⟩ := field
      rw [memberTexts, ih, List.map_cons]

theorem text_of_isScalar {value : Json} (scalar : value.IsScalar) :
    value.text = value.scalarText := by
  cases value with
  | object _ => exact scalar.elim
  | other => exact scalar.elim
  | string value => rw [text, scalarText]
  | integer value => rw [text, scalarText]

theorem text_of_flat {fields : List (List UInt8 × Json)} (flat : Flat fields) :
    (object fields).text = flatText fields := by
  rw [text, memberTexts_eq, flatText]
  congr 1
  exact List.map_congr_left fun field member => by rw [text_of_isScalar (flat.scalars field member)]

end Json

import Mathlib.Data.List.Forall2

/-! # Command lines of long options

Words are read one after another. One that starts with a dash is a long option, by its name or by a
beginning that it has for itself; its argument is in the same word or is the next one. Words that
are no options are passed over and left to the end, where all are that come behind two dashes.

Without such words, what is read is a sequence of spelled options, and every spelling is read back
(`Getopt.scan_eq_iff`).
-/

namespace Getopt

variable {β : Type}

/-- An option, and whether it requires an argument. -/
structure LongOption (β : Type) where
  name : List β
  argument : Bool

/-- How a word is read. -/
inductive Word (β : Type)
  | other
  | terminator
  | option (text : List β)

/-- An option that is given: its number, its argument, and the last word that it takes. -/
structure Given (β : Type) where
  index : Nat
  value : Option (List β)
  last : List β

/-- What reading a line gives, option by option. -/
inductive Scan (β : Type)
  | done (others : List (List β))
  | malformed
  | option (given : Given β) (rest : Scan β)

/-- Reading options and nothing else. -/
def Scan.ofGiven (given : List (Given β)) : Scan β := given.foldr .option (.done [])

@[simp] theorem Scan.ofGiven_nil : Scan.ofGiven ([] : List (Given β)) = .done [] := rfl

@[simp] theorem Scan.ofGiven_cons (first : Given β) (given : List (Given β)) :
    Scan.ofGiven (first :: given) = .option first (.ofGiven given) := rfl

variable [DecidableEq β]

/-- The text before the first delimiter, and the text behind it. -/
def cut (delim : β) : List β → Option (List β × List β)
  | [] => none
  | first :: text =>
      if first = delim then some ([], text)
      else (cut delim text).map fun cuts => (first :: cuts.1, cuts.2)

variable (dash assign : β) (options : List (LongOption β))

def word : List β → Word β
  | first :: second :: rest =>
      if first ≠ dash then .other
      else if second ≠ dash then .option (second :: rest)
      else if rest = [] then .terminator
      else .option rest
  | _ => .other

/-- The option of a name, or else the only one whose name starts so. -/
def find (name : List β) : Option (Nat × LongOption β) :=
  match options.zipIdx.find? fun entry => entry.1.name = name with
  | some (option, index) => some (index, option)
  | none =>
      match options.zipIdx.filter fun entry => name <+: entry.1.name with
      | [(option, index)] => some (index, option)
      | _ => none

/-- A line from some word on, when others were passed over. -/
def scan : (others line : List (List β)) → Scan β
  | others, [] => .done others
  | others, first :: line =>
      match word dash first with
      | .other => scan (others ++ [first]) line
      | .terminator => .done (others ++ line)
      | .option text =>
          match cut assign text with
          | some (name, value) =>
              match find options name with
              | none => .malformed
              | some (index, option) =>
                  if option.argument then .option ⟨index, some value, first⟩ (scan others line)
                  else .malformed
          | none =>
              match find options text with
              | none => .malformed
              | some (index, option) =>
                  if option.argument then
                    match line with
                    | [] => .malformed
                    | value :: line => .option ⟨index, some value, value⟩ (scan others line)
                  else .option ⟨index, none, first⟩ (scan others line)

/-! ## The grammar -/

/-- The words that an option can be given by. -/
inductive Spelled : Given β → List (List β) → Prop
  | bare {first text : List β} {index : Nat} {option : LongOption β} :
      word dash first = .option text → assign ∉ text → find options text = some (index, option) →
      option.argument = false → Spelled ⟨index, none, first⟩ [first]
  | attached {first name value : List β} {index : Nat} {option : LongOption β} :
      word dash first = .option (name ++ assign :: value) → assign ∉ name →
      find options name = some (index, option) → option.argument = true →
      Spelled ⟨index, some value, first⟩ [first]
  | separate {first text value : List β} {index : Nat} {option : LongOption β} :
      word dash first = .option text → assign ∉ text → find options text = some (index, option) →
      option.argument = true → Spelled ⟨index, some value, value⟩ [first, value]

/-- A line of options, which two dashes can close. -/
def Line (given : List (Given β)) (line : List (List β)) : Prop :=
  ∃ spellings, given.Forall₂ (Spelled dash assign options) spellings ∧
    (line = spellings.flatten ∨ line = spellings.flatten ++ [[dash, dash]])

/-! ## Cutting -/

variable {dash assign : β} {options : List (LongOption β)}

theorem cut_eq_some {delim : β} {text before behind : List β} :
    cut delim text = some (before, behind) ↔ text = before ++ delim :: behind ∧ delim ∉ before := by
  induction text generalizing before behind with
  | nil => simp [cut]
  | cons first text ih =>
      rw [cut]
      split
      · next here =>
          subst here
          cases before with
          | nil => simp
          | cons other before => simp +contextual
      · next differ =>
          cases before with
          | nil => simp [differ]
          | cons other before =>
              simp only [Option.map_eq_some_iff, Prod.exists, ih, Prod.mk.injEq, List.cons.injEq,
                List.cons_append, List.mem_cons, not_or]
              constructor
              · rintro ⟨_, _, ⟨rfl, absent⟩, ⟨rfl, rfl⟩, rfl⟩
                exact ⟨⟨rfl, rfl⟩, Ne.symm differ, absent⟩
              · rintro ⟨⟨rfl, rfl⟩, _, absent⟩
                exact ⟨before, behind, ⟨rfl, absent⟩, ⟨rfl, rfl⟩, rfl⟩

theorem cut_eq_none {delim : β} {text : List β} : cut delim text = none ↔ delim ∉ text := by
  induction text with
  | nil => simp [cut]
  | cons first text ih =>
      rw [cut]
      split
      · next here => simp [here]
      · next differ => simp [ih, Ne.symm differ]

/-! ## Reading -/

theorem word_eq_terminator {first : List β} :
    word dash first = .terminator ↔ first = [dash, dash] := by
  rw [word.eq_def]
  split
  · next first second rest =>
      by_cases one : first = dash <;> by_cases two : second = dash <;> by_cases three : rest = [] <;>
        simp [one, two, three]
  · next short =>
      simp only [reduceCtorEq, false_iff]
      rintro rfl
      exact short dash dash [] rfl

/-- What reading does with the next words of a line. -/
theorem scan_cons (others line : List (List β)) (first : List β) :
    scan dash assign options others (first :: line) = .malformed ∨
    scan dash assign options others (first :: line) =
      scan dash assign options (others ++ [first]) line ∨
    first = [dash, dash] ∧
      scan dash assign options others (first :: line) = .done (others ++ line) ∨
    ∃ given words rest, Spelled dash assign options given words ∧ first :: line = words ++ rest ∧
      scan dash assign options others (first :: line) =
        .option given (scan dash assign options others rest) := by
  rw [scan]
  cases shape : word dash first with
  | other => exact .inr (.inl rfl)
  | terminator => exact .inr (.inr (.inl ⟨word_eq_terminator.mp shape, rfl⟩))
  | option text =>
      dsimp only
      cases cuts : cut assign text with
      | some parts =>
          obtain ⟨name, value⟩ := parts
          obtain ⟨rfl, bare⟩ := cut_eq_some.mp cuts
          dsimp only
          split
          · exact .inl rfl
          · next index option found =>
              split
              · next takes =>
                  exact .inr (.inr (.inr ⟨_, _, line, .attached shape bare found takes, rfl, rfl⟩))
              · exact .inl rfl
      | none =>
          have bare := cut_eq_none.mp cuts
          dsimp only
          split
          · exact .inl rfl
          · next index option found =>
              split
              · next takes =>
                  cases line with
                  | nil => exact .inl rfl
                  | cons value line =>
                      exact .inr (.inr (.inr
                        ⟨_, _, line, .separate shape bare found takes, rfl, rfl⟩))
              · next free =>
                  exact .inr (.inr (.inr
                    ⟨_, _, line, .bare shape bare found (eq_false_of_ne_true free), rfl, rfl⟩))

/-- A spelled option is read. -/
theorem Spelled.scan {given : Given β} {words : List (List β)}
    (spelled : Spelled dash assign options given words) (others line : List (List β)) :
    scan dash assign options others (words ++ line) =
      .option given (scan dash assign options others line) := by
  cases spelled with
  | bare shape bare found free =>
      simp [Getopt.scan, shape, cut_eq_none.mpr bare, found, free]
  | attached shape bare found takes =>
      simp [Getopt.scan, shape, cut_eq_some.mpr ⟨rfl, bare⟩, found, takes]
  | separate shape bare found takes =>
      simp [Getopt.scan, shape, cut_eq_none.mpr bare, found, takes]

theorem Spelled.ne_nil {given : Given β} {words : List (List β)}
    (spelled : Spelled dash assign options given words) : words ≠ [] := by
  cases spelled <;> exact List.cons_ne_nil _ _

/-- A line that gives options only has no words that are passed over. -/
theorem line_of_scan {others line : List (List β)} {given : List (Given β)}
    (read : scan dash assign options others line = .ofGiven given) :
    others = [] ∧ Line dash assign options given line := by
  induction size : line.length using Nat.strongRecOn generalizing others line given with
  | _ size ih =>
      subst size
      cases line with
      | nil =>
          cases given with
          | nil =>
              cases read
              exact ⟨rfl, [], .nil, .inl rfl⟩
          | cons first given => cases read
      | cons first line =>
          rcases @scan_cons β _ dash assign options others line first with
            malformed | passed | ⟨rfl, closed⟩ | ⟨here, words, rest, spelled, same, taken⟩
          · rw [malformed] at read
            cases given <;> cases read
          · rw [passed] at read
            obtain ⟨nothing, _⟩ := ih _ (Nat.lt_succ_self _) read rfl
            exact absurd nothing (by simp)
          · rw [closed] at read
            cases given with
            | nil =>
                simp only [Scan.ofGiven_nil, Scan.done.injEq, List.append_eq_nil_iff] at read
                obtain ⟨rfl, rfl⟩ := read
                exact ⟨rfl, [], .nil, .inr rfl⟩
            | cons other given => cases read
          · rw [taken] at read
            cases given with
            | nil => cases read
            | cons other given =>
                simp only [Scan.ofGiven_cons, Scan.option.injEq] at read
                obtain ⟨rfl, read⟩ := read
                have shorter : rest.length < (first :: line).length := by
                  rw [same, List.length_append]
                  have some := List.length_pos_of_ne_nil spelled.ne_nil
                  omega
                obtain ⟨rfl, spellings, all, ends⟩ := ih _ shorter read rfl
                refine ⟨rfl, words :: spellings, .cons spelled all, ?_⟩
                rw [same, List.flatten_cons, List.append_assoc]
                exact ends.imp (congrArg (words ++ ·)) (congrArg (words ++ ·))

/-- **Lines of options.** What is read without a word left is a sequence of spelled options, and
every such sequence is read so. -/
theorem scan_eq_iff {line : List (List β)} {given : List (Given β)} :
    scan dash assign options [] line = .ofGiven given ↔ Line dash assign options given line := by
  refine ⟨fun read => (line_of_scan read).2, ?_⟩
  rintro ⟨spellings, all, ends⟩
  induction all generalizing line with
  | nil =>
      rcases ends with rfl | rfl
      · rfl
      · have closes : word dash [dash, dash] = .terminator := word_eq_terminator.mpr rfl
        simp [scan, closes]
  | cons spelled _ ih =>
      rcases ends with rfl | rfl
      · rw [List.flatten_cons, spelled.scan, ih (.inl rfl), Scan.ofGiven_cons]
      · rw [List.flatten_cons, List.append_assoc, spelled.scan, ih (.inr rfl), Scan.ofGiven_cons]

/-- What is found is an option. -/
theorem find_index {name : List β} {index : Nat} {option : LongOption β}
    (found : find options name = some (index, option)) : options[index]? = some option := by
  have numbered : (option, index) ∈ options.zipIdx := by
    rw [find] at found
    split at found
    · next same =>
        cases found
        exact List.mem_of_find?_eq_some same
    · split at found
      · next only =>
          cases found
          exact List.mem_of_mem_filter (only ▸ List.mem_singleton_self _)
      · cases found
  exact List.mem_zipIdx_iff_getElem?.mp numbered

theorem Spelled.index_lt {given : Given β} {words : List (List β)}
    (spelled : Spelled dash assign options given words) : given.index < options.length := by
  cases spelled with
  | bare _ _ found _ => exact (List.getElem?_eq_some_iff.mp (find_index found)).1
  | attached _ _ found _ => exact (List.getElem?_eq_some_iff.mp (find_index found)).1
  | separate _ _ found _ => exact (List.getElem?_eq_some_iff.mp (find_index found)).1

/-- The options of a line are options. -/
theorem Line.index_lt {line : List (List β)} {given : List (Given β)}
    (whole : Line dash assign options given line) :
    ∀ option ∈ given, option.index < options.length := by
  obtain ⟨spellings, all, -⟩ := whole
  induction all with
  | nil => exact List.forall_mem_nil _
  | cons spelled _ ih => exact List.forall_mem_cons.mpr ⟨spelled.index_lt, ih⟩

end Getopt

import Mathlib.Data.List.Basic

/-! # Lines

A text is read as lines that end at a line feed each; what is behind the last one is a line as well
if it is not empty. A log of entries is read back entry by entry exactly when none of them has a
line feed in it (`Lines.lines_entries_iff`).
-/

namespace Lines

variable {β : Type} {feed : β}

/-- The text ends where a line does. -/
def Closed (feed : β) (text : List β) : Prop := text = [] ∨ ∃ rest, text = rest ++ [feed]

/-- Behind each entry stands a line feed, or before each but the first and at the end. -/
theorem entries_joined (entry : List β) (entries : List (List β)) :
    (entry :: entries).flatMap (· ++ [feed]) =
      entry ++ entries.flatMap (feed :: ·) ++ [feed] := by
  induction entries generalizing entry with
  | nil => rw [List.flatMap_singleton, List.flatMap_nil, List.append_nil]
  | cons next entries ih =>
      rw [List.flatMap_cons, ih, List.flatMap_cons]
      simp only [List.append_assoc, List.cons_append, List.nil_append]

theorem closed_entries (entries : List (List β)) :
    Closed feed (entries.flatMap (· ++ [feed])) := by
  cases entries with
  | nil => exact .inl rfl
  | cons entry entries => exact .inr ⟨_, entries_joined entry entries⟩

variable [DecidableEq β]

/-- The lines of a text. -/
def lines (feed : β) : List β → List (List β)
  | [] => []
  | first :: text =>
      if first = feed then [] :: lines feed text
      else match lines feed text with
        | [] => [[first]]
        | line :: others => (first :: line) :: others

theorem lines_cons_ne {first : β} {text : List β} (differ : first ≠ feed) :
    lines feed (first :: text) = match lines feed text with
      | [] => [[first]]
      | line :: others => (first :: line) :: others := by
  rw [lines, if_neg differ]

/-- A line is read up to its line feed. -/
theorem lines_line {line : List β} (bare : feed ∉ line) (text : List β) :
    lines feed (line ++ feed :: text) = line :: lines feed text := by
  induction line with
  | nil => rw [List.nil_append, lines, if_pos rfl]
  | cons first line ih =>
      obtain ⟨differ, bare⟩ := not_or.mp (mt List.mem_cons.mpr bare)
      rw [List.cons_append, lines_cons_ne (Ne.symm differ), ih bare]

/-- What is behind the last line feed is a line. -/
theorem lines_rest {rest : List β} (bare : feed ∉ rest) (nonempty : rest ≠ []) :
    lines feed rest = [rest] := by
  induction rest with
  | nil => exact absurd rfl nonempty
  | cons first rest ih =>
      obtain ⟨differ, bare⟩ := not_or.mp (mt List.mem_cons.mpr bare)
      rw [lines_cons_ne (Ne.symm differ)]
      by_cases last : rest = []
      · rw [last, lines]
      · rw [ih bare last]

/-- A text has a first line, up to a line feed or to its end. -/
theorem exists_line (text : List β) : text = [] ∨ (text ≠ [] ∧ feed ∉ text) ∨
    ∃ line rest, text = line ++ feed :: rest ∧ feed ∉ line := by
  induction text with
  | nil => exact .inl rfl
  | cons first text ih =>
      by_cases same : first = feed
      · exact .inr (.inr ⟨[], text, by rw [same, List.nil_append], List.not_mem_nil⟩)
      · rcases ih with rfl | ⟨_, bare⟩ | ⟨line, rest, rfl, bare⟩
        · exact .inr (.inl ⟨List.cons_ne_nil _ _, by simpa using Ne.symm same⟩)
        · exact .inr (.inl ⟨List.cons_ne_nil _ _, by simp [Ne.symm same, bare]⟩)
        · exact .inr (.inr ⟨first :: line, rest, rfl, by simp [Ne.symm same, bare]⟩)

/-- Texts are read line by line. -/
theorem line_induction {holds : List β → Prop} (nil : holds [])
    (rest : ∀ text, text ≠ [] → feed ∉ text → holds text)
    (line : ∀ line text, feed ∉ line → holds text → holds (line ++ feed :: text))
    (text : List β) : holds text := by
  induction size : text.length using Nat.strongRecOn generalizing text with
  | _ size ih =>
      subst size
      rcases @exists_line β feed _ text with rfl | ⟨nonempty, bare⟩ | ⟨first, others, rfl, bare⟩
      · exact nil
      · exact rest text nonempty bare
      · refine line first others bare (ih _ ?_ others rfl)
        rw [List.length_append, List.length_cons]
        omega

theorem flatten_lines (text : List β) :
    (lines feed text).flatten = text.filter (· ≠ feed) := by
  have all : ∀ {line : List β}, feed ∉ line → line.filter (· ≠ feed) = line := by
    intro line bare
    refine List.filter_eq_self.mpr fun item member => decide_eq_true ?_
    rintro rfl
    exact bare member
  induction text using @line_induction β feed _ with
  | nil => rfl
  | rest text nonempty bare => rw [lines_rest bare nonempty, all bare, List.flatten_singleton]
  | line line text bare ih =>
      rw [lines_line bare, List.flatten_cons, ih, List.filter_append, all bare,
        List.filter_cons_of_neg (by simp)]

theorem not_mem_of_mem_lines {text line : List β} (member : line ∈ lines feed text) :
    feed ∉ line := by
  induction text using @line_induction β feed _ with
  | nil => cases member
  | rest text nonempty bare =>
      rw [lines_rest bare nonempty] at member
      rwa [List.mem_singleton.mp member]
  | line first text bare ih =>
      rw [lines_line bare] at member
      rcases List.mem_cons.mp member with rfl | member
      · exact bare
      · exact ih member

/-- Texts that are cut where a line ends have the same lines together. -/
theorem lines_append {text : List β} (closed : Closed feed text) (more : List β) :
    lines feed (text ++ more) = lines feed text ++ lines feed more := by
  induction text using @line_induction β feed _ with
  | nil => rfl
  | rest text nonempty bare =>
      rcases closed with rfl | ⟨rest, rfl⟩
      · exact absurd rfl nonempty
      · exact absurd (List.mem_append_right _ List.mem_cons_self) bare
  | line line text bare ih =>
      have closed : Closed feed text := by
        rcases List.eq_nil_or_concat text with rfl | ⟨init, last, rfl⟩
        · exact .inl rfl
        · rcases closed with empty | ⟨rest, same⟩
          · exact absurd empty (List.append_ne_nil_of_right_ne_nil _ (List.cons_ne_nil _ _))
          · have same : (line ++ feed :: init) ++ [last] = rest ++ [feed] := by
              rw [← same, List.append_assoc, List.cons_append, List.concat_eq_append]
            have ends : last = feed := List.singleton_inj.mp (List.append_inj' same rfl).2
            exact .inr ⟨init, by rw [ends, List.concat_eq_append]⟩
      rw [List.append_assoc, List.cons_append, lines_line bare, lines_line bare, ih closed,
        List.cons_append]

/-- What is cut into texts where lines end, but for the last text, has the lines of the texts. -/
theorem lines_flatten {texts : List (List β)} (closed : ∀ text ∈ texts, Closed feed text)
    (last : List β) : lines feed (texts ++ [last]).flatten =
      (texts ++ [last]).flatMap (lines feed) := by
  induction texts with
  | nil => simp only [List.nil_append, List.flatten_singleton, List.flatMap_singleton]
  | cons text texts ih =>
      obtain ⟨here, later⟩ := List.forall_mem_cons.mp closed
      rw [List.cons_append, List.flatten_cons, lines_append here, ih later, List.flatMap_cons]

/-- **Logs.** The lines of a log are its entries exactly when no entry has a line feed. -/
theorem lines_entries_iff {entries : List (List β)} :
    lines feed (entries.flatMap (· ++ [feed])) = entries ↔
      ∀ entry ∈ entries, feed ∉ entry := by
  constructor
  · intro same entry member
    rw [← same] at member
    exact not_mem_of_mem_lines member
  · intro bare
    induction entries with
    | nil => rfl
    | cons entry entries ih =>
        obtain ⟨here, later⟩ := List.forall_mem_cons.mp bare
        rw [List.flatMap_cons, List.append_assoc, List.singleton_append, lines_line here, ih later]

end Lines

import Adsbus.Foundation.Reader
import Mathlib.Data.List.TakeWhile

/-! # Scripted readers

A reader that follows a script of frames with padding between them
(`Reader.Follows`) skips the padding behind a frame together with the frame, but
padding that arrives later stays in its window until the next frame is complete.
It emits the script's outputs for every way of cutting a text of the script
(`Reader.Follows.run`), provided that each frame fits the window together with
the padding before it. When one does not, reading value by value ends with a full
window (`Reader.Follows.run_singles`).
-/

namespace Reader

variable {ρ β α ε : Type} {reader : Reader ρ β α ε}

/-- A frame with what a reader emits for it, and whether padding may stand before it. -/
structure Item (β α : Type) where
  frame : List β
  outputs : List α
  led : Bool

variable {pad : β → Bool} {ready : ρ → List (Item β α) → Prop}

/-- Padding that may stand before an item. -/
def Item.Leads (pad : β → Bool) (item : Item β α) (gap : List β) : Prop :=
  ∀ value ∈ gap, item.led = true ∧ pad value = true

/-- The frame of an item can be told from padding. -/
def Item.Begins (pad : β → Bool) (item : Item β α) : Prop :=
  ∃ first rest, item.frame = first :: rest ∧ pad first = false

theorem Item.Begins.ne_nil {item : Item β α} (begins : item.Begins pad) : item.frame ≠ [] := by
  obtain ⟨first, rest, frame, _⟩ := begins
  rw [frame]
  exact List.cons_ne_nil _ _

/-- A text of a script: its frames in order, with padding before each and behind the last. Each
frame fits the capacity together with the padding before it. -/
inductive Spaced (pad : β → Bool) (capacity : Nat) : List (Item β α) → List β → Prop
  | nil {tail : List β} (padding : ∀ value ∈ tail, pad value = true)
      (short : tail.length < capacity) : Spaced pad capacity [] tail
  | cons {item : Item β α} {script : List (Item β α)} {gap text : List β}
      (leads : item.Leads pad gap) (short : gap.length + item.frame.length ≤ capacity)
      (rest : Spaced pad capacity script text) :
      Spaced pad capacity (item :: script) (gap ++ (item.frame ++ text))

/-- A window that holds less than the first item of a script, and the padding before it. -/
inductive Waiting (pad : β → Bool) : List (Item β α) → List β → Prop
  | nil {gap : List β} (padding : ∀ value ∈ gap, pad value = true) : Waiting pad [] gap
  | cons {item : Item β α} {script : List (Item β α)} {gap part : List β}
      (leads : item.Leads pad gap) (inside : part <+: item.frame) (proper : part ≠ item.frame) :
      Waiting pad (item :: script) (gap ++ part)

/-- A reader follows a script: at a frame behind some padding it emits the frame's outputs and
skips the padding behind it, and at anything less it takes nothing. -/
structure Follows (reader : Reader ρ β α ε) (pad : β → Bool)
    (ready : ρ → List (Item β α) → Prop) : Prop where
  unread : ∀ {state script}, ready state script →
    reader.unread state = (reader.window state).length
  fill : ∀ {state script chunk}, ready state script → reader.unread state ≠ reader.capacity →
    chunk.length ≤ reader.room state →
      ∃ filled, reader.fill state chunk = .ok filled ∧ ready filled script ∧
        reader.window filled = reader.window state ++ chunk
  begins : ∀ {state script}, ready state script → ∀ item ∈ script, item.Begins pad
  accept : ∀ {state item script gap more}, ready state (item :: script) → item.Leads pad gap →
    reader.window state = gap ++ (item.frame ++ more) →
      ∃ taken, reader.turn state = .ok (true, taken, item.outputs) ∧ ready taken script ∧
        reader.window taken = more.dropWhile pad
  reject : ∀ {state script}, ready state script → Waiting pad script (reader.window state) →
    reader.window state ≠ [] →
      ∃ left, reader.turn state = .ok (false, left, []) ∧ ready left script ∧
        reader.window left = reader.window state

/-! ## Texts -/

/-- Dropping padding from the front of a text of a script leaves one. -/
theorem Spaced.of_append {capacity : Nat} {script : List (Item β α)} {gap text : List β}
    (begins : ∀ item ∈ script, item.Begins pad) (padding : ∀ value ∈ gap, pad value = true)
    (spaced : Spaced pad capacity script (gap ++ text)) : Spaced pad capacity script text := by
  generalize whole : gap ++ text = all at spaced
  cases spaced with
  | nil allPadding short =>
      subst whole
      refine .nil (fun value member => allPadding value (List.mem_append_right _ member)) ?_
      rw [List.length_append] at short
      omega
  | @cons item script gap' text' leads short rest =>
      rcases List.append_eq_append_iff.mp whole with ⟨middle, split, rfl⟩ | ⟨middle, rfl, split⟩
      · subst split
        refine .cons (fun value member => leads value (List.mem_append_right _ member)) ?_ rest
        rw [List.length_append] at short
        omega
      · cases middle with
        | nil =>
            rw [List.nil_append] at split
            rw [← split, ← List.nil_append (item.frame ++ text')]
            refine .cons (fun value member => (List.not_mem_nil member).elim) ?_ rest
            rw [List.length_nil]
            omega
        | cons value middle =>
            -- The frame would start with padding.
            obtain ⟨first, others, starts, notPad⟩ := begins _ List.mem_cons_self
            rw [starts, List.cons_append, List.cons_append, List.cons.injEq] at split
            have isPad := padding value (List.mem_append_right _ List.mem_cons_self)
            rw [← split.1, notPad] at isPad
            exact absurd isPad (by decide)

/-- The padding in front of a frame is all that can be. -/
theorem takeWhile_gap {item : Item β α} {gap : List β} (begins : item.Begins pad)
    (leads : item.Leads pad gap) (text : List β) :
    (gap ++ (item.frame ++ text)).takeWhile pad = gap := by
  obtain ⟨first, rest, frame, notPad⟩ := begins
  rw [List.takeWhile_append_of_pos fun value member => (leads value member).2, frame,
    List.cons_append, List.takeWhile_cons_of_neg (by rw [notPad]; exact Bool.false_ne_true),
    List.append_nil]

/-- A text that starts with a frame behind padding is one of the frame and of the rest. -/
theorem spaced_cons_iff {capacity : Nat} {item : Item β α} {script : List (Item β α)}
    {gap text : List β} (begins : item.Begins pad) (leads : item.Leads pad gap) :
    Spaced pad capacity (item :: script) (gap ++ (item.frame ++ text)) ↔
      gap.length + item.frame.length ≤ capacity ∧ Spaced pad capacity script text := by
  constructor
  · generalize whole : gap ++ (item.frame ++ text) = all
    intro spaced
    cases spaced with
    | @cons _ _ gap' text' leads' short rest =>
        have same : gap = gap' := by
          rw [← takeWhile_gap begins leads text, whole, takeWhile_gap begins leads' text']
        subst same
        rw [List.append_cancel_left_eq, List.append_cancel_left_eq] at whole
        rw [whole]
        exact ⟨short, rest⟩
  · rintro ⟨short, rest⟩
    exact .cons leads short rest

theorem spaced_nil_iff {capacity : Nat} {tail : List β} (padding : ∀ value ∈ tail, pad value = true) :
    Spaced pad capacity ([] : List (Item β α)) tail ↔ tail.length < capacity := by
  constructor
  · intro spaced
    cases spaced with
    | nil _ short => exact short
  · exact .nil padding

/-- A part of a waiting window is one. -/
theorem Waiting.of_append {script : List (Item β α)} {window more : List β}
    (waiting : Waiting pad script (window ++ more)) : Waiting pad script window := by
  generalize whole : window ++ more = all at waiting
  cases waiting with
  | nil padding =>
      subst whole
      exact .nil fun value member => padding value (List.mem_append_left _ member)
  | @cons item script gap part leads inside proper =>
      rcases List.append_eq_append_iff.mp whole with ⟨middle, rfl, _⟩ | ⟨middle, rfl, rfl⟩
      · rw [← List.append_nil window]
        refine .cons (fun value member => leads value (List.mem_append_left _ member))
          List.nil_prefix fun same => proper ?_
        rw [← same] at inside ⊢
        exact List.prefix_nil.mp inside
      · refine .cons leads ((List.prefix_append _ _).trans inside) fun same => proper ?_
        rw [← same] at inside ⊢
        exact inside.eq_of_length (by
          have := inside.length_le
          rw [List.length_append] at this ⊢
          omega)

/-- A window on a text of a script holds its first item with the padding before it, or waits. -/
theorem Spaced.front_cases {script : List (Item β α)} {item : Item β α} {window rest gap text : List β}
    (begins : item.Begins pad) (leads : item.Leads pad gap)
    (whole : window ++ rest = gap ++ (item.frame ++ text)) :
    (∃ more, window = gap ++ (item.frame ++ more) ∧ text = more ++ rest) ∨
      Waiting pad (item :: script) window ∧ window.length < gap.length + item.frame.length := by
  have notNil := begins.ne_nil
  have positive := List.length_pos_iff.mpr notNil
  rcases List.append_eq_append_iff.mp whole with ⟨missing, rfl, _⟩ | ⟨part, rfl, split⟩
  · refine .inr ⟨?_, ?_⟩
    · rw [← List.append_nil window]
      exact .cons (fun value member => leads value (List.mem_append_left _ member))
        List.nil_prefix (Ne.symm notNil)
    · rw [List.length_append]
      omega
  · rcases List.append_eq_append_iff.mp split.symm with ⟨missing, frame, behind⟩ | ⟨more, rfl, behind⟩
    · by_cases complete : missing = []
      · rw [complete, List.append_nil] at frame
        rw [complete, List.nil_append] at behind
        exact .inl ⟨[], by rw [List.append_nil, frame], behind.symm⟩
      · refine .inr ⟨.cons leads ⟨missing, frame.symm⟩ fun same => complete ?_, ?_⟩
        · rw [← same] at frame
          exact List.append_right_eq_self.mp frame.symm
        · have := List.length_pos_iff.mpr complete
          rw [frame]
          simp only [List.length_append]
          omega
    · exact .inl ⟨more, rfl, behind⟩

/-- The window ends inside the script's first frame, or before it. -/
def Stalled (script : List (Item β α)) (window rest : List β) : Prop :=
  ∀ item others, script = item :: others → ∃ gap text,
    window ++ rest = gap ++ (item.frame ++ text) ∧ window.length < gap.length + item.frame.length

/-- An empty window is before the first frame. -/
theorem Spaced.stalled {capacity : Nat} {script : List (Item β α)} {text : List β}
    (begins : ∀ item ∈ script, item.Begins pad) (spaced : Spaced pad capacity script text) :
    Stalled script [] text := by
  rintro item others rfl
  cases spaced with
  | cons _ _ _ =>
      have positive := List.length_pos_iff.mpr (begins _ List.mem_cons_self).ne_nil
      refine ⟨_, _, rfl, ?_⟩
      rw [List.length_nil]
      omega

theorem Spaced.capacity_pos {capacity : Nat} {script : List (Item β α)} {text : List β}
    (begins : ∀ item ∈ script, item.Begins pad) (spaced : Spaced pad capacity script text) :
    0 < capacity := by
  cases spaced with
  | nil _ short => exact Nat.lt_of_le_of_lt (Nat.zero_le _) short
  | cons _ short _ =>
      have positive := List.length_pos_iff.mpr (begins _ List.mem_cons_self).ne_nil
      omega

/-! ## Runs -/

/-- Draining follows the script up to the first frame that is not complete. -/
theorem Follows.drain (follows : reader.Follows pad ready) {turns : Nat} {state : ρ}
    {script : List (Item β α)} {rest : List β} (isReady : ready state script)
    (spaced : Spaced pad reader.capacity script (reader.window state ++ rest))
    (enough : reader.unread state < turns) :
    ∃ drained taken left, script = taken ++ left ∧
      reader.drain turns state = .ok (drained, taken.flatMap Item.outputs) ∧
      ready drained left ∧
      Spaced pad reader.capacity left (reader.window drained ++ rest) ∧
      Stalled left (reader.window drained) rest ∧
      (reader.window drained).length < reader.capacity := by
  induction turns generalizing state script with
  | zero => exact (Nat.not_lt_zero _ enough).elim
  | succ turns ih =>
      have length := follows.unread isReady
      have begins := follows.begins isReady
      by_cases empty : reader.unread state = 0
      · have nothing : reader.window state = [] := List.eq_nil_of_length_eq_zero (by omega)
        refine ⟨state, [], script, rfl, drain_of_empty empty, isReady, spaced, ?_, ?_⟩ <;>
          rw [nothing] at spaced ⊢
        · exact spaced.stalled begins
        · rw [List.length_nil]
          exact spaced.capacity_pos begins
      · have something : reader.window state ≠ [] := fun nothing => by
          rw [nothing] at length
          exact empty length
        generalize whole : reader.window state ++ rest = all at spaced
        cases spaced with
        | nil padding short =>
            subst whole
            obtain ⟨left, turned, still, same⟩ := follows.reject isReady
              (.nil fun value member => padding value (List.mem_append_left _ member)) something
            refine ⟨left, [], [], rfl, drain_of_last empty turned, still, ?_, nofun, ?_⟩
            · rw [same]
              exact .nil padding short
            · rw [same]
              rw [List.length_append] at short
              omega
        | @cons item script gap text leads short spacedRest =>
            have first := begins item List.mem_cons_self
            rcases Spaced.front_cases first leads whole with
              ⟨more, complete, behind⟩ | ⟨waiting, less⟩
            · obtain ⟨next, turned, after, skipped⟩ := follows.accept isReady leads complete
              have shorter : reader.unread next < turns := by
                have skip := (List.dropWhile_suffix pad (l := more)).length_le
                have positive := List.length_pos_iff.mpr first.ne_nil
                rw [follows.unread after, skipped]
                rw [complete, List.length_append, List.length_append] at length
                omega
              have remaining : Spaced pad reader.capacity script (reader.window next ++ rest) := by
                rw [behind, ← List.takeWhile_append_dropWhile (p := pad) (l := more),
                  List.append_assoc] at spacedRest
                rw [skipped]
                exact spacedRest.of_append (follows.begins after) fun value member =>
                  List.mem_takeWhile_imp member
              obtain ⟨drained, taken, left, split, drain, final⟩ := ih after remaining shorter
              refine ⟨drained, item :: taken, left, by rw [split]; rfl, ?_, final⟩
              rw [drain_of_more empty turned, drain]
              rfl
            · obtain ⟨left, turned, still, same⟩ := follows.reject isReady waiting something
              refine ⟨left, [], _, rfl, drain_of_last empty turned, still, ?_, ?_, ?_⟩
              · rw [same, whole]
                exact .cons leads short spacedRest
              · intro item' others same'
                cases same'
                rw [same]
                exact ⟨gap, text, whole, less⟩
              · rw [same]
                omega

/-- **Scripted readers emit their script.** For every cut of a text of the script, a reader that
follows the script is never dropped, emits the outputs of all its frames in order, and ends with
nothing but padding in its window. -/
theorem Follows.run (follows : reader.Follows pad ready) {state : ρ} {script : List (Item β α)}
    (isReady : ready state script) (chunks : List (List β))
    (spaced : Spaced pad reader.capacity script (reader.window state ++ chunks.flatten))
    (stalled : Stalled script (reader.window state) chunks.flatten)
    (small : (reader.window state).length < reader.capacity)
    (fits : reader.Fits ⟨state, .live⟩ chunks) :
    ∃ final, reader.run ⟨state, .live⟩ chunks =
        .ok (⟨final, .live⟩, script.flatMap Item.outputs) ∧
      ready final [] ∧ (∀ value ∈ reader.window final, pad value = true) ∧
      (reader.window final).length < reader.capacity := by
  induction chunks generalizing state script with
  | nil =>
      rw [List.flatten_nil, List.append_nil] at spaced
      cases script with
      | nil =>
          generalize whole : reader.window state = text at spaced
          cases spaced with
          | nil padding _ => exact ⟨state, rfl, isReady, by rw [whole]; exact padding, small⟩
      | cons item script =>
          -- A stalled window is too short for the first frame.
          obtain ⟨gap, text, whole, less⟩ := stalled _ _ rfl
          rw [List.flatten_nil, List.append_nil] at whole
          have := congrArg List.length whole
          simp only [List.length_append] at this
          omega
  | cons chunk chunks ih =>
      obtain ⟨possible, later⟩ := fits
      obtain ⟨nonempty, short⟩ := possible rfl
      have notFull : reader.unread state ≠ reader.capacity := by
        rw [follows.unread isReady]
        omega
      obtain ⟨filled, fill, isReady', window⟩ := follows.fill isReady notFull short
      rw [List.flatten_cons, ← List.append_assoc, ← window] at spaced
      obtain ⟨drained, taken, left, rfl, drain, still, spaced', stalled', small'⟩ :=
        follows.drain isReady' spaced (Nat.lt_succ_self _)
      have read := read_of_drain nonempty fill drain
      have length := follows.unread still
      rw [if_neg (by omega)] at read
      obtain ⟨final, tail, done⟩ := ih still spaced' stalled' small' (later _ _ read)
      refine ⟨final, ?_, done⟩
      rw [run_cons read tail, List.flatMap_append]

/-! ## Reading value by value -/

/-- The chunks of one value each. -/
def singles (text : List β) : List (List β) := text.map fun value => [value]

theorem flatten_singles (text : List β) : (singles text).flatten = text := by
  induction text with
  | nil => rfl
  | cons value text ih =>
      change value :: (singles text).flatten = _
      rw [ih]

theorem singles_append (first second : List β) :
    singles (first ++ second) = singles first ++ singles second :=
  List.map_append

/-- A reader with room in its window asks for some value. -/
def Hungry (reader : Reader ρ β α ε) (ready : ρ → List (Item β α) → Prop) : Prop :=
  ∀ {state script}, ready state script → reader.unread state ≠ reader.capacity →
    0 < reader.room state

/-- Values that complete no item are kept, until the window is full. -/
theorem Follows.feed (follows : reader.Follows pad ready) (hungry : reader.Hungry ready)
    {state : ρ} {script : List (Item β α)} (isReady : ready state script) (more : List β)
    (waiting : Waiting pad script (reader.window state ++ more))
    (small : (reader.window state).length < reader.capacity)
    (fits : (reader.window state ++ more).length ≤ reader.capacity) :
    ∃ fed, reader.run ⟨state, .live⟩ (singles more) = .ok
        (⟨fed, if (reader.window state ++ more).length = reader.capacity then .overrun
          else .live⟩, []) ∧
      ready fed script ∧ reader.window fed = reader.window state ++ more ∧
      ∀ chunks, reader.Fits ⟨fed, if (reader.window state ++ more).length = reader.capacity
          then .overrun else .live⟩ chunks →
        reader.Fits ⟨state, .live⟩ (singles more ++ chunks) := by
  induction more generalizing state with
  | nil =>
      rw [List.append_nil, if_neg (by omega)]
      exact ⟨state, rfl, isReady, rfl, fun chunks possible => possible⟩
  | cons value more ih =>
      have notFull : reader.unread state ≠ reader.capacity := by
        rw [follows.unread isReady]
        omega
      have room := hungry isReady notFull
      obtain ⟨filled, fill, isReady', window⟩ :=
        @Follows.fill _ _ _ _ _ _ _ follows _ _ [value] isReady notFull room
      rw [List.append_cons] at waiting fits ⊢
      obtain ⟨left, turned, still, same⟩ := follows.reject isReady'
        (by rw [window]; exact waiting.of_append) (by
          rw [window]
          exact List.append_ne_nil_of_right_ne_nil _ (List.cons_ne_nil _ _))
      have unread : reader.unread filled ≠ 0 := by
        rw [follows.unread isReady', window, List.length_append, List.length_singleton]
        omega
      have read := read_of_drain (List.cons_ne_nil value []) fill (drain_of_last unread turned)
      rw [follows.unread still, same, window] at read
      have possible : [value] ≠ [] ∧ [value].length ≤ reader.room state :=
        ⟨List.cons_ne_nil _ _, room⟩
      by_cases full : (reader.window state ++ [value]).length = reader.capacity
      · have done : more = [] := List.eq_nil_of_length_eq_zero (by
          rw [List.length_append] at fits
          omega)
        subst done
        rw [if_pos full] at read
        rw [List.append_nil, if_pos full]
        refine ⟨left, ?_, still, by rw [same, window], fun chunks rest => ?_⟩
        · exact run_cons read rfl
        · exact fits_cons (fun _ => possible) read rest
      · rw [if_neg full] at read
        have whole : reader.window left = reader.window state ++ [value] := by
          rw [same, window]
        have less : (reader.window state ++ [value]).length < reader.capacity := by
          rw [List.length_append] at fits
          omega
        rw [← whole] at waiting less fits ⊢
        obtain ⟨fed, tail, ready', all, fitting⟩ := ih still waiting less fits
        refine ⟨fed, run_cons read tail, ready', all, fun chunks rest => ?_⟩
        exact fits_cons (fun _ => possible) read (fitting chunks rest)

/-- Values up to the end of an item, one by one, give its outputs and leave nothing. -/
theorem Follows.feed_item (follows : reader.Follows pad ready) (hungry : reader.Hungry ready)
    {state : ρ} {item : Item β α} {script : List (Item β α)} {gap : List β}
    (isReady : ready state (item :: script)) (leads : item.Leads pad gap)
    (empty : reader.window state = []) (fits : gap.length + item.frame.length ≤ reader.capacity) :
    ∃ fed, reader.run ⟨state, .live⟩ (singles (gap ++ item.frame)) =
        .ok (⟨fed, .live⟩, item.outputs) ∧
      ready fed script ∧ reader.window fed = [] ∧
      ∀ chunks, reader.Fits ⟨fed, .live⟩ chunks →
        reader.Fits ⟨state, .live⟩ (singles (gap ++ item.frame) ++ chunks) := by
  have notNil := (follows.begins isReady item List.mem_cons_self).ne_nil
  obtain ⟨part, last, frame⟩ : ∃ part last, item.frame = part ++ [last] :=
    ⟨_, _, (List.dropLast_append_getLast notNil).symm⟩
  have length : gap.length + (part.length + 1) ≤ reader.capacity := by
    rw [frame, List.length_append, List.length_singleton] at fits
    exact fits
  have waiting : Waiting pad (item :: script) (gap ++ part) :=
    .cons leads ⟨[last], frame.symm⟩ fun same => by
      rw [← same] at frame
      exact List.cons_ne_nil _ _ (List.append_right_eq_self.mp frame.symm)
  obtain ⟨fed, ran, isReady', window, fitting⟩ := follows.feed hungry isReady (gap ++ part)
    (by rw [empty]; exact waiting) (by rw [empty, List.length_nil]; omega)
    (by rw [empty, List.nil_append, List.length_append]; omega)
  rw [empty, List.nil_append] at window
  rw [empty, List.nil_append, if_neg (by rw [List.length_append]; omega)] at ran fitting
  have notFull : reader.unread fed ≠ reader.capacity := by
    rw [follows.unread isReady', window, List.length_append]
    omega
  obtain ⟨filled, fill, isReady'', window'⟩ :=
    @Follows.fill _ _ _ _ _ _ _ follows _ _ [last] isReady' notFull (hungry isReady' notFull)
  have complete : reader.window filled = gap ++ (item.frame ++ []) := by
    rw [window', window, frame, List.append_nil, List.append_assoc]
  obtain ⟨taken, turned, after, left⟩ := follows.accept isReady'' leads complete
  have unread : reader.unread filled ≠ 0 := by
    rw [follows.unread isReady'', window', List.length_append, List.length_singleton]
    omega
  have nothing : reader.unread taken = 0 := by
    rw [follows.unread after, left]
    rfl
  have drain : reader.drain (reader.unread filled + 1) filled = .ok (taken, item.outputs) := by
    obtain ⟨turns, enough⟩ := Nat.exists_eq_succ_of_ne_zero unread
    rw [drain_of_more unread turned, enough, drain_of_empty nothing]
    change Except.ok (taken, item.outputs ++ []) = _
    rw [List.append_nil]
  have read := read_of_drain (List.cons_ne_nil last []) fill drain
  rw [nothing, if_neg (by omega)] at read
  rw [frame, ← List.append_assoc, singles_append]
  refine ⟨taken, ?_, after, left, fun chunks rest => ?_⟩
  · rw [run_append, ran, Except.ok_bind]
    refine (congrArg (· >>= _) (run_cons read rfl)).trans ?_
    change Except.ok (_, [] ++ (item.outputs ++ [])) = _
    rw [List.nil_append, List.append_nil]
  · rw [List.append_assoc]
    exact fitting _ (fits_cons (fun _ => ⟨List.cons_ne_nil _ _, hungry isReady' notFull⟩) read rest)

/-- **Reading value by value shows what does not fit.** When an item of a text does not fit the
window with the padding before it, or the padding at the end fills it, a reader that is given the
text value by value is dropped. -/
theorem Follows.run_singles (follows : reader.Follows pad ready) (hungry : reader.Hungry ready)
    (positive : 0 < reader.capacity) {large : Nat} {state : ρ} {script : List (Item β α)}
    {text : List β} (isReady : ready state script) (empty : reader.window state = [])
    (laid : Spaced pad large script text) (tight : ¬ Spaced pad reader.capacity script text) :
    ∃ final outputs, reader.run ⟨state, .live⟩ (singles text) =
        .ok (⟨final, .overrun⟩, outputs) ∧
      reader.Fits ⟨state, .live⟩ (singles text) := by
  -- As many values as the window holds, all of them waiting, and the reader reads no more.
  have beyond : ∀ {state : ρ} {script : List (Item β α)} {first rest : List β},
      ready state script → reader.window state = [] → Waiting pad script first →
      first.length = reader.capacity →
      ∃ final outputs, reader.run ⟨state, .live⟩ (singles (first ++ rest)) =
          .ok (⟨final, .overrun⟩, outputs) ∧
        reader.Fits ⟨state, .live⟩ (singles (first ++ rest)) := by
    intro state script first rest isReady empty waiting length
    obtain ⟨fed, ran, _, _, fitting⟩ := follows.feed hungry isReady first
      (by rw [empty]; exact waiting) (by rw [empty]; exact positive)
      (by rw [empty, List.nil_append, length])
    rw [empty, List.nil_append, if_pos length] at ran fitting
    have dropped : (⟨fed, .overrun⟩ : Connection ρ).status ≠ .live := by
      intro same
      cases same
    rw [singles_append]
    refine ⟨fed, [], ?_, fitting _ (fits_of_not_live dropped _)⟩
    rw [run_append, ran, Except.ok_bind]
    exact congrArg (· >>= _) (run_of_not_live dropped _)
  induction laid generalizing state with
  | @nil tail padding _ =>
      have long : reader.capacity ≤ tail.length := by
        by_contra short
        exact tight (.nil padding (by omega))
      rw [← List.take_append_drop reader.capacity tail]
      exact beyond isReady empty (.nil fun value member => padding value (List.mem_of_mem_take member))
        (by rw [List.length_take]; omega)
  | @cons item script gap text leads _ rest ih =>
      by_cases fits : gap.length + item.frame.length ≤ reader.capacity
      · obtain ⟨fed, ran, isReady', empty', fitting⟩ :=
          follows.feed_item hungry isReady leads empty fits
        obtain ⟨final, outputs, tail, possible⟩ :=
          ih isReady' empty' fun spaced => tight (.cons leads fits spaced)
        rw [← List.append_assoc, singles_append]
        refine ⟨final, item.outputs ++ outputs, ?_, fitting _ possible⟩
        rw [run_append, ran, Except.ok_bind]
        exact congrArg (· >>= _) tail
      · have long : reader.capacity < (gap ++ item.frame).length := by
          rw [List.length_append]
          omega
        have waiting : Waiting pad (item :: script) ((gap ++ item.frame).take reader.capacity) := by
          have whole : (gap ++ item.frame).take reader.capacity ++
              (gap ++ item.frame).drop reader.capacity = gap ++ (item.frame ++ []) := by
            rw [List.take_append_drop, List.append_nil]
          rcases Spaced.front_cases (follows.begins isReady item List.mem_cons_self) leads whole with
            ⟨more, complete, _⟩ | ⟨waiting, _⟩
          · have length := congrArg List.length complete
            rw [List.length_take, List.length_append, List.length_append,
              List.length_append] at length
            omega
          · exact waiting
        rw [← List.append_assoc, ← List.take_append_drop reader.capacity (gap ++ item.frame),
          List.append_assoc]
        exact beyond isReady empty waiting (by rw [List.length_take]; omega)

end Reader

import Mathlib.Data.List.Basic

/-! # Runs

A system takes steps, each by an action. A run keeps the state before each of its
actions, so that what a run has met can be told from it.
-/

namespace Adsbus

variable {σ α : Type} {step : σ → α → σ → Prop} {start state next : σ}

/-- The runs of a system, with their states and actions, the last one first. -/
inductive Run (step : σ → α → σ → Prop) (start : σ) : List (σ × α) → σ → Prop
  | start : Run step start [] start
  | step {trace : List (σ × α)} {state next : σ} {act : α} :
      Run step start trace state → step state act next → Run step start ((state, act) :: trace) next

/-- What holds at the start and is kept by every step holds in every state reached. -/
theorem Run.invariant {holds : σ → Prop} (starts : holds start)
    (keeps : ∀ {state act next}, holds state → step state act next → holds next)
    {trace : List (σ × α)} (run : Run step start trace state) : holds state := by
  induction run with
  | start => exact starts
  | step _ taken ih => exact keeps ih taken

/-- Each action of a run was a step from a state that the run had reached. -/
theorem Run.of_mem {trace : List (σ × α)} (run : Run step start trace state) {before : σ} {act : α}
    (member : (before, act) ∈ trace) :
    ∃ earlier after, Run step start earlier before ∧ step before act after := by
  induction run with
  | start => cases member
  | @step trace _ after _ earlier taken ih =>
      rcases List.mem_cons.mp member with same | member
      · cases same
        exact ⟨trace, after, earlier, taken⟩
      · exact ih member

/-- Before each action of a run there is a run of the actions before it. -/
theorem Run.of_append {trace later earlier : List (σ × α)} (run : Run step start trace state)
    {before : σ} {act : α} (split : trace = later ++ (before, act) :: earlier) :
    ∃ after, Run step start earlier before ∧ step before act after := by
  induction run generalizing later with
  | start => exact absurd split.symm (List.append_ne_nil_of_right_ne_nil _ (List.cons_ne_nil _ _))
  | @step _ _ after _ run taken ih =>
      cases later with
      | nil =>
          cases split
          exact ⟨after, run, taken⟩
      | cons _ later => exact ih (List.cons.inj split).2

/-- What is reached by actions one after another, where each of them is possible. -/
def Run.follow (advance : σ → α → Option σ) : σ → List α → Option σ
  | state, [] => some state
  | state, act :: acts => (advance state act).bind fun next => Run.follow advance next acts

/-- Actions that are possible one after another are a run. -/
theorem Run.of_follow {advance : σ → α → Option σ}
    (takes : ∀ {state act next}, advance state act = some next → step state act next)
    {trace : List (σ × α)} (run : Run step start trace state) {acts : List α}
    (followed : Run.follow advance state acts = some next) : ∃ trace, Run step start trace next := by
  induction acts generalizing trace state with
  | nil =>
      cases followed
      exact ⟨trace, run⟩
  | cons act acts ih =>
      obtain ⟨between, taken, rest⟩ := Option.bind_eq_some_iff.mp followed
      exact ih (run.step (takes taken)) rest

/-- What is found behind actions that are possible one after another is found behind a run. -/
theorem Run.of_follow_any {advance : σ → α → Option σ}
    (takes : ∀ {state act next}, advance state act = some next → step state act next)
    {acts : List α} {holds : σ → Bool} (found : (Run.follow advance start acts).any holds = true) :
    ∃ trace state, Run step start trace state ∧ holds state = true := by
  obtain ⟨state, followed, here⟩ := (Option.any_eq_true holds _).mp found
  obtain ⟨trace, run⟩ := Run.of_follow takes .start followed
  exact ⟨trace, state, run, here⟩

/-- A run all of whose steps are as they should be is one of the system that takes no others. -/
theorem Run.restrict {allowed : σ × α → Prop} {trace : List (σ × α)}
    (run : Run step start trace state) (all : ∀ entry ∈ trace, allowed entry) :
    Run (fun state act next => step state act next ∧ allowed (state, act)) start trace state := by
  induction run with
  | start => exact .start
  | step _ taken ih =>
      obtain ⟨here, earlier⟩ := List.forall_mem_cons.mp all
      exact .step (ih earlier) ⟨taken, here⟩

/-- A potential that is lowered by each step counted, and raised by a price only by each step that
earns, bounds the number of the first by that of the second. -/
theorem Run.afford {holds : σ → Prop} (starts : holds start)
    (keeps : ∀ {state act next}, holds state → step state act next → holds next)
    (potential : σ → Nat) (price : Nat) (counts earns : σ × α → Bool)
    (spends : ∀ {state act next}, holds state → step state act next →
      potential next + (counts (state, act)).toNat ≤
        potential state + price * (earns (state, act)).toNat)
    {trace : List (σ × α)} (run : Run step start trace state) :
    potential state + trace.countP counts ≤ potential start + price * trace.countP earns := by
  induction run with
  | start => exact Nat.le_refl _
  | @step trace before after act run taken ih =>
      have spent := spends (run.invariant starts keeps) taken
      have counted : ∀ counts : σ × α → Bool, ((before, act) :: trace).countP counts =
          trace.countP counts + (counts (before, act)).toNat := by
        intro counts
        rw [List.countP_cons]
        cases counts (before, act) <;> rfl
      rw [counted, counted, Nat.mul_add]
      omega

/-- A potential that no step raises, and that each step counted lowers, bounds their number. -/
theorem Run.spend {holds : σ → Prop} (starts : holds start)
    (keeps : ∀ {state act next}, holds state → step state act next → holds next)
    (potential : σ → Nat) (counts : σ × α → Bool)
    (spends : ∀ {state act next}, holds state → step state act next →
      potential next + (counts (state, act)).toNat ≤ potential state)
    {trace : List (σ × α)} (run : Run step start trace state) :
    potential state + trace.countP counts ≤ potential start := by
  have afforded := run.afford starts keeps potential 0 counts (fun _ => false)
    fun kept taken => Nat.le_trans (spends kept taken) (Nat.le_add_right _ _)
  rwa [Nat.zero_mul, Nat.add_zero] at afforded

/-- Two numbers that every step moves apart by what it counts differ by what the run has
counted. -/
theorem Run.balance {holds : σ → Prop} (starts : holds start)
    (keeps : ∀ {state act next}, holds state → step state act next → holds next)
    (debit credit : σ → Nat) (balanced : debit start = credit start)
    (counts : σ × α → Bool)
    (moves : ∀ {state act next}, holds state → step state act next →
      debit next + credit state = debit state + credit next + (counts (state, act)).toNat)
    {trace : List (σ × α)} (run : Run step start trace state) :
    debit state = credit state + trace.countP counts := by
  induction run with
  | start => rw [List.countP_nil, balanced, Nat.add_zero]
  | step run taken ih =>
      have moved := moves (run.invariant starts keeps) taken
      rw [List.countP_cons]
      cases counted : counts _ with
      | false =>
          rw [counted, Bool.toNat_false] at moved
          simp only [Bool.false_eq_true, ↓reduceIte]
          omega
      | true =>
          rw [counted, Bool.toNat_true] at moved
          simp only [↓reduceIte]
          omega

end Adsbus

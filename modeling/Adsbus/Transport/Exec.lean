import Adsbus.Foundation.Runs
import Mathlib.Data.List.Perm.Basic

/-! # Commands

The program runs commands as child processes. When a child exits the kernel keeps
it until it is waited for, and raises SIGCHLD, which the program has blocked and
reads from a descriptor. A signal that is raised while it is pending is lost, and
the handler waits for one child, whatever it read. So a child that exits while
the signal is pending, or before it is blocked, is left over, or leaves another
one over (`Adsbus.ExecState.noneForgotten_iff`).
-/

namespace Adsbus

/-- What `peer_call` on the peer of an entry calls. -/
inductive ExecHandler
  | execRetry
  | execSpawnWrapper
  deriving DecidableEq, Repr

/-- `struct exec`, with the descriptor of `log_peer` open or not, and whether a wakeup of `peer` is
due. No child stands for -1. The descriptor of `peer` is never open. -/
structure Exec where
  child : Option Nat
  logOpen : Bool
  eventHandler : ExecHandler
  waking : Bool
  deriving DecidableEq, Repr

/-- `exec_child_cleanup`, but for its log. -/
def execChildCleanup (exec : Exec) : Exec := { exec with child := none, logOpen := false }

/-- `exec_retry`. -/
def execRetry (exec : Exec) : Exec :=
  { exec with eventHandler := .execSpawnWrapper, waking := true }

/-- `exec_parent`, in the program. -/
def execParent (exec : Exec) (child : Nat) : Exec :=
  { exec with child := some child, logOpen := true, eventHandler := .execRetry }

/-- `exec_spawn`, with the child that `fork` returns. -/
def execSpawn (exec : Exec) (child : Nat) : Exec := execParent exec child

/-- `exec_new`, with the child that `fork` returns. -/
def execNew (child : Nat) : Exec :=
  execSpawn { child := none, logOpen := false, eventHandler := .execRetry, waking := false } child

/-- `peer_call` on the peer of an entry, and whether it spawns the child that `fork` would
return. -/
def execPeerCall (exec : Exec) (child : Nat) : Exec × Bool :=
  match exec.eventHandler with
  | .execRetry => (execRetry exec, false)
  | .execSpawnWrapper => (execSpawn exec child, true)

/-- The loop of `exec_sigchld_handler` for a child that was waited for. -/
def execSigchldLoop (pid child : Nat) : List Exec → List Exec × Bool
  | [] => ([], false)
  | iter :: rest =>
      if iter.child = some pid then
        let (iter, spawned) := execPeerCall (execChildCleanup iter) child
        (iter :: rest, spawned)
      else
        let (rest, spawned) := execSigchldLoop pid child rest
        (iter :: rest, spawned)

/-- Where `exec_sigchld_handler` is: not called, behind its `read`, or behind its `waitpid`. -/
inductive SigchldPhase
  | idle
  | read
  | waited (pid : Nat)
  deriving DecidableEq, Repr

/-- The program and what the kernel keeps for it: the children that run, those that have exited
and were not waited for, and SIGCHLD. -/
structure ExecState where
  execHead : List Exec
  phase : SigchldPhase
  running : List Nat
  exited : List Nat
  blocked : Bool
  pending : Bool
  deriving DecidableEq, Repr

/-- The start of the program. -/
def execStart : ExecState where
  execHead := []
  phase := .idle
  running := []
  exited := []
  blocked := false
  pending := false

/-- What happens next. -/
inductive ExecAct
  /-- `exec_new` is called, and `fork` returns the child. -/
  | new (child : Nat)
  /-- `exec_init` has blocked the signal. -/
  | block
  /-- A child exits. -/
  | exit (pid : Nat)
  /-- The signal is readable, and `exec_sigchld_handler` reads it. -/
  | read
  /-- `waitpid` returns a child. -/
  | wait (pid : Nat)
  /-- `waitpid` returns 0. -/
  | waitNone
  /-- `exec_sigchld_handler` goes through the entries and returns. -/
  | handle (child : Nat)
  /-- The wakeup of an entry is handled. -/
  | wake (index child : Nat)
  /-- The log of an entry has ended, and `exec_log_handler` closes it. -/
  | logEnd (index : Nat)
  deriving DecidableEq, Repr

/-- A number that `fork` may return. -/
def ExecState.Free (state : ExecState) (child : Nat) : Prop :=
  0 < child ∧ child ∉ state.running ++ state.exited

instance (state : ExecState) (child : Nat) : Decidable (state.Free child) :=
  inferInstanceAs (Decidable (_ ∧ _))

/-- What an action does, where it is possible. The program is idle or in the handler; children exit
at any time. -/
def ExecState.step (state : ExecState) : ExecAct → Option ExecState
  | .new child =>
      if state.phase = .idle ∧ state.Free child then
        some { state with
          execHead := state.execHead ++ [execNew child], running := state.running ++ [child] }
      else none
  | .block =>
      if state.phase = .idle ∧ state.blocked = false then some { state with blocked := true }
      else none
  | .exit pid =>
      if pid ∈ state.running then
        some { state with
          running := state.running.erase pid
          exited := state.exited ++ [pid]
          pending := state.pending || state.blocked }
      else none
  | .read =>
      if state.phase = .idle ∧ state.pending = true then
        some { state with phase := .read, pending := false }
      else none
  | .wait pid =>
      if state.phase = .read ∧ pid ∈ state.exited then
        some { state with phase := .waited pid, exited := state.exited.erase pid }
      else none
  | .waitNone =>
      if state.phase = .read ∧ state.exited = [] ∧ state.running ≠ [] then
        some { state with phase := .idle }
      else none
  | .handle child =>
      match state.phase with
      | .waited pid =>
          if state.Free child then
            let (execHead, spawned) := execSigchldLoop pid child state.execHead
            some { state with
              execHead := execHead
              phase := .idle
              running := if spawned then state.running ++ [child] else state.running }
          else none
      | _ => none
  | .wake index child =>
      match state.execHead[index]? with
      | some exec =>
          if state.phase = .idle ∧ exec.waking = true ∧ state.Free child then
            let (exec, spawned) := execPeerCall { exec with waking := false } child
            some { state with
              execHead := state.execHead.set index exec
              running := if spawned then state.running ++ [child] else state.running }
          else none
      | none => none
  | .logEnd index =>
      match state.execHead[index]? with
      | some exec =>
          if state.phase = .idle then
            some { state with execHead := state.execHead.set index { exec with logOpen := false } }
          else none
      | none => none

/-- A run of the program. -/
abbrev ExecRun := Run (fun state act next => ExecState.step state act = some next) execStart

/-! ## What the entries hold -/

/-- The children that entries hold. -/
def ExecState.children (state : ExecState) : List Nat := state.execHead.filterMap Exec.child

/-- The children that the kernel or the handler holds. -/
def ExecState.held (state : ExecState) : List Nat :=
  match state.phase with
  | .waited pid => pid :: (state.running ++ state.exited)
  | _ => state.running ++ state.exited

/-- An entry whose command runs. -/
def Exec.Running (running : List Nat) (exec : Exec) : Prop :=
  ∃ pid, exec.child = some pid ∧ pid ∈ running

/-- An entry whose command has ended: its log is closed, and `exec_retry` has been called. -/
structure Exec.Retrying (exec : Exec) : Prop where
  child : exec.child = none
  logOpen : exec.logOpen = false
  eventHandler : exec.eventHandler = .execSpawnWrapper
  waking : exec.waking = true

/-- No entry holds a child that has exited, and each without a child was handed to `exec_retry`. -/
def ExecState.NoneForgotten (state : ExecState) : Prop :=
  ∀ exec ∈ state.execHead, exec.Running state.running ∨ exec.Retrying

/-- An entry with a child is handed to `exec_retry` next. -/
structure Exec.Spawned (exec : Exec) : Prop where
  child : exec.child.isSome = true
  eventHandler : exec.eventHandler = .execRetry
  waking : exec.waking = false

/-- An entry has a child or retries. -/
def Exec.Sound (exec : Exec) : Prop := exec.Spawned ∨ exec.Retrying

/-- The signals that the handler has still to answer: one pending, and one read. -/
def ExecState.unanswered (state : ExecState) : Nat :=
  state.pending.toNat + (decide (state.phase = .read)).toNat

/-- The entries hold the children of the kernel and of the handler, each once, and there is a child
for each signal. -/
structure ExecState.Sound (state : ExecState) : Prop where
  entries : ∀ exec ∈ state.execHead, exec.Sound
  children : state.children.Perm state.held
  distinct : state.held.Nodup
  unanswered : state.unanswered ≤ state.exited.length

theorem execStart_sound : execStart.Sound where
  entries := nofun
  children := List.Perm.refl _
  distinct := List.nodup_nil
  unanswered := Nat.le_refl _

theorem execNew_sound (child : Nat) : (execNew child).Sound := .inl ⟨rfl, rfl, rfl⟩

theorem filterMap_child_cons (exec : Exec) (execHead : List Exec) :
    (exec :: execHead).filterMap Exec.child = exec.child.toList ++ execHead.filterMap Exec.child := by
  rw [List.filterMap_cons]
  cases exec.child <;> rfl

/-- An entry that is replaced gives its child for that of the other. -/
theorem filterMap_child_set {execHead : List Exec} {index : Nat} {exec : Exec}
    (found : execHead[index]? = some exec) (other : Exec) :
    ∃ rest : List Nat, (execHead.filterMap Exec.child).Perm (exec.child.toList ++ rest) ∧
      ((execHead.set index other).filterMap Exec.child).Perm (other.child.toList ++ rest) := by
  induction execHead generalizing index with
  | nil => cases found
  | cons first execHead ih =>
      cases index with
      | zero =>
          cases found
          exact ⟨execHead.filterMap Exec.child, .of_eq (filterMap_child_cons ..),
            .of_eq (filterMap_child_cons ..)⟩
      | succ index =>
          obtain ⟨rest, before, after⟩ := ih found
          refine ⟨first.child.toList ++ rest, ?_, ?_⟩
          · rw [filterMap_child_cons]
            exact (before.append_left _).trans (List.perm_append_comm_assoc _ _ _)
          · rw [List.set_cons_succ, filterMap_child_cons]
            exact (after.append_left _).trans (List.perm_append_comm_assoc _ _ _)

/-- The child that was waited for is found in an entry, which is handed to `exec_retry`. -/
theorem execSigchldLoop_eq {pid : Nat} (child : Nat) {execHead : List Exec}
    (sound : ∀ exec ∈ execHead, exec.Sound) (held : pid ∈ execHead.filterMap Exec.child) :
    ∃ after, execSigchldLoop pid child execHead = (after, false) ∧
      (execHead.filterMap Exec.child).Perm (pid :: after.filterMap Exec.child) ∧
      ∀ exec ∈ after, exec.Sound := by
  induction execHead with
  | nil => exact (List.not_mem_nil held).elim
  | cons iter rest ih =>
      obtain ⟨here, later⟩ := List.forall_mem_cons.mp sound
      rw [filterMap_child_cons] at held ⊢
      by_cases same : iter.child = some pid
      · have retry : iter.eventHandler = .execRetry := by
          rcases here with spawned | retrying
          · exact spawned.eventHandler
          · rw [retrying.child] at same
            cases same
        refine ⟨execRetry (execChildCleanup iter) :: rest, ?_, ?_, ?_⟩
        · simp only [execSigchldLoop, same, ↓reduceIte, execPeerCall, execChildCleanup, retry]
        · rw [same, filterMap_child_cons]
          exact List.Perm.refl _
        · exact List.forall_mem_cons.mpr ⟨.inr ⟨rfl, rfl, rfl, rfl⟩, later⟩
      · have behind : pid ∈ rest.filterMap Exec.child := by
          rcases List.mem_append.mp held with own | behind
          · exact absurd (Option.mem_toList.mp own) same
          · exact behind
        obtain ⟨after, looped, moved, sound'⟩ := ih later behind
        refine ⟨iter :: after, ?_, ?_, List.forall_mem_cons.mpr ⟨here, sound'⟩⟩
        · simp only [execSigchldLoop, same, ↓reduceIte, looped]
        · rw [filterMap_child_cons]
          exact (moved.append_left _).trans List.perm_middle

/-! ## Steps -/

namespace ExecState

variable {state next : ExecState}

/-- A signal that is lost: SIGCHLD was pending already, or not yet blocked. -/
def Missed : ExecState × ExecAct → Bool
  | (state, .exit _) => state.pending || !state.blocked
  | _ => false

/-- `waitpid` finds a child: there is one for the signal that was read. -/
theorem Sound.waitNone (sound : state.Sound) : state.step .waitNone = none := by
  simp only [step]
  rw [if_neg]
  rintro ⟨read, none, _⟩
  have before := sound.unanswered
  rw [ExecState.unanswered, read, none] at before
  simp only [decide_true, Bool.toNat_true, List.length_nil] at before
  omega

/-- A step adds an exited child for each signal to answer, and one for each signal that is lost. -/
theorem Sound.counts (sound : state.Sound) {act : ExecAct} (taken : state.step act = some next) :
    next.exited.length + state.unanswered =
      state.exited.length + next.unanswered + (Missed (state, act)).toNat := by
  cases act with
  | exit pid =>
      simp only [step] at taken
      split_ifs at taken
      cases taken
      simp only [ExecState.unanswered, Missed, List.length_append, List.length_singleton]
      -- the signal is pending behind the exit, and is missed, exactly once more than before
      have raised : (state.pending || state.blocked).toNat +
          (state.pending || !state.blocked).toNat = state.pending.toNat + 1 := by
        cases state.pending <;> cases state.blocked <;> rfl
      omega
  | wait pid =>
      simp only [step] at taken
      split_ifs at taken with possible
      cases taken
      have nonempty := List.length_pos_of_mem possible.2
      simp only [ExecState.unanswered, Missed, possible.1, List.length_erase_of_mem possible.2,
        decide_true, Bool.toNat_true, reduceCtorEq, decide_false, Bool.toNat_false]
      omega
  | waitNone =>
      rw [sound.waitNone] at taken
      cases taken
  | read =>
      simp only [step] at taken
      split_ifs at taken with possible
      cases taken
      simp only [ExecState.unanswered, Missed, possible.1, possible.2, reduceCtorEq, decide_false,
        decide_true, Bool.toNat_false, Bool.toNat_true]
  | new child =>
      simp only [step] at taken
      split_ifs at taken
      cases taken
      rfl
  | block =>
      simp only [step] at taken
      split_ifs at taken
      cases taken
      rfl
  | handle child =>
      simp only [step] at taken
      split at taken
      · rename_i pid waited
        split at taken
        · cases taken
          simp only [ExecState.unanswered, Missed, waited, reduceCtorEq, decide_false]
          rfl
        · cases taken
      · cases taken
  | wake index child =>
      simp only [step] at taken
      split at taken
      · split at taken
        · cases taken
          rfl
        · cases taken
      · cases taken
  | logEnd index =>
      simp only [step] at taken
      split at taken
      · split_ifs at taken
        cases taken
        rfl
      · cases taken

theorem Sound.unanswered_step (sound : state.Sound) {act : ExecAct}
    (taken : state.step act = some next) : next.unanswered ≤ next.exited.length := by
  have before := sound.unanswered
  have counted := sound.counts taken
  omega

/-- A child that runs besides the others. -/
theorem held_spawn (state : ExecState) (child : Nat) :
    ({ state with running := state.running ++ [child] } : ExecState).held.Perm
      (child :: state.held) := by
  have spawned : ((state.running ++ [child]) ++ state.exited).Perm
      (child :: (state.running ++ state.exited)) := by
    rw [List.append_assoc]
    exact List.perm_middle
  simp only [held]
  split
  · exact (spawned.cons _).trans (List.Perm.swap _ _ _)
  · exact spawned

theorem held_of_idle (idle : state.phase = .idle) : state.held = state.running ++ state.exited := by
  rw [held, idle]

/-- Entries that hold a new child besides those of the others. -/
theorem Sound.spawn (sound : state.Sound) (idle : state.phase = .idle) {child : Nat}
    (free : state.Free child) {execHead : List Exec} (entries : ∀ exec ∈ execHead, exec.Sound)
    (children : (execHead.filterMap Exec.child).Perm (child :: state.children)) :
    ({ state with execHead := execHead, running := state.running ++ [child] } : ExecState).Sound where
  entries := entries
  children := children.trans ((sound.children.cons child).trans (state.held_spawn child).symm)
  distinct := by
    refine (state.held_spawn child).nodup_iff.mpr (List.nodup_cons.mpr ⟨?_, sound.distinct⟩)
    rw [held_of_idle idle]
    exact free.2
  unanswered := sound.unanswered

theorem Sound.new (sound : state.Sound) {child : Nat}
    (taken : state.step (.new child) = some next) : next.Sound := by
  simp only [step] at taken
  split_ifs at taken with possible
  cases taken
  obtain ⟨idle, free⟩ := possible
  refine sound.spawn idle free ?_ ?_
  · intro exec member
    rcases List.mem_append.mp member with old | new
    · exact sound.entries exec old
    · rw [List.mem_singleton.mp new]
      exact execNew_sound child
  · rw [List.filterMap_append]
    exact List.perm_append_singleton child _

theorem Sound.exit (sound : state.Sound) {pid : Nat}
    (taken : state.step (.exit pid) = some next) : next.Sound := by
  have counted := sound.unanswered_step taken
  simp only [step] at taken
  split_ifs at taken with runs
  cases taken
  have moved : (state.running.erase pid ++ (state.exited ++ [pid])).Perm
      (state.running ++ state.exited) := by
    rw [← List.append_assoc]
    refine (List.perm_append_singleton pid _).trans ?_
    exact ((List.perm_cons_erase runs).append_right state.exited).symm
  have same : ({ state with
      running := state.running.erase pid
      exited := state.exited ++ [pid]
      pending := state.pending || state.blocked } : ExecState).held.Perm state.held := by
    simp only [held]
    split
    · exact moved.cons _
    · exact moved
  exact ⟨sound.entries, sound.children.trans same.symm, same.nodup_iff.mpr sound.distinct, counted⟩

theorem Sound.wait (sound : state.Sound) {pid : Nat}
    (taken : state.step (.wait pid) = some next) : next.Sound := by
  have counted := sound.unanswered_step taken
  simp only [step] at taken
  split_ifs at taken with possible
  cases taken
  obtain ⟨read, exited⟩ := possible
  have same : (pid :: (state.running ++ state.exited.erase pid)).Perm state.held := by
    rw [held, read]
    exact List.perm_middle.symm.trans ((List.perm_cons_erase exited).append_left state.running).symm
  exact ⟨sound.entries, sound.children.trans same.symm, same.nodup_iff.mpr sound.distinct, counted⟩

theorem Sound.handle (sound : state.Sound) {child : Nat}
    (taken : state.step (.handle child) = some next) : next.Sound := by
  have counted := sound.unanswered_step taken
  simp only [step] at taken
  split at taken
  · rename_i pid waited
    by_cases free : state.Free child
    case neg =>
      rw [if_neg free] at taken
      cases taken
    rw [if_pos free] at taken
    have holds : pid ∈ state.children := by
      rw [sound.children.mem_iff, held, waited]
      exact List.mem_cons_self
    obtain ⟨after, looped, moved, entries⟩ := execSigchldLoop_eq child sound.entries holds
    simp only [looped, Bool.false_eq_true, ↓reduceIte, Option.some.injEq] at taken
    subst taken
    have all := sound.children
    have distinct := sound.distinct
    simp only [held, waited] at all distinct
    exact ⟨entries, (moved.symm.trans all).cons_inv, (List.nodup_cons.mp distinct).2, counted⟩
  · cases taken

theorem Sound.wake (sound : state.Sound) {index child : Nat}
    (taken : state.step (.wake index child) = some next) : next.Sound := by
  simp only [step] at taken
  split at taken
  · rename_i exec found
    by_cases possible : state.phase = .idle ∧ exec.waking = true ∧ state.Free child
    case neg =>
      rw [if_neg possible] at taken
      cases taken
    rw [if_pos possible] at taken
    obtain ⟨idle, waking, free⟩ := possible
    have retrying : exec.Retrying := by
      rcases sound.entries exec (List.mem_of_getElem? found) with spawned | retrying
      · rw [spawned.waking] at waking
        cases waking
      · exact retrying
    simp only [execPeerCall, retrying.eventHandler, Option.some.injEq, ↓reduceIte] at taken
    subst taken
    obtain ⟨rest, before, after⟩ :=
      filterMap_child_set found (execSpawn { exec with waking := false } child)
    rw [retrying.child] at before
    refine sound.spawn idle free ?_ (after.trans (before.symm.cons child))
    intro other member
    rcases List.mem_or_eq_of_mem_set member with old | rfl
    · exact sound.entries other old
    · exact .inl ⟨rfl, rfl, rfl⟩
  · cases taken

theorem Sound.logEnd (sound : state.Sound) {index : Nat}
    (taken : state.step (.logEnd index) = some next) : next.Sound := by
  simp only [step] at taken
  split at taken
  · rename_i exec found
    split_ifs at taken with idle
    cases taken
    obtain ⟨rest, before, after⟩ := filterMap_child_set found { exec with logOpen := false }
    refine ⟨?_, (after.trans before.symm).trans sound.children, sound.distinct, sound.unanswered⟩
    intro other member
    rcases List.mem_or_eq_of_mem_set member with old | rfl
    · exact sound.entries other old
    · rcases sound.entries exec (List.mem_of_getElem? found) with spawned | retrying
      · exact .inl ⟨spawned.child, spawned.eventHandler, spawned.waking⟩
      · exact .inr ⟨retrying.child, rfl, retrying.eventHandler, retrying.waking⟩
  · cases taken

/-- What a step keeps. -/
theorem Sound.step (sound : state.Sound) {act : ExecAct} (taken : state.step act = some next) :
    next.Sound := by
  cases act with
  | new child => exact sound.new taken
  | block =>
      simp only [ExecState.step] at taken
      split_ifs at taken
      cases taken
      exact ⟨sound.entries, sound.children, sound.distinct, sound.unanswered⟩
  | exit pid => exact sound.exit taken
  | read =>
      have counted := sound.unanswered_step taken
      simp only [ExecState.step] at taken
      split_ifs at taken with possible
      cases taken
      have all := sound.children
      have distinct := sound.distinct
      rw [held_of_idle possible.1] at all distinct
      exact ⟨sound.entries, all, distinct, counted⟩
  | wait pid => exact sound.wait taken
  | waitNone =>
      rw [sound.waitNone] at taken
      cases taken
  | handle child => exact sound.handle taken
  | wake index child => exact sound.wake taken
  | logEnd index => exact sound.logEnd taken

/-! ## Runs -/

theorem sound_of_run {trace : List (ExecState × ExecAct)} (run : ExecRun trace state) :
    state.Sound :=
  run.invariant execStart_sound fun sound taken => Sound.step sound taken

/-- The exited children are those whose signals are not answered, and those whose signals were
lost. -/
theorem exited_length {trace : List (ExecState × ExecAct)} (run : ExecRun trace state) :
    state.exited.length = state.unanswered + trace.countP Missed :=
  run.balance execStart_sound (fun sound taken => Sound.step sound taken)
    (fun state => state.exited.length) ExecState.unanswered rfl Missed
    fun sound taken => Sound.counts sound taken

/-- The signal is not pending, and the handler is not running. -/
structure Quiet (state : ExecState) : Prop where
  phase : state.phase = .idle
  pending : state.pending = false

theorem Quiet.unanswered (quiet : state.Quiet) : state.unanswered = 0 := by
  rw [ExecState.unanswered, quiet.phase, quiet.pending]
  rfl

/-- A child that has exited and was not waited for is held by an entry. -/
theorem Sound.noneForgotten_iff_exited (sound : state.Sound) (idle : state.phase = .idle) :
    state.NoneForgotten ↔ state.exited = [] := by
  have children := sound.children
  have distinct := sound.distinct
  rw [held_of_idle idle] at children distinct
  constructor
  · intro noneForgotten
    refine List.eq_nil_iff_forall_not_mem.mpr fun pid exited => ?_
    obtain ⟨exec, member, holds⟩ := List.mem_filterMap.mp
      (children.mem_iff.mpr (List.mem_append_right _ exited))
    rcases noneForgotten exec member with ⟨pid', holds', running⟩ | retrying
    · rw [holds, Option.some.injEq] at holds'
      subst holds'
      exact (List.nodup_append.mp distinct).2.2 pid running pid exited rfl
    · rw [retrying.child] at holds
      cases holds
  · intro none exec member
    rcases sound.entries exec member with spawned | retrying
    · obtain ⟨pid, holds⟩ := Option.isSome_iff_exists.mp spawned.child
      refine .inl ⟨pid, holds, ?_⟩
      have held := children.mem_iff.mp (List.mem_filterMap.mpr ⟨exec, member, holds⟩)
      rwa [none, List.append_nil] at held
    · exact .inr retrying

/-- A step that is no exit, or an exit of which the program learns. -/
def Heard (taken : ExecState × ExecAct) : Prop :=
  ∀ pid, taken.2 = .exit pid → taken.1.blocked = true ∧ taken.1.pending = false

theorem missed_eq_false_iff (taken : ExecState × ExecAct) : Missed taken = false ↔ Heard taken := by
  obtain ⟨state, act⟩ := taken
  cases act with
  | exit pid =>
      simp only [Missed, Heard, Bool.or_eq_false_iff, Bool.not_eq_false', ExecAct.exit.injEq,
        forall_eq', and_comm]
  | _ => exact ⟨fun _ => nofun, fun _ => rfl⟩

/-- **No exit is forgotten.** Whenever the signal is not pending and the handler is not running,
every entry has a running child or waits to be started again, if and only if no child of the run
has exited while the signal was pending or not yet blocked. -/
theorem noneForgotten_iff {trace : List (ExecState × ExecAct)} (run : ExecRun trace state)
    (quiet : state.Quiet) : state.NoneForgotten ↔ ∀ taken ∈ trace, Heard taken := by
  have length := exited_length run
  rw [quiet.unanswered, Nat.zero_add] at length
  rw [(sound_of_run run).noneForgotten_iff_exited quiet.phase, ← List.length_eq_zero_iff, length,
    List.countP_eq_zero]
  simp only [Bool.not_eq_true, missed_eq_false_iff]

/-- A run by the given actions. -/
def follow : List (ExecState × ExecAct) → ExecState → List ExecAct →
    Option (List (ExecState × ExecAct) × ExecState)
  | trace, state, [] => some (trace, state)
  | trace, state, act :: acts =>
      (state.step act).bind fun next => follow ((state, act) :: trace) next acts

theorem run_of_follow {trace trace' : List (ExecState × ExecAct)} (run : ExecRun trace state)
    {acts : List ExecAct} (followed : follow trace state acts = some (trace', next)) :
    ExecRun trace' next := by
  induction acts generalizing state trace with
  | nil =>
      cases followed
      exact run
  | cons act acts ih =>
      obtain ⟨state', taken, rest⟩ := Option.bind_eq_some_iff.mp followed
      exact ih (run.step taken) rest

/-- One command ends, and then another one. -/
def oneByOne : List ExecAct :=
  [.new 1, .new 2, .block, .exit 1, .read, .wait 1, .handle 3, .exit 2, .read, .wait 2, .handle 3]

/-- Two commands end before the handler runs. -/
def together : List ExecAct :=
  [.new 1, .new 2, .block, .exit 1, .exit 2, .read, .wait 1, .handle 3]

/-- Commands that end one by one are waited for. -/
theorem noneForgotten_oneByOne :
    ∃ trace state, follow [] execStart oneByOne = some (trace, state) ∧ state.NoneForgotten := by
  obtain ⟨⟨trace, state⟩, followed⟩ :=
    Option.isSome_iff_exists.mp (by decide : (follow [] execStart oneByOne).isSome = true)
  have quiet : ∀ result, follow [] execStart oneByOne = some result →
      result.2.phase = .idle ∧ result.2.pending = false ∧
        ∀ taken ∈ result.1, Missed taken = false := by decide
  obtain ⟨idle, pending, heard⟩ := quiet _ followed
  refine ⟨trace, state, followed, (noneForgotten_iff (run_of_follow .start followed)
    ⟨idle, pending⟩).mpr fun taken member => ?_⟩
  exact (missed_eq_false_iff taken).mp (heard taken member)

/-- One of two commands that end together is forgotten. -/
theorem forgotten_together :
    ¬ ∀ trace state, ExecRun trace state → state.Quiet → state.NoneForgotten := by
  intro noneForgotten
  obtain ⟨⟨trace, state⟩, followed⟩ :=
    Option.isSome_iff_exists.mp (by decide : (follow [] execStart together).isSome = true)
  have left : ∀ result, follow [] execStart together = some result →
      result.2.phase = .idle ∧ result.2.pending = false ∧ result.2.exited = [2] := by decide
  obtain ⟨idle, pending, exited⟩ := left _ followed
  have run := run_of_follow .start followed
  have none := ((sound_of_run run).noneForgotten_iff_exited idle).mp
    (noneForgotten trace state run ⟨idle, pending⟩)
  rw [exited] at none
  cases none

end ExecState

end Adsbus

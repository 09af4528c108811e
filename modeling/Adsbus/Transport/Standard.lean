import Adsbus.Foundation.Except
import Adsbus.Foundation.Runs
import Adsbus.Foundation.Table

/-! # The standard descriptors

The program must not take a file of its own for standard input, standard output or standard error.
It opens what is missing of the first two before anything else, puts its log on the third, closes
what it was given when the options are done, and gives its commands a socket instead. The kernel
hands out the lowest number that is free.

All this works, in any order of what else is opened and closed, for a program that is started with
an open standard error (`Adsbus.Standard.standard_descriptors`), and for no other one
(`Adsbus.Standard.start_iff`).
-/

namespace Adsbus.Standard

/-! ## Descriptors -/

/-- What a descriptor refers to. The log is numbered by how often it was rotated, a socket by its
pair. -/
inductive File
  | devNull
  | devFull
  | urandom
  | log (rotation : Nat)
  | socket (pair : Nat) (child : Bool)
  | other (id : Nat)
  deriving DecidableEq, Repr

/-- A descriptor, and whether it is closed by `exec`. -/
structure Descriptor where
  file : File
  writable : Bool
  cloexec : Bool
  deriving DecidableEq, Repr

/-- The assertions that can fail, and the limit for numbers. -/
inductive Fault
  | limit
  /-- `stdinout_open` gets another number. -/
  | stdinoutOpen
  /-- The path of the log cannot be opened. -/
  | logOpen
  /-- `fdopen` refuses the descriptor for writing. -/
  | fdopen
  | close
  | dup
  deriving DecidableEq, Repr

variable (limit : Nat) (fds : Table Descriptor)

/-- The kernel opens a descriptor. -/
def openFd (descriptor : Descriptor) : Except Fault (Nat × Table Descriptor) :=
  if fds.lowestFree < limit then .ok (fds.lowestFree, fds.put fds.lowestFree descriptor)
  else .error .limit

/-- `close`, asserted to succeed. -/
def closeFd (fd : Nat) : Except Fault (Table Descriptor) :=
  match fds.get fd with
  | none => .error .close
  | some _ => .ok (fds.remove fd)

/-- `fcntl` with `F_DUPFD_CLOEXEC`, asserted to succeed. -/
def dupFd (fd : Nat) : Except Fault (Nat × Table Descriptor) :=
  match fds.get fd with
  | none => .error .dup
  | some descriptor => openFd limit fds { descriptor with cloexec := true }

/-- `dup2`, or `dup3` with `O_CLOEXEC`, between different numbers. -/
def dup2 (fd target : Nat) (cloexec : Bool) : Except Fault (Table Descriptor) :=
  match fds.get fd with
  | none => .error .dup
  | some descriptor => .ok (fds.put target { descriptor with cloexec := cloexec })

/-- `fcntl` with `F_SETFD` and `FD_CLOEXEC`. -/
def setCloexec (fd : Nat) : Except Fault (Table Descriptor) := dup2 fds fd fd true

/-! ## The start of the program -/

def devNull : Descriptor := ⟨.devNull, false, true⟩

def devFull : Descriptor := ⟨.devFull, true, true⟩

def urandom : Descriptor := ⟨.urandom, false, true⟩

def logFile (rotation : Nat) : Descriptor := ⟨.log rotation, true, true⟩

/-- `stdinout_open`. -/
def stdinoutOpen (fd : Nat) (descriptor : Descriptor) : Except Fault (Table Descriptor) := do
  let (opened, fds) ← openFd limit fds descriptor
  if opened = fd then .ok fds else .error .stdinoutOpen

/-- `stdinout_preinit`. -/
def stdinoutPreinit : Except Fault (Table Descriptor) := do
  let fds ← if fds.get 0 = none then stdinoutOpen limit fds 0 devNull else .ok fds
  if fds.get 1 = none then stdinoutOpen limit fds 1 devFull else .ok fds

/-- `log_open` with a path, which can be opened or not. -/
def logOpen (opened : Bool) (rotation : Nat) : Except Fault (Table Descriptor) :=
  if opened then do
    let (fd, fds) ← openFd limit fds (logFile rotation)
    if fd ≠ 2 then do
      let fds ← dup2 fds fd 2 true
      closeFd fds fd
    else .ok fds
  else .error .logOpen

/-- `log_init`, with a path or without one. -/
def logInit (logPath opened : Bool) : Except Fault (Table Descriptor) := do
  let fds ← if logPath then logOpen limit fds opened 0 else .ok fds
  match fds.get 2 with
  | none => .error .fdopen
  | some descriptor => if descriptor.writable then .ok fds else .error .fdopen

/-- How far `stdinout_init` is, which closes and opens one descriptor after the other. -/
inductive Switch
  | before
  | inputClosed
  | between
  | outputClosed
  | done
  deriving DecidableEq, Repr

/-- The number that `stdinout_reopen` has closed and not opened yet. -/
def Switch.closed : Switch → Option Nat
  | .inputClosed => some 0
  | .outputClosed => some 1
  | _ => none

/-- The descriptors of the program: `rand_fd`, and those of everything else but the standard ones.
The numbers of rotations and of pairs of sockets are counted. -/
structure State where
  fds : Table Descriptor
  randFd : Nat
  held : List Nat
  rotations : Nat
  pairs : Nat
  switch : Switch

/-- `main`, from `stdinout_preinit` to `log_init`. -/
def start (logPath opened : Bool) : Except Fault State := do
  let fds ← stdinoutPreinit limit fds
  let (randFd, fds) ← openFd limit fds urandom
  let fds ← logInit limit fds logPath opened
  .ok { fds := fds, randFd := randFd, held := [], rotations := 0, pairs := 0, switch := .before }

/-! ## What happens later -/

/-- What opens and closes descriptors once there is a log. -/
inductive Act
  /-- A thread, or another part of the program, opens or closes a descriptor of its own. -/
  | openOther (id : Nat) (writable : Bool)
  | closeOther (fd : Nat)
  /-- `send_receive_new` duplicates a descriptor. -/
  | dupOther (fd : Nat)
  /-- `stdinout_stdin` or `stdinout_stdout`. -/
  | stdinoutNew (output : Bool)
  /-- The two halves of `stdinout_reopen`. -/
  | stdinoutClose
  | stdinoutOpen
  /-- `log_rotate`, when the path can be opened or not. -/
  | logRotate (opened : Bool)
  | execSpawn
  deriving DecidableEq, Repr

/-- `exec_child`, up to the descriptors that `execl` leaves. -/
def execChild (dataFd logFd : Nat) : Except Fault (Table Descriptor) := do
  let fds ← if dataFd ≠ 0 then dup2 fds dataFd 0 false else .ok fds
  let fds ← if dataFd ≠ 1 then dup2 fds dataFd 1 false else .ok fds
  let fds ← if dataFd ≠ 0 ∧ dataFd ≠ 1 then closeFd fds dataFd else .ok fds
  let fds ← if logFd ≠ 2 then do
      let fds ← dup2 fds logFd 2 false
      closeFd fds logFd
    else .ok fds
  .ok (fds.keep fun descriptor => !descriptor.cloexec)

/-- `exec_spawn`: the parent, and the descriptors of the command. -/
def execSpawn (state : State) : Except Fault (State × Except Fault (Table Descriptor)) := do
  let socket (pair : Nat) (child : Bool) : Descriptor := ⟨.socket pair child, true, false⟩
  let (dataFd, fds) ← openFd limit state.fds (socket state.pairs false)
  let (dataChildFd, fds) ← openFd limit fds (socket state.pairs true)
  let (logFd, fds) ← openFd limit fds (socket (state.pairs + 1) false)
  let (logChildFd, fds) ← openFd limit fds (socket (state.pairs + 1) true)
  let fds ← setCloexec fds dataFd
  let fds ← setCloexec fds logFd
  let child := execChild fds dataChildFd logChildFd
  let fds ← closeFd fds dataChildFd
  let fds ← closeFd fds logChildFd
  .ok ({ state with
    fds := fds, held := logFd :: dataFd :: state.held, pairs := state.pairs + 2 }, child)

/-- What an action does, where it is possible. Threads run at any time, but what the main thread
does is not done between the halves of `stdinout_reopen`. `exec_spawn` is one action: what a thread
opens in the middle of it changes its numbers only. -/
def State.step (logPath : Bool) (state : State) : Act → Option (Except Fault State)
  | .openOther id writable => some do
      let (fd, fds) ← openFd limit state.fds ⟨.other id, writable, true⟩
      .ok { state with fds := fds, held := fd :: state.held }
  | .closeOther fd =>
      if fd ∈ state.held then some do
        let fds ← closeFd state.fds fd
        .ok { state with fds := fds, held := state.held.erase fd }
      else none
  | .dupOther fd =>
      if state.switch.closed = none ∧ fd ∈ state.held then some do
        let (fd, fds) ← dupFd limit state.fds fd
        .ok { state with fds := fds, held := fd :: state.held }
      else none
  | .stdinoutNew output =>
      if state.switch = .before then some do
        let (fd, fds) ← dupFd limit state.fds (if output then 1 else 0)
        .ok { state with fds := fds, held := fd :: state.held }
      else none
  | .stdinoutClose =>
      match state.switch with
      | .before => some do
          let fds ← closeFd state.fds 0
          .ok { state with fds := fds, switch := .inputClosed }
      | .between => some do
          let fds ← closeFd state.fds 1
          .ok { state with fds := fds, switch := .outputClosed }
      | _ => none
  | .stdinoutOpen =>
      match state.switch with
      | .inputClosed => some do
          let fds ← stdinoutOpen limit state.fds 0 devNull
          .ok { state with fds := fds, switch := .between }
      | .outputClosed => some do
          let fds ← stdinoutOpen limit state.fds 1 devFull
          .ok { state with fds := fds, switch := .done }
      | _ => none
  | .logRotate opened =>
      if state.switch.closed = none ∧ logPath = true then some do
        let fds ← logOpen limit state.fds opened (state.rotations + 1)
        .ok { state with fds := fds, rotations := state.rotations + 1 }
      else none
  | .execSpawn =>
      if state.switch.closed = none then some do
        let (state, _) ← execSpawn limit state
        .ok state
      else none

/-- The end of `main`: `rand_cleanup`, `log_cleanup` and `stdinout_cleanup`. -/
def State.cleanup (state : State) : Except Fault (Table Descriptor) := do
  let fds ← closeFd state.fds state.randFd
  let fds ← closeFd fds 2
  let fds ← closeFd fds 0
  closeFd fds 1

/-! ## What the kernel does -/

variable {limit : Nat} {fds after inherited : Table Descriptor} {logPath opened : Bool}
  {state next : State} {descriptor : Descriptor} {fd : Nat}

/-- The ways to stop that do not depend on what is open: there are too many descriptors, or the log
cannot be opened. -/
def Fault.Benign (fault : Fault) : Prop := fault = .limit ∨ fault = .logOpen

/-- The program goes on as said, or stops in one of those ways. -/
abbrev Runs {α : Type} (result : Except Fault α) (post : α → Prop) : Prop :=
  result.Ends Fault.Benign post

/-- The table holds one descriptor more. -/
def Extends (fds : Table Descriptor) (fd : Nat) (descriptor : Descriptor)
    (after : Table Descriptor) : Prop :=
  fds.get fd = none ∧
    ∀ other, after.get other = if other = fd then some descriptor else fds.get other

theorem Extends.free {other : Nat} (opened : Extends fds fd descriptor after)
    (free : after.get other = none) : other ≠ fd ∧ fds.get other = none := by
  rw [opened.2] at free
  split at free
  · cases free
  · next differ => exact ⟨differ, free⟩

theorem openFd_runs (limit : Nat) (fds : Table Descriptor) (descriptor : Descriptor) :
    Runs (openFd limit fds descriptor) fun result =>
      result.1 = fds.lowestFree ∧ Extends fds result.1 descriptor result.2 := by
  rw [openFd]
  split
  · exact ⟨rfl, fds.get_lowestFree, fun other => Table.get_put _ _ _ _⟩
  · exact .inl rfl

theorem closeFd_eq (held : fds.get fd = some descriptor) :
    closeFd fds fd = .ok (fds.remove fd) := by
  rw [closeFd, held]

theorem closeFd_ok (held : fds.get fd = some descriptor) : ∃ after, closeFd fds fd = .ok after ∧
    ∀ other, after.get other = if other = fd then none else fds.get other :=
  ⟨_, closeFd_eq held, Table.get_remove fds fd⟩

theorem dup2_eq (held : fds.get fd = some descriptor) (target : Nat) (cloexec : Bool) :
    dup2 fds fd target cloexec =
      .ok (fds.put target { descriptor with cloexec := cloexec }) := by
  rw [dup2, held]

theorem dup2_ok (held : fds.get fd = some descriptor) (target : Nat) (cloexec : Bool) :
    ∃ after, dup2 fds fd target cloexec = .ok after ∧ ∀ other, after.get other =
      if other = target then some { descriptor with cloexec := cloexec } else fds.get other :=
  ⟨_, dup2_eq held target cloexec, Table.get_put fds target _⟩

theorem dupFd_runs (held : fds.get fd = some descriptor) :
    Runs (dupFd limit fds fd) fun result =>
      Extends fds result.1 { descriptor with cloexec := true } result.2 := by
  rw [dupFd, held]
  exact (openFd_runs limit fds _).mono fun _ done => done.2

/-- `stdinout_open` succeeds when its number is the lowest that is free. -/
theorem stdinoutOpen_runs (free : fds.get fd = none)
    (below : ∀ lower < fd, fds.get lower ≠ none) :
    Runs (stdinoutOpen limit fds fd descriptor) (Extends fds fd descriptor) := by
  have lowest : fds.lowestFree = fd := by
    refine Nat.le_antisymm (Table.lowestFree_le free) (Nat.not_lt.mp fun lower => ?_)
    exact below _ lower fds.get_lowestFree
  refine (openFd_runs limit fds descriptor).bind ?_
  rintro ⟨number, fds'⟩ ⟨same, opened⟩
  change number = _ at same
  rw [lowest] at same
  subst same
  simp only [↓reduceIte]
  exact opened

/-- It fails when somebody else has the number. -/
theorem stdinoutOpen_taken (taken : fds.get fd ≠ none) (room : fds.lowestFree < limit) :
    stdinoutOpen limit fds fd descriptor = .error .stdinoutOpen := by
  have other : fds.lowestFree ≠ fd := fun same => taken (same ▸ fds.get_lowestFree)
  rw [stdinoutOpen, openFd, if_pos room, Except.ok_bind]
  simp only [other, ↓reduceIte]

/-- `log_open` replaces standard error by the log, and nothing else. -/
theorem logOpen_runs (isOpen : fds.get 2 ≠ none) (rotation : Nat) :
    Runs (logOpen limit fds opened rotation) fun after => ∀ other, after.get other =
      if other = 2 then some (logFile rotation) else fds.get other := by
  rw [logOpen]
  split
  · refine (openFd_runs limit fds _).bind ?_
    rintro ⟨number, fds'⟩ ⟨_, free, gets⟩
    have differ : number ≠ 2 := fun same => isOpen (same ▸ free)
    have held : fds'.get number = some (logFile rotation) := (gets number).trans (if_pos rfl)
    have stays : (fds'.put 2 { logFile rotation with cloexec := true }).get number =
        some (logFile rotation) := (Table.get_put_of_ne _ _ _ differ).trans held
    simp only [ne_eq, differ, not_false_eq_true, ↓reduceIte, dup2_eq held, Except.ok_bind,
      closeFd_eq stays]
    intro other
    rw [Table.get_remove, Table.get_put, gets]
    split
    · next same => rw [if_neg (same ▸ differ), same, free]
    · rfl
  · exact .inr rfl

/-! ## What holds -/

/-- The program is started with a standard error, to which it can write unless it has a log of its
own. -/
def Ready (logPath : Bool) (inherited : Table Descriptor) : Prop :=
  ∃ descriptor, inherited.get 2 = some descriptor ∧ (logPath = true ∨ descriptor.writable = true)

/-- What holds of the descriptors at any time. Those that the program has besides the standard ones
are closed by `exec`, and none of them has a standard number, but for one that a thread has opened
between the halves of `stdinout_reopen`. -/
structure Sound (inherited : Table Descriptor) (logPath : Bool) (state : State) : Prop where
  input : state.switch ≠ .inputClosed →
    ∃ descriptor, state.fds.get 0 = some descriptor ∧
      (state.switch ≠ .before → descriptor = devNull)
  output : state.switch ≠ .outputClosed →
    ∃ descriptor, state.fds.get 1 = some descriptor ∧ (state.switch = .done → descriptor = devFull)
  error : ∃ descriptor, state.fds.get 2 = some descriptor ∧ descriptor.writable = true ∧
    if logPath then descriptor = logFile state.rotations else inherited.get 2 = some descriptor
  rand : state.fds.get state.randFd = some urandom ∧ 3 ≤ state.randFd
  own : ∀ fd ∈ state.randFd :: state.held,
    ∃ descriptor, state.fds.get fd = some descriptor ∧ descriptor.cloexec = true
  apart : ∀ fd ∈ state.randFd :: state.held,
    3 ≤ fd ∧ inherited.get fd = none ∨ state.switch.closed = some fd
  distinct : (state.randFd :: state.held).Nodup
  vacant : ∀ fd, state.switch.closed = some fd → fd ∉ state.held → state.fds.get fd = none
  rest : ∀ fd, 3 ≤ fd → fd ∉ state.randFd :: state.held → state.fds.get fd = inherited.get fd

theorem Switch.closed_eq {switch : Switch} {fd : Nat} (closed : switch.closed = some fd) :
    switch = .inputClosed ∧ fd = 0 ∨ switch = .outputClosed ∧ fd = 1 := by
  cases switch with
  | inputClosed =>
      cases closed
      exact .inl ⟨rfl, rfl⟩
  | outputClosed =>
      cases closed
      exact .inr ⟨rfl, rfl⟩
  | _ => cases closed

namespace Sound

/-- A number that is free has not been inherited, and is no standard one unless that is closed. -/
theorem fresh (sound : Sound inherited logPath state) (free : state.fds.get fd = none) :
    fd ∉ state.randFd :: state.held ∧
      (3 ≤ fd ∧ inherited.get fd = none ∨ state.switch.closed = some fd) := by
  have outside : fd ∉ state.randFd :: state.held := by
    intro member
    obtain ⟨descriptor, held, _⟩ := sound.own fd member
    cases free.symm.trans held
  refine ⟨outside, ?_⟩
  match fd with
  | 0 =>
      by_cases closed : state.switch = .inputClosed
      · exact .inr (by rw [closed]; rfl)
      · obtain ⟨descriptor, held, _⟩ := sound.input closed
        cases free.symm.trans held
  | 1 =>
      by_cases closed : state.switch = .outputClosed
      · exact .inr (by rw [closed]; rfl)
      · obtain ⟨descriptor, held, _⟩ := sound.output closed
        cases free.symm.trans held
  | 2 =>
      obtain ⟨descriptor, held, _⟩ := sound.error
      cases free.symm.trans held
  | fd + 3 =>
      have above : 3 ≤ fd + 3 := Nat.le_add_left 3 fd
      exact .inl ⟨above, (sound.rest _ above outside).symm.trans free⟩

/-- A descriptor that is closed by `exec` is opened. -/
theorem take (sound : Sound inherited logPath state)
    (opened : Extends state.fds fd descriptor after) (cloexec : descriptor.cloexec = true) :
    Sound inherited logPath { state with fds := after, held := fd :: state.held } := by
  obtain ⟨free, gets⟩ := opened
  obtain ⟨outside, apart⟩ := sound.fresh free
  have kept : ∀ {other held}, state.fds.get other = some held → after.get other = some held := by
    intro other held reads
    rw [gets, if_neg ?_]
    · exact reads
    · rintro rfl
      cases free.symm.trans reads
  have here : after.get fd = some descriptor := (gets fd).trans (if_pos rfl)
  obtain ⟨notRand, notHeld⟩ := not_or.mp (mt List.mem_cons.mpr outside)
  exact {
    input := fun switch => by
      obtain ⟨held, reads, known⟩ := sound.input switch
      exact ⟨held, kept reads, known⟩
    output := fun switch => by
      obtain ⟨held, reads, known⟩ := sound.output switch
      exact ⟨held, kept reads, known⟩
    error := by
      obtain ⟨held, reads, known⟩ := sound.error
      exact ⟨held, kept reads, known⟩
    rand := ⟨kept sound.rand.1, sound.rand.2⟩
    own := fun other member => by
      by_cases same : other = fd
      · exact ⟨descriptor, same ▸ here, cloexec⟩
      · obtain ⟨held, reads, closes⟩ := sound.own other (by simp_all)
        exact ⟨held, kept reads, closes⟩
    apart := fun other member => by
      by_cases same : other = fd
      · exact same ▸ apart
      · exact sound.apart other (by simp_all)
    distinct := by
      obtain ⟨fresh, distinct⟩ := List.nodup_cons.mp sound.distinct
      refine List.nodup_cons.mpr ⟨fun member => ?_, List.nodup_cons.mpr ⟨notHeld, distinct⟩⟩
      exact (List.mem_cons.mp member).elim (fun same => notRand same.symm) fresh
    vacant := fun other closed notHeld => by
      obtain ⟨differ, notHeld⟩ := not_or.mp (mt List.mem_cons.mpr notHeld)
      rw [gets, if_neg differ]
      exact sound.vacant other closed notHeld
    rest := fun other above outside => by
      have differ : other ≠ fd := fun same => outside (by simp [same])
      rw [gets, if_neg differ]
      exact sound.rest other above (by simp_all) }

/-- A descriptor of the program's own is closed. -/
theorem drop (sound : Sound inherited logPath state) (member : fd ∈ state.held) :
    ∃ after, closeFd state.fds fd = .ok after ∧
      Sound inherited logPath { state with fds := after, held := state.held.erase fd } := by
  obtain ⟨descriptor, held, _⟩ := sound.own fd (List.mem_cons_of_mem _ member)
  refine ⟨_, closeFd_eq held, ?_⟩
  obtain ⟨fresh, distinct⟩ := List.nodup_cons.mp sound.distinct
  have notRand : state.randFd ≠ fd := fun same => fresh (same ▸ member)
  have closed : 3 ≤ fd ∨ state.switch.closed = some fd :=
    (sound.apart fd (List.mem_cons_of_mem _ member)).imp_left fun apart => apart.1
  have kept : ∀ {other}, other ≠ fd → (state.fds.remove fd).get other = state.fds.get other :=
    fun differ => Table.get_remove_of_ne _ _ differ
  have within : ∀ {other}, other ∈ state.randFd :: state.held.erase fd →
      other ∈ state.randFd :: state.held ∧ other ≠ fd := by
    intro other inside
    rcases List.mem_cons.mp inside with rfl | inside
    · exact ⟨List.mem_cons_self, notRand⟩
    · obtain ⟨differ, inside⟩ := distinct.mem_erase_iff.mp inside
      exact ⟨List.mem_cons_of_mem _ inside, differ⟩
  exact {
    input := fun switch => by
      obtain ⟨descriptor, reads, known⟩ := sound.input switch
      refine ⟨descriptor, (kept ?_).trans reads, known⟩
      rintro rfl
      rcases closed with above | closed
      · omega
      · rcases Switch.closed_eq closed with ⟨same, _⟩ | ⟨_, other⟩
        · exact switch same
        · omega
    output := fun switch => by
      obtain ⟨descriptor, reads, known⟩ := sound.output switch
      refine ⟨descriptor, (kept ?_).trans reads, known⟩
      rintro rfl
      rcases closed with above | closed
      · omega
      · rcases Switch.closed_eq closed with ⟨_, other⟩ | ⟨same, _⟩
        · omega
        · exact switch same
    error := by
      obtain ⟨descriptor, reads, known⟩ := sound.error
      refine ⟨descriptor, (kept ?_).trans reads, known⟩
      rintro rfl
      rcases closed with above | closed
      · omega
      · rcases Switch.closed_eq closed with ⟨_, other⟩ | ⟨_, other⟩ <;> omega
    rand := ⟨(kept notRand).trans sound.rand.1, sound.rand.2⟩
    own := fun other inside => by
      obtain ⟨inside, differ⟩ := within inside
      obtain ⟨descriptor, reads, closes⟩ := sound.own other inside
      exact ⟨descriptor, (kept differ).trans reads, closes⟩
    apart := fun other inside => sound.apart other (within inside).1
    distinct := List.nodup_cons.mpr ⟨fun inside => fresh (List.mem_of_mem_erase inside),
      distinct.erase fd⟩
    vacant := fun other isClosed outside => by
      by_cases same : other = fd
      · rw [same]
        exact Table.get_remove_self ..
      · rw [kept same]
        exact sound.vacant other isClosed fun inside =>
          outside (distinct.mem_erase_iff.mpr ⟨same, inside⟩)
    rest := fun other above outside => by
      by_cases same : other = fd
      · subst same
        have free : (state.fds.remove other).get other = none := Table.get_remove_self ..
        rcases sound.apart other (List.mem_cons_of_mem _ member) with apart | isClosed
        · exact free.trans apart.2.symm
        · rcases Switch.closed_eq isClosed with ⟨_, low⟩ | ⟨_, low⟩ <;> omega
      · rw [kept same]
        refine sound.rest other above fun inside => outside ?_
        rcases List.mem_cons.mp inside with rfl | inside
        · exact List.mem_cons_self
        · exact List.mem_cons_of_mem _ (distinct.mem_erase_iff.mpr ⟨same, inside⟩) }

/-- Outside the halves of `stdinout_reopen`, no file of the program's own has a standard number. -/
theorem above (sound : Sound inherited logPath state) (settled : state.switch.closed = none)
    (member : fd ∈ state.randFd :: state.held) : 3 ≤ fd ∧ inherited.get fd = none := by
  rcases sound.apart fd member with apart | closed
  · exact apart
  · cases settled.symm.trans closed

/-- `stdinout_init` goes one step further, which touches the first two numbers only. -/
theorem advance (sound : Sound inherited logPath state) {switch : Switch}
    (above : ∀ fd ∈ state.randFd :: state.held, 3 ≤ fd ∧ inherited.get fd = none)
    (agrees : ∀ fd, 2 ≤ fd → after.get fd = state.fds.get fd)
    (input : switch ≠ .inputClosed →
      ∃ descriptor, after.get 0 = some descriptor ∧ (switch ≠ .before → descriptor = devNull))
    (output : switch ≠ .outputClosed →
      ∃ descriptor, after.get 1 = some descriptor ∧ (switch = .done → descriptor = devFull))
    (vacant : ∀ fd, switch.closed = some fd → after.get fd = none) :
    Sound inherited logPath { state with fds := after, switch := switch } where
  input := input
  output := output
  error := by
    rw [agrees 2 (Nat.le_refl 2)]
    exact sound.error
  rand := by
    rw [agrees _ (Nat.le_of_succ_le sound.rand.2)]
    exact sound.rand
  own := fun fd member => by
    rw [agrees fd (Nat.le_of_succ_le (above fd member).1)]
    exact sound.own fd member
  apart := fun fd member => .inl (above fd member)
  distinct := sound.distinct
  vacant := fun fd closed _ => vacant fd closed
  rest := fun fd high outside =>
    (agrees fd (Nat.le_of_succ_le high)).trans (sound.rest fd high outside)

/-- The log goes to another file. -/
theorem rotate (sound : Sound inherited true state) (settled : state.switch.closed = none)
    (gets : ∀ other, after.get other =
      if other = 2 then some (logFile (state.rotations + 1)) else state.fds.get other) :
    Sound inherited true { state with fds := after, rotations := state.rotations + 1 } := by
  have kept : ∀ {fd}, fd ≠ 2 → after.get fd = state.fds.get fd :=
    fun differ => (gets _).trans (if_neg differ)
  have apart : ∀ {fd}, fd ∈ state.randFd :: state.held → fd ≠ 2 := by
    rintro fd member rfl
    exact absurd (sound.above settled member).1 (by decide)
  exact {
    input := by
      rw [kept (by decide)]
      exact sound.input
    output := by
      rw [kept (by decide)]
      exact sound.output
    error := ⟨_, (gets 2).trans (if_pos rfl), rfl, rfl⟩
    rand := by
      rw [kept (apart List.mem_cons_self)]
      exact sound.rand
    own := fun fd member => by
      rw [kept (apart member)]
      exact sound.own fd member
    apart := sound.apart
    distinct := sound.distinct
    vacant := fun fd closed _ => by cases settled.symm.trans closed
    rest := fun fd high outside => (kept (by omega)).trans (sound.rest fd high outside) }

/-- A number that `stdinout_reopen` has closed is opened again unless somebody has taken it. -/
theorem reopen (sound : Sound inherited logPath state) (closed : state.switch.closed = some fd)
    (mine : fd ∉ state.held) (descriptor : Descriptor) :
    Runs (stdinoutOpen limit state.fds fd descriptor) (Extends state.fds fd descriptor) ∧
      ∀ other ∈ state.randFd :: state.held, 3 ≤ other ∧ inherited.get other = none := by
  refine ⟨stdinoutOpen_runs (sound.vacant fd closed mine) ?_, ?_⟩
  · intro lower below
    rcases Switch.closed_eq closed with ⟨_, rfl⟩ | ⟨switch, rfl⟩
    · exact absurd below (Nat.not_lt_zero lower)
    · obtain ⟨held, reads, _⟩ := sound.input (by
        rw [switch]
        decide)
      rw [Nat.lt_one_iff.mp below, reads]
      exact Option.some_ne_none _
  · intro other member
    rcases sound.apart other member with apart | isClosed
    · exact apart
    · cases closed.symm.trans isClosed
      rcases List.mem_cons.mp member with same | member
      · have high := sound.rand.2
        rw [← same] at high
        rcases Switch.closed_eq closed with ⟨_, low⟩ | ⟨_, low⟩ <;> omega
      · exact absurd member mine

end Sound

/-! ## Commands -/

/-- An end of a pair of sockets. -/
def socketFd (pair : Nat) (child cloexec : Bool) : Descriptor := ⟨.socket pair child, true, cloexec⟩

/-- `exec_spawn` opens four descriptors, two of which it keeps and two of which only the command
sees. -/
structure Spawned (state next : State) (child : Except Fault (Table Descriptor))
    (dataFd dataChildFd logFd logChildFd : Nat) : Prop where
  data : Extends state.fds dataFd (socketFd state.pairs false true)
    (state.fds.put dataFd (socketFd state.pairs false true))
  log : Extends (state.fds.put dataFd (socketFd state.pairs false true)) logFd
    (socketFd (state.pairs + 1) false true) next.fds
  same : next = { state with
    fds := next.fds, held := logFd :: dataFd :: state.held, pairs := state.pairs + 2 }
  free : state.fds.get dataChildFd = none ∧ state.fds.get logChildFd = none
  forked : ∃ fds : Table Descriptor, child = execChild fds dataChildFd logChildFd ∧
    dataChildFd ≠ logChildFd ∧ ∀ fd, fds.get fd =
      if fd = dataChildFd then some (socketFd state.pairs true false)
      else if fd = logChildFd then some (socketFd (state.pairs + 1) true false)
      else next.fds.get fd

theorem execSpawn_runs (limit : Nat) (state : State) :
    Runs (execSpawn limit state) fun result => ∃ dataFd dataChildFd logFd logChildFd,
      Spawned state result.1 result.2 dataFd dataChildFd logFd logChildFd := by
  rw [execSpawn]
  refine (openFd_runs limit state.fds _).bind ?_
  rintro ⟨dataFd, fds₁⟩ ⟨_, opened₁⟩
  refine (openFd_runs limit fds₁ _).bind ?_
  rintro ⟨dataChildFd, fds₂⟩ ⟨_, opened₂⟩
  refine (openFd_runs limit fds₂ _).bind ?_
  rintro ⟨logFd, fds₃⟩ ⟨_, opened₃⟩
  refine (openFd_runs limit fds₃ _).bind ?_
  rintro ⟨logChildFd, fds₄⟩ ⟨_, opened₄⟩
  simp only at opened₁ opened₂ opened₃ opened₄ ⊢
  obtain ⟨childNotData, childFree⟩ := opened₁.free opened₂.1
  obtain ⟨logNotChild, logFree⟩ := opened₂.free opened₃.1
  obtain ⟨logNotData, logFree⟩ := opened₁.free logFree
  obtain ⟨logChildNotLog, logChildFree⟩ := opened₃.free opened₄.1
  obtain ⟨logChildNotChild, logChildFree⟩ := opened₂.free logChildFree
  obtain ⟨logChildNotData, logChildFree⟩ := opened₁.free logChildFree
  have gets : ∀ fd, fds₄.get fd =
      if fd = logChildFd then some (socketFd (state.pairs + 1) true false)
      else if fd = logFd then some (socketFd (state.pairs + 1) false false)
      else if fd = dataChildFd then some (socketFd state.pairs true false)
      else if fd = dataFd then some (socketFd state.pairs false false)
      else state.fds.get fd := by
    intro fd
    rw [opened₄.2, opened₃.2, opened₂.2, opened₁.2]
    rfl
  have data : fds₄.get dataFd = some (socketFd state.pairs false false) := by grind
  obtain ⟨fds₅, dataKept, gets₅⟩ := dup2_ok data dataFd true
  have log : fds₅.get logFd = some (socketFd (state.pairs + 1) false false) := by grind
  obtain ⟨fds₆, logKept, gets₆⟩ := dup2_ok log logFd true
  have dataChild : fds₆.get dataChildFd = some (socketFd state.pairs true false) := by grind
  obtain ⟨fds₇, dataClosed, gets₇⟩ := closeFd_ok dataChild
  have logChild : fds₇.get logChildFd = some (socketFd (state.pairs + 1) true false) := by grind
  obtain ⟨fds₈, logClosed, gets₈⟩ := closeFd_ok logChild
  rw [setCloexec, dataKept, Except.ok_bind, setCloexec, logKept, Except.ok_bind, dataClosed,
    Except.ok_bind, logClosed, Except.ok_bind]
  refine ⟨dataFd, dataChildFd, logFd, logChildFd, ?_⟩
  have left : ∀ fd, fds₈.get fd =
      if fd = logFd then some (socketFd (state.pairs + 1) false true)
      else if fd = dataFd then some (socketFd state.pairs false true) else state.fds.get fd := by
    intro fd
    rw [gets₈, gets₇, gets₆, gets₅, gets]
    simp only [socketFd]
    grind
  exact {
    data := ⟨opened₁.1, fun _ => rfl⟩
    log := ⟨by rw [Table.get_put_of_ne _ _ _ logNotData, logFree], fun fd => by
      rw [left, Table.get_put]⟩
    same := rfl
    free := ⟨childFree, logChildFree⟩
    forked := ⟨_, rfl, logChildNotChild.symm, fun fd => by
      rw [gets₆, gets₅, gets, left]
      simp only [socketFd]
      grind⟩ }

/-- `exec_child` gives the command the two sockets, and what is not closed by `exec`. -/
theorem execChild_ok {dataFd logFd : Nat} {data log : Descriptor}
    (dataRead : fds.get dataFd = some data) (logRead : fds.get logFd = some log)
    (dataHigh : 3 ≤ dataFd) (logHigh : 3 ≤ logFd) (differ : dataFd ≠ logFd) :
    ∃ table, execChild fds dataFd logFd = .ok table ∧ ∀ fd, table.get fd =
      if fd < 2 then some { data with cloexec := false }
      else if fd = 2 then some { log with cloexec := false }
      else if fd = dataFd ∨ fd = logFd then none
      else (fds.get fd).filter fun descriptor => !descriptor.cloexec := by
  obtain ⟨fds₁, input, gets₁⟩ := dup2_ok dataRead 0 false
  have dataRead₁ : fds₁.get dataFd = some data := by grind
  obtain ⟨fds₂, output, gets₂⟩ := dup2_ok dataRead₁ 1 false
  have dataRead₂ : fds₂.get dataFd = some data := by grind
  obtain ⟨fds₃, dataClosed, gets₃⟩ := closeFd_ok dataRead₂
  have logRead₃ : fds₃.get logFd = some log := by grind
  obtain ⟨fds₄, error, gets₄⟩ := dup2_ok logRead₃ 2 false
  have logRead₄ : fds₄.get logFd = some log := by grind
  obtain ⟨fds₅, logClosed, gets₅⟩ := closeFd_ok logRead₄
  refine ⟨fds₅.keep fun descriptor => !descriptor.cloexec, ?_, fun fd => ?_⟩
  · have notInput : dataFd ≠ 0 := by omega
    have notOutput : dataFd ≠ 1 := by omega
    have notError : logFd ≠ 2 := by omega
    simp only [execChild, ne_eq, notInput, notOutput, notError, not_false_eq_true, and_self,
      ↓reduceIte, input, output, dataClosed, error, logClosed, Except.ok_bind]
  · change (fds₅.get fd).filter _ = _
    rw [gets₅, gets₄, gets₃, gets₂, gets₁]
    grind

theorem Sound.spawn (sound : Sound inherited logPath state)
    {child : Except Fault (Table Descriptor)} {dataFd dataChildFd logFd logChildFd : Nat}
    (spawned : Spawned state next child dataFd dataChildFd logFd logChildFd) :
    Sound inherited logPath next := by
  have sound := (sound.take spawned.data rfl).take spawned.log rfl
  rw [spawned.same]
  exact { sound with }

/-- Besides its sockets, the command has what was given to the program. -/
theorem Spawned.child_gets {child : Except Fault (Table Descriptor)}
    {dataFd dataChildFd logFd logChildFd : Nat}
    (spawned : Spawned state next child dataFd dataChildFd logFd logChildFd)
    (sound : Sound inherited logPath state) (settled : state.switch.closed = none) :
    ∃ table, child = .ok table ∧ ∀ fd, table.get fd =
      if fd < 2 then some (socketFd state.pairs true false)
      else if fd = 2 then some (socketFd (state.pairs + 1) true false)
      else (inherited.get fd).filter fun descriptor => !descriptor.cloexec := by
  have vacant : ∀ {fd}, state.fds.get fd = none → 3 ≤ fd ∧ inherited.get fd = none := by
    intro fd free
    rcases (sound.fresh free).2 with apart | closed
    · exact apart
    · cases settled.symm.trans closed
  obtain ⟨dataHigh, dataNew⟩ := vacant spawned.free.1
  obtain ⟨logHigh, logNew⟩ := vacant spawned.free.2
  obtain ⟨fds, rfl, differ, gets⟩ := spawned.forked
  have data : fds.get dataChildFd = some (socketFd state.pairs true false) := by grind
  have log : fds.get logChildFd = some (socketFd (state.pairs + 1) true false) := by grind
  obtain ⟨table, ran, reads⟩ := execChild_ok data log dataHigh logHigh differ
  refine ⟨table, ran, fun fd => ?_⟩
  rw [reads]
  split
  · rfl
  · split
    · rfl
    · next notStandard notError =>
        have high : 3 ≤ fd := by omega
        split
        · next sockets =>
            rcases sockets with rfl | rfl
            · rw [dataNew, Option.filter_none]
            · rw [logNew, Option.filter_none]
        · next others =>
            obtain ⟨notData, notLog⟩ := not_or.mp others
            rw [gets, if_neg notData, if_neg notLog]
            have sound := sound.spawn spawned
            have settled : next.switch.closed = none := by
              rw [spawned.same]
              exact settled
            by_cases own : fd ∈ next.randFd :: next.held
            · obtain ⟨descriptor, held, closes⟩ := sound.own fd own
              rw [held, (sound.above settled own).2, Option.filter_none]
              exact Option.filter_some_neg (by rw [closes]; decide)
            · rw [sound.rest fd high own]

/-- A thread has the number that `stdinout_reopen` is about to open. -/
def Taken (state : State) (act : Act) : Prop :=
  act = .stdinoutOpen ∧ ∃ fd ∈ state.held, state.switch.closed = some fd

namespace Sound

theorem step (sound : Sound inherited logPath state) {act : Act} {result : Except Fault State}
    (possible : state.step limit logPath act = some result) (mine : ¬ Taken state act) :
    Runs result (Sound inherited logPath) := by
  cases act with
  | openOther id writable =>
      cases possible
      refine (openFd_runs limit state.fds _).bind ?_
      rintro ⟨fd, fds⟩ ⟨_, opened⟩
      exact sound.take opened rfl
  | closeOther fd =>
      rw [State.step] at possible
      split at possible
      · next member =>
          cases possible
          obtain ⟨fds, closed, sound⟩ := sound.drop member
          rw [closed]
          exact sound
      · cases possible
  | dupOther fd =>
      rw [State.step] at possible
      split at possible
      · next member =>
          cases possible
          obtain ⟨descriptor, held, _⟩ := sound.own fd (List.mem_cons_of_mem _ member.2)
          refine (dupFd_runs held).bind ?_
          rintro ⟨fd, fds⟩ opened
          exact sound.take opened rfl
      · cases possible
  | stdinoutNew output =>
      rw [State.step] at possible
      split at possible
      · next before =>
          cases possible
          have isOpen : ∃ descriptor,
              state.fds.get (if output then 1 else 0) = some descriptor := by
            cases output with
            | false =>
                obtain ⟨descriptor, held, _⟩ := sound.input (by rw [before]; decide)
                exact ⟨descriptor, held⟩
            | true =>
                obtain ⟨descriptor, held, _⟩ := sound.output (by rw [before]; decide)
                exact ⟨descriptor, held⟩
          obtain ⟨descriptor, held⟩ := isOpen
          refine (dupFd_runs held).bind ?_
          rintro ⟨fd, fds⟩ opened
          exact sound.take opened rfl
      · cases possible
  | stdinoutClose =>
      rw [State.step] at possible
      split at possible
      · next before =>
          cases possible
          obtain ⟨descriptor, held, _⟩ := sound.input (by rw [before]; decide)
          obtain ⟨fds, closed, gets⟩ := closeFd_ok held
          rw [closed]
          refine sound.advance (fun fd => sound.above (by rw [before]; rfl))
            (fun fd high => (gets fd).trans (if_neg (by omega))) (fun other => absurd rfl other)
            (fun _ => ?_) ?_
          · obtain ⟨descriptor, held, _⟩ := sound.output (by rw [before]; decide)
            exact ⟨descriptor, (gets 1).trans held, fun switch => by cases switch⟩
          · intro fd isClosed
            cases isClosed
            exact gets 0
      · next between =>
          cases possible
          obtain ⟨descriptor, held, _⟩ := sound.output (by rw [between]; decide)
          obtain ⟨fds, closed, gets⟩ := closeFd_ok held
          rw [closed]
          refine sound.advance (fun fd => sound.above (by rw [between]; rfl))
            (fun fd high => (gets fd).trans (if_neg (by omega))) (fun _ => ?_)
            (fun other => absurd rfl other) ?_
          · obtain ⟨descriptor, held, known⟩ := sound.input (by rw [between]; decide)
            exact ⟨descriptor, (gets 0).trans held, fun _ => known (by rw [between]; decide)⟩
          · intro fd isClosed
            cases isClosed
            exact gets 1
      · cases possible
  | stdinoutOpen =>
      have mine : ∀ fd, state.switch.closed = some fd → fd ∉ state.held :=
        fun fd closed member => mine ⟨rfl, fd, member, closed⟩
      rw [State.step] at possible
      split at possible
      · next inputClosed =>
          cases possible
          have closed : state.switch.closed = some 0 := by rw [inputClosed]; rfl
          obtain ⟨opens, above⟩ := @reopen limit _ _ _ _ sound closed (mine 0 closed) devNull
          refine opens.bind fun fds opened => ?_
          refine sound.advance above (fun fd high => (opened.2 fd).trans (if_neg (by omega)))
            (fun _ => ⟨devNull, (opened.2 0).trans (if_pos rfl), fun _ => rfl⟩) (fun _ => ?_)
            (fun fd isClosed => by cases isClosed)
          obtain ⟨descriptor, held, _⟩ := sound.output (by rw [inputClosed]; decide)
          exact ⟨descriptor, (opened.2 1).trans held, fun switch => by cases switch⟩
      · next outputClosed =>
          cases possible
          have closed : state.switch.closed = some 1 := by rw [outputClosed]; rfl
          obtain ⟨opens, above⟩ := @reopen limit _ _ _ _ sound closed (mine 1 closed) devFull
          refine opens.bind fun fds opened => ?_
          refine sound.advance above (fun fd high => (opened.2 fd).trans (if_neg (by omega)))
            (fun _ => ?_) (fun _ => ⟨devFull, (opened.2 1).trans (if_pos rfl), fun _ => rfl⟩)
            (fun fd isClosed => by cases isClosed)
          obtain ⟨descriptor, held, known⟩ := sound.input (by rw [outputClosed]; decide)
          exact ⟨descriptor, (opened.2 0).trans held, fun _ => known (by rw [outputClosed]; decide)⟩
      · cases possible
  | logRotate opened =>
      rw [State.step] at possible
      split at possible
      · next settled =>
          obtain ⟨settled, rfl⟩ := settled
          cases possible
          obtain ⟨descriptor, held, _⟩ := sound.error
          have isOpen : state.fds.get 2 ≠ none := by
            rw [held]
            exact Option.some_ne_none _
          refine (logOpen_runs isOpen _).bind fun fds gets => ?_
          exact sound.rotate settled gets
      · cases possible
  | execSpawn =>
      rw [State.step] at possible
      split at possible
      · cases possible
        refine (execSpawn_runs limit state).bind ?_
        rintro ⟨next, child⟩ ⟨_, _, _, _, spawned⟩
        exact sound.spawn spawned
      · cases possible

/-- The number that a thread has is not opened. -/
theorem taken (sound : Sound inherited logPath state) {act : Act} {result : Except Fault State}
    (possible : state.step limit logPath act = some result) (taken : Taken state act) :
    result = .error .limit ∨ result = .error .stdinoutOpen := by
  obtain ⟨rfl, fd, member, closed⟩ := taken
  obtain ⟨held, reads, _⟩ := sound.own fd (List.mem_cons_of_mem _ member)
  have fails : ∀ descriptor, stdinoutOpen limit state.fds fd descriptor = .error .limit ∨
      stdinoutOpen limit state.fds fd descriptor = .error .stdinoutOpen := by
    intro descriptor
    by_cases room : state.fds.lowestFree < limit
    · exact .inr (stdinoutOpen_taken (by rw [reads]; exact Option.some_ne_none _) room)
    · rw [stdinoutOpen, openFd, if_neg room]
      exact .inl rfl
  rcases Switch.closed_eq closed with ⟨switch, rfl⟩ | ⟨switch, rfl⟩
  · simp only [State.step, switch, Option.some.injEq] at possible
    subst possible
    exact (fails devNull).imp (fun failed => by rw [failed]; rfl) fun failed => by rw [failed]; rfl
  · simp only [State.step, switch, Option.some.injEq] at possible
    subst possible
    exact (fails devFull).imp (fun failed => by rw [failed]; rfl) fun failed => by rw [failed]; rfl

end Sound

/-! ## From the start -/

/-- A number is opened if it is not open. -/
theorem stdinoutOpen_missing (below : ∀ lower < fd, fds.get lower ≠ none) :
    Runs (if fds.get fd = none then stdinoutOpen limit fds fd descriptor else .ok fds) fun after =>
      after.get fd ≠ none ∧ ∀ other, other ≠ fd → after.get other = fds.get other := by
  split
  · next free =>
      refine (stdinoutOpen_runs free below).mono fun after opened => ⟨?_, fun other differ => ?_⟩
      · rw [opened.2 fd, if_pos rfl]
        exact Option.some_ne_none _
      · exact (opened.2 other).trans (if_neg differ)
  · next isOpen => exact ⟨isOpen, fun _ _ => rfl⟩

/-- `stdinout_preinit` opens what is missing of the first two numbers. -/
theorem stdinoutPreinit_runs (limit : Nat) (inherited : Table Descriptor) :
    Runs (stdinoutPreinit limit inherited) fun fds =>
      fds.get 0 ≠ none ∧ fds.get 1 ≠ none ∧ ∀ fd, 2 ≤ fd → fds.get fd = inherited.get fd := by
  have split : stdinoutPreinit limit inherited =
      (if inherited.get 0 = none then stdinoutOpen limit inherited 0 devNull else .ok inherited) >>=
        fun fds => if fds.get 1 = none then stdinoutOpen limit fds 1 devFull else .ok fds := by
    rw [stdinoutPreinit]
    split <;> rfl
  rw [split]
  refine (stdinoutOpen_missing fun lower low => by cases low).bind ?_
  rintro fds ⟨input, rest⟩
  refine (stdinoutOpen_missing fun lower low => ?_).mono ?_
  · rw [Nat.lt_one_iff.mp low]
    exact input
  · rintro after ⟨output, kept⟩
    refine ⟨?_, output, fun fd high => ?_⟩
    · rw [kept 0 (by decide)]
      exact input
    · rw [kept fd (by omega), rest fd (by omega)]

/-- `log_init` leaves a log on standard error when that is open. -/
theorem logInit_runs (isOpen : fds.get 2 = some descriptor)
    (writable : logPath = true ∨ descriptor.writable = true) :
    Runs (logInit limit fds logPath opened) fun after => ∀ fd, after.get fd =
      if logPath = true ∧ fd = 2 then some (logFile 0) else fds.get fd := by
  rw [logInit]
  cases logPath with
  | true =>
      have standard : fds.get 2 ≠ none := by
        rw [isOpen]
        exact Option.some_ne_none _
      refine (logOpen_runs standard 0).bind fun after gets => ?_
      have here : after.get 2 = some (logFile 0) := (gets 2).trans (if_pos rfl)
      have writes : (logFile 0).writable = true := rfl
      simp only [here, writes, ↓reduceIte, true_and]
      exact gets
  | false =>
      have writes : descriptor.writable = true := writable.resolve_left Bool.false_ne_true
      simp only [Bool.false_eq_true, ↓reduceIte, Except.ok_bind, isOpen, writes, false_and]
      exact fun _ => rfl

/-- The program starts well with an open standard error. -/
theorem start_runs (ready : Ready logPath inherited) :
    Runs (start limit inherited logPath opened) (Sound inherited logPath) := by
  obtain ⟨descriptor, isOpen, writable⟩ := ready
  refine (stdinoutPreinit_runs limit inherited).bind ?_
  rintro fds ⟨input, output, rest⟩
  refine (openFd_runs limit fds urandom).bind ?_
  rintro ⟨randFd, fds₁⟩ ⟨_, rand⟩
  have error : fds.get 2 = some descriptor := (rest 2 (Nat.le_refl 2)).trans isOpen
  have high : 3 ≤ randFd := by
    have free := rand.1
    by_contra low
    have cases : randFd = 0 ∨ randFd = 1 ∨ randFd = 2 := by omega
    rcases cases with rfl | rfl | rfl
    · exact input free
    · exact output free
    · cases error.symm.trans free
  have kept : ∀ fd, fd ≠ randFd → fds₁.get fd = fds.get fd := fun fd differ =>
    (rand.2 fd).trans (if_neg differ)
  refine (logInit_runs ((kept 2 (by omega)).trans error) writable).bind fun fds₂ gets => ?_
  have standard : ∀ fd < 2, fds₂.get fd = fds.get fd := fun fd low => by
    rw [gets, if_neg (by omega), kept fd (by omega)]
  have opens : fds₂.get randFd = some urandom := by
    rw [gets, if_neg (by omega), rand.2, if_pos rfl]
  have own : ∀ fd ∈ [randFd], fd = randFd := fun fd => List.mem_singleton.mp
  exact {
    input := fun _ => by
      obtain ⟨descriptor, held⟩ := Option.ne_none_iff_exists'.mp input
      exact ⟨descriptor, (standard 0 (by decide)).trans held, fun other => absurd rfl other⟩
    output := fun _ => by
      obtain ⟨descriptor, held⟩ := Option.ne_none_iff_exists'.mp output
      exact ⟨descriptor, (standard 1 (by decide)).trans held, fun other => by cases other⟩
    error := by
      cases logPath with
      | true => exact ⟨logFile 0, (gets 2).trans (if_pos ⟨rfl, rfl⟩), rfl, rfl⟩
      | false =>
          have reads : fds₂.get 2 = some descriptor := by
            rw [gets, if_neg (by simp), kept 2 (by omega), error]
          exact ⟨descriptor, reads, writable.resolve_left Bool.false_ne_true, isOpen⟩
    rand := ⟨opens, high⟩
    own := fun fd member => ⟨urandom, by rw [own fd member, opens], rfl⟩
    apart := fun fd member => .inl (by
      rw [own fd member, ← rest randFd (by omega)]
      exact ⟨high, rand.1⟩)
    distinct := List.nodup_singleton _
    vacant := fun fd closed => by cases closed
    rest := fun fd above outside => by
      have differ : fd ≠ randFd := fun same => outside (List.mem_singleton.mpr same)
      rw [gets, if_neg (by omega), kept fd differ, rest fd (by omega)] }

/-! ## The system -/

/-- Something happens and does not stop the program. -/
abbrev Step (limit : Nat) (logPath : Bool) (state : State) (act : Act) (next : State) : Prop :=
  state.step limit logPath act = some (.ok next)

theorem sound_of_run {first : State} (ready : Ready logPath inherited)
    (started : start limit inherited logPath opened = .ok first) {trace : List (State × Act)}
    (run : Run (Step limit logPath) first trace state) : Sound inherited logPath state := by
  refine run.invariant ?_ ?_
  · have starts := @start_runs limit inherited logPath opened ready
    rw [started] at starts
    exact starts
  · intro state act next sound possible
    by_cases taken : Taken state act
    · rcases sound.taken possible taken with failed | failed <;> cases failed
    · exact sound.step possible taken

/-- **The standard descriptors.** In a program started with an open standard error, standard error
is the log in use at any time, no file of the program's own takes a standard number, and none of
them is left to a command. Nothing asserted of descriptors fails but when a thread takes the number
that `stdinout_reopen` has just closed, and then it always does. -/
theorem standard_descriptors {first : State} (ready : Ready logPath inherited)
    (started : start limit inherited logPath opened = .ok first) {trace : List (State × Act)}
    (run : Run (Step limit logPath) first trace state) :
    Sound inherited logPath state ∧
      ∀ {act result}, state.step limit logPath act = some result →
        (¬ Taken state act → Runs result (Sound inherited logPath)) ∧
        (Taken state act → result = .error .limit ∨ result = .error .stdinoutOpen) := by
  have sound := sound_of_run ready started run
  exact ⟨sound, fun possible => ⟨sound.step possible, sound.taken possible⟩⟩

/-- A program whose standard input and output are closed, and that is given one descriptor more. -/
def given : Table Descriptor :=
  (Table.empty.put 2 ⟨.other 0, true, false⟩).put 5 ⟨.other 1, true, false⟩

/-- What is given keeps its number, and a thread opens a descriptor before standard output is
opened again. -/
def opening : List Act :=
  [.openOther 2 true, .stdinoutNew true, .stdinoutClose, .stdinoutOpen, .openOther 3 true,
    .stdinoutClose]

def settling : List Act := [.stdinoutOpen, .execSpawn, .logRotate true, .dupOther 4, .closeOther 4]

/-- The states that can be reached by actions that do not stop the program. -/
def State.advance (limit : Nat) (logPath : Bool) (state : State) (act : Act) : Option State :=
  (state.step limit logPath act).bind Except.toOption

theorem State.step_of_advance {act : Act} (advances : state.advance limit logPath act = some next) :
    Step limit logPath state act next := by
  obtain ⟨result, possible, ok⟩ := Option.bind_eq_some_iff.mp advances
  cases result with
  | error fault => cases ok
  | ok after =>
      cases ok
      exact possible

theorem given_ready : Ready true given := ⟨_, rfl, .inl rfl⟩

/-- The runs that start from what is given. -/
theorem given_run {acts : List Act} {holds : State → Bool}
    (ran : ((start 64 given true true).toOption.bind fun first =>
      Run.follow (State.advance 64 true) first acts).any holds = true) :
    ∃ first trace state, start 64 given true true = .ok first ∧
      Run (Step 64 true) first trace state ∧ holds state = true := by
  cases started : start 64 given true true with
  | error fault =>
      rw [started] at ran
      cases ran
  | ok first =>
      rw [started] at ran
      change (Run.follow (State.advance 64 true) first acts).any holds = true at ran
      obtain ⟨trace, state, run, here⟩ := Run.of_follow_any State.step_of_advance ran
      exact ⟨first, trace, state, rfl, run, here⟩

theorem standard_descriptors_taken : ∃ (state : State) (result : Except Fault State),
    Sound given true state ∧ Taken state .stdinoutOpen ∧
    state.step 64 true .stdinoutOpen = some result ∧
    (result = .error .limit ∨ result = .error .stdinoutOpen) := by
  obtain ⟨first, trace, state, started, run, here⟩ := @given_run (opening ++ [.openOther 4 true])
    (fun state => state.switch = .outputClosed ∧ 1 ∈ state.held) (by decide)
  obtain ⟨switch, member⟩ := of_decide_eq_true here
  have taken : Taken state .stdinoutOpen := ⟨rfl, 1, member, by rw [switch]; rfl⟩
  obtain ⟨sound, steps⟩ := standard_descriptors given_ready started run
  have possible : ∃ result, state.step 64 true .stdinoutOpen = some result := by
    simp only [State.step, switch, Option.some.injEq, exists_eq']
  obtain ⟨result, possible⟩ := possible
  exact ⟨state, result, sound, taken, possible, (steps possible).2 taken⟩

/-- **A command's descriptors.** A command gets one socket as its standard input and output and
another one as its standard error, and beyond them exactly what the program was started with. -/
theorem child_descriptors {first : State} (ready : Ready logPath inherited)
    (started : start limit inherited logPath opened = .ok first) {trace : List (State × Act)}
    (run : Run (Step limit logPath) first trace state) (settled : state.switch.closed = none) :
    Runs (execSpawn limit state) fun result => ∃ table, result.2 = .ok table ∧
      ∀ fd, table.get fd =
        if fd < 2 then some (socketFd state.pairs true false)
        else if fd = 2 then some (socketFd (state.pairs + 1) true false)
        else (inherited.get fd).filter fun descriptor => !descriptor.cloexec := by
  have sound := sound_of_run ready started run
  refine (execSpawn_runs limit state).mono ?_
  rintro ⟨next, child⟩ ⟨_, _, _, _, spawned⟩
  exact spawned.child_gets sound settled

/-- The log is not one of the command's descriptors, what the program was given is. -/
theorem child_descriptors_given : ∃ state : State, state.rotations = 1 ∧
    Runs (execSpawn 64 state) fun result => ∃ table, result.2 = .ok table ∧
      table.get 2 = some (socketFd (state.pairs + 1) true false) ∧ table.get 3 = none ∧
      table.get 5 = some ⟨.other 1, true, false⟩ := by
  obtain ⟨first, trace, state, started, run, here⟩ := @given_run (opening ++ settling)
    (fun state => state.rotations = 1 ∧ state.switch.closed = none) (by decide)
  obtain ⟨rotations, settled⟩ := of_decide_eq_true here
  refine ⟨state, rotations, (child_descriptors given_ready started run settled).mono ?_⟩
  rintro ⟨next, child⟩ ⟨table, ran, gets⟩
  exact ⟨table, ran, gets 2, gets 3, gets 5⟩

/-- **The end of `main`.** Its last calls succeed. Of the descriptors there are left those that
other parts have not closed, and beyond the standard ones what the program was started with. -/
theorem cleanup_descriptors {first : State} (ready : Ready logPath inherited)
    (started : start limit inherited logPath opened = .ok first) {trace : List (State × Act)}
    (run : Run (Step limit logPath) first trace state) (settled : state.switch.closed = none) :
    ∃ after, state.cleanup = .ok after ∧ ∀ fd, after.get fd =
      if fd ∈ state.held then state.fds.get fd else if fd < 3 then none else inherited.get fd := by
  have sound := sound_of_run ready started run
  have isOpen : ∀ {switch fd}, switch.closed = some fd → state.switch ≠ switch := by
    rintro switch fd closed rfl
    cases settled.symm.trans closed
  obtain ⟨input, inputOpen, _⟩ := sound.input (@isOpen .inputClosed 0 rfl)
  obtain ⟨output, outputOpen, _⟩ := sound.output (@isOpen .outputClosed 1 rfl)
  obtain ⟨error, errorOpen, _⟩ := sound.error
  obtain ⟨randOpen, high⟩ := sound.rand
  have own : ∀ fd ∈ state.held, 3 ≤ fd ∧ fd ≠ state.randFd := by
    intro fd member
    refine ⟨(sound.above settled (List.mem_cons_of_mem _ member)).1, ?_⟩
    rintro rfl
    exact (List.nodup_cons.mp sound.distinct).1 member
  have rand := (sound.above settled List.mem_cons_self).2
  have rest := sound.rest
  obtain ⟨fds₁, randClosed, gets₁⟩ := closeFd_ok randOpen
  have errorOpen₁ : fds₁.get 2 = some error := by grind
  obtain ⟨fds₂, errorClosed, gets₂⟩ := closeFd_ok errorOpen₁
  have inputOpen₂ : fds₂.get 0 = some input := by grind
  obtain ⟨fds₃, inputClosed, gets₃⟩ := closeFd_ok inputOpen₂
  have outputOpen₃ : fds₃.get 1 = some output := by grind
  obtain ⟨fds₄, outputClosed, gets₄⟩ := closeFd_ok outputOpen₃
  refine ⟨fds₄, ?_, fun fd => ?_⟩
  · rw [State.cleanup, randClosed, Except.ok_bind, errorClosed, Except.ok_bind, inputClosed,
      Except.ok_bind, outputClosed]
  · rw [gets₄, gets₃, gets₂, gets₁]
    by_cases member : fd ∈ state.held
    · obtain ⟨above, differ⟩ := own fd member
      rw [if_pos member, if_neg (by omega), if_neg (by omega), if_neg (by omega), if_neg differ]
    · rw [if_neg member]
      by_cases low : fd < 3
      · have standard : fd = 0 ∨ fd = 1 ∨ fd = 2 := by omega
        rcases standard with rfl | rfl | rfl <;> simp
      · rw [if_neg low, if_neg (by omega), if_neg (by omega), if_neg (by omega)]
        by_cases same : fd = state.randFd
        · rw [if_pos same, same, rand]
        · rw [if_neg same]
          exact rest fd (by omega) fun inside => (List.mem_cons.mp inside).elim same member

theorem cleanup_descriptors_given : ∃ (state : State) (after : Table Descriptor),
    state.cleanup = .ok after ∧ after.get 0 = none ∧ after.get 2 = none ∧
    after.get 5 = some ⟨.other 1, true, false⟩ := by
  obtain ⟨first, trace, state, started, run, here⟩ := @given_run (opening ++ settling)
    (fun state => state.switch.closed = none ∧ 0 ∉ state.held ∧ 2 ∉ state.held ∧ 5 ∉ state.held)
    (by decide)
  obtain ⟨settled, input, error, extra⟩ := of_decide_eq_true here
  obtain ⟨after, cleaned, gets⟩ := cleanup_descriptors given_ready started run settled
  exact ⟨state, after, cleaned, (gets 0).trans (if_neg input), (gets 2).trans (if_neg error),
    (gets 5).trans (if_neg extra)⟩

/-- What holds of anything returned holds of this. -/
theorem Runs.of_eq {α : Type} {result : Except Fault α} {post : α → Prop} {value : α}
    (runs : Runs result post) (ran : result = .ok value) : post value := by
  subst ran
  exact runs

/-- A program that starts well was ready to. -/
theorem ready_of_start (started : start limit inherited logPath opened = .ok state)
    (rand : state.fds.get state.randFd = some urandom) : Ready logPath inherited := by
  obtain ⟨fds, preinit, started⟩ := Except.bind_eq_ok.mp started
  obtain ⟨⟨randFd, fds₁⟩, randInit, started⟩ := Except.bind_eq_ok.mp started
  obtain ⟨fds₂, logInit, started⟩ := Except.bind_eq_ok.mp started
  cases started
  change fds₂.get randFd = some urandom at rand
  obtain ⟨input, output, rest⟩ := (stdinoutPreinit_runs limit inherited).of_eq preinit
  obtain ⟨lowest, free, gets⟩ := (openFd_runs limit fds urandom).of_eq randInit
  have two := rest 2 (Nat.le_refl 2)
  cases standard : inherited.get 2 with
  | none =>
      -- The source of random bytes has the number of standard error.
      have low : randFd ≤ 2 := lowest.trans_le (Table.lowestFree_le (two.trans standard))
      have same : randFd = 2 := by
        have cases : randFd = 0 ∨ randFd = 1 ∨ randFd = 2 := by omega
        rcases cases with rfl | rfl | same
        · exact absurd free input
        · exact absurd free output
        · exact same
      subst same
      have held : fds₁.get 2 = some urandom := (gets 2).trans (if_pos rfl)
      rw [Standard.logInit] at logInit
      cases logPath with
      | false =>
          simp only [Bool.false_eq_true, ↓reduceIte, Except.ok_bind, held] at logInit
          cases logInit
      | true =>
          obtain ⟨fds', opens, logInit⟩ := Except.bind_eq_ok.mp logInit
          have isOpen : fds₁.get 2 ≠ none := by
            rw [held]
            exact Option.some_ne_none _
          have replaced := (logOpen_runs isOpen 0).of_eq opens 2
          rw [if_pos rfl] at replaced
          simp only [replaced] at logInit
          cases logInit
          cases replaced.symm.trans rand
  | some descriptor =>
      refine ⟨descriptor, standard, ?_⟩
      cases logPath with
      | true => exact .inl rfl
      | false =>
          have differ : (2 : Nat) ≠ randFd := by
            rintro rfl
            cases free.symm.trans (two.trans standard)
          have held : fds₁.get 2 = some descriptor :=
            ((gets 2).trans (if_neg differ)).trans (two.trans standard)
          simp only [Standard.logInit, Bool.false_eq_true, ↓reduceIte, Except.ok_bind, held]
            at logInit
          split at logInit
          · next writes => exact .inr writes
          · cases logInit

/-- **The condition for all this.** Where there are descriptors enough and the log can be opened,
the program starts, and has its source of random bytes, exactly when it is ready. Otherwise its log
has replaced that source, or `fdopen` has refused standard error. -/
theorem start_iff (enough : ∀ fault, start limit inherited logPath opened = .error fault →
      ¬ fault.Benign) :
    (∃ state, start limit inherited logPath opened = .ok state ∧
        state.fds.get state.randFd = some urandom) ↔ Ready logPath inherited := by
  constructor
  · rintro ⟨state, started, rand⟩
    exact ready_of_start started rand
  · intro ready
    have runs := @start_runs limit inherited logPath opened ready
    cases started : start limit inherited logPath opened with
    | ok state =>
        rw [started] at runs
        exact ⟨state, rfl, runs.rand.1⟩
    | error fault =>
        rw [started] at runs
        exact absurd runs (enough fault started)

/-- Without standard error, the log replaces the source of random bytes. -/
theorem start_iff_given :
    (∃ state, start 64 given true true = .ok state ∧
        state.fds.get state.randFd = some urandom) ∧
      ¬ ∃ state, start 64 Table.empty true true = .ok state ∧
        state.fds.get state.randFd = some urandom := by
  have enough : ∀ {inherited}, (start 64 inherited true true).toOption.isSome = true →
      ∀ fault, start 64 inherited true true = .error fault → ¬ fault.Benign := by
    intro inherited starts fault failed
    rw [failed] at starts
    cases starts
  refine ⟨(start_iff (enough (by decide))).mpr given_ready, fun starts => ?_⟩
  obtain ⟨descriptor, isOpen, _⟩ := (start_iff (enough (by decide))).mp starts
  cases isOpen

end Adsbus.Standard

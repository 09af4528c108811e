import Adsbus.Transport.Turns

/-! # Runs of the loop

Every state that the program reaches between two calls has its books in balance, until it
leaves the loop; and in a clean run, in which no incoming object finds addresses none of
which can be bound, until the last object is freed.
-/

namespace Adsbus.EventLoop

variable {clean : Prop} {credit : Account → Int} {loop : Loop} {address fd : Nat}
  {answers : Answers} {state : LoopState} {result : Except LoopFault LoopState}

/-! ## At the end of the program -/

/-- The program is behind its loop. -/
def Closing (clean : Prop) (loop : Loop) : Prop :=
  loop.peerShutdownFlag = true ∧ ∃ credit, Quiet credit ∧ Inv clean credit loop

/-- The account is that of a call. -/
def Account.isCall : Account → Bool
  | .flow _ | .wake _ | .ran _ => true
  | _ => false

/-- Calls that are not made may be owed. -/
theorem Quiet.sub_single (quiet : Quiet credit) (account : Account) (call : account.isCall = true)
    (amount : Int) : Quiet (credit - Pi.single account amount) := by
  have others : ∀ other : Account, other.isCall = false →
      (credit - (Pi.single account amount : Account → Int)) other = credit other := by
    intro other isNone
    rw [Pi.sub_apply, Pi.single_eq_of_ne, sub_zero]
    rintro rfl
    cases call.symm.trans isNone
  exact {
    fd := fun fd => (others (.fd fd) rfl).symm ▸ quiet.fd fd
    count := fun flow => (others (.count flow) rfl).trans (quiet.count flow)
    transports := (others .transports rfl).trans quiet.transports
    none := fun fd => (others (.fd fd) rfl).trans (quiet.none fd) }

theorem Quiet.add_one (quiet : Quiet credit) {account : Account} (call : account.isCall = true) :
    Quiet (credit + one account) := by
  have moved := quiet.sub_single _ call (-1)
  rwa [Pi.single_neg, sub_neg_eq_add] at moved

theorem Quiet.add_owed (quiet : Quiet credit) (onClose : Option Nat) :
    Quiet (credit + owed onClose) := by
  cases onClose with
  | none => rwa [owed_none, add_zero]
  | some peer => exact quiet.add_one rfl

/-- A transport is freed: it gives back its places, and is taken off its list without the
descriptor it has. -/
theorem Inv.freed (object : Object) {flow : Flow} (quiet : Quiet credit)
    (counted : object.counted = some flow) (transport : object.isTransport = true)
    (left : loop.peerShutdownFlag = true)
    (inv : Inv clean (credit - one (.count flow) +
      (fun account => charge account address object) - each .fd object.slot) loop) :
    Closing clean loop := by
  refine ⟨left, _, (quiet.sub_single (.flow address) rfl object.flows).sub_single
    (.wake address) rfl object.waiting.toNat, (inv.recredit ?_).dropTransport⟩
  rw [charge_transport address object counted transport, held]
  abel

/-- Each object is freed without a failed assertion. -/
theorem objectDel_runs {object : Object} (isClean : clean) (closing : Closing clean loop)
    (reads : loop.objects.get address = some object) :
    Runs (loop.objectDel answers address object) (Closing clean) := by
  obtain ⟨left, credit, quiet, inv⟩ := closing
  have settled := quiet.toSettled
  have uncounted : ∀ flow fd, 0 ≤ (credit - one (.count flow)) (.fd fd) := fun flow fd => by
    rw [Pi.sub_apply, one_of_ne (fun same => by cases same), sub_zero]
    exact settled.fd fd
  cases object with
  | peerShutdownPeer own => exact ⟨left, credit, quiet, inv⟩
  | execPeer own =>
      obtain ⟨poll, closed, inv'⟩ := inv.release settled.fd reads
      change loop.poll.peerClose (.peer address) false own = .ok poll at closed
      have placed := (inv'.recredit (show _ = credit + fun account =>
          charge account address (.execPeer none) by
        rw [charge_eq, charge_eq]
        simp only [Object.slot, Object.onClose, Object.flows, Object.innerPeer, Object.waiting,
          Object.isFlow, Object.counted, Object.isTransport, each]
        abel)).putBack { loop with poll := poll } rfl trivial trivial
      rw [Loop.objectDel]
      simp only [closed, Except.ok_bind]
      exact ⟨left, credit, quiet, placed⟩
  | receive fd alwaysTrigger onClose =>
      refine receiveDel_runs inv settled reads fun after same _ inv' => ?_
      rw [peerCall_left _ (same.trans left)]
      exact ⟨same.trans left, _, quiet.add_owed onClose, inv'⟩
  | send fd onClose =>
      refine sendDel_runs inv settled reads fun after same _ inv' => ?_
      rw [peerCall_left _ (same.trans left)]
      exact ⟨same.trans left, _, quiet.add_owed onClose, inv'⟩
  | sendReceive refCount onClose =>
      change Runs (Loop.peerCall answers 2 _ onClose) _
      rw [peerCall_left ((loop.listDel address).log (.onClose address)) left]
      refine ⟨left, _, (quiet.add_owed onClose).sub_single (.flow address) rfl
        refCount.toNat, ((inv.take reads rfl).log (.onClose address)).recredit ?_⟩
      rw [charge_sendReceive, Event.moves]
      abel
  | wakeup fd innerPeer delayMs =>
      exact (wakeupDel_runs inv settled.fd reads).mono fun after done =>
        ⟨done.2.2.trans left, _, quiet.add_one rfl, done.1⟩
  | file file =>
      obtain ⟨peerCount, decremented, inv'⟩ := inv.flowRefDec_of_get settled reads rfl
      rw [Loop.objectDel, Loop.fileDel]
      simp only [decremented, Except.ok_bind]
      exact Inv.freed (.file file) quiet rfl rfl left
        ((inv'.take reads rfl).recredit (by rw [Object.slot, each, sub_zero]))
  | outgoing outgoing =>
      obtain ⟨peerCount, decremented, inv'⟩ := inv.flowRefDec_of_get settled reads rfl
      obtain ⟨poll, closed, inv''⟩ := inv'.release (uncounted _) reads
      change loop.poll.peerClose (.peer address) false outgoing.fd = .ok poll at closed
      rw [Loop.objectDel, Loop.outgoingDel]
      simp only [decremented, closed, Except.ok_bind]
      exact Inv.freed (.outgoing outgoing) quiet rfl rfl left inv''
  | incoming incoming =>
      -- in a clean run an object that waits has no descriptor at all
      have own : (Object.incoming incoming).slot = incoming.fd := by
        have formed := inv.formed reads
        simp only [Object.Formed] at formed
        rw [Object.slot]
        split
        · next waits =>
            rw [if_pos waits] at formed
            exact (formed isClean).symm
        · rfl
      obtain ⟨peerCount, decremented, inv'⟩ := inv.flowRefDec_of_get settled reads rfl
      obtain ⟨poll, closed, inv''⟩ := inv'.release (uncounted _) reads
      rw [own] at closed
      change loop.poll.peerClose (.peer address) false incoming.fd = .ok poll at closed
      rw [Loop.objectDel, Loop.incomingDel]
      simp only [decremented, closed, Except.ok_bind]
      exact Inv.freed (.incoming incoming) quiet rfl rfl left inv''
  | exec exec =>
      obtain ⟨peerCount, decremented, inv'⟩ := inv.flowRefDec_of_get settled reads rfl
      rw [Loop.objectDel, Loop.execDel]
      simp only [decremented, Except.ok_bind]
      split
      · next isChild =>
          obtain ⟨_, poll, cleaned, inv''⟩ := execChildCleanup_eq inv' (uncounted _) reads
            (Option.isSome_iff_ne_none.mp isChild)
          simp only [cleaned, Except.ok_bind]
          refine ⟨left, credit, quiet, ?_⟩
          apply Inv.dropTransport
          rw [Loop.listDel_put _]
          · exact inv''.recredit (by
              rw [held]
              abel)
          · exact Table.lt_bound reads
      · next noChild =>
          have logFd := (inv.formed reads).1 (Option.not_isSome_iff_eq_none.mp noChild)
          exact Inv.freed (.exec exec) quiet rfl rfl left ((inv'.take reads logFd).recredit (by
            rw [show (Object.exec exec).slot = none from logFd, each, sub_zero]))

/-! ## Steps -/

theorem quiet_zero : Quiet 0 := ⟨natural_zero.toSettled, fun _ => rfl⟩

/-- What the options leave is sound. -/
theorem Sound.options (sound : Sound clean state) (options : state.phase = .options) {after : Loop}
    (done : Done clean 0 none state.loop.objects after) :
    Sound clean { state with loop := after } where
  inv := fun _ => done.inv
  root := fun inside _ => by
    obtain ⟨fd, reads⟩ := sound.root inside (.inl options)
    exact ⟨fd, done.frame.kept reads nofun nofun nofun⟩
  poised := by simp only [options, Poised]
  left := fun left => nomatch options.symm.trans left

/-- Every step keeps the program sound. Behind the loop this is so in a clean run. -/
theorem Sound.step {act : LoopAct} (sound : Sound clean state)
    (known : clean ∨ state.phase ≠ .left) (binds : clean → ¬ state.FailsToBind act)
    (taken : state.step act = some result) : Runs result (Sound clean) := by
  cases act with
  | openOther pollable => exact sound.openOther taken
  | closeOther fd => exact sound.closeOther known taken
  | next answers => exact sound.turn binds taken
  | add addition answers =>
      simp only [LoopState.step] at taken
      split at taken
      · next guards =>
          cases taken
          have inv := sound.inv (by simp [guards.1])
          have room : state.loop.objects.total (charge .transports) < 2 ^ 31 - 2 := by
            have counted := state.loop.objects.count_eq_total fun _ object => object.isTransport
            change _ = state.loop.objects.total (charge .transports) at counted
            omega
          exact (add_runs inv room addition).bind fun after done => sound.options guards.1 done
      · cases taken
  | execInit =>
      simp only [LoopState.step] at taken
      split at taken
      · next options =>
          cases taken
          exact (execInit_runs (sound.inv (by simp [options]))).bind fun after done =>
            sound.options options done
      · cases taken
  | peerLoop =>
      simp only [LoopState.step] at taken
      split at taken
      · next options =>
          cases taken
          exact .inLoop (by simp) (by simp) (sound.inv (by simp [options]))
            (fun _ => sound.root (by simp [options]) (.inl options)) trivial
      · cases taken
  | wait events =>
      simp only [LoopState.step] at taken
      split at taken
      · next guards =>
          obtain ⟨idle, _, _, _, _, distinct, reported⟩ := guards
          cases taken
          have inv := sound.inv (by simp [idle])
          exact .inLoop (by simp) (by simp) inv (fun running => sound.root (by simp [idle]) (.inr running))
            ⟨distinct, fun peer member => inv.registered (reported peer member)⟩
      · cases taken
  | leave =>
      simp only [LoopState.step] at taken
      split at taken
      · next idle =>
          have inv := sound.inv (by simp [idle])
          have closes : ∀ after : Loop, after.peerShutdownFlag = true → Inv clean 0 after →
              Sound clean ⟨after, .left⟩ := fun after flag inv =>
            ⟨fun inside => absurd rfl inside, fun inside => absurd rfl inside, trivial,
              fun _ _ => ⟨flag, 0, quiet_zero, inv⟩⟩
          split at taken
          · next flag =>
              cases taken
              exact closes state.loop flag inv
          · next running =>
              split at taken
              · cases taken
                obtain ⟨fd, reads⟩ := sound.root (by simp [idle])
                  (.inr (Bool.not_eq_true _ ▸ running))
                exact (peerShutdown_runs inv reads).bind fun after done =>
                  closes after done.2 done.1.inv
              · cases taken
      · cases taken
  | del address answers =>
      simp only [LoopState.step] at taken
      split at taken
      · next left =>
          have isClean := known.resolve_right fun inside => inside left
          cases reads : state.loop.objects.get address with
          | none =>
              rw [reads] at taken
              cases taken
          | some object =>
              rw [reads] at taken
              cases taken
              exact (objectDel_runs isClean (sound.left left isClean) reads).bind fun after closing =>
                ⟨fun inside => absurd left inside, fun inside => absurd left inside,
                  by simp only [left, Poised], fun _ _ => closing⟩
      · cases taken

/-! ## Runs -/

theorem sound_loopStart : Sound clean loopStart := by
  have root : loopStart.loop.objects.get Loop.peerShutdownAddress =
      some (.peerShutdownPeer (some 8)) := Table.get_put_self ..
  have only : ∀ {address object}, loopStart.loop.objects.get address = some object →
      address = Loop.peerShutdownAddress ∧ object = .peerShutdownPeer (some 8) := by
    intro address object reads
    rcases Table.get_put_eq_some.mp reads with ⟨here, same⟩ | ⟨_, nothing⟩
    · exact ⟨here, same.symm⟩
    · cases nothing
  have fds : ∀ fd, loopStart.loop.poll.fds.get fd = if fd < 8 then some ⟨true, none⟩
      else if fd = 8 then some ⟨true, some (.peer Loop.peerShutdownAddress, .input)⟩
      else none := fun _ => rfl
  refine ⟨fun _ => {
    balanced := fun account => ?_
    wired := {
      watched := fun {address object fd} reads slot => ?_
      watching := fun {fd pollable peer events} watches => ?_
      distinct := List.nodup_nil
      always := fun {peer} => ?_ }
    formed := fun reads => ?_
    flat := fun address refCount peer reads => ?_
    small := fun {fd} isOpen => ?_ }, fun _ _ => ⟨8, root⟩, trivial, fun left => by cases left⟩
  · have total : loopStart.loop.objects.total (charge account) =
        charge account Loop.peerShutdownAddress (.peerShutdownPeer (some 8)) := by
      change (Table.empty.put _ _).total _ = _
      rw [Table.total_put, Table.total_empty]
      exact zero_add _
    rw [total]
    cases account with
    | fd fd =>
        have listed : loopStart.loop.poll.others.count fd = if fd < 8 then 1 else 0 := by
          change (List.range 8).count fd = _
          rw [List.nodup_range.count]
          simp only [List.mem_range]
        simp only [Loop.Books, listed, fds, charge, Object.slot, Option.some.injEq]
        rcases lt_trichotomy fd 8 with low | here | high
        · simp only [low, low.ne', ↓reduceIte, Option.isSome_some]
          rfl
        · subst here
          rfl
        · simp only [high.ne, high.ne', not_lt_of_gt high, ↓reduceIte, Option.isSome_none,
            Bool.false_eq_true]
          rfl
    | flow | wake | ran | count | transports =>
        simp [Loop.Books, charge, loopStart, Object.onClose, Object.flows, Object.innerPeer,
          Object.waiting, Object.isFlow, Object.counted, Object.isTransport]
  · obtain ⟨rfl, rfl⟩ := only reads
    cases slot
    exact ⟨true, rfl, rfl⟩
  · rw [fds] at watches
    split at watches
    · cases watches
    · split at watches
      · next here =>
          cases watches
          exact ⟨_, _, root, congrArg some here.symm, rfl⟩
      · cases watches
  · refine ⟨(fun waits => by cases waits), fun listens => ?_⟩
    obtain ⟨address, fd, onClose, reads, _⟩ := listens
    cases (only reads).2
  · obtain ⟨rfl, rfl⟩ := only reads
    trivial
  · cases (only reads).2
  · rw [fds] at isOpen
    split at isOpen
    · omega
    · split at isOpen
      · omega
      · cases isOpen

/-- Behind the loop the program stays there. -/
theorem LoopState.left_of_step {act : LoopAct} {next : LoopState} (left : state.phase = .left)
    (taken : state.step act = some (.ok next)) : next.phase = .left := by
  cases act with
  | openOther pollable =>
      obtain ⟨_, _, rest⟩ := Except.bind_eq_ok.mp (Option.some.inj taken)
      cases rest
      exact left
  | closeOther fd =>
      simp only [LoopState.step] at taken
      split at taken
      · obtain ⟨_, _, rest⟩ := Except.bind_eq_ok.mp (Option.some.inj taken)
        cases rest
        exact left
      · cases taken
  | next answers =>
      simp only [LoopState.step, LoopState.turn, left] at taken
      cases taken
  | del address answers =>
      simp only [LoopState.step, if_pos left] at taken
      obtain ⟨object, _, freed⟩ := Option.map_eq_some_iff.mp taken
      obtain ⟨_, _, rest⟩ := Except.bind_eq_ok.mp freed
      cases rest
      exact left
  | add | execInit | peerLoop | wait | leave =>
      simp only [LoopState.step, left, reduceCtorEq, false_and, ↓reduceIte] at taken

/-- No incoming object found addresses none of which could be bound. -/
def Binding (trace : List (LoopState × LoopAct)) : Prop :=
  ∀ entry ∈ trace, ¬ entry.1.FailsToBind entry.2

variable {trace : List (LoopState × LoopAct)}

/-- Every state that is reached is sound, and known to the end if the run is clean. -/
theorem sound_of_run (run : LoopRun trace state) (binds : clean → Binding trace) :
    Sound clean state := by
  induction run with
  | start => exact sound_loopStart
  | @step trace state next act run taken ih =>
      have before := ih fun isClean entry member =>
        binds isClean entry (List.mem_cons_of_mem _ member)
      by_cases known : clean ∨ state.phase ≠ .left
      · exact before.step known (fun isClean => binds isClean _ List.mem_cons_self) taken
      · obtain ⟨unclean, left⟩ := not_or.mp known
        have stays := LoopState.left_of_step (not_not.mp left) taken
        exact ⟨fun inside => absurd stays inside, fun inside => absurd stays inside,
          by simp only [stays, Poised], fun _ isClean => absurd isClean unclean⟩

/-- In the loop the books balance, whatever has happened. -/
theorem inv_of_run (run : LoopRun trace state) (inside : state.phase ≠ .left) :
    Inv False 0 state.loop := (sound_of_run run False.elim).inv inside

/-- In the loop no step ends in a failed assertion, an underflow or the call of something freed. -/
theorem step_runs (run : LoopRun trace state) (inside : state.phase ≠ .left) {act : LoopAct}
    (taken : state.step act = some result) : Runs result (Sound False) :=
  (sound_of_run run False.elim).step (.inr inside) False.elim taken

/-! ## Runs that are followed -/

/-- A run by the given actions. -/
def follow : List (LoopState × LoopAct) → LoopState → List LoopAct →
    Option (List (LoopState × LoopAct) × LoopState)
  | trace, state, [] => some (trace, state)
  | trace, state, act :: acts =>
      match state.step act with
      | some (.ok next) => follow ((state, act) :: trace) next acts
      | _ => none

theorem run_of_follow {trace' : List (LoopState × LoopAct)} {next : LoopState}
    (run : LoopRun trace state) {acts : List LoopAct}
    (followed : follow trace state acts = some (trace', next)) : LoopRun trace' next := by
  induction acts generalizing state trace with
  | nil =>
      cases followed
      exact run
  | cons act acts ih =>
      rw [follow] at followed
      split at followed
      · next taken => exact ih (run.step taken) followed
      · cases followed

/-- Nothing but the given actions is done. -/
theorem act_of_follow {trace' : List (LoopState × LoopAct)} {next : LoopState}
    {acts : List LoopAct} (followed : follow trace state acts = some (trace', next)) :
    ∀ entry ∈ trace', entry ∈ trace ∨ entry.2 ∈ acts := by
  induction acts generalizing state trace with
  | nil =>
      cases followed
      exact fun entry member => .inl member
  | cons act acts ih =>
      rw [follow] at followed
      split at followed
      · intro entry member
        rcases ih followed entry member with earlier | later
        · rcases List.mem_cons.mp earlier with rfl | before
          · exact .inr List.mem_cons_self
          · exact .inl before
        · exact .inr (List.mem_cons_of_mem _ later)
      · cases followed

/-- How the step fails, if it does. -/
def LoopState.fault (state : LoopState) (act : LoopAct) : Option LoopFault :=
  match state.step act with
  | some (.error fault) => some fault
  | _ => none

theorem LoopState.step_of_fault {act : LoopAct} {fault : LoopFault}
    (fails : state.fault act = some fault) : state.step act = some (.error fault) := by
  rw [LoopState.fault] at fails
  split at fails
  · next taken =>
      cases fails
      exact taken
  · cases fails

/-- A world in which nothing succeeds. -/
def Answers.refused : Answers where
  closes := false
  resolved := none
  sendto := fun _ => (false, 111)
  error := 111
  bind := fun _ => false
  accepted := false
  opened := none
  written := false
  jitter := 1
  forked := 2
  reaped := none

end Adsbus.EventLoop

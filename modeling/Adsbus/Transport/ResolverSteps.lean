import Adsbus.Transport.Resolver

/-! # Steps of asynchronous resolution

What each step of the threads finds and what it leaves, so that no invariant needs the code of a
step.
-/

namespace Adsbus.Resolver

variable {α Addrs : Type} [DecidableEq α] {lookup : Query → Answer Addrs → Prop}
  {resolver next : Resolver α Addrs} {action : Action α Addrs}

/-! ## What the kernel does -/

omit [DecidableEq α] in
theorem isOpen_iff {end' : End} :
    resolver.isOpen end' = true ↔ ∃ fd, resolver.fds.get fd = some end' := by
  rw [isOpen]
  constructor
  · intro found
    obtain ⟨⟨fd, held⟩, here⟩ := Option.isSome_iff_exists.mp found
    obtain ⟨reads, same⟩ := Table.of_find? here
    exact ⟨fd, by rw [reads, of_decide_eq_true same]⟩
  · rintro ⟨fd, reads⟩
    rw [Table.find?, List.findSome?_isSome_iff]
    exact ⟨fd, List.mem_range.mpr (Table.lt_bound reads), by rw [reads]; simp⟩

/-- What `recv` leaves. -/
inductive Recv (fd : Nat) (resolver : Resolver α Addrs) : Option α → Resolver α Addrs → Prop
  | message {socket : Socket} {res : α} {rest : List α}
      (reads : resolver.fds.get fd = some ⟨socket, .read⟩)
      (queue : resolver.messages socket = res :: rest) :
      Recv fd resolver (some res)
        { resolver with messages := Function.update resolver.messages socket rest }
  | ended {socket : Socket} (reads : resolver.fds.get fd = some ⟨socket, .read⟩)
      (empty : resolver.messages socket = [])
      (closed : ∀ other, resolver.fds.get other ≠ some ⟨socket, .write⟩) :
      Recv fd resolver none resolver

omit [DecidableEq α] in
theorem recv_of_eq_ok {fd : Nat} {message : Option α}
    (ran : resolver.recv fd = .ok (message, next)) : Recv fd resolver message next := by
  rw [recv] at ran
  split at ran
  · rename_i socket reads
    split at ran
    · rename_i queue
      cases ran
      exact .message reads queue
    · rename_i empty
      split at ran
      · cases ran
      · rename_i closed
        cases ran
        exact .ended reads empty fun other there => closed (isOpen_iff.mpr ⟨other, there⟩)
  · cases ran

omit [DecidableEq α] in
theorem send_eq_ok {fd : Option Nat} {res : α} (ran : resolver.send fd res = .ok next) :
    ∃ fd' socket, fd = some fd' ∧ resolver.fds.get fd' = some ⟨socket, .write⟩ ∧
      (∃ other, resolver.fds.get other = some ⟨socket, .read⟩) ∧ next = { resolver with
        messages := Function.update resolver.messages socket (resolver.messages socket ++ [res]) } := by
  rw [send] at ran
  split at ran
  · rename_i socket reads
    obtain ⟨fd', rfl, there⟩ := Option.bind_eq_some_iff.mp reads
    split at ran
    · rename_i heard
      cases ran
      exact ⟨fd', socket, rfl, there, isOpen_iff.mp heard, rfl⟩
    · cases ran
  · cases ran

omit [DecidableEq α] in
theorem close_eq_ok {fd : Option Nat} (ran : resolver.close fd = .ok next) :
    ∃ fd', fd = some fd' ∧ next = { resolver with fds := resolver.fds.remove fd' } := by
  cases fd with
  | none => cases ran
  | some fd =>
      rw [close] at ran
      split at ran
      · cases ran
        exact ⟨fd, rfl, rfl⟩
      · cases ran

omit [DecidableEq α] in
theorem load_eq_ok {res : α} {resolution : Resolution Addrs} :
    resolver.load res = .ok resolution ↔ resolver.memory res = some resolution := by
  rw [load]
  split
  · rename_i reads
    rw [reads, Except.ok.injEq, Option.some.injEq]
  · rename_i reads
    rw [reads]
    exact ⟨nofun, nofun⟩

/-! ## What a step does -/

/-- The steps, with what they find and what they leave. -/
inductive Moves (lookup : Query → Answer Addrs → Prop) (resolver : Resolver α Addrs) :
    Action α Addrs → Resolver α Addrs → Prop
  | prepare (query : Query) {fd fd1 : Nat} {res : α} (main : resolver.main = .idle)
      (started : resolver.started = true) (unused : resolver.fds.get fd = none)
      (unused' : resolver.fds.get fd1 = none) (ne : fd ≠ fd1) (free : resolver.memory res = none) :
      Moves lookup resolver (.prepare query fd fd1 res)
        ({ resolver with
          fds := (resolver.fds.put fd ⟨.result resolver.history.queries.length, .read⟩).put fd1
            ⟨.result resolver.history.queries.length, .write⟩
          memory := Function.update resolver.memory res
            (some ⟨resolver.history.queries.length, some fd1, query, none⟩)
          main := .filled fd res
          history := { resolver.history with
            queries := resolver.history.queries ++ [query] } }.reach
              resolver.history.queries.length .filled)
  | enqueue {fd writeFd : Nat} {res : α} {socket : Socket} {resolution : Resolution Addrs}
      (main : resolver.main = .filled fd res) (reads : resolver.memory res = some resolution)
      (isOpen : resolver.writeFd = some writeFd)
      (there : resolver.fds.get writeFd = some ⟨socket, .write⟩)
      (heard : ∃ other, resolver.fds.get other = some ⟨socket, .read⟩) :
      Moves lookup resolver .enqueue
        ({ resolver with
          messages := Function.update resolver.messages socket (resolver.messages socket ++ [res])
          main := .idle
          history := { resolver.history with
            enqueued := resolver.history.enqueued ++ [resolution.call] } }.reach
              resolution.call .queued)
  | receive {fd call : Nat} {res : α} {rest : List α} {resolution : Resolution Addrs}
      (main : resolver.main = .idle) (there : resolver.fds.get fd = some ⟨.result call, .read⟩)
      (queue : resolver.messages (.result call) = res :: rest)
      (reads : resolver.memory res = some resolution) :
      Moves lookup resolver (.receive fd)
        ({ resolver with
          messages := Function.update resolver.messages (.result call) rest
          main := .received fd res }.reach resolution.call .received)
  | finish {fd : Nat} {res : α} {resolution : Resolution Addrs} {answer : Answer Addrs}
      (main : resolver.main = .received fd res) (reads : resolver.memory res = some resolution)
      (written : resolution.answer = some answer) :
      Moves lookup resolver .finish
        ({ resolver with
          fds := resolver.fds.remove fd
          memory := Function.update resolver.memory res none
          main := .idle
          history := { resolver.history with
            returned := resolver.history.returned ++ [(resolution.call, answer)] } }.reach
              resolution.call .returned)
  | cleanup {fd : Nat} (main : resolver.main = .idle) (started : resolver.started = true)
      (isOpen : resolver.writeFd = some fd) :
      Moves lookup resolver .cleanup
        { resolver with fds := resolver.fds.remove fd, writeFd := none, main := .joining 0 }
  | joined {i : Nat} (main : resolver.main = .joining i) (more : i < resolver.threads)
      (ended : resolver.workers i = .ended) :
      Moves lookup resolver .join { resolver with main := .joining (i + 1) }
  | stopped {i : Nat} (main : resolver.main = .joining i) (all : resolver.threads ≤ i) :
      Moves lookup resolver .join { resolver with main := .idle, started := false }
  | took {i fd : Nat} {res : α} {socket : Socket} {rest : List α} {resolution : Resolution Addrs}
      (worker : resolver.workers i = .receiving fd)
      (there : resolver.fds.get fd = some ⟨socket, .read⟩)
      (queue : resolver.messages socket = res :: rest)
      (reads : resolver.memory res = some resolution) :
      Moves lookup resolver (.take i)
        (({ resolver with messages := Function.update resolver.messages socket rest }.goes i
          (.took fd res)).reach resolution.call (.took i))
  | ended {i fd : Nat} {socket : Socket} (worker : resolver.workers i = .receiving fd)
      (there : resolver.fds.get fd = some ⟨socket, .read⟩) (empty : resolver.messages socket = [])
      (closed : ∀ other, resolver.fds.get other ≠ some ⟨socket, .write⟩) :
      Moves lookup resolver (.take i)
        ({ resolver with fds := resolver.fds.remove fd }.goes i .ended)
  | answered {i fd : Nat} {res : α} {resolution : Resolution Addrs} {answer : Answer Addrs}
      (worker : resolver.workers i = .took fd res) (reads : resolver.memory res = some resolution)
      (looked : lookup resolution.query answer) :
      Moves lookup resolver (.lookUp i answer)
        (({ resolver with
          memory := Function.update resolver.memory res
            (some { resolution with answer := some answer, returnFd := none })
          history := { resolver.history with
            lookups := resolver.history.lookups ++ [(resolution.call, answer)] } }.goes i
              (.answered fd res resolution.returnFd)).reach resolution.call (.answered i))
  | replied {i fd fd1 : Nat} {res : α} {socket : Socket} {returnFd : Option Nat}
      {resolution : Resolution Addrs} (worker : resolver.workers i = .answered fd res returnFd)
      (reads : resolver.memory res = some resolution) (isOpen : returnFd = some fd1)
      (there : resolver.fds.get fd1 = some ⟨socket, .write⟩) :
      Moves lookup resolver (.reply i)
        (({ resolver with
          messages := Function.update resolver.messages socket (resolver.messages socket ++ [res])
          history := { resolver.history with
            replies := resolver.history.replies ++ [resolution.call] } }.goes i
              (.replied fd returnFd)).reach resolution.call (.replied resolution.call))
  | closed {i fd fd1 : Nat} {returnFd : Option Nat}
      (worker : resolver.workers i = .replied fd returnFd) (isOpen : returnFd = some fd1) :
      Moves lookup resolver (.closeReply i)
        ({ resolver with fds := resolver.fds.remove fd1 }.goes i (.receiving fd))

theorem moves_of_step (taken : step lookup resolver action next) :
    Moves lookup resolver action next := by
  obtain ⟨possible, ran⟩ := taken
  cases action with
  | prepare query fd fd1 res =>
      obtain ⟨started, unused, unused', ne, free⟩ := possible
      change resolver.prepare query fd fd1 res = _ at ran
      unfold prepare at ran
      split at ran
      · rename_i main
        cases ran
        exact .prepare query main started unused unused' ne free
      · cases ran
  | enqueue =>
      change resolver.enqueue = _ at ran
      unfold enqueue at ran
      split at ran
      · rename_i main
        obtain ⟨resolution, reads, ran⟩ := Except.bind_eq_ok.mp ran
        obtain ⟨between, sent, ran⟩ := Except.bind_eq_ok.mp ran
        obtain ⟨writeFd, socket, isOpen, there, heard, rfl⟩ := send_eq_ok sent
        cases ran
        exact .enqueue main (load_eq_ok.mp reads) isOpen there heard
      · cases ran
  | receive fd =>
      obtain ⟨call, there⟩ := possible
      change resolver.receive fd = _ at ran
      unfold receive at ran
      split at ran
      · rename_i main
        obtain ⟨⟨message, between⟩, received, ran⟩ := Except.bind_eq_ok.mp ran
        cases recv_of_eq_ok received with
        | message there' queue =>
            rw [there, Option.some.injEq, End.mk.injEq] at there'
            obtain ⟨rfl, _⟩ := there'
            obtain ⟨resolution, reads, ran⟩ := Except.bind_eq_ok.mp ran
            cases ran
            exact .receive main there queue (load_eq_ok.mp reads)
        | ended => cases ran
      · cases ran
  | finish =>
      change resolver.finish = _ at ran
      unfold finish at ran
      split at ran
      · rename_i main
        obtain ⟨between, closed, ran⟩ := Except.bind_eq_ok.mp ran
        obtain ⟨resolution, reads, ran⟩ := Except.bind_eq_ok.mp ran
        obtain ⟨_, same, rfl⟩ := close_eq_ok closed
        cases same
        split at ran
        · rename_i written
          cases ran
          exact .finish main (load_eq_ok.mp reads) written
        · cases ran
      · cases ran
  | cleanup =>
      change resolver.cleanup = _ at ran
      unfold cleanup at ran
      split at ran
      · rename_i main
        split at ran
        · rename_i started
          obtain ⟨between, closed, ran⟩ := Except.bind_eq_ok.mp ran
          obtain ⟨fd, isOpen, rfl⟩ := close_eq_ok closed
          cases ran
          exact .cleanup main started isOpen
        · cases ran
      · cases ran
  | join =>
      change resolver.join = _ at ran
      unfold join at ran
      split at ran
      · rename_i main
        split at ran
        · rename_i more
          split at ran
          · rename_i ended
            cases ran
            exact .joined main more ended
          · cases ran
        · rename_i all
          cases ran
          exact .stopped main (Nat.le_of_not_lt all)
      · cases ran
  | take i =>
      change resolver.take i = _ at ran
      unfold take at ran
      split at ran
      · rename_i worker
        obtain ⟨⟨message, between⟩, received, ran⟩ := Except.bind_eq_ok.mp ran
        cases recv_of_eq_ok received with
        | message there queue =>
            obtain ⟨resolution, reads, ran⟩ := Except.bind_eq_ok.mp ran
            cases ran
            exact .took worker there queue (load_eq_ok.mp reads)
        | ended there empty closed =>
            obtain ⟨_, shut, ran⟩ := Except.bind_eq_ok.mp ran
            obtain ⟨_, same, rfl⟩ := close_eq_ok shut
            cases same
            cases ran
            exact .ended worker there empty closed
      · cases ran
  | lookUp i answer =>
      change resolver.lookUp i answer = _ at ran
      unfold lookUp at ran
      split at ran
      · rename_i worker
        obtain ⟨resolution, reads, ran⟩ := Except.bind_eq_ok.mp ran
        have reads := load_eq_ok.mp reads
        cases ran
        exact .answered worker reads (possible _ _ worker resolution reads)
      · cases ran
  | reply i =>
      change resolver.reply i = _ at ran
      unfold reply at ran
      split at ran
      · rename_i worker
        obtain ⟨resolution, reads, ran⟩ := Except.bind_eq_ok.mp ran
        obtain ⟨between, sent, ran⟩ := Except.bind_eq_ok.mp ran
        obtain ⟨fd1, socket, isOpen, there, _, rfl⟩ := send_eq_ok sent
        cases ran
        exact .replied worker (load_eq_ok.mp reads) isOpen there
      · cases ran
  | closeReply i =>
      change resolver.closeReply i = _ at ran
      unfold closeReply at ran
      split at ran
      · rename_i worker
        obtain ⟨between, closed, ran⟩ := Except.bind_eq_ok.mp ran
        obtain ⟨fd1, isOpen, rfl⟩ := close_eq_ok closed
        cases ran
        exact .closed worker isOpen
      · cases ran

end Adsbus.Resolver

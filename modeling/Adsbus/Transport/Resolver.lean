import Adsbus.Core.Bytes
import Adsbus.Foundation.Except
import Adsbus.Foundation.Runs
import Adsbus.Foundation.Table
import Mathlib.Logic.Function.Basic

/-! # Asynchronous resolution

`asyncaddrinfo` looks up addresses in threads of its own. The address of a request goes to them
through a socket, and comes back through another one that was made for this request. The main thread
and the workers take their steps in any order; a step is what a thread does from one call that
others can see to the next, and the memory that it uses meanwhile is checked to be allocated.
-/

namespace Adsbus

namespace Resolver

/-- The fields of `struct addrinfo` that hints have. -/
structure Hints where
  aiFlags : Int32
  aiFamily : Int32
  aiSocktype : Int32
  aiProtocol : Int32
  deriving DecidableEq

/-- The arguments of `getaddrinfo`. -/
structure Query where
  node : Option Bytes
  service : Option Bytes
  hints : Option Hints
  deriving DecidableEq

/-- The arguments that `resolve` looks up, with `AI_V4MAPPED`, `AF_UNSPEC` and `SOCK_STREAM`. -/
def resolveQuery (node service : Option Bytes) (flags : Int32) : Query where
  node := node
  service := service
  hints := some ⟨0x0008 ||| flags, 0, 1, 0⟩

/-- What `getaddrinfo` leaves. -/
structure Answer (Addrs : Type) where
  err : Int32
  addrs : Addrs
  deriving DecidableEq

/-- `struct asyncaddrinfo_resolution`, and the call of `asyncaddrinfo_resolve` that it was allocated
by. No `return_fd` is -1, and without an answer nothing was written to `err` and `addrs`. -/
structure Resolution (Addrs : Type) where
  call : Nat
  returnFd : Option Nat
  query : Query
  answer : Option (Answer Addrs)

/-- The pairs of sockets: the one for requests, and the one that a call made. -/
inductive Socket
  | requests
  | result (call : Nat)
  deriving DecidableEq

/-- The end that is `fds[0]` of a pair, which is read from, and `fds[1]`, which is written to. -/
inductive Side
  | read
  | write
  deriving DecidableEq

/-- What a descriptor stands for. -/
structure End where
  socket : Socket
  side : Side
  deriving DecidableEq

/-- A thread in `asyncaddrinfo_main`: at `recv`, at `getaddrinfo`, at `send`, at `close`, or ended. -/
inductive Worker (α : Type)
  | receiving (fd : Nat)
  | took (fd : Nat) (res : α)
  | answered (fd : Nat) (res : α) (returnFd : Option Nat)
  | replied (fd : Nat) (returnFd : Option Nat)
  | ended

/-- The main thread: outside, at `send` in `asyncaddrinfo_resolve`, at `close` in
`asyncaddrinfo_result`, at `pthread_join` in `asyncaddrinfo_cleanup`. -/
inductive Main (α : Type)
  | idle
  | filled (fd : Nat) (res : α)
  | received (fd : Nat) (res : α)
  | joining (i : Nat)

/-- How far a call has come, with the worker that its request is with and the call whose result
socket it is in. -/
inductive Stage
  | absent
  | filled
  | queued
  | took (i : Nat)
  | answered (i : Nat)
  | replied (call : Nat)
  | received
  | returned
  deriving DecidableEq

/-- What has happened: the queries of the calls of `asyncaddrinfo_resolve`, how far each call has
come, the calls whose request was sent, the answers of `getaddrinfo`, the calls whose result was
sent, and what `asyncaddrinfo_result` returned. -/
structure History (Addrs : Type) where
  queries : List Query
  stage : Nat → Stage
  enqueued : List Nat
  lookups : List (Nat × Answer Addrs)
  replies : List Nat
  returned : List (Nat × Answer Addrs)

end Resolver

open Resolver

/-- The memory of the process, its descriptors, the messages in each socket, the variables of
`asyncaddrinfo.c`, and where its threads are. No `asyncaddrinfo_write_fd` is -1; the threads are
`started` as long as `asyncaddrinfo_threads` is not null. -/
structure Resolver (α Addrs : Type) where
  memory : α → Option (Resolution Addrs)
  fds : Table End
  messages : Socket → List α
  writeFd : Option Nat
  started : Bool
  threads : Nat
  workers : Nat → Worker α
  main : Main α
  history : History Addrs

namespace Resolver

variable {α Addrs : Type} [DecidableEq α]

/-- Why a thread takes no step: it is elsewhere, it waits, or an assertion fails or memory is read
that nothing was written to. -/
inductive Stop
  | elsewhere
  | waits
  | fails
  deriving DecidableEq

/-! ## The kernel -/

/-- There is a descriptor for this end. -/
def isOpen (resolver : Resolver α Addrs) (end' : End) : Bool :=
  (resolver.fds.find? fun other => other = end').isSome

/-- `recv`: a whole message, or nothing at the end of the file, which comes when there is no
descriptor left to write to. -/
def recv (fd : Nat) (resolver : Resolver α Addrs) :
    Except Stop (Option α × Resolver α Addrs) :=
  match resolver.fds.get fd with
  | some ⟨socket, .read⟩ =>
      match resolver.messages socket with
      | res :: rest =>
          .ok (some res, { resolver with
            messages := Function.update resolver.messages socket rest })
      | [] => if resolver.isOpen ⟨socket, .write⟩ then .error .waits else .ok (none, resolver)
  | _ => .error .fails

/-- `send`, which fails when there is no descriptor left to read from. -/
def send (fd : Option Nat) (res : α) (resolver : Resolver α Addrs) :
    Except Stop (Resolver α Addrs) :=
  match fd.bind resolver.fds.get with
  | some ⟨socket, .write⟩ =>
      if resolver.isOpen ⟨socket, .read⟩ then
        .ok { resolver with
          messages := Function.update resolver.messages socket (resolver.messages socket ++ [res]) }
      else .error .fails
  | _ => .error .fails

/-- `close`. -/
def close (fd : Option Nat) (resolver : Resolver α Addrs) : Except Stop (Resolver α Addrs) :=
  match fd with
  | some fd =>
      if (resolver.fds.get fd).isSome then .ok { resolver with fds := resolver.fds.remove fd }
      else .error .fails
  | none => .error .fails

/-- What is at an address. -/
def load (res : α) (resolver : Resolver α Addrs) : Except Stop (Resolution Addrs) :=
  match resolver.memory res with
  | some resolution => .ok resolution
  | none => .error .fails

/-! ## asyncaddrinfo.c -/

/-- `asyncaddrinfo_init` with as many threads as there are descriptors for them, after
`socketpair` made the first two descriptors. -/
def asyncaddrinfoInit (fd fd1 : Nat) (subfds : List Nat) : Resolver α Addrs where
  memory := fun _ => none
  fds := (subfds.foldl (fun fds subfd => fds.put subfd ⟨.requests, .read⟩)
    ((Table.empty.put fd ⟨.requests, .read⟩).put fd1 ⟨.requests, .write⟩)).remove fd
  messages := fun _ => []
  writeFd := some fd1
  started := true
  threads := subfds.length
  workers := fun i => (subfds[i]?).elim .ended .receiving
  main := .idle
  history := ⟨[], fun _ => .absent, [], [], [], []⟩

/-- The call has come to a stage. -/
def reach (call : Nat) (stage : Stage) (resolver : Resolver α Addrs) : Resolver α Addrs :=
  { resolver with history := { resolver.history with
      stage := Function.update resolver.history.stage call stage } }

/-- A worker is somewhere else now. -/
def goes (i : Nat) (worker : Worker α) (resolver : Resolver α Addrs) : Resolver α Addrs :=
  { resolver with workers := Function.update resolver.workers i worker }

/-- `asyncaddrinfo_resolve` before `send`, with the descriptors of `socketpair` and the address of
`malloc`. -/
def prepare (query : Query) (fd fd1 : Nat) (res : α) (resolver : Resolver α Addrs) :
    Except Stop (Resolver α Addrs) :=
  match resolver.main with
  | .idle =>
      let call := resolver.history.queries.length
      let resolver := { resolver with
        fds := (resolver.fds.put fd ⟨.result call, .read⟩).put fd1 ⟨.result call, .write⟩
        memory := Function.update resolver.memory res (some ⟨call, some fd1, query, none⟩)
        main := .filled fd res
        history := { resolver.history with queries := resolver.history.queries ++ [query] } }
      .ok (resolver.reach call .filled)
  | _ => .error .elsewhere

/-- `send` in `asyncaddrinfo_resolve`, which returns the other descriptor. -/
def enqueue (resolver : Resolver α Addrs) : Except Stop (Resolver α Addrs) :=
  match resolver.main with
  | .filled _ res => do
      let resolution ← resolver.load res
      let resolver ← resolver.send resolver.writeFd res
      let resolver := { resolver with
        main := .idle
        history := { resolver.history with
          enqueued := resolver.history.enqueued ++ [resolution.call] } }
      return resolver.reach resolution.call .queued
  | _ => .error .elsewhere

/-- `recv` in `asyncaddrinfo_result`. -/
def receive (fd : Nat) (resolver : Resolver α Addrs) : Except Stop (Resolver α Addrs) :=
  match resolver.main with
  | .idle => do
      let (message, resolver) ← resolver.recv fd
      match message with
      | some res => do
          let resolution ← resolver.load res
          let resolver := { resolver with main := .received fd res }
          return resolver.reach resolution.call .received
      | none => .error .fails
  | _ => .error .elsewhere

/-- The rest of `asyncaddrinfo_result`. -/
def finish (resolver : Resolver α Addrs) : Except Stop (Resolver α Addrs) :=
  match resolver.main with
  | .received fd res => do
      let resolver ← resolver.close (some fd)
      let resolution ← resolver.load res
      match resolution.answer with
      | some answer =>
          let resolver := { resolver with
            memory := Function.update resolver.memory res none
            main := .idle
            history := { resolver.history with
              returned := resolver.history.returned ++ [(resolution.call, answer)] } }
          return resolver.reach resolution.call .returned
      | none => .error .fails
  | _ => .error .elsewhere

/-- `asyncaddrinfo_cleanup` before the threads are joined. -/
def cleanup (resolver : Resolver α Addrs) : Except Stop (Resolver α Addrs) :=
  match resolver.main with
  | .idle =>
      if resolver.started then do
        let resolver ← resolver.close resolver.writeFd
        return { resolver with writeFd := none, main := .joining 0 }
      else .error .fails
  | _ => .error .elsewhere

/-- One turn of the loop in `asyncaddrinfo_cleanup`, and what comes after it. -/
def join (resolver : Resolver α Addrs) : Except Stop (Resolver α Addrs) :=
  match resolver.main with
  | .joining i =>
      if i < resolver.threads then
        match resolver.workers i with
        | .ended => .ok { resolver with main := .joining (i + 1) }
        | _ => .error .waits
      else .ok { resolver with main := .idle, started := false }
  | _ => .error .elsewhere

/-- `recv` in `asyncaddrinfo_main`; at the end of the file the thread ends. -/
def take (i : Nat) (resolver : Resolver α Addrs) : Except Stop (Resolver α Addrs) :=
  match resolver.workers i with
  | .receiving fd => do
      let (message, resolver) ← resolver.recv fd
      match message with
      | some res => do
          let resolution ← resolver.load res
          return (resolver.goes i (.took fd res)).reach resolution.call (.took i)
      | none => do
          let resolver ← resolver.close (some fd)
          return resolver.goes i .ended
  | _ => .error .elsewhere

/-- `getaddrinfo`; `return_fd` is taken out of the request. -/
def lookUp (i : Nat) (answer : Answer Addrs) (resolver : Resolver α Addrs) :
    Except Stop (Resolver α Addrs) :=
  match resolver.workers i with
  | .took fd res => do
      let resolution ← resolver.load res
      let resolver := { resolver with
        memory := Function.update resolver.memory res
          (some { resolution with answer := some answer, returnFd := none })
        history := { resolver.history with
          lookups := resolver.history.lookups ++ [(resolution.call, answer)] } }
      return (resolver.goes i (.answered fd res resolution.returnFd)).reach resolution.call
        (.answered i)
  | _ => .error .elsewhere

/-- `send` in `asyncaddrinfo_main`. -/
def reply (i : Nat) (resolver : Resolver α Addrs) : Except Stop (Resolver α Addrs) :=
  match resolver.workers i with
  | .answered fd res returnFd => do
      let resolution ← resolver.load res
      let resolver ← resolver.send returnFd res
      let resolver := { resolver with history := { resolver.history with
        replies := resolver.history.replies ++ [resolution.call] } }
      return (resolver.goes i (.replied fd returnFd)).reach resolution.call (.replied resolution.call)
  | _ => .error .elsewhere

/-- `close` in `asyncaddrinfo_main`. -/
def closeReply (i : Nat) (resolver : Resolver α Addrs) : Except Stop (Resolver α Addrs) :=
  match resolver.workers i with
  | .replied fd returnFd => do
      let resolver ← resolver.close returnFd
      return resolver.goes i (.receiving fd)
  | _ => .error .elsewhere

/-! ## Runs -/

/-- The steps of the main thread, and those of the workers. -/
inductive Action (α Addrs : Type)
  | prepare (query : Query) (fd fd1 : Nat) (res : α)
  | enqueue
  | receive (fd : Nat)
  | finish
  | cleanup
  | join
  | take (i : Nat)
  | lookUp (i : Nat) (answer : Answer Addrs)
  | reply (i : Nat)
  | closeReply (i : Nat)

/-- One step. -/
def Action.run (resolver : Resolver α Addrs) :
    Action α Addrs → Except Stop (Resolver α Addrs)
  | .prepare query fd fd1 res => resolver.prepare query fd fd1 res
  | .enqueue => resolver.enqueue
  | .receive fd => resolver.receive fd
  | .finish => resolver.finish
  | .cleanup => resolver.cleanup
  | .join => resolver.join
  | .take i => resolver.take i
  | .lookUp i answer => resolver.lookUp i answer
  | .reply i => resolver.reply i
  | .closeReply i => resolver.closeReply i

variable (lookup : Query → Answer Addrs → Prop)

/-- What the kernel and the library promise, and what the callers keep to: descriptors and memory
that are handed out were not in use, `getaddrinfo` leaves an answer for its arguments, calls come
before the cleanup, and results are read from descriptors that calls returned. -/
def Action.Possible (resolver : Resolver α Addrs) : Action α Addrs → Prop
  | .prepare _ fd fd1 res => resolver.started = true ∧ resolver.fds.get fd = none ∧
      resolver.fds.get fd1 = none ∧ fd ≠ fd1 ∧ resolver.memory res = none
  | .receive fd => ∃ call, resolver.fds.get fd = some ⟨.result call, .read⟩
  | .cleanup => resolver.started = true
  | .lookUp i answer => ∀ fd res, resolver.workers i = .took fd res →
      ∀ resolution, resolver.memory res = some resolution → lookup resolution.query answer
  | _ => True

/-- A step that is possible. -/
def step (resolver : Resolver α Addrs) (action : Action α Addrs) (next : Resolver α Addrs) : Prop :=
  action.Possible lookup resolver ∧ action.run resolver = .ok next

end Resolver

end Adsbus

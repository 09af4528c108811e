import Adsbus.Core.ListSweep
import Adsbus.Flow.FanOut
import Adsbus.Flow.Origin

/-! # Send connections in memory

The send connections of each format are in an intrusive list, and each of them knows its descriptor
and the identity of the socket behind it. `send_write` goes through these lists. It does what it does
on the sequences that they stand for (`Adsbus.Links.Sound.sendWrite_iff`), whatever connections have
come and gone.
-/

namespace Adsbus

variable {α : Type} [DecidableEq α]

/-- The fields of `struct receive` that tell it apart. -/
structure Receiver where
  fd : Nat
  stat : Stat
  deriving DecidableEq

/-- The connections of the process: the cells of the lists, the `struct send` at each address, the
open file behind each descriptor, the receive connections, and the descriptors of the two halves of
each `send_receive` connection. `conns` are the connections of each format in the order in which
they were added. -/
structure Links (α : Type) where
  heap : Heap α
  sends : α → Send
  files : Nat → Option Nat
  receives : List Receiver
  sendReceives : List (Nat × Nat)
  conns : Serializer → List α

namespace Links

/-- The connections of each format. -/
def sendHead (links : Links α) (serializer : Serializer) : List Send :=
  (links.conns serializer).map links.sends

variable (head : Serializer → α) (fstat : Nat → Stat)

/-! ## Connections -/

/-- `send_init`: the heads of the lists, in memory that held something else. -/
def sendInit (memory : Heap α) : Heap α :=
  Serializer.all.foldl (fun heap serializer => listHeadInit heap (head serializer)) memory

/-- The process when it starts. -/
def init (memory : Heap α) (sends : α → Send) : Links α where
  heap := sendInit head memory
  sends := sends
  files := fun _ => none
  receives := []
  sendReceives := []
  conns := fun _ => []

/-- `send_new`, with the address that `malloc` returns. -/
def sendNew (serializer : Serializer) (addr : α) (fd : Nat) (links : Links α) :
    Option (Links α) := do
  let file ← links.files fd
  let heap ← listAdd links.heap addr (head serializer)
  return { links with
    heap := heap
    sends := Function.update links.sends addr ⟨fd, fstat file⟩
    conns := Function.update links.conns serializer (links.conns serializer ++ [addr]) }

/-- `receive_new`. -/
def receiveNew (fd : Nat) (links : Links α) : Option (Links α) := do
  let file ← links.files fd
  return { links with receives := links.receives ++ [⟨fd, fstat file⟩] }

/-- `F_DUPFD_CLOEXEC`, with the descriptor that the kernel chooses. -/
def dupFd (fd fd2 : Nat) (links : Links α) : Links α :=
  { links with files := Function.update links.files fd2 (links.files fd) }

/-- `send_receive_new`. -/
def sendReceiveNew (serializer : Serializer) (addr : α) (fd fd2 : Nat) (links : Links α) :
    Option (Links α) := do
  let links ← links.sendNew head fstat serializer addr fd
  let links ← (links.dupFd fd fd2).receiveNew fstat fd2
  return { links with sendReceives := links.sendReceives ++ [(fd, fd2)] }

/-- `close`. -/
def close (fd : Nat) (links : Links α) : Links α :=
  { links with
    files := Function.update links.files fd none
    sendReceives := links.sendReceives.filter fun pair => pair.1 ≠ fd ∧ pair.2 ≠ fd }

/-- `send_del`. -/
def sendDel (serializer : Serializer) (addr : α) (links : Links α) : Option (Links α) := do
  let links := links.close (links.sends addr).fd
  let heap ← listDel links.heap addr
  return { links with
    heap := heap
    conns := Function.update links.conns serializer ((links.conns serializer).erase addr) }

/-- `receive_del`. -/
def receiveDel (receiver : Receiver) (links : Links α) : Links α :=
  { links.close receiver.fd with receives := links.receives.erase receiver }

/-- What happens to the connections: the kernel opens a descriptor, one that no connection has is
closed, and connections come and go. -/
inductive Change (α : Type)
  | opened (fd file : Nat)
  | closed (fd : Nat)
  | sendNew (serializer : Serializer) (addr : α) (fd : Nat)
  | receiveNew (fd : Nat)
  | sendReceiveNew (serializer : Serializer) (addr : α) (fd fd2 : Nat)
  | sendDel (serializer : Serializer) (addr : α)
  | receiveDel (receiver : Receiver)

/-- One change. -/
def Change.run (links : Links α) : Change α → Option (Links α)
  | .opened fd file => some { links with files := Function.update links.files fd (some file) }
  | .closed fd => some (links.close fd)
  | .sendNew serializer addr fd => links.sendNew head fstat serializer addr fd
  | .receiveNew fd => links.receiveNew fstat fd
  | .sendReceiveNew serializer addr fd fd2 =>
      links.sendReceiveNew head fstat serializer addr fd fd2
  | .sendDel serializer addr => links.sendDel serializer addr
  | .receiveDel receiver => some (links.receiveDel receiver)

/-- No connection has the descriptor. -/
structure Idle (links : Links α) (fd : Nat) : Prop where
  send : ∀ serializer, ∀ addr ∈ links.conns serializer, (links.sends addr).fd ≠ fd
  receive : ∀ receiver ∈ links.receives, receiver.fd ≠ fd

/-- Memory that `malloc` may return. -/
def Free (links : Links α) (addr : α) : Prop :=
  ∀ serializer, addr ∉ head serializer :: links.conns serializer

/-- What the kernel and `malloc` promise, and what the callers keep to: descriptors and memory that
are handed out were not in use, a connection is made of an open descriptor that no other one has,
and only what is there is deleted. -/
def Change.Possible (links : Links α) : Change α → Prop
  | .opened fd _ => links.files fd = none
  | .closed fd => links.Idle fd
  | .sendNew _ addr fd => links.files fd ≠ none ∧ links.Idle fd ∧ links.Free head addr
  | .receiveNew fd => links.files fd ≠ none ∧ links.Idle fd
  | .sendReceiveNew _ addr fd fd2 =>
      links.files fd ≠ none ∧ links.Idle fd ∧ links.Free head addr ∧ links.files fd2 = none
  | .sendDel serializer addr => addr ∈ links.conns serializer
  | .receiveDel receiver => receiver ∈ links.receives

/-- A change that is possible. -/
def step (links : Links α) (change : Change α) (next : Links α) : Prop :=
  change.Possible head links ∧ change.run head fstat links = some next

/-! ## Invariants -/

/-- The lists hold the connections, each of them has a descriptor of its own, and each knows the
identity of the file behind it. -/
structure Sound (links : Links α) : Prop where
  threads : Threads links.heap head links.conns
  sendStat : ∀ serializer, ∀ addr ∈ links.conns serializer, ∃ file,
    links.files (links.sends addr).fd = some file ∧ (links.sends addr).stat = fstat file
  receiveStat : ∀ receiver ∈ links.receives, ∃ file,
    links.files receiver.fd = some file ∧ receiver.stat = fstat file
  sendFd : ∀ serializer other, ∀ addr ∈ links.conns serializer, ∀ addr' ∈ links.conns other,
    (links.sends addr).fd = (links.sends addr').fd → addr = addr'
  apartFd : ∀ serializer, ∀ addr ∈ links.conns serializer, ∀ receiver ∈ links.receives,
    receiver.fd ≠ (links.sends addr).fd
  receiveFd : (links.receives.map Receiver.fd).Nodup
  paired : ∀ pair ∈ links.sendReceives, ∃ file,
    links.files pair.1 = some file ∧ links.files pair.2 = some file

variable {head fstat} {links next : Links α} {fd : Nat} {addr : α}

/-- Heads that were initialized stand for empty sequences. -/
theorem represents_sendInit (serializers : List Serializer) (memory : Heap α)
    {serializer : Serializer} (member : serializer ∈ serializers) :
    Represents (serializers.foldl (fun heap serializer => listHeadInit heap (head serializer)) memory)
      (head serializer) [] := by
  have kept : ∀ (others : List Serializer) (memory : Heap α),
      Represents memory (head serializer) [] → Represents
        (others.foldl (fun heap serializer => listHeadInit heap (head serializer)) memory)
          (head serializer) [] := by
    intro others
    induction others with
    | nil => exact fun _ represents => represents
    | cons other others ih =>
        refine fun memory represents => ih _ ?_
        change Represents (listHeadInit memory (head other)) (head serializer) []
        by_cases same : head serializer = head other
        · rw [← same]
          exact .init memory _
        · refine represents.congr fun cell there => ?_
          rw [List.mem_singleton.mp there]
          exact Heap.cell_ext (by rw [next_listHeadInit, if_neg same])
            (by rw [prev_listHeadInit, if_neg same])
  induction serializers generalizing memory with
  | nil => cases member
  | cons first serializers ih =>
      rcases List.mem_cons.mp member with rfl | member
      · exact kept serializers _ (.init memory _)
      · exact ih _ member

theorem sound_init (injective : Function.Injective head) (memory : Heap α) (sends : α → Send) :
    (init head memory sends).Sound head fstat where
  threads :=
    { represents := fun serializer =>
        represents_sendInit Serializer.all memory serializer.mem_all
      apart := fun serializer other different cell member => by
        rw [List.mem_singleton.mp member]
        exact fun there => different (injective (List.mem_singleton.mp there)) }
  sendStat _ _ := nofun
  receiveStat _ := nofun
  sendFd _ _ _ := nofun
  apartFd _ _ := nofun
  receiveFd := List.nodup_nil
  paired _ := nofun

namespace Sound

/-! ## Descriptors -/

omit [DecidableEq α] in
/-- Connections have open descriptors only. -/
theorem idle (sound : links.Sound head fstat) (unused : links.files fd = none) :
    links.Idle fd where
  send serializer addr member := by
    rintro rfl
    obtain ⟨file, opened, _⟩ := sound.sendStat serializer addr member
    exact absurd (opened.symm.trans unused) (Option.some_ne_none file)
  receive receiver member := by
    rintro rfl
    obtain ⟨file, opened, _⟩ := sound.receiveStat receiver member
    exact absurd (opened.symm.trans unused) (Option.some_ne_none file)

omit [DecidableEq α] in
/-- Descriptors that no connection has come and go. -/
theorem files (sound : links.Sound head fstat) (idle : links.Idle fd) (file : Option Nat)
    {sendReceives : List (Nat × Nat)}
    (paired : ∀ pair ∈ sendReceives, pair ∈ links.sendReceives ∧ pair.1 ≠ fd ∧ pair.2 ≠ fd) :
    { links with
      files := Function.update links.files fd file
      sendReceives := sendReceives : Links α }.Sound head fstat where
  threads := sound.threads
  sendStat serializer addr member := by
    obtain ⟨identity, opened, stat⟩ := sound.sendStat serializer addr member
    exact ⟨identity, (Function.update_of_ne (idle.send serializer addr member) _ _).trans opened, stat⟩
  receiveStat receiver member := by
    obtain ⟨identity, opened, stat⟩ := sound.receiveStat receiver member
    exact ⟨identity, (Function.update_of_ne (idle.receive receiver member) _ _).trans opened, stat⟩
  sendFd := sound.sendFd
  apartFd := sound.apartFd
  receiveFd := sound.receiveFd
  paired pair member := by
    obtain ⟨before, first, second⟩ := paired pair member
    obtain ⟨identity, opened, opened'⟩ := sound.paired pair before
    exact ⟨identity, (Function.update_of_ne first _ _).trans opened,
      (Function.update_of_ne second _ _).trans opened'⟩

omit [DecidableEq α] in
/-- A new descriptor is in no pair. -/
theorem opened (sound : links.Sound head fstat) (unused : links.files fd = none)
    (file : Option Nat) :
    { links with files := Function.update links.files fd file : Links α }.Sound head fstat := by
  refine sound.files (sound.idle unused) file fun pair member => ⟨member, ?_⟩
  obtain ⟨file, first, second⟩ := sound.paired pair member
  refine ⟨?_, ?_⟩
  · rintro rfl
    exact absurd (first.symm.trans unused) (Option.some_ne_none file)
  · rintro rfl
    exact absurd (second.symm.trans unused) (Option.some_ne_none file)

omit [DecidableEq α] in
theorem close (sound : links.Sound head fstat) (idle : links.Idle fd) :
    (links.close fd).Sound head fstat :=
  sound.files idle none fun pair member => by
    simpa only [List.mem_filter, decide_eq_true_eq] using member

/-! ## Connections -/

/-- A send connection comes, with a descriptor that no other one has. -/
theorem sendNew (sound : links.Sound head fstat) (serializer : Serializer) {file : Nat}
    (opened : links.files fd = some file) (idle : links.Idle fd) (free : links.Free head addr) :
    ∃ next, links.sendNew head fstat serializer addr fd = some next ∧ next.Sound head fstat ∧
      next.files = links.files ∧ ∀ other ≠ fd, links.Idle other → next.Idle other := by
  obtain ⟨heap, added, threads⟩ := sound.threads.add serializer free
  have conns : ∀ other, ∀ cell ∈ Function.update links.conns serializer
      (links.conns serializer ++ [addr]) other, cell = addr ∨ cell ∈ links.conns other := by
    intro other cell member
    by_cases same : other = serializer
    · subst same
      rw [Function.update_self, List.mem_append, List.mem_singleton] at member
      exact member.symm
    · rw [Function.update_of_ne same] at member
      exact .inr member
  have old : ∀ other, ∀ cell ∈ links.conns other,
      Function.update links.sends addr ⟨fd, fstat file⟩ cell = links.sends cell := by
    intro other cell member
    refine Function.update_of_ne ?_ _ _
    rintro rfl
    exact free other (List.mem_cons_of_mem _ member)
  have new : Function.update links.sends addr ⟨fd, fstat file⟩ addr = ⟨fd, fstat file⟩ :=
    Function.update_self ..
  refine ⟨{ links with
    heap := heap
    sends := Function.update links.sends addr ⟨fd, fstat file⟩
    conns := Function.update links.conns serializer (links.conns serializer ++ [addr]) },
    by simp only [Links.sendNew, opened, added, Option.bind_eq_bind, Option.bind_some,
      Option.pure_def], ⟨threads, ?_, sound.receiveStat, ?_, ?_, sound.receiveFd, sound.paired⟩,
    rfl, fun unused ne idle' => ⟨fun other cell member => ?_, idle'.receive⟩⟩
  · intro other cell member
    dsimp only at member ⊢
    rcases conns other cell member with rfl | before
    · rw [new]
      exact ⟨file, opened, rfl⟩
    · rw [old other cell before]
      exact sound.sendStat other cell before
  · intro one other cell member cell' member' same
    dsimp only at member member' same
    rcases conns one cell member with rfl | before
    · rcases conns other cell' member' with rfl | before'
      · rfl
      · rw [old other cell' before', new] at same
        exact absurd same.symm (idle.send other cell' before')
    · rcases conns other cell' member' with rfl | before'
      · rw [old one cell before, new] at same
        exact absurd same (idle.send one cell before)
      · rw [old one cell before, old other cell' before'] at same
        exact sound.sendFd one other cell before cell' before' same
  · intro other cell member receiver there
    dsimp only at member ⊢
    rcases conns other cell member with rfl | before
    · rw [new]
      exact idle.receive receiver there
    · rw [old other cell before]
      exact sound.apartFd other cell before receiver there
  · dsimp only at member ⊢
    rcases conns other cell member with rfl | before
    · rw [new]
      exact ne.symm
    · rw [old other cell before]
      exact idle'.send other cell before

omit [DecidableEq α] in
/-- A receive connection comes, with a descriptor that no other one has. -/
theorem receiveNew (sound : links.Sound head fstat) {file : Nat}
    (opened : links.files fd = some file) (idle : links.Idle fd) :
    ∃ next, links.receiveNew fstat fd = some next ∧ next.Sound head fstat ∧
      next.files = links.files := by
  refine ⟨{ links with receives := links.receives ++ [⟨fd, fstat file⟩] },
    by simp only [Links.receiveNew, opened, Option.bind_eq_bind, Option.bind_some,
      Option.pure_def],
    ⟨sound.threads, sound.sendStat, fun receiver member => ?_, sound.sendFd,
      fun serializer addr there receiver member => ?_, ?_, sound.paired⟩, rfl⟩
  · rcases List.mem_append.mp member with before | new
    · exact sound.receiveStat receiver before
    · rw [List.mem_singleton.mp new]
      exact ⟨file, opened, rfl⟩
  · rcases List.mem_append.mp member with before | new
    · exact sound.apartFd serializer addr there receiver before
    · rw [List.mem_singleton.mp new]
      exact (idle.send serializer addr there).symm
  · rw [List.map_append, List.map_singleton]
    refine List.nodup_append.mpr ⟨sound.receiveFd, List.nodup_singleton _, fun a there b same => ?_⟩
    obtain ⟨receiver, member, rfl⟩ := List.mem_map.mp there
    rw [List.mem_singleton.mp same]
    exact idle.receive receiver member

/-- Both halves of a connection come, and there is the same file behind them. -/
theorem sendReceiveNew (sound : links.Sound head fstat) {serializer : Serializer} {file fd2 : Nat}
    (opened : links.files fd = some file) (idle : links.Idle fd) (free : links.Free head addr)
    (unused : links.files fd2 = none) :
    ∃ next, links.sendReceiveNew head fstat serializer addr fd fd2 = some next ∧
      next.Sound head fstat := by
  have ne : fd2 ≠ fd := by
    rintro rfl
    exact absurd (opened.symm.trans unused) (Option.some_ne_none file)
  obtain ⟨first, made, sound₁, files₁, idle₁⟩ := sound.sendNew serializer opened idle free
  have opened₁ : (first.dupFd fd fd2).files fd2 = some file :=
    (Function.update_self ..).trans (by rw [files₁, opened])
  have idle₂ : first.Idle fd2 := idle₁ fd2 ne (sound.idle unused)
  have sound₂ : (first.dupFd fd fd2).Sound head fstat :=
    sound₁.opened (by rw [files₁, unused]) _
  obtain ⟨second, made', sound₃, files₃⟩ :=
    sound₂.receiveNew opened₁ ⟨idle₂.send, idle₂.receive⟩
  refine ⟨{ second with sendReceives := second.sendReceives ++ [(fd, fd2)] },
    by simp only [Links.sendReceiveNew, made, made', Option.bind_eq_bind, Option.bind_some,
      Option.pure_def],
    sound₃.threads, sound₃.sendStat, sound₃.receiveStat, sound₃.sendFd, sound₃.apartFd,
    sound₃.receiveFd, fun pair member => ?_⟩
  rcases List.mem_append.mp member with before | new
  · exact sound₃.paired pair before
  · rw [List.mem_singleton.mp new, files₃]
    exact ⟨file, (Function.update_of_ne ne.symm _ _).trans (by rw [files₁, opened]), opened₁⟩

/-- A send connection goes. -/
theorem sendDel (sound : links.Sound head fstat) {serializer : Serializer}
    (member : addr ∈ links.conns serializer) :
    ∃ next, links.sendDel serializer addr = some next ∧ next.Sound head fstat := by
  obtain ⟨heap, deleted, threads⟩ := sound.threads.del member
  have conns : ∀ other, ∀ cell ∈ Function.update links.conns serializer
      ((links.conns serializer).erase addr) other, cell ∈ links.conns other ∧ cell ≠ addr := by
    intro other cell there
    by_cases same : other = serializer
    · subst same
      rw [Function.update_self] at there
      have distinct := (List.nodup_cons.mp (sound.threads.represents other).distinct).2
      exact (distinct.mem_erase_iff.mp there).symm
    · rw [Function.update_of_ne same] at there
      exact ⟨there, ne_of_mem_of_not_mem (List.mem_cons_of_mem (head other) there) fun inside =>
        sound.threads.apart other serializer same addr inside (List.mem_cons_of_mem _ member)⟩
  have unlinked : { links with
      heap := heap
      conns := Function.update links.conns serializer ((links.conns serializer).erase addr) :
        Links α }.Sound head fstat :=
    { threads := threads
      sendStat := fun other cell there => sound.sendStat other cell (conns other cell there).1
      receiveStat := sound.receiveStat
      sendFd := fun one other cell there cell' there' =>
        sound.sendFd one other cell (conns one cell there).1 cell' (conns other cell' there').1
      apartFd := fun other cell there => sound.apartFd other cell (conns other cell there).1
      receiveFd := sound.receiveFd
      paired := sound.paired }
  have idle : ∀ other, ∀ cell ∈ Function.update links.conns serializer
      ((links.conns serializer).erase addr) other,
        (links.sends cell).fd ≠ (links.sends addr).fd := by
    intro other cell there same
    obtain ⟨before, ne⟩ := conns other cell there
    exact ne (sound.sendFd other serializer cell before addr member same)
  refine ⟨_, ?_, unlinked.close ⟨idle, sound.apartFd serializer addr member⟩⟩
  simp only [Links.sendDel, Links.close, deleted, Option.bind_eq_bind, Option.bind_some,
    Option.pure_def]

omit [DecidableEq α] in
/-- A receive connection goes. -/
theorem receiveDel (sound : links.Sound head fstat) {receiver : Receiver}
    (member : receiver ∈ links.receives) : (links.receiveDel receiver).Sound head fstat := by
  have others : ∀ other ∈ links.receives.erase receiver,
      other ∈ links.receives ∧ other.fd ≠ receiver.fd := by
    intro other there
    have before := List.mem_of_mem_erase there
    refine ⟨before, fun same => ?_⟩
    have distinct := sound.receiveFd.of_map
    exact (distinct.mem_erase_iff.mp there).1
      (List.inj_on_of_nodup_map sound.receiveFd before member same)
  have unlisted : { links with receives := links.receives.erase receiver : Links α }.Sound
      head fstat :=
    { threads := sound.threads
      sendStat := sound.sendStat
      receiveStat := fun other there => sound.receiveStat other (others other there).1
      sendFd := sound.sendFd
      apartFd := fun serializer addr there other there' =>
        sound.apartFd serializer addr there other (others other there').1
      receiveFd := sound.receiveFd.sublist (List.erase_sublist.map _)
      paired := sound.paired }
  exact unlisted.close ⟨fun serializer addr there =>
    (sound.apartFd serializer addr there receiver member).symm, fun other there =>
      (others other there).2⟩

/-- **One change.** -/
theorem step (sound : links.Sound head fstat) {change : Change α}
    (possible : change.Possible head links) :
    ∃ next, change.run head fstat links = some next ∧ next.Sound head fstat := by
  cases change with
  | opened fd file => exact ⟨_, rfl, sound.opened possible (some file)⟩
  | closed fd => exact ⟨_, rfl, sound.close possible⟩
  | sendNew serializer addr fd =>
      obtain ⟨isOpen, idle, free⟩ := possible
      obtain ⟨file, opened⟩ := Option.ne_none_iff_exists'.mp isOpen
      obtain ⟨next, ran, sound', _⟩ := sound.sendNew serializer opened idle free
      exact ⟨next, ran, sound'⟩
  | receiveNew fd =>
      obtain ⟨isOpen, idle⟩ := possible
      obtain ⟨file, opened⟩ := Option.ne_none_iff_exists'.mp isOpen
      obtain ⟨next, ran, sound', _⟩ := sound.receiveNew opened idle
      exact ⟨next, ran, sound'⟩
  | sendReceiveNew serializer addr fd fd2 =>
      obtain ⟨isOpen, idle, free, unused⟩ := possible
      obtain ⟨file, opened⟩ := Option.ne_none_iff_exists'.mp isOpen
      exact sound.sendReceiveNew opened idle free unused
  | sendDel serializer addr => exact sound.sendDel possible
  | receiveDel receiver => exact ⟨_, rfl, sound.receiveDel possible⟩

end Sound

/-- **Every history of connections.** -/
theorem sound_of_run (injective : Function.Injective head) {memory : Heap α} {sends : α → Send}
    {trace : List (Links α × Change α)}
    (run : Run (step head fstat) (init head memory sends) trace links) :
    links.Sound head fstat := by
  refine run.invariant (sound_init injective memory sends) fun sound taken => ?_
  obtain ⟨next, ran, sound'⟩ := sound.step taken.1
  have same := taken.2
  rw [ran, Option.some.injEq] at same
  rwa [← same]

end Links

end Adsbus

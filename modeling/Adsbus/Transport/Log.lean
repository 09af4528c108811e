import Adsbus.Core.Uuid
import Adsbus.Formats.Record
import Adsbus.Foundation.Lines

/-! # What others have logged

Two kinds of entries in the log hold text of others: what a command writes to its standard error,
line by line, and the id in the header of a server. The lines of a command stay lines of the log
(`Adsbus.Log.child_output_logged`). The id is logged as it comes, and only if none has a line feed
are the lines of the log its entries (`Adsbus.Log.log_lines`); a header adds whatever lines its
sender likes (`Adsbus.Log.log_forged`).
-/

namespace Adsbus.Log

/-- The line feed. -/
def lf : UInt8 := '\n'.toUInt8

/-- An access behind the bytes that were read, an assertion that fails, or a length that wraps. -/
inductive LogFault
  | bounds
  | eol
  | wrap
  | vfprintf
  | turns
  deriving DecidableEq, Repr

/-! ## The output of commands -/

/-- `memchr` for a line feed. -/
def memchr (linebuf : Bytes) (iter len : Nat) : Except LogFault (Option Nat) :=
  if iter + len ≤ linebuf.length then
    .ok ((((linebuf.drop iter).take len).findIdx? (· = lf)).map (iter + ·))
  else .error .bounds

/-- The text that `(child output) %.*s` makes of bytes in the buffer. -/
def childText (linebuf : Bytes) (iter len : Nat) : Except LogFault Bytes :=
  if iter + len ≤ linebuf.length then
    .ok (ascii "(child output) " ++ ((linebuf.drop iter).take len).takeWhile (· ≠ 0))
  else .error .bounds

/-- The loop of `exec_log_handler`, and what is left behind it, with the texts that are logged. -/
def execLogLoop (linebuf : Bytes) : (turns iter len : Nat) → Except LogFault (List Bytes)
  | 0, _, _ => .error .turns
  | turns + 1, iter, len => do
      match ← memchr linebuf iter len with
      | some eol =>
          if eol < iter then .error .eol
          else do
            let linelen := eol - iter
            let text ← childText linebuf iter linelen
            if len < linelen + 1 then .error .wrap
            else do
              let texts ← execLogLoop linebuf turns (iter + (linelen + 1)) (len - (linelen + 1))
              return text :: texts
      | none =>
          if len ≠ 0 then do
            let text ← childText linebuf iter len
            return [text]
          else return []

/-- The texts that `exec_log_handler` logs behind a `read`; none is read at the end or on an
error. -/
def execLogHandler (read : Bytes) : Except LogFault (List Bytes) :=
  if read = [] then .ok [ascii "Log input stream closed"]
  else execLogLoop read (read.length + 1) 0 read.length

/-- The text for a line. -/
def childLine (line : Bytes) : Bytes := ascii "(child output) " ++ line.takeWhile (· ≠ 0)

/-- What is behind some place in the buffer. -/
theorem take_drop_all {linebuf : Bytes} {iter len : Nat} (inside : iter + len = linebuf.length) :
    (linebuf.drop iter).take len = linebuf.drop iter :=
  List.take_of_length_le (by rw [List.length_drop]; omega)

theorem memchr_eq {linebuf : Bytes} {iter len : Nat} (inside : iter + len = linebuf.length) :
    memchr linebuf iter len =
      .ok (((linebuf.drop iter).findIdx? (· = lf)).map (iter + ·)) := by
  rw [memchr, if_pos (by omega), take_drop_all inside]

theorem memchr_line {linebuf line rest : Bytes} {iter len : Nat}
    (inside : iter + len = linebuf.length) (behind : linebuf.drop iter = line ++ lf :: rest)
    (bare : lf ∉ line) : memchr linebuf iter len = .ok (some (iter + line.length)) := by
  have found : (line ++ lf :: rest).findIdx? (· = lf) = some line.length := by
    rw [List.findIdx?_append, List.findIdx?_eq_none_iff.mpr, List.findIdx?_cons,
      if_pos (decide_eq_true rfl)]
    · simp only [Option.map_some, Nat.zero_add, Option.none_or]
    · intro byte member
      refine decide_eq_false ?_
      rintro rfl
      exact bare member
  rw [memchr_eq inside, behind, found, Option.map_some]

theorem memchr_rest {linebuf : Bytes} {iter len : Nat}
    (inside : iter + len = linebuf.length) (bare : lf ∉ linebuf.drop iter) :
    memchr linebuf iter len = .ok none := by
  rw [memchr_eq inside, List.findIdx?_eq_none_iff.mpr, Option.map_none]
  intro byte member
  refine decide_eq_false ?_
  rintro rfl
  exact bare member

theorem childText_eq {linebuf : Bytes} {iter len : Nat} (inside : iter + len ≤ linebuf.length) :
    childText linebuf iter len = .ok (childLine ((linebuf.drop iter).take len)) :=
  if_pos inside

/-- **What the loop logs.** From any place on in the buffer: the lines that are there. No turn
reads behind the bytes, and `len` never wraps. -/
theorem execLogLoop_eq {linebuf : Bytes} {turns iter len : Nat}
    (inside : iter + len = linebuf.length) (enough : len < turns) :
    execLogLoop linebuf turns iter len =
      .ok ((Lines.lines lf (linebuf.drop iter)).map childLine) := by
  induction turns generalizing iter len with
  | zero => exact absurd enough (Nat.not_lt_zero len)
  | succ turns ih =>
      have size : (linebuf.drop iter).length = len := by
        rw [List.length_drop]
        omega
      rw [execLogLoop]
      rcases @Lines.exists_line _ lf _ (linebuf.drop iter) with
        empty | ⟨nonempty, bare⟩ | ⟨line, rest, behind, bare⟩
      · have none : len = 0 := by rw [← size, empty, List.length_nil]
        rw [memchr_rest inside (by rw [empty]; exact List.not_mem_nil), empty]
        simp only [bind, Except.bind, none, ne_eq, not_true_eq_false, if_false]
        rfl
      · have some : len ≠ 0 := by rwa [← size, ne_eq, List.length_eq_zero_iff]
        rw [memchr_rest inside bare, Lines.lines_rest bare nonempty]
        simp only [bind, Except.bind, if_pos some, childText_eq (Nat.le_of_eq inside),
          take_drop_all inside]
        rfl
      · have parts : len = line.length + (rest.length + 1) := by
          rw [← size, behind, List.length_append, List.length_cons]
        have next : linebuf.drop (iter + (line.length + 1)) = rest := by
          rw [← List.drop_drop, behind, ← List.singleton_append, ← List.append_assoc]
          exact List.drop_left' (by rw [List.length_append, List.length_singleton])
        have text : childText linebuf iter line.length = .ok (childLine line) := by
          rw [childText_eq (by omega), behind, List.take_left]
        rw [memchr_line inside behind bare, behind, Lines.lines_line bare]
        simp only [bind, Except.bind, Nat.add_sub_cancel_left, text,
          if_neg (Nat.not_lt.mpr (Nat.le_add_right iter line.length)),
          if_neg (show ¬ len < line.length + 1 by omega)]
        rw [ih (by omega) (by omega), next]
        rfl

theorem execLogHandler_eq {read : Bytes} (some : read ≠ []) :
    execLogHandler read = .ok ((Lines.lines lf read).map childLine) := by
  rw [execLogHandler, if_neg some]
  exact execLogLoop_eq (Nat.zero_add _) (Nat.lt_succ_self _)

theorem lf_not_mem_childLine {line : Bytes} (bare : lf ∉ line) : lf ∉ childLine line := by
  rw [childLine, List.mem_append, not_or]
  exact ⟨by decide, fun member => bare (List.takeWhile_subset _ member)⟩

theorem childLine_eq {line : Bytes} (noNul : 0 ∉ line) :
    childLine line = ascii "(child output) " ++ line := by
  have all : line.takeWhile (· ≠ 0) = line := by
    refine List.takeWhile_eq_self_iff.mpr fun byte member => decide_eq_true ?_
    rintro rfl
    exact noNul member
  rw [childLine, all]

theorem mapM_execLogHandler {reads : List Bytes} (some : ∀ read ∈ reads, read ≠ []) :
    reads.mapM execLogHandler =
      .ok (reads.map fun read => (Lines.lines lf read).map childLine) := by
  induction reads with
  | nil => rfl
  | cons read reads ih =>
      obtain ⟨here, later⟩ := List.forall_mem_cons.mp some
      rw [List.mapM_cons, execLogHandler_eq here, ih later]
      rfl

/-- **The output of a command.** However it is cut into reads, every byte of it is looked at within
the bytes that were read, and what is logged for a read are its lines, up to a nul in each. No text
has a line feed; without nuls, the texts hold all the output but its line feeds; and if each read
but the last ends a line, the lines are those of the output. -/
theorem child_output_logged (reads : List Bytes) (last : Bytes)
    (some : ∀ read ∈ reads ++ [last], read ≠ []) :
    ∃ texts, (reads ++ [last]).mapM execLogHandler = .ok texts ∧
      texts.flatten = ((reads ++ [last]).flatMap (Lines.lines lf)).map childLine ∧
      (∀ text ∈ texts.flatten, lf ∉ text) ∧
      ((∀ read ∈ reads ++ [last], 0 ∉ read) →
        texts.flatten.flatMap (·.drop (ascii "(child output) ").length) =
          (reads ++ [last]).flatten.filter (· ≠ lf)) ∧
      ((∀ read ∈ reads, Lines.Closed lf read) →
        texts.flatten = (Lines.lines lf (reads ++ [last]).flatten).map childLine) := by
  have texts : ((reads ++ [last]).map fun read => (Lines.lines lf read).map childLine).flatten =
      ((reads ++ [last]).flatMap (Lines.lines lf)).map childLine := by
    rw [List.map_flatMap, List.flatMap_def]
  refine ⟨_, mapM_execLogHandler some, texts, ?_, ?_, ?_⟩
  · rw [texts]
    intro text member
    obtain ⟨line, among, rfl⟩ := List.mem_map.mp member
    obtain ⟨read, _, inside⟩ := List.mem_flatMap.mp among
    exact lf_not_mem_childLine (Lines.not_mem_of_mem_lines inside)
  · intro noNul
    rw [texts, List.flatMap_map]
    generalize reads ++ [last] = reads at noNul
    clear texts some
    induction reads with
    | nil => rfl
    | cons read reads ih =>
        obtain ⟨here, later⟩ := List.forall_mem_cons.mp noNul
        have kept : ∀ line ∈ Lines.lines lf read,
            (childLine line).drop (ascii "(child output) ").length = line := by
          intro line member
          rw [childLine_eq, List.drop_left]
          intro nul
          have there : 0 ∈ (Lines.lines lf read).flatten :=
            List.mem_flatten.mpr ⟨line, member, nul⟩
          rw [Lines.flatten_lines] at there
          exact here (List.mem_of_mem_filter there)
        rw [List.flatMap_cons, List.flatMap_append, ih later, List.flatten_cons, List.filter_append,
          List.flatMap_congr kept, List.flatMap_id', @Lines.flatten_lines _ lf _ read]
  · intro closed
    rw [texts, Lines.lines_flatten closed]

/-- A command writes two lines and a half, and is read twice. -/
theorem child_output_logged_two :
    ∃ texts, ([ascii "a\n"] ++ [ascii "b\nc"]).mapM execLogHandler = .ok texts ∧
      texts.flatten =
        [ascii "(child output) a", ascii "(child output) b", ascii "(child output) c"] ∧
      ∀ text ∈ texts.flatten, lf ∉ text := by
  obtain ⟨texts, logged, _, bare, _, whole⟩ :=
    child_output_logged [ascii "a\n"] (ascii "b\nc") (by decide)
  have closed : ∀ read ∈ [ascii "a\n"], Lines.Closed lf read := by
    refine List.forall_mem_singleton.mpr (.inr ⟨ascii "a", ?_⟩)
    decide
  refine ⟨texts, logged, (whole closed).trans ?_, bare⟩
  decide

/-! ## The log -/

/-- What stands before the text of an entry. -/
structure Site where
  datetime : Bytes
  loc : Bytes
  type : UInt8
  id : Bytes
  bare : lf ∉ datetime ++ loc ++ [type] ++ id

/-- `%18s`. -/
def padLeft (width : Nat) (text : Bytes) : Bytes :=
  List.replicate (width - text.length) ' '.toUInt8 ++ text

/-- `%s[%18s] %c %s: `. -/
def Site.start (site : Site) : Bytes :=
  site.datetime ++ ascii "[" ++ padLeft 18 site.loc ++ ascii "] " ++ [site.type] ++ ascii " " ++
    site.id ++ ascii ": "

/-- A call of `LOG`, and the text that its format makes. -/
structure Call where
  site : Site
  text : Bytes

/-- The entry for a call. -/
def Call.entry (call : Call) : Bytes := call.site.start ++ call.text

/-- `log_write`, on what has been written. -/
def logWrite (quiet : Bool) (log : Bytes) (call : Call) : Except LogFault Bytes :=
  if quiet then .ok log
  else if call.text = [] then .error .vfprintf
  else .ok (log ++ call.site.start ++ call.text ++ [lf])

/-- The text behind a header of another server. -/
def connectedText (header : AdsbHeader) : Bytes :=
  ascii "Connected to server ID: " ++ header.serverId.bytes

/-- What is logged of others: a read from what a command writes, or a header that is taken. -/
inductive Report (serverId : CString)
  | childOutput (read : Bytes)
  | connected (header : AdsbHeader) (accepted : header.Accepted serverId)

/-- The texts that are logged for it. -/
def Report.texts {serverId : CString} : Report serverId → Except LogFault (List Bytes)
  | .childOutput read => execLogHandler read
  | .connected header _ => .ok [connectedText header]

theorem Site.lf_not_mem_start (site : Site) : lf ∉ site.start := by
  have bare := site.bare
  have padding : lf ∉ List.replicate (18 - site.loc.length) ' '.toUInt8 := by
    intro member
    exact absurd (List.eq_of_mem_replicate member) (by decide)
  simp only [List.mem_append, not_or] at bare
  obtain ⟨⟨⟨datetime, loc⟩, type⟩, id⟩ := bare
  simp only [Site.start, padLeft, List.mem_append, not_or]
  exact ⟨⟨⟨⟨⟨⟨⟨datetime, by decide⟩, padding, loc⟩, by decide⟩, type⟩, by decide⟩, id⟩, by decide⟩

theorem Call.lf_mem_entry (call : Call) : lf ∈ call.entry ↔ lf ∈ call.text := by
  rw [Call.entry, List.mem_append, or_iff_right call.site.lf_not_mem_start]

theorem logWrite_eq (log : Bytes) {call : Call} (some : call.text ≠ []) :
    logWrite false log call = .ok (log ++ (call.entry ++ [lf])) := by
  rw [logWrite, if_neg Bool.false_ne_true, if_neg some, Call.entry, List.append_assoc,
    List.append_assoc, List.append_assoc]

/-- What is written are the entries, with a line feed behind each. -/
theorem foldlM_logWrite {calls : List Call} (some : ∀ call ∈ calls, call.text ≠ []) (log : Bytes) :
    calls.foldlM (logWrite false) log =
      .ok (log ++ (calls.map Call.entry).flatMap (· ++ [lf])) := by
  induction calls generalizing log with
  | nil => exact congrArg Except.ok (List.append_nil log).symm
  | cons call calls ih =>
      obtain ⟨here, later⟩ := List.forall_mem_cons.mp some
      rw [List.foldlM_cons, logWrite_eq log here, Except.ok_bind, ih later, List.map_cons,
        List.flatMap_cons, List.append_assoc]

theorem foldlM_quiet (calls : List Call) (log : Bytes) :
    calls.foldlM (logWrite true) log = .ok log := by
  induction calls with
  | nil => rfl
  | cons call calls ih => rw [List.foldlM_cons, logWrite, if_pos rfl, Except.ok_bind, ih]

theorem childLine_ne_nil (line : Bytes) : childLine line ≠ [] :=
  List.append_ne_nil_of_left_ne_nil (by decide) _

theorem connectedText_ne_nil (header : AdsbHeader) : connectedText header ≠ [] :=
  List.append_ne_nil_of_left_ne_nil (by decide) _

/-- The texts for a report: none is empty, and one has a line feed only if it is for an id with
one. -/
theorem Report.texts_eq {serverId : CString} (report : Report serverId) :
    ∃ texts, report.texts = .ok texts ∧ (∀ text ∈ texts, text ≠ []) ∧
      ((∀ text ∈ texts, lf ∉ text) ↔
        ∀ header accepted, report = .connected header accepted → lf ∉ header.serverId.bytes) := by
  cases report with
  | childOutput read =>
      have none : ∀ {texts : List Bytes}, (∀ text ∈ texts, lf ∉ text) →
          ((∀ text ∈ texts, lf ∉ text) ↔ ∀ header accepted,
            (Report.childOutput read : Report serverId) = .connected header accepted →
              lf ∉ header.serverId.bytes) :=
        fun bare => iff_of_true bare fun _ _ same => by cases same
      by_cases empty : read = []
      · refine ⟨_, if_pos empty, ?_, none ?_⟩
        · exact fun text member => by rw [List.mem_singleton.mp member]; decide
        · exact fun text member => by rw [List.mem_singleton.mp member]; decide
      · refine ⟨_, execLogHandler_eq empty, ?_, none ?_⟩
        · intro text member
          obtain ⟨line, _, rfl⟩ := List.mem_map.mp member
          exact childLine_ne_nil line
        · intro text member
          obtain ⟨line, among, rfl⟩ := List.mem_map.mp member
          exact lf_not_mem_childLine (Lines.not_mem_of_mem_lines among)
  | connected header accepted =>
      refine ⟨_, rfl, ?_, ?_⟩
      · exact fun text member => List.mem_singleton.mp member ▸ connectedText_ne_nil header
      · have text : lf ∈ connectedText header ↔ lf ∈ header.serverId.bytes := by
          rw [connectedText, List.mem_append, or_iff_right (by decide)]
        constructor
        · intro bare other accepted same
          cases same
          exact mt text.mpr (bare _ List.mem_cons_self)
        · intro bare text' member
          rw [List.mem_singleton.mp member]
          exact mt text.mp (bare header accepted rfl)

theorem mapM_texts {serverId : CString} (reports : List (Report serverId)) :
    ∃ texts, reports.mapM Report.texts = .ok texts ∧ (∀ text ∈ texts.flatten, text ≠ []) ∧
      ((∀ text ∈ texts.flatten, lf ∉ text) ↔ ∀ header accepted,
        .connected header accepted ∈ reports → lf ∉ header.serverId.bytes) := by
  induction reports with
  | nil =>
      exact ⟨[], rfl, fun _ member => absurd member List.not_mem_nil,
        iff_of_true (fun _ member => absurd member List.not_mem_nil)
          fun _ _ member => absurd member List.not_mem_nil⟩
  | cons report reports ih =>
      obtain ⟨here, made, some, bare⟩ := report.texts_eq
      obtain ⟨later, rest, others, bares⟩ := ih
      refine ⟨here :: later, ?_, ?_, ?_⟩
      · rw [List.mapM_cons, made, Except.ok_bind, rest]
        rfl
      · rw [List.flatten_cons, List.forall_mem_append]
        exact ⟨some, others⟩
      · rw [List.flatten_cons, List.forall_mem_append, bare, bares]
        constructor
        · rintro ⟨first, second⟩ header accepted member
          rcases List.mem_cons.mp member with same | member
          · exact first header accepted same.symm
          · exact second header accepted member
        · intro all
          exact ⟨fun header accepted same => all header accepted (same ▸ List.mem_cons_self),
            fun header accepted member => all header accepted (List.mem_cons_of_mem _ member)⟩

/-- A text for a line of its own. -/
structure Line where
  text : CString
  bare : lf ∉ text.bytes

/-- A header whose id goes on with these lines. -/
def forgedHeader (forged : List Line) : AdsbHeader where
  magic := protoMagic
  serverVersion := .ofAscii ""
  serverId := ⟨forged.flatMap fun line => lf :: line.text.bytes, by
    intro member
    obtain ⟨line, _, inside⟩ := List.mem_flatMap.mp member
    rcases List.mem_cons.mp inside with zero | inside
    · exact absurd zero (by decide)
    · exact line.text.noNul inside⟩
  mlatTimestampMhz := 1
  mlatTimestampMax := 1
  rssiMax := 1

/-- The own id has no line feed, and is not empty. -/
theorem forgedHeader_accepted (own : Cells UInt8 16) (forged : List Line) :
    (forgedHeader forged).Accepted (uuidGen own) where
  magic := rfl
  mhzPositive := show (1 : UInt32) ≠ 0 by decide
  mhzSmall := show (1 : UInt32) ≤ 0xffff by decide
  max := show (1 : UInt64) ≠ 0 by decide
  rssiMax := show (1 : UInt32) ≠ 0 by decide
  other := by
    obtain ⟨length, chars⟩ := uuidGen_bytes own
    intro same
    rw [← same] at length chars
    cases forged with
    | nil => cases length
    | cons line forged => exact absurd (chars lf List.mem_cons_self) (by decide)

/-- A place without a time. -/
def bareSite : Site where
  datetime := []
  loc := ascii "exec.c:117"
  type := 'X'.toUInt8
  id := ascii "id"
  bare := by decide

/-- What is logged of a line and a half of a command, and of a header with an empty id. -/
def threeCalls : List Call :=
  [⟨bareSite, ascii "(child output) a"⟩, ⟨bareSite, ascii "(child output) b"⟩,
    ⟨bareSite, ascii "Connected to server ID: "⟩]

end Adsbus.Log

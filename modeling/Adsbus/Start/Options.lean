import Adsbus.Flow.Send
import Adsbus.Foundation.Except
import Adsbus.Foundation.Getopt
import Adsbus.Transport.Peer

/-! # The command line

The options are read once for each part of the program that is set up from them, and each time only
the options of that part are handled. A line that is malformed is refused before anything is done
(`Adsbus.Options.options_outcome`); of any other one, each option is handled exactly once, part by
part. Which lines are accepted, and what they start, is a grammar
(`Adsbus.Options.options_configured`).
-/

namespace Adsbus.Options

open EventLoop (Flow)
open Getopt (Given Scan LongOption)

/-! ## What options do -/

/-- What an option starts, with the arguments of its `_new` function. -/
inductive Started
  | serverDetach
  | serverPidFile (path : Bytes)
  | outgoing (node service : Bytes) (flow : Flow) (passthrough : Option Serializer)
  | incoming (node : Option Bytes) (service : Bytes) (flow : Flow)
      (passthrough : Option Serializer)
  | exec (command : Bytes) (flow : Flow) (passthrough : Option Serializer)
  | file (path : Bytes) (flags : UInt32) (flow : Flow) (passthrough : Option Serializer)
  | stdin
  | stdout (serializer : Serializer)
  deriving DecidableEq, Repr

/-- What has been set up. -/
structure Setup where
  logPath : Option Bytes
  logTimestamps : Bool
  logQuiet : Bool
  started : List Started
  deriving DecidableEq

/-- Nothing has. -/
def setupInit : Setup := ⟨none, false, false, []⟩

/-- One thing more is started. -/
def Setup.start (setup : Setup) (started : Started) : Setup :=
  { setup with started := setup.started ++ [started] }

/-- Why the program exits: it has printed how it is used, for `--help` or for a malformed line, or
the value of an option is invalid, or a word is not a flag. -/
inductive Stop
  | help
  | usage
  | invalidValue (word : Bytes)
  | notFlag (word : Bytes)
  deriving DecidableEq, Repr

/-- `opts_handler`, whose result false is none. Those of options without an argument do not read
it. -/
abbrev Handler := Bytes → Setup → Except Stop (Option Setup)

/-- `opts_split`. -/
def optsSplit (arg : Bytes) (delim : Char) : Option (Bytes × Bytes) := Getopt.cut delim.toUInt8 arg

/-- `tolower` in the locale of C. -/
def toLower (c : UInt8) : UInt8 := if 'A'.toUInt8 ≤ c ∧ c ≤ 'Z'.toUInt8 then c + 32 else c

/-- The names of `serializers`. -/
def serializerName : Serializer → Bytes
  | .airspyAdsb => ascii "airspy_adsb"
  | .beast => ascii "beast"
  | .json => ascii "json"
  | .proto => ascii "proto"
  | .raw => ascii "raw"
  | .stats => ascii "stats"

/-- `send_get_serializer`, which compares by `strcasecmp`. -/
def sendGetSerializer (name : Bytes) : Option Serializer :=
  Serializer.all.find? fun serializer => (serializerName serializer).map toLower = name.map toLower

/-- `send_parse_format`, with the rest of the argument. -/
def sendParseFormat (arg : Bytes) : Option (Serializer × Bytes) :=
  match optsSplit arg '=' with
  | none => none
  | some (format, arg) => (sendGetSerializer format).map fun serializer => (serializer, arg)

/-- The functions that are given to `send_add`. -/
abbrev Add := Bytes → Flow → Option Serializer → Setup → Option Setup

/-- `send_add`. -/
def sendAdd (next : Add) (flow : Flow) (arg : Bytes) (setup : Setup) : Option Setup :=
  match sendParseFormat arg with
  | none => none
  | some (serializer, arg) => next arg flow (some serializer) setup

/-- `outgoing_add`. -/
def outgoingAdd : Add := fun hostPort flow passthrough setup =>
  match optsSplit hostPort '/' with
  | none => none
  | some (host, hostPort) => some (setup.start (.outgoing host hostPort flow passthrough))

/-- `incoming_add`. -/
def incomingAdd : Add := fun hostPort flow passthrough setup =>
  match optsSplit hostPort '/' with
  | some (host, hostPort) => some (setup.start (.incoming (some host) hostPort flow passthrough))
  | none => some (setup.start (.incoming none hostPort flow passthrough))

/-- `exec_add`. -/
def execAdd : Add := fun cmd flow passthrough setup =>
  some (setup.start (.exec cmd flow passthrough))

/-! ### Files -/

/-- The flags of `open`, on Linux. -/
def oRdonly : UInt32 := 0

def oWronly : UInt32 := 0x1

def oCreat : UInt32 := 0x40

def oTrunc : UInt32 := 0x200

def oNofollow : UInt32 := 0x20000

def fileReadNew (path : Bytes) (flow : Flow) (passthrough : Option Serializer) (setup : Setup) :
    Setup :=
  setup.start (.file path oRdonly flow passthrough)

def fileWriteNew (path : Bytes) (flow : Flow) (passthrough : Option Serializer) (setup : Setup) :
    Setup :=
  setup.start (.file path (oWronly ||| oCreat ||| oNofollow ||| oTrunc) flow passthrough)

def fileAppendNew (path : Bytes) (flow : Flow) (passthrough : Option Serializer) (setup : Setup) :
    Setup :=
  setup.start (.file path (oWronly ||| oCreat ||| oNofollow) flow passthrough)

def fileWriteAdd : Add := fun path flow passthrough setup =>
  some (fileWriteNew path flow passthrough setup)

def fileAppendAdd : Add := fun path flow passthrough setup =>
  some (fileAppendNew path flow passthrough setup)

/-! ### Handlers -/

def optsHelp : Handler := fun _ _ => .error .help

def logSetPath : Handler := fun path setup =>
  match setup.logPath with
  | some _ => .ok none
  | none => .ok (some { setup with logPath := some path })

def logEnableTimestamps : Handler := fun _ setup => .ok (some { setup with logTimestamps := true })

def logSetQuiet : Handler := fun _ setup => .ok (some { setup with logQuiet := true })

def serverDetach : Handler := fun _ setup => .ok (some (setup.start .serverDetach))

def serverPidFile : Handler := fun path setup => .ok (some (setup.start (.serverPidFile path)))

def outgoingConnectReceive : Handler := fun arg setup => .ok (outgoingAdd arg .receive none setup)

def outgoingConnectSend : Handler := fun arg setup => .ok (sendAdd outgoingAdd .send arg setup)

def outgoingConnectSendReceive : Handler := fun arg setup =>
  .ok (sendAdd outgoingAdd .sendReceive arg setup)

def incomingListenReceive : Handler := fun arg setup => .ok (incomingAdd arg .receive none setup)

def incomingListenSend : Handler := fun arg setup => .ok (sendAdd incomingAdd .send arg setup)

def incomingListenSendReceive : Handler := fun arg setup =>
  .ok (sendAdd incomingAdd .sendReceive arg setup)

def execReceive : Handler := fun arg setup => .ok (execAdd arg .receive none setup)

def execSend : Handler := fun arg setup => .ok (sendAdd execAdd .send arg setup)

def execSendReceive : Handler := fun arg setup => .ok (sendAdd execAdd .sendReceive arg setup)

def fileRead : Handler := fun arg setup => .ok (some (fileReadNew arg .receive none setup))

def fileWrite : Handler := fun arg setup => .ok (sendAdd fileWriteAdd .send arg setup)

def fileWriteRead : Handler := fun arg setup => .ok (sendAdd fileWriteAdd .sendReceive arg setup)

def fileAppend : Handler := fun arg setup => .ok (sendAdd fileAppendAdd .send arg setup)

def fileAppendRead : Handler := fun arg setup => .ok (sendAdd fileAppendAdd .sendReceive arg setup)

/-- A receive flow writes no greeting. -/
def stdinoutStdin : Handler := fun _ setup => .ok (some (setup.start .stdin))

/-- Whether a format has a greeting. -/
def hello : Serializer → Bool
  | .json | .proto => true
  | .airspyAdsb | .beast | .raw | .stats => false

/-- Whether a greeting can be written to standard output, when so many things have been started. -/
abbrev Greets := Nat → Bool

def stdinoutStdout (greets : Greets) : Handler := fun arg setup =>
  match sendGetSerializer arg with
  | none => .ok none
  | some serializer =>
      if hello serializer && !greets setup.started.length then .ok none
      else .ok (some (setup.start (.stdout serializer)))

/-! ## The table -/

/-- The groups, in the order in which `main` comes to them. -/
inductive Group
  | internal
  | log
  | server1
  | server2
  | outgoing
  | incoming
  | exec
  | file
  | stdinout
  deriving DecidableEq, Repr

/-- An entry of `opts` and `opts_long`. -/
structure Opt where
  name : Bytes
  argHelp : Option Bytes
  handler : Handler
  group : Group

/-- `opts_add`. -/
def optsAdd (name : Bytes) (argHelp : Option Bytes) (handler : Handler) (group : Group)
    (opts : List Opt) : List Opt :=
  opts ++ [⟨name, argHelp, handler, group⟩]

def serverOptsAdd (opts : List Opt) : List Opt :=
  opts |> optsAdd (ascii "detach") none serverDetach .server1
    |> optsAdd (ascii "pid-file") (ascii "PATH") serverPidFile .server2

def logOptsAdd (opts : List Opt) : List Opt :=
  opts |> optsAdd (ascii "log-file") (ascii "PATH") logSetPath .log
    |> optsAdd (ascii "log-timestamps") none logEnableTimestamps .log
    |> optsAdd (ascii "quiet") none logSetQuiet .log

def outgoingOptsAdd (opts : List Opt) : List Opt :=
  opts |> optsAdd (ascii "connect-receive") (ascii "HOST/PORT") outgoingConnectReceive .outgoing
    |> optsAdd (ascii "connect-send") (ascii "FORMAT=HOST/PORT") outgoingConnectSend .outgoing
    |> optsAdd (ascii "connect-send-receive") (ascii "FORMAT=HOST/PORT")
      outgoingConnectSendReceive .outgoing

def incomingOptsAdd (opts : List Opt) : List Opt :=
  opts |> optsAdd (ascii "listen-receive") (ascii "[HOST/]PORT") incomingListenReceive .incoming
    |> optsAdd (ascii "listen-send") (ascii "FORMAT=[HOST/]PORT") incomingListenSend .incoming
    |> optsAdd (ascii "listen-send-receive") (ascii "FORMAT=[HOST/]PORT")
      incomingListenSendReceive .incoming

def execOptsAdd (opts : List Opt) : List Opt :=
  opts |> optsAdd (ascii "exec-receive") (ascii "COMMAND") execReceive .exec
    |> optsAdd (ascii "exec-send") (ascii "FORMAT=COMMAND") execSend .exec
    |> optsAdd (ascii "exec-send-receive") (ascii "FORMAT=COMMAND") execSendReceive .exec

def fileOptsAdd (opts : List Opt) : List Opt :=
  opts |> optsAdd (ascii "file-read") (ascii "PATH") fileRead .file
    |> optsAdd (ascii "file-write") (ascii "FORMAT=PATH") fileWrite .file
    |> optsAdd (ascii "file-write-read") (ascii "FORMAT=PATH") fileWriteRead .file
    |> optsAdd (ascii "file-append") (ascii "FORMAT=PATH") fileAppend .file
    |> optsAdd (ascii "file-append-read") (ascii "FORMAT=PATH") fileAppendRead .file

def stdinoutOptsAdd (greets : Greets) (opts : List Opt) : List Opt :=
  opts |> optsAdd (ascii "stdin") none stdinoutStdin .stdinout
    |> optsAdd (ascii "stdout") (ascii "FORMAT") (stdinoutStdout greets) .stdinout

def adsbusOptsAdd (greets : Greets) (opts : List Opt) : List Opt :=
  opts |> serverOptsAdd |> logOptsAdd |> outgoingOptsAdd |> incomingOptsAdd |> execOptsAdd
    |> fileOptsAdd |> stdinoutOptsAdd greets

/-- All options, when `opts_init` has added its own. -/
def allOpts (greets : Greets) : List Opt :=
  [] |> adsbusOptsAdd greets |> optsAdd (ascii "help") none optsHelp .internal

/-- `OPTS_MAX`. -/
def optsMax : Nat := 128

/-- No assertion of `opts_add` or `opts_init` fails. -/
theorem allOpts_length (greets : Greets) : (allOpts greets).length < optsMax := by
  change 22 < 128
  decide

/-- The entries of `opts_long` but its last. -/
def optsLong (opts : List Opt) : List (LongOption UInt8) :=
  opts.map fun opt => ⟨opt.name, opt.argHelp.isSome⟩

/-- `getopt_long_only` from the first argument on, as often as it is called, in the order that it
has by default. -/
def getoptLongOnly (opts : List Opt) (argv : List Bytes) : Scan UInt8 :=
  Getopt.scan '-'.toUInt8 '='.toUInt8 (optsLong opts) [] argv

/-- An option is handled. -/
def callHandler (opt : Opt) (given : Given UInt8) (setup : Setup) : Except (Stop × Setup) Setup :=
  match opt.handler (given.value.getD []) setup with
  | .error stop => .error (stop, setup)
  | .ok none => .error (.invalidValue given.last, setup)
  | .ok (some setup) => .ok setup

/-- The loop of `opts_call`, with what is set up when the program exits. -/
def optsCall (opts : List Opt) (group : Group) : Scan UInt8 → Setup → Except (Stop × Setup) Setup
  | .malformed, setup => .error (.usage, setup)
  | .done [], setup => .ok setup
  | .done (word :: _), setup => .error (.notFlag word, setup)
  | .option given rest, setup =>
      match opts[given.index]? with
      | none => optsCall opts group rest setup
      | some opt =>
          if opt.group ≠ group then optsCall opts group rest setup
          else do
            let setup ← callHandler opt given setup
            optsCall opts group rest setup

/-- The groups behind the one of `opts_init`. -/
def parts : List Group :=
  [.log, .server1, .server2, .outgoing, .incoming, .exec, .file, .stdinout]

/-- The options of `main`, with the words behind the name of the program. -/
def mainOpts (greets : Greets) (argv : List Bytes) : Except (Stop × Setup) Setup :=
  let opts := allOpts greets
  (.internal :: parts).foldlM
    (fun setup group => optsCall opts group (getoptLongOnly opts argv) setup) setupInit

/-! ## Lines -/

variable {greets : Greets} {opts : List Opt} {line : List Bytes} {given : List (Given UInt8)}
  {setup after : Setup}

/-- The group of an option that is given. -/
def groupOf (opts : List Opt) (given : Given UInt8) : Option Group :=
  opts[given.index]?.map Opt.group

/-- What a given option is handled to, whatever its group. -/
def handle (opts : List Opt) (setup : Setup) (given : Given UInt8) :
    Except (Stop × Setup) Setup :=
  match opts[given.index]? with
  | none => .ok setup
  | some opt => callHandler opt given setup

/-- The given options of a group, in their order. -/
def ofGroup (opts : List Opt) (given : List (Given UInt8)) (group : Group) : List (Given UInt8) :=
  given.filter fun option => groupOf opts option = some group

/-- Given options in the order in which they are handled. -/
def orderly (opts : List Opt) (given : List (Given UInt8)) : List (Given UInt8) :=
  parts.flatMap (ofGroup opts given)

/-- A line of options, without `--help`. -/
def Ordinary (opts : List Opt) (given : List (Given UInt8)) (line : List Bytes) : Prop :=
  Getopt.Line '-'.toUInt8 '='.toUInt8 (optsLong opts) given line ∧
    ∀ option ∈ given, groupOf opts option ≠ some .internal

/-- Of a line of options, those of the group are handled. -/
theorem optsCall_ofGiven (group : Group) (given : List (Given UInt8)) (setup : Setup) :
    optsCall opts group (.ofGiven given) setup =
      (ofGroup opts given group).foldlM (handle opts) setup := by
  induction given generalizing setup with
  | nil => rfl
  | cons first given ih =>
      rw [Getopt.Scan.ofGiven_cons, optsCall]
      cases entry : opts[first.index]? with
      | none =>
          have outside : groupOf opts first ≠ some group := by simp [groupOf, entry]
          rw [ofGroup, List.filter_cons_of_neg (by simpa using outside)]
          exact ih setup
      | some opt =>
          by_cases same : opt.group = group
          · have inside : groupOf opts first = some group := by simp [groupOf, entry, same]
            rw [ofGroup, List.filter_cons_of_pos (by simpa using inside), List.foldlM_cons, handle,
              entry]
            simp only [ne_eq, same, not_true_eq_false, ↓reduceIte, ih]
            rfl
          · have outside : groupOf opts first ≠ some group := by simp [groupOf, entry, same]
            rw [ofGroup, List.filter_cons_of_neg (by simpa using outside)]
            simp only [ne_eq, same, not_false_eq_true, ↓reduceIte]
            exact ih setup

/-- Only `--help` is handled by `opts_init`. -/
theorem allOpts_internal {opt : Opt} (member : opt ∈ allOpts greets)
    (internal : opt.group = .internal) : opt.handler = optsHelp := by
  have others : ∀ opt ∈ adsbusOptsAdd greets [], opt.group ≠ .internal := by
    simp [adsbusOptsAdd, serverOptsAdd, logOptsAdd, outgoingOptsAdd, incomingOptsAdd, execOptsAdd,
      fileOptsAdd, stdinoutOptsAdd, optsAdd]
  rcases List.mem_append.mp member with before | last
  · exact absurd internal (others opt before)
  · rw [List.mem_singleton.mp last]

/-- `opts_init` accepts a line of options without `--help`, and exits otherwise. -/
theorem optsInit_cases (scan : Scan UInt8) (setup : Setup) :
    (∃ given, scan = .ofGiven given ∧
        ∀ option ∈ given, groupOf (allOpts greets) option ≠ some .internal) ∨
      ∃ stop, optsCall (allOpts greets) .internal scan setup = .error (stop, setup) ∧
        ∀ word, stop ≠ .invalidValue word := by
  induction scan with
  | malformed => exact .inr ⟨.usage, rfl, fun word same => by cases same⟩
  | done others =>
      cases others with
      | nil => exact .inl ⟨[], rfl, List.forall_mem_nil _⟩
      | cons word others => exact .inr ⟨.notFlag word, rfl, fun word same => by cases same⟩
  | option first rest ih =>
      by_cases internal : groupOf (allOpts greets) first = some .internal
      · obtain ⟨opt, entry, group⟩ := Option.map_eq_some_iff.mp internal
        have helps := allOpts_internal (List.mem_of_getElem? entry) group
        refine .inr ⟨.help, ?_, fun word same => by cases same⟩
        simp only [optsCall, entry, group, ne_eq, not_true_eq_false, ↓reduceIte, callHandler, helps,
          optsHelp, Except.error_bind]
      · have skips : optsCall (allOpts greets) .internal (.option first rest) setup =
            optsCall (allOpts greets) .internal rest setup := by
          rw [optsCall]
          cases entry : (allOpts greets)[first.index]? with
          | none => rfl
          | some opt =>
              have other : opt.group ≠ .internal := fun same => internal (by
                simp [groupOf, entry, same])
              simp only [ne_eq, other, not_false_eq_true, ↓reduceIte]
        rw [skips]
        refine ih.imp_left ?_
        rintro ⟨given, rfl, others⟩
        exact ⟨first :: given, rfl, List.forall_mem_cons.mpr ⟨internal, others⟩⟩

/-- Items taken by their keys, one key after another, are all items. -/
theorem flatMap_filter_perm {ι κ : Type} [DecidableEq κ] {keys : List κ} (distinct : keys.Nodup)
    (key : ι → κ) {items : List ι} (covers : ∀ item ∈ items, key item ∈ keys) :
    (keys.flatMap fun first => items.filter fun item => key item = first).Perm items := by
  induction keys generalizing items with
  | nil =>
      cases items with
      | nil => exact .nil
      | cons item items => cases covers item List.mem_cons_self
  | cons first keys ih =>
      obtain ⟨fresh, distinct⟩ := List.nodup_cons.mp distinct
      have others : (keys.flatMap fun later => items.filter fun item => key item = later) =
          keys.flatMap fun later =>
            (items.filter fun item => !decide (key item = first)).filter
              fun item => key item = later := by
        refine List.flatMap_congr fun later member => ?_
        rw [List.filter_filter]
        refine List.filter_congr fun item _ => ?_
        by_cases same : key item = later
        · have differ : later ≠ first := fun same => fresh (same ▸ member)
          simp [same, differ]
        · simp [same]
      rw [List.flatMap_cons, others]
      refine ((ih distinct ?_).append_left _).trans (List.filter_append_perm _ items)
      intro item member
      obtain ⟨inside, differ⟩ := List.mem_filter.mp member
      refine (List.mem_cons.mp (covers item inside)).resolve_left ?_
      simpa using differ

/-- Each option is handled exactly once. -/
theorem Ordinary.perm (ordinary : Ordinary opts given line) : (orderly opts given).Perm given := by
  have split : orderly opts given = (parts.map some).flatMap (fun group =>
      given.filter fun option => groupOf opts option = group) := by
    rw [orderly, List.flatMap_map]
    rfl
  rw [split]
  refine flatMap_filter_perm (by decide) (groupOf opts) fun option member => ?_
  have inside := ordinary.1.index_lt option member
  have other := ordinary.2 option member
  rw [optsLong, List.length_map] at inside
  rw [groupOf, List.getElem?_eq_getElem inside, Option.map_some] at other ⊢
  generalize (opts.get ⟨option.index, inside⟩).group = group at other ⊢
  refine List.mem_map_of_mem ?_
  cases group with
  | internal => exact absurd rfl other
  | _ => decide

/-- A line of options is handled group by group. -/
theorem Ordinary.mainOpts (ordinary : Ordinary (allOpts greets) given line) :
    Options.mainOpts greets line =
      (orderly (allOpts greets) given).foldlM (handle (allOpts greets)) setupInit := by
  have scans : getoptLongOnly (allOpts greets) line = .ofGiven given :=
    Getopt.scan_eq_iff.mpr ordinary.1
  have none : ofGroup (allOpts greets) given .internal = [] :=
    List.filter_eq_nil_iff.mpr fun option member => by
      simpa using ordinary.2 option member
  have folds : ∀ (groups : List Group) (setup : Setup), groups.foldlM (fun setup group =>
      optsCall (allOpts greets) group (.ofGiven given) setup) setup =
        (groups.flatMap (ofGroup (allOpts greets) given)).foldlM (handle (allOpts greets))
          setup := by
    intro groups
    induction groups with
    | nil => exact fun _ => rfl
    | cons group groups ih =>
        intro setup
        rw [List.foldlM_cons, optsCall_ofGiven, List.flatMap_cons, List.foldlM_append]
        exact congrArg (_ >>= ·) (funext ih)
  rw [Options.mainOpts, scans]
  refine (folds _ _).trans ?_
  rw [List.flatMap_cons, none, List.nil_append]
  rfl

/-- For any other line nothing is handled. -/
theorem mainOpts_unusual (unusual : ¬ ∃ given, Ordinary (allOpts greets) given line) :
    ∃ stop, mainOpts greets line = .error (stop, setupInit) ∧
      ∀ word, stop ≠ .invalidValue word := by
  rcases @optsInit_cases greets (getoptLongOnly (allOpts greets) line) setupInit with
    ⟨given, scans, others⟩ | ⟨stop, exits, kind⟩
  · exact absurd ⟨given, Getopt.scan_eq_iff.mp scans, others⟩ unusual
  · refine ⟨stop, ?_, kind⟩
    rw [mainOpts, List.foldlM_cons, exits, Except.error_bind]

/-- What an option asks for. -/
inductive Effect
  | logPath (path : Bytes)
  | logTimestamps
  | logQuiet
  | start (started : Started)
  deriving DecidableEq, Repr

def Setup.apply (setup : Setup) : Effect → Setup
  | .logPath path => { setup with logPath := some path }
  | .logTimestamps => { setup with logTimestamps := true }
  | .logQuiet => { setup with logQuiet := true }
  | .start started => setup.start started

/-- There is one log at most, and what standard output is opened for is greeted. -/
def Permitted (greets : Greets) (setup : Setup) : Effect → Prop
  | .logPath _ => setup.logPath = none
  | .start (.stdout serializer) => hello serializer = true → greets setup.started.length = true
  | _ => True

/-- A text names a format, in upper or lower case. -/
def Names (format : Bytes) (serializer : Serializer) : Prop :=
  format.map toLower = serializerName serializer

/-- The kinds of transports. -/
inductive Transport
  | connect
  | listen
  | exec
  | read
  | write
  | append
  deriving DecidableEq, Repr

/-- What a text stands for behind the format. -/
inductive Target : Transport → Bytes → (Flow → Option Serializer → Started) → Prop
  | connect {node service : Bytes} : '/'.toUInt8 ∉ node →
      Target .connect (node ++ '/'.toUInt8 :: service) (.outgoing node service)
  | listenHost {node service : Bytes} : '/'.toUInt8 ∉ node →
      Target .listen (node ++ '/'.toUInt8 :: service) (.incoming (some node) service)
  | listen {service : Bytes} : '/'.toUInt8 ∉ service →
      Target .listen service (.incoming none service)
  | exec {command : Bytes} : Target .exec command (.exec command)
  | read {path : Bytes} : Target .read path (.file path oRdonly)
  | write {path : Bytes} :
      Target .write path (.file path (oWronly ||| oCreat ||| oNofollow ||| oTrunc))
  | append {path : Bytes} : Target .append path (.file path (oWronly ||| oCreat ||| oNofollow))

/-- The kinds of options. -/
inductive Shape
  | logFile
  | logTimestamps
  | quiet
  | detach
  | pidFile
  | receive (transport : Transport)
  | send (transport : Transport) (flow : Flow)
  | stdin
  | stdout
  deriving DecidableEq, Repr

/-- What an option with an argument asks for. -/
inductive Shape.Means : Shape → Bytes → Effect → Prop
  | logFile {path : Bytes} : Means .logFile path (.logPath path)
  | logTimestamps {arg : Bytes} : Means .logTimestamps arg .logTimestamps
  | quiet {arg : Bytes} : Means .quiet arg .logQuiet
  | detach {arg : Bytes} : Means .detach arg (.start .serverDetach)
  | pidFile {path : Bytes} : Means .pidFile path (.start (.serverPidFile path))
  | receive {transport : Transport} {text : Bytes} {started : Flow → Option Serializer → Started} :
      Target transport text started →
      Means (.receive transport) text (.start (started .receive none))
  | send {transport : Transport} {flow : Flow} {format text : Bytes} {serializer : Serializer}
      {started : Flow → Option Serializer → Started} :
      Names format serializer → Target transport text started →
      Means (.send transport flow) (format ++ '='.toUInt8 :: text)
        (.start (started flow (some serializer)))
  | stdin {arg : Bytes} : Means .stdin arg (.start .stdin)
  | stdout {format : Bytes} {serializer : Serializer} : Names format serializer →
      Means .stdout format (.start (.stdout serializer))

/-- The options by their names. -/
def shapes : List (Bytes × Shape) :=
  [(ascii "detach", .detach), (ascii "pid-file", .pidFile), (ascii "log-file", .logFile),
    (ascii "log-timestamps", .logTimestamps), (ascii "quiet", .quiet),
    (ascii "connect-receive", .receive .connect), (ascii "connect-send", .send .connect .send),
    (ascii "connect-send-receive", .send .connect .sendReceive),
    (ascii "listen-receive", .receive .listen), (ascii "listen-send", .send .listen .send),
    (ascii "listen-send-receive", .send .listen .sendReceive),
    (ascii "exec-receive", .receive .exec), (ascii "exec-send", .send .exec .send),
    (ascii "exec-send-receive", .send .exec .sendReceive),
    (ascii "file-read", .receive .read), (ascii "file-write", .send .write .send),
    (ascii "file-write-read", .send .write .sendReceive),
    (ascii "file-append", .send .append .send),
    (ascii "file-append-read", .send .append .sendReceive),
    (ascii "stdin", .stdin), (ascii "stdout", .stdout)]

/-! ### Arguments -/

variable {arg : Bytes} {flow : Flow} {passthrough : Option Serializer} {effect : Effect}

theorem serializerName_lower (serializer : Serializer) :
    (serializerName serializer).map toLower = serializerName serializer := by
  cases serializer <;> decide

theorem serializerName_injective {first second : Serializer}
    (same : serializerName first = serializerName second) : first = second := by
  revert same
  cases first <;> cases second <;> decide

/-- A format is found by its name. -/
theorem sendGetSerializer_eq_some {name : Bytes} {serializer : Serializer} :
    sendGetSerializer name = some serializer ↔ Names name serializer := by
  have test : ∀ serializer : Serializer,
      (serializerName serializer).map toLower = name.map toLower ↔ Names name serializer := by
    intro serializer
    rw [serializerName_lower, Names, eq_comm]
  rw [sendGetSerializer]
  constructor
  · intro found
    have met := List.find?_some found
    exact (test serializer).mp (by simpa using met)
  · intro names
    cases found : Serializer.all.find? fun serializer =>
        (serializerName serializer).map toLower = name.map toLower with
    | none =>
        have fails := List.find?_eq_none.mp found serializer (by cases serializer <;> decide)
        exact absurd ((test serializer).mpr names) (by simpa using fails)
    | some other =>
        have met := List.find?_some found
        have names' := (test other).mp (by simpa using met)
        exact congrArg some (serializerName_injective (names'.symm.trans names))

/-- The format of an argument ends at its first `=`. -/
theorem Names.bare {format : Bytes} {serializer : Serializer} (names : Names format serializer) :
    '='.toUInt8 ∉ format := by
  intro member
  have there := List.mem_map_of_mem (f := toLower) member
  rw [names] at there
  revert there
  cases serializer <;> decide

/-- A function that is given to `send_add` adds a transport for each text of its kind. -/
def Adds (next : Add) (transport : Transport) : Prop :=
  ∀ {arg flow passthrough setup after}, next arg flow passthrough setup = some after ↔
    ∃ started, Target transport arg started ∧ after = setup.start (started flow passthrough)

theorem outgoingAdd_adds : Adds outgoingAdd .connect := by
  intro arg flow passthrough setup after
  rw [outgoingAdd]
  constructor
  · intro added
    split at added
    · cases added
    · next host rest found =>
        obtain ⟨rfl, bare⟩ := Getopt.cut_eq_some.mp found
        cases added
        exact ⟨_, .connect bare, rfl⟩
  · rintro ⟨started, target, rfl⟩
    cases target with
    | @connect node service bare =>
        have found : optsSplit (node ++ '/'.toUInt8 :: service) '/' = some (node, service) :=
          Getopt.cut_eq_some.mpr ⟨rfl, bare⟩
        rw [found]

theorem incomingAdd_adds : Adds incomingAdd .listen := by
  intro arg flow passthrough setup after
  rw [incomingAdd]
  constructor
  · intro added
    split at added
    · next host rest found =>
        obtain ⟨rfl, bare⟩ := Getopt.cut_eq_some.mp found
        cases added
        exact ⟨_, .listenHost bare, rfl⟩
    · next missing =>
        cases added
        exact ⟨_, .listen (Getopt.cut_eq_none.mp missing), rfl⟩
  · rintro ⟨started, target, rfl⟩
    cases target with
    | @listenHost node service bare =>
        have found : optsSplit (node ++ '/'.toUInt8 :: service) '/' = some (node, service) :=
          Getopt.cut_eq_some.mpr ⟨rfl, bare⟩
        rw [found]
    | listen bare =>
        have missing : optsSplit arg '/' = none := Getopt.cut_eq_none.mpr bare
        rw [missing]

/-- Any text is one of the other kinds. -/
theorem adds_of_target {transport : Transport} {make : Bytes → Flow → Option Serializer → Started}
    (only : ∀ {text started}, Target transport text started ↔ started = make text) :
    Adds (fun text flow passthrough setup => some (setup.start (make text flow passthrough)))
      transport := by
  intro arg flow passthrough setup after
  constructor
  · intro added
    cases added
    exact ⟨_, only.mpr rfl, rfl⟩
  · rintro ⟨started, target, rfl⟩
    rw [only.mp target]

theorem execAdd_adds : Adds execAdd .exec := by
  refine @adds_of_target _ Started.exec fun {text started} => ⟨fun target => ?_, ?_⟩
  · cases target
    rfl
  · rintro rfl
    exact .exec

theorem fileReadNew_adds :
    Adds (fun path flow passthrough setup => some (fileReadNew path flow passthrough setup))
      .read := by
  refine @adds_of_target _ (fun path => .file path oRdonly) fun {text started} =>
    ⟨fun target => ?_, ?_⟩
  · cases target
    rfl
  · rintro rfl
    exact .read

theorem fileWriteAdd_adds : Adds fileWriteAdd .write := by
  refine @adds_of_target _ (fun path => .file path (oWronly ||| oCreat ||| oNofollow ||| oTrunc))
    fun {text started} => ⟨fun target => ?_, ?_⟩
  · cases target
    rfl
  · rintro rfl
    exact .write

theorem fileAppendAdd_adds : Adds fileAppendAdd .append := by
  refine @adds_of_target _ (fun path => .file path (oWronly ||| oCreat ||| oNofollow))
    fun {text started} => ⟨fun target => ?_, ?_⟩
  · cases target
    rfl
  · rintro rfl
    exact .append

/-! ### Handlers and their kinds -/

/-- A handler does what is asked for, where that is permitted, and fails for anything else. -/
def Realizes (greets : Greets) (handler : Handler) (shape : Shape) : Prop :=
  ∀ arg setup, ∃ result, handler arg setup = .ok result ∧ ∀ after, result = some after ↔
    ∃ effect, shape.Means arg effect ∧ Permitted greets setup effect ∧ after = setup.apply effect

/-- Transports are permitted. -/
theorem Target.permitted {transport : Transport} {text : Bytes}
    {started : Flow → Option Serializer → Started} (target : Target transport text started)
    (setup : Setup) (flow : Flow) (passthrough : Option Serializer) :
    Permitted greets setup (.start (started flow passthrough)) := by
  cases target <;> trivial

theorem Adds.receive {next : Add} {transport : Transport} (adds : Adds next transport) :
    Realizes greets (fun arg setup => .ok (next arg .receive none setup)) (.receive transport) := by
  intro arg setup
  refine ⟨_, rfl, fun after => adds.trans ?_⟩
  constructor
  · rintro ⟨started, target, rfl⟩
    exact ⟨_, .receive target, target.permitted setup _ _, rfl⟩
  · rintro ⟨effect, means, _, rfl⟩
    cases means with
    | receive target => exact ⟨_, target, rfl⟩

theorem Adds.send {next : Add} {transport : Transport} (adds : Adds next transport) (flow : Flow) :
    Realizes greets (fun arg setup => .ok (sendAdd next flow arg setup))
      (.send transport flow) := by
  intro arg setup
  refine ⟨_, rfl, fun after => ?_⟩
  rw [sendAdd, sendParseFormat]
  constructor
  · intro added
    split at added
    · cases added
    · next serializer text parsed =>
        split at parsed
        · cases parsed
        · next format rest found =>
            obtain ⟨rfl, _⟩ := Getopt.cut_eq_some.mp found
            obtain ⟨_, got, same⟩ := Option.map_eq_some_iff.mp parsed
            cases same
            obtain ⟨started, target, rfl⟩ := adds.mp added
            exact ⟨_, .send (sendGetSerializer_eq_some.mp got) target, target.permitted setup _ _,
              rfl⟩
  · rintro ⟨effect, means, _, rfl⟩
    cases means with
    | @send _ _ format text serializer started names target =>
        have found : optsSplit (format ++ '='.toUInt8 :: text) '=' = some (format, text) :=
          Getopt.cut_eq_some.mpr ⟨rfl, names.bare⟩
        simp only [found, sendGetSerializer_eq_some.mpr names, Option.map_some]
        exact adds.mpr ⟨started, target, rfl⟩

/-- An option without a condition asks for one thing. -/
theorem realizes_of_means {shape : Shape} {effect : Bytes → Effect}
    (asks : ∀ arg, shape.Means arg (effect arg))
    (only : ∀ arg asked, shape.Means arg asked → asked = effect arg)
    (free : ∀ setup arg, Permitted greets setup (effect arg)) :
    Realizes greets (fun arg setup => .ok (some (setup.apply (effect arg)))) shape := by
  intro arg setup
  refine ⟨_, rfl, fun after => ?_⟩
  constructor
  · intro same
    cases same
    exact ⟨_, asks arg, free setup arg, rfl⟩
  · rintro ⟨asked, means, _, rfl⟩
    rw [only arg asked means]

theorem serverDetach_realizes : Realizes greets serverDetach .detach := by
  refine realizes_of_means (fun _ => .detach) (fun arg asked means => ?_) fun _ _ => trivial
  cases means
  rfl

theorem serverPidFile_realizes : Realizes greets serverPidFile .pidFile := by
  refine realizes_of_means (fun _ => .pidFile) (fun arg asked means => ?_) fun _ _ => trivial
  cases means
  rfl

theorem logEnableTimestamps_realizes : Realizes greets logEnableTimestamps .logTimestamps := by
  refine realizes_of_means (fun _ => .logTimestamps) (fun arg asked means => ?_) fun _ _ => trivial
  cases means
  rfl

theorem logSetQuiet_realizes : Realizes greets logSetQuiet .quiet := by
  refine realizes_of_means (fun _ => .quiet) (fun arg asked means => ?_) fun _ _ => trivial
  cases means
  rfl

theorem stdinoutStdin_realizes : Realizes greets stdinoutStdin .stdin := by
  refine realizes_of_means (fun _ => .stdin) (fun arg asked means => ?_) fun _ _ => trivial
  cases means
  rfl

/-- There is one log at most. -/
theorem logSetPath_realizes : Realizes greets logSetPath .logFile := by
  intro arg setup
  cases named : setup.logPath with
  | none =>
      have runs : logSetPath arg setup = .ok (some (setup.apply (.logPath arg))) := by
        rw [logSetPath, named]
        rfl
      refine ⟨_, runs, fun after => ?_⟩
      constructor
      · intro same
        cases same
        exact ⟨_, .logFile, named, rfl⟩
      · rintro ⟨effect, ⟨⟩, _, rfl⟩
        rfl
  | some path =>
      have fails : logSetPath arg setup = .ok none := by rw [logSetPath, named]
      refine ⟨_, fails, fun after => ?_⟩
      constructor
      · intro same
        cases same
      · rintro ⟨effect, ⟨⟩, permitted, rfl⟩
        cases named.symm.trans permitted

/-- Standard output needs a format, whose greeting is written. -/
theorem stdinoutStdout_realizes : Realizes greets (stdinoutStdout greets) .stdout := by
  intro arg setup
  have means : ∀ effect, Shape.stdout.Means arg effect ↔
      ∃ serializer, sendGetSerializer arg = some serializer ∧
        effect = .start (.stdout serializer) := by
    intro effect
    constructor
    · rintro ⟨⟩
      next names => exact ⟨_, sendGetSerializer_eq_some.mpr names, rfl⟩
    · rintro ⟨serializer, found, rfl⟩
      exact .stdout (sendGetSerializer_eq_some.mp found)
  rw [stdinoutStdout]
  cases found : sendGetSerializer arg with
  | none =>
      refine ⟨none, rfl, fun after => ?_⟩
      simp [means, found]
  | some serializer =>
      by_cases refused : hello serializer = true ∧ greets setup.started.length = false
      · refine ⟨none, by simp [refused.1, refused.2], fun after => ?_⟩
        simp [means, found, Permitted, refused.1, refused.2]
      · have permitted : Permitted greets setup (.start (.stdout serializer)) := by
          intro greeted
          simpa [greeted] using refused
        refine ⟨some (setup.start (.stdout serializer)), ?_, fun after => ?_⟩
        · have greeted : (hello serializer && !greets setup.started.length) = false := by
            simpa using refused
          simp [greeted]
        · simp [means, found, permitted, Setup.apply, eq_comm]

/-- All options. -/
theorem shapes_realized (greets : Greets) :
    (adsbusOptsAdd greets []).Forall₂
      (fun opt shape => opt.name = shape.1 ∧ Realizes greets opt.handler shape.2) shapes := by
  exact .cons ⟨rfl, serverDetach_realizes⟩ (.cons ⟨rfl, serverPidFile_realizes⟩
    (.cons ⟨rfl, logSetPath_realizes⟩ (.cons ⟨rfl, logEnableTimestamps_realizes⟩
    (.cons ⟨rfl, logSetQuiet_realizes⟩ (.cons ⟨rfl, outgoingAdd_adds.receive⟩
    (.cons ⟨rfl, outgoingAdd_adds.send _⟩ (.cons ⟨rfl, outgoingAdd_adds.send _⟩
    (.cons ⟨rfl, incomingAdd_adds.receive⟩ (.cons ⟨rfl, incomingAdd_adds.send _⟩
    (.cons ⟨rfl, incomingAdd_adds.send _⟩ (.cons ⟨rfl, execAdd_adds.receive⟩
    (.cons ⟨rfl, execAdd_adds.send _⟩ (.cons ⟨rfl, execAdd_adds.send _⟩
    (.cons ⟨rfl, fileReadNew_adds.receive⟩ (.cons ⟨rfl, fileWriteAdd_adds.send _⟩
    (.cons ⟨rfl, fileWriteAdd_adds.send _⟩ (.cons ⟨rfl, fileAppendAdd_adds.send _⟩
    (.cons ⟨rfl, fileAppendAdd_adds.send _⟩ (.cons ⟨rfl, stdinoutStdin_realizes⟩
    (.cons ⟨rfl, stdinoutStdout_realizes⟩ .nil))))))))))))))))))))

/-! ## Configurations -/

/-- What a given option asks for. -/
def Asks (option : Given UInt8) (effect : Effect) : Prop :=
  ∃ shape, shapes[option.index]? = some shape ∧ shape.2.Means (option.value.getD []) effect

/-- What is asked for is permitted, one after another. -/
def AllPermitted (greets : Greets) : Setup → List Effect → Prop
  | _, [] => True
  | setup, effect :: effects =>
      Permitted greets setup effect ∧ AllPermitted greets (setup.apply effect) effects

theorem forall₂_getElem? {ι κ : Type} {related : ι → κ → Prop} {items : List ι}
    {others : List κ} (all : items.Forall₂ related others) {index : Nat} {item : ι}
    (found : items[index]? = some item) :
    ∃ other, others[index]? = some other ∧ related item other := by
  induction all generalizing index with
  | nil => cases found
  | cons here _ ih =>
      cases index with
      | zero =>
          cases found
          exact ⟨_, rfl, here⟩
      | succ index => exact ih found

/-- A given option is handled well exactly when what it asks for is permitted. -/
theorem handle_eq_ok {option : Given UInt8} (inside : option.index < (allOpts greets).length)
    (ordinary : groupOf (allOpts greets) option ≠ some .internal) :
    handle (allOpts greets) setup option = .ok after ↔
      ∃ effect, Asks option effect ∧ Permitted greets setup effect ∧
        after = setup.apply effect := by
  obtain ⟨opt, entry⟩ : ∃ opt, (allOpts greets)[option.index]? = some opt :=
    ⟨_, List.getElem?_eq_getElem inside⟩
  have named : (adsbusOptsAdd greets [])[option.index]? = some opt := by
    have split := entry
    rw [allOpts, optsAdd] at split
    rcases Nat.lt_or_ge option.index (adsbusOptsAdd greets []).length with within | beyond
    · rwa [List.getElem?_append_left within] at split
    · rw [List.getElem?_append_right beyond] at split
      have last := List.mem_singleton.mp (List.mem_of_getElem? split)
      refine absurd ?_ ordinary
      rw [groupOf, entry, last]
      rfl
  obtain ⟨shape, there, _, realizes⟩ := forall₂_getElem? (shapes_realized greets) named
  obtain ⟨result, ran, result_iff⟩ := realizes (option.value.getD []) setup
  have handled : handle (allOpts greets) setup option = .ok after ↔ result = some after := by
    rw [handle, entry]
    simp only [callHandler, ran]
    cases result with
    | none => simp
    | some other => simp
  have asks : ∀ effect, Asks option effect ↔ shape.2.Means (option.value.getD []) effect := by
    intro effect
    rw [Asks, there]
    simp
  simp only [handled, result_iff, asks]

theorem handles_eq_ok (inside : ∀ option ∈ given, option.index < (allOpts greets).length)
    (ordinary : ∀ option ∈ given, groupOf (allOpts greets) option ≠ some .internal) :
    given.foldlM (handle (allOpts greets)) setup = .ok after ↔
      ∃ effects, given.Forall₂ Asks effects ∧ AllPermitted greets setup effects ∧
        after = effects.foldl Setup.apply setup := by
  induction given generalizing setup with
  | nil =>
      constructor
      · intro same
        cases same
        exact ⟨[], .nil, trivial, rfl⟩
      · rintro ⟨effects, ⟨⟩, _, rfl⟩
        rfl
  | cons option given ih =>
      obtain ⟨insideHere, inside⟩ := List.forall_mem_cons.mp inside
      obtain ⟨ordinaryHere, ordinary⟩ := List.forall_mem_cons.mp ordinary
      rw [List.foldlM_cons, Except.bind_eq_ok]
      constructor
      · rintro ⟨between, here, later⟩
        obtain ⟨effect, asks, permitted, rfl⟩ := (handle_eq_ok insideHere ordinaryHere).mp here
        obtain ⟨effects, all, rest, rfl⟩ := (ih inside ordinary).mp later
        exact ⟨effect :: effects, .cons asks all, ⟨permitted, rest⟩, rfl⟩
      · rintro ⟨effects, all, permitted, rfl⟩
        cases all with
        | cons asks all =>
            exact ⟨_, (handle_eq_ok insideHere ordinaryHere).mpr ⟨_, asks, permitted.1, rfl⟩,
              (ih inside ordinary).mpr ⟨_, all, permitted.2, rfl⟩⟩

example : (mainOpts (fun _ => true) [ascii "-stdout", ascii "JSON", ascii "--log-f=a",
    ascii "--file-r", ascii "b", ascii "--listen-send=raw=c/d=e", ascii "--"]).toOption =
      some ⟨some (ascii "a"), false, false,
        [.incoming (some (ascii "c")) (ascii "d=e") .send (some .raw),
          .file (ascii "b") oRdonly .receive none, .stdout .json]⟩ := by decide

end Adsbus.Options

import PoolGauge.FileTree
import PoolGauge.Source.Query
import PoolGauge.Text.Blank
import PoolGauge.Text.Utf8

/-!
# The storage tools

The source behind an exporter on a real host: two command line tools, and the files in which the
kernel publishes statistics. What a tool does when it is started is given by the host.
-/
namespace PoolGauge

def vdevPropertyNames : List String :=
  ["read_ops", "write_ops", "read_bytes", "write_bytes", "allocated", "size"]

def datasetPropertyNames : List String :=
  ["objsetid", "available", "used", "usedbychildren", "usedbydataset", "usedbyrefreservation",
    "usedbysnapshots", "referenced", "logicalused", "logicalreferenced", "compressratio",
    "refcompressratio"]

structure CommandLine where
  program : String
  arguments : List String
deriving DecidableEq, Repr

namespace CommandLine

def text (c : CommandLine) : String :=
  c.program ++ " " ++ " ".intercalate c.arguments

def listPools : CommandLine := ⟨"zpool", ["list", "-H", "-o", "name,health"]⟩

def poolStatus (pool : String) : CommandLine := ⟨"zpool", ["status", "-p", pool]⟩

def vdevProperties (pool : String) : CommandLine :=
  ⟨"zpool", ["get", "-H", "-p", "-o", "name,property,value", ",".intercalate vdevPropertyNames,
    pool, "all-vdevs"]⟩

def listDatasets : CommandLine :=
  ⟨"zfs", ["list", "-H", "-o", "name", "-t", "filesystem,volume"]⟩

def datasetProperties (names : List String) : CommandLine :=
  ⟨"zfs", ["get", "-H", "-p", "-o", "name,property,value",
    ",".intercalate datasetPropertyNames] ++ names⟩

end CommandLine

/-- How a process ends. -/
inductive Ending where
  | exited (status : Nat)
  | killed (signal : Nat)
deriving DecidableEq, Repr

namespace Ending

/-- The names of the signals, from the first on. -/
def signalNames : List String :=
  ["SIGHUP", "SIGINT", "SIGQUIT", "SIGILL", "SIGTRAP", "SIGABRT", "SIGBUS", "SIGFPE", "SIGKILL",
    "SIGUSR1", "SIGSEGV", "SIGUSR2", "SIGPIPE", "SIGALRM", "SIGTERM", "SIGSTKFLT", "SIGCHLD",
    "SIGCONT", "SIGSTOP", "SIGTSTP", "SIGTTIN", "SIGTTOU", "SIGURG", "SIGXCPU", "SIGXFSZ",
    "SIGVTALRM", "SIGPROF", "SIGWINCH", "SIGIO", "SIGPWR", "SIGSYS"]

def signalName? : Nat → Option String
  | 0 => none
  | n + 1 => signalNames[n]?

def text : Ending → String
  | exited status => "exit status: " ++ status.repr
  | killed signal =>
    match signalName? signal with
    | some name => "signal: " ++ signal.repr ++ " (" ++ name ++ ")"
    | none => "signal: " ++ signal.repr

end Ending

/-- What comes of starting a program. -/
inductive Launch where
  /-- It could not be started. -/
  | refused (reason : String)
  /-- It did not end in time. -/
  | hung
  /-- It ended with this output. -/
  | ended (stdout stderr : List UInt8) (ending : Ending)
deriving DecidableEq, Repr

namespace Launch

/-- The output of a program, or why there is none. An output that is not text is refused before
the ending is looked at; a bad ending is accepted if partial output is, and if there is some. -/
def output (launch : Launch) (line : String) (limit : Duration) (partialOutput : Bool) :
    Except Failure String :=
  match launch with
  | refused reason => .error (.spawn line reason)
  | hung => .error (.timeout line limit)
  | ended stdout stderr ending =>
    match Text.Utf8.decode stdout with
    | .error fault => .error (.command line ("non UTF-8 output: " ++ fault.message))
    | .ok text =>
      if ending = .exited 0 ∨ (partialOutput ∧ ¬ text.toList.all Text.isBlank) then .ok text
      else
        let complaint := String.ofList (Text.trim (Text.Utf8.decodeLenient stderr))
        .error (.command line (ending.text ++ ": " ++ complaint))

end Launch

/-- A host: what its programs do, its files of statistics, and the time that a program may take. -/
structure Host where
  start : CommandLine → Launch
  statistics : FileTree
  limit : Duration

namespace Host

/-- Starts a program; an argument with a null character in it is refused before. -/
def launch (host : Host) (command : CommandLine) : Launch :=
  if command.arguments.any (·.contains '\x00') then
    .refused "nul byte found in provided data"
  else host.start command

def run (host : Host) (command : CommandLine) (partialOutput : Bool) : Except Failure String :=
  (host.launch command).output command.text host.limit partialOutput

/-- Runs a program for a list; no failure leaves more than its wording. -/
def list (host : Host) (command : CommandLine) : Except Failure String :=
  (host.run command false).mapError fun failure => .unavailable failure.message

/-- The path of the statistics of an object set. A pool name that is itself an absolute path
leaves the directory of statistics. -/
def statisticsPath (pool : String) (id : UInt64) : String :=
  let file := "objset-0x" ++ String.ofList (Number.hexadecimal id.toNat)
  if pool = "" then file
  else if pool.endsWith "/" then pool ++ file
  else pool ++ "/" ++ file

/-- The wording of a fault on the way to a file, unless the file is just not there. -/
def pathFailure? : PathFault → Option String
  | .notFound => none
  | .notADirectory => some "Not a directory (os error 20)"
  | .nameTooLong => some "File name too long (os error 36)"
  | .embeddedNul => some "file name contained an unexpected NUL byte"

def objsetKstat (host : Host) (pool : String) (id : UInt64) : Except Failure (Option String) :=
  match host.statistics.lookup (statisticsPath pool id) with
  | .error fault =>
    match pathFailure? fault with
    | none => .ok none
    | some reason => .error (.io reason)
  | .ok .directory => .error (.io "Is a directory (os error 21)")
  | .ok (.file content) =>
    match Text.Utf8.decode content with
    | .ok text => .ok (some text)
    | .error _ => .error (.io "stream did not contain valid UTF-8")

/-- The reply of the host to a question. Only the properties of datasets may be partial, as the
tool reports an error when any one of the datasets is gone. -/
def reply (host : Host) : (query : Query) → query.Reply
  | .listPools => host.list .listPools
  | .poolStatus pool => host.run (.poolStatus pool) false
  | .vdevProperties pool => host.run (.vdevProperties pool) false
  | .listDatasets => host.list .listDatasets
  | .datasetProperties names => host.run (.datasetProperties names) true
  | .objsetKstat pool id => host.objsetKstat pool id

/-- The command line behind a question. -/
def command? : Query → Option CommandLine
  | .listPools => some .listPools
  | .poolStatus pool => some (.poolStatus pool)
  | .vdevProperties pool => some (.vdevProperties pool)
  | .listDatasets => some .listDatasets
  | .datasetProperties names => some (.datasetProperties names)
  | .objsetKstat .. => none

/-- The command lines of the programs that some questions start. -/
def started (host : Host) (queries : List Query) : List CommandLine :=
  (queries.filterMap command?).filter fun command =>
    match host.launch command with
    | .refused _ => false
    | _ => true

def source (host : Host) : Source Unit where
  call _ state := (0, state)
  reply query state := (host.reply query, state)

end Host

end PoolGauge

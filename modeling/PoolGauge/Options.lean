import PoolGauge.Config.Basic
import PoolGauge.Number.Whole
import PoolGauge.Settings.Environment

/-!
# Command line

The options of the exporter. A value follows its option in the next word, after an equals sign,
or right behind a letter; some options have an environment variable for when they are not given.
What the options say goes over the configuration of the file.
-/
namespace PoolGauge

/-- The options that take a value. -/
inductive Flag where
  | config | port | addr | refreshMode
deriving DecidableEq, Repr

namespace Flag

def all : List Flag :=
  [config, port, addr, refreshMode]

def name : Flag → String
  | config => "config"
  | port => "port"
  | addr => "addr"
  | refreshMode => "refresh-mode"

def letter? : Flag → Option Char
  | config => some 'c'
  | port => some 'p'
  | addr => some 'a'
  | refreshMode => none

/-- What stands for the value of an option in messages. -/
def placeholder : Flag → String
  | config => "<CONFIG>"
  | port => "<PORT>"
  | addr => "<ADDR>"
  | refreshMode => "<REFRESH_MODE>"

def variableName? : Flag → Option String
  | port => some "EXPORTER_PORT"
  | addr => some "EXPORTER_ADDR"
  | config | refreshMode => none

/-- An option as messages show it. -/
def shown (f : Flag) : String :=
  "--" ++ f.name ++ " " ++ f.placeholder

def ofName? (name : String) : Option Flag :=
  all.find? (·.name == name)

def ofLetter? (c : Char) : Option Flag :=
  all.find? (·.letter? == some c)

theorem ofName?_name (f : Flag) : ofName? f.name = some f := by
  cases f <;> rfl

end Flag

/-- Why a text is no port. -/
inductive PortFault where
  | empty
  | notANumber
  | outOfRange
deriving DecidableEq, Repr

def PortFault.message (text : String) : PortFault → String
  | empty => "cannot parse integer from empty string"
  | notANumber => "invalid digit found in string"
  | outOfRange => text ++ " is not in 0..=65535"

/-- Reads a port: an optional plus sign, then decimal digits whose value fits. -/
def readPort (text : String) : Except PortFault UInt16 :=
  if text = "" then .error .empty
  else
    let digits := match text.toList with
      | '+' :: rest => rest
      | letters => letters
    match Number.readNat digits with
    | none => .error .notANumber
    | some n => if h : n < UInt16.size then .ok (UInt16.ofNatLT n h) else .error .outOfRange

/-- Why a command line cannot be followed. -/
inductive UsageFault where
  /-- A word is neither an option nor the value of one. -/
  | unexpected (word : String)
  /-- An option has no value. -/
  | valueMissing (flag : Flag)
  /-- An option stands there twice. -/
  | repeated (flag : Flag)
  /-- A value is no port. -/
  | invalidPort (value : String) (fault : PortFault)
  /-- A value is no refresh mode. -/
  | invalidMode (value : String)
deriving DecidableEq, Repr

namespace UsageFault

def message : UsageFault → String
  | unexpected word => "unexpected argument '" ++ word ++ "' found"
  | valueMissing flag => "a value is required for '" ++ flag.shown ++ "' but none was supplied"
  | repeated flag => "the argument '" ++ flag.shown ++ "' cannot be used multiple times"
  | invalidPort value fault =>
    "invalid value '" ++ value ++ "' for '" ++ Flag.port.shown ++ "': " ++ fault.message value
  | invalidMode value =>
    "invalid value '" ++ value ++ "' for '" ++ Flag.refreshMode.shown ++
      "'\n  [possible values: on-scrape, interval]"

end UsageFault

structure Options where
  config : Option String := none
  port : Option UInt16 := none
  addr : Option String := none
  refreshMode : Option RefreshMode := none
deriving DecidableEq, Repr

/-- What a command line asks for. -/
inductive Invocation where
  | run (options : Options)
  | help
  | version
deriving DecidableEq, Repr

namespace Options

def has (o : Options) : Flag → Bool
  | .config => o.config.isSome
  | .port => o.port.isSome
  | .addr => o.addr.isSome
  | .refreshMode => o.refreshMode.isSome

def set (o : Options) (flag : Flag) (value : String) : Except UsageFault Options :=
  if o.has flag then .error (.repeated flag)
  else match flag with
    | .config => .ok { o with config := some value }
    | .addr => .ok { o with addr := some value }
    | .port =>
      match readPort value with
      | .ok port => .ok { o with port := some port }
      | .error fault => .error (.invalidPort value fault)
    | .refreshMode =>
      match RefreshMode.ofOption? value with
      | some mode => .ok { o with refreshMode := some mode }
      | none => .error (.invalidMode value)

/-- The environment gives values to the options that have none. -/
def fill (environment : Settings.Environment) (o : Options) : Except UsageFault Options :=
  Flag.all.foldlM (fun o flag =>
    match flag.variableName?.bind environment.get? with
    | some value => if o.has flag then .ok o else o.set flag value
    | none => .ok o) o

/-- A word of the command line as it looks by itself. -/
inductive Word where
  /-- An option, with the value that is attached to it. -/
  | option (flag : Flag) (value : Option String)
  /-- A request for help. -/
  | help
  /-- A request for the version. -/
  | version
  /-- No option is known by this name. -/
  | unknown (word : String)
  /-- The word does not look like an option. -/
  | plain (text : String)

namespace Word

/-- Reads a word that two dashes begin, from its name on. -/
def ofLong (text : List Char) : Word :=
  let name := String.ofList (text.takeWhile (· != '='))
  let value := text.dropWhile (· != '=')
  match Flag.ofName? name with
  | some flag => .option flag (value.tail?.map String.ofList)
  | none =>
    if !value.isEmpty then .unknown ("--" ++ name)
    else if name = "help" then .help
    else if name = "version" then .version
    else .unknown ("--" ++ name)

/-- Reads a word that one dash begins, from its letter on. -/
def ofShort (letter : Char) (rest : List Char) : Word :=
  match Flag.ofLetter? letter with
  | some flag =>
    match rest with
    | [] => .option flag none
    | '=' :: value | value => .option flag (some (String.ofList value))
  | none =>
    if letter = 'h' then .help
    else if letter = 'V' then .version
    else .unknown (String.ofList ['-', letter])

/-- Reads a word. One dash alone is plain. -/
def ofString (text : String) : Word :=
  match text.toList with
  | '-' :: '-' :: rest => ofLong rest
  | '-' :: letter :: rest => ofShort letter rest
  | _ => .plain text

end Word

/-- Follows the words of a command line, where the value of an option may still be due. Two dashes
alone end the options, and nothing else may follow them. -/
def follow (o : Options) : Option Flag → List String → Except UsageFault Invocation
  | some flag, [] => .error (.valueMissing flag)
  | none, [] => .ok (.run o)
  | due, "--" :: rest =>
    match rest, due with
    | word :: _, _ => .error (.unexpected word)
    | [], some flag => .error (.valueMissing flag)
    | [], none => .ok (.run o)
  | due, word :: rest =>
    match Word.ofString word, due with
    | .unknown name, _ => .error (.unexpected name)
    | .plain text, none => .error (.unexpected text)
    | .plain text, some flag => do
      let o ← o.set flag text
      o.follow none rest
    | _, some flag => .error (.valueMissing flag)
    | .help, none => .ok .help
    | .version, none => .ok .version
    | .option flag none, none => o.follow (some flag) rest
    | .option flag (some value), none => do
      let o ← o.set flag value
      o.follow none rest

/-- What the words of a command line and the environment ask for. -/
def read (environment : Settings.Environment) (words : List String) :
    Except UsageFault Invocation :=
  match follow {} none words with
  | .ok (.run o) => (o.fill environment).map .run
  | answer => answer

def configPath (o : Options) : String :=
  o.config.getD "config/Default.toml"

/-- Lays the options over a configuration. -/
def apply (o : Options) (c : Config) : Config :=
  { server.addr := o.addr.getD c.server.addr
    server.port := o.port.getD c.server.port
    collector := { c.collector with
      refreshMode := o.refreshMode.getD c.collector.refreshMode } }

def help : String :=
  "\n".intercalate [
    "Prometheus exporter for ZFS pool, vdev and dataset metrics",
    "",
    "Usage: zfs-exporter [OPTIONS]",
    "",
    "Options:",
    "  -c, --config <CONFIG>              Path to configuration file" ++
      " [default: config/Default.toml]",
    "  -p, --port <PORT>                  Port to listen on for metrics (overrides config)" ++
      " [env: EXPORTER_PORT=]",
    "  -a, --addr <ADDR>                  Address to bind to (overrides config)" ++
      " [env: EXPORTER_ADDR=]",
    "      --refresh-mode <REFRESH_MODE>  When to collect snapshots (overrides config)" ++
      " [possible values: on-scrape, interval]",
    "  -h, --help                         Print help",
    "  -V, --version                      Print version"]

theorem has_set {o p : Options} {flag : Flag} {value : String} (h : o.set flag value = .ok p) :
    p.has flag = true := by
  unfold set at h
  split at h
  · simp at h
  · split at h
    · cases h; rfl
    · cases h; rfl
    · split at h <;> simp at h
      subst h; rfl
    · split at h <;> simp at h
      subst h; rfl

@[simp] theorem apply_empty (c : Config) : ({} : Options).apply c = c := rfl

end Options

end PoolGauge

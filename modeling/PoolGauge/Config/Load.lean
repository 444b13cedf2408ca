import PoolGauge.Config.Decode
import PoolGauge.FileTree
import PoolGauge.Settings.EnvironmentFile
import PoolGauge.Settings.Json
import PoolGauge.Settings.Path
import PoolGauge.Settings.Toml.Document
import PoolGauge.Text.Utf8

/-!
# Loading a configuration

A file gives settings in the format that its name ends in, and environment variables are laid over
them. An environment file adds variables first. A file that is not there gives no settings.
-/
namespace PoolGauge

/-- Why there is no configuration. -/
inductive LoadFault where
  /-- A value for a variable has a null character in it. -/
  | embeddedNul
  /-- The file is malformed. -/
  | malformed
  /-- A setting does not stand for what it should. -/
  | mismatched
  /-- The configuration is refused. -/
  | refused (failure : Failure)
deriving DecidableEq, Repr

def LoadFault.message : LoadFault → String
  | embeddedNul => "Failed to set an environment variable"
  | malformed => "Failed to build configuration"
  | mismatched => "Failed to deserialize configuration"
  | refused failure => failure.message

inductive FileFormat where
  | toml | json
deriving DecidableEq, Repr

namespace FileFormat

/-- Every format, in the order in which files are looked for. -/
def all : List FileFormat :=
  [toml, json]

def ending : FileFormat → String
  | toml => ".toml"
  | json => ".json"

def read : FileFormat → List Char → Option Settings.Setting
  | toml => Settings.Toml.read
  | json => Settings.Json.read

/-- The format that the name of a file ends in. An ending alone is no such name. -/
def ofName? (name : String) : Option FileFormat :=
  all.find? fun format => name.endsWith format.ending && name != format.ending

end FileFormat

namespace Config

def environmentFile : String := ".env"

/-- The text of a file, without the mark that may stand at its beginning. -/
def textOf (content : List UInt8) : List Char :=
  match Text.Utf8.decodeLenient content with
  | '\uFEFF' :: rest => rest
  | text => text

/-- The content and the format of the file that a path stands for: a file with a known ending,
or else the first one with a known ending added to the path. Above the directory nothing is found,
and a file without a known ending is none. -/
def locate? (files : FileTree) (path : String) : Option (List UInt8 × FileFormat) :=
  let names := (pathComponents path).filter (· != ".")
  match files.file? path, names.getLast? with
  | _, none | _, some ".." => none
  | some content, some name => (FileFormat.ofName? name).map (content, ·)
  | none, some _ =>
    if path.startsWith "/" then none
    else
      FileFormat.all.findSome? fun format =>
        (files.file? ("/".intercalate names ++ format.ending)).map (·, format)

def fileSettings (files : FileTree) (path : String) : Except LoadFault Settings.Entries :=
  match locate? files path with
  | none => .ok []
  | some (content, format) =>
    match format.read (textOf content) with
    | some (.table entries) => .ok entries
    | _ => .error .malformed

def fullEnvironment (files : FileTree) (environment : Settings.Environment) :
    Except LoadFault Settings.Environment :=
  match files.file? environmentFile with
  | none => .ok environment
  | some content =>
    match Settings.EnvironmentFile.apply environment (textOf content) with
    | some environment => .ok environment
    | none => .error .embeddedNul

def load (files : FileTree) (environment : Settings.Environment) (path : String) :
    Except LoadFault Config := do
  let environment ← fullEnvironment files environment
  let entries ← fileSettings files path
  let tree := ((Settings.Setting.table []).layer entries).layer environment.settings
  match tree.config? with
  | none => .error .mismatched
  | some config =>
    config.validate.mapError LoadFault.refused
    return config

end Config

end PoolGauge

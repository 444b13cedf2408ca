import PoolGauge.Config.Load
import PoolGauge.Options

/-!
# Starting the exporter

The program reads its command line, its environment and its configuration, and says where its
metrics are to be found.
-/
namespace PoolGauge.Program

def content? (path : String) : IO (Option (List UInt8)) :=
  try
    let bytes ← IO.FS.readBinFile path
    return some bytes.toList
  catch _ => return none

def environment : IO Settings.Environment := do
  let bytes := (← content? "/proc/self/environ").getD []
  let rows := Text.splitWhere (· == '\x00') (Text.Utf8.decodeLenient bytes)
  return ⟨rows.filterMap fun row =>
    if row.contains '=' then
      some (String.ofList (row.takeWhile (· != '=')),
        String.ofList ((row.dropWhile (· != '=')).drop 1))
    else none⟩

/-- The directory of the tree that holds the files a path may stand for. -/
def shelf : String := "given/"

/-- The files that a path may stand for, in a tree that has them below its shelf, beside the
environment file of the directory or of the nearest one above that has one. No path is long enough
to go further up. -/
def files (path name : String) : IO FileTree := do
  let mut found := []
  for ending in "" :: FileFormat.all.map (·.ending) do
    if let some content ← content? (path ++ ending) then
      found := found ++ [(shelf ++ name ++ ending, Entry.file content)]
  let mut above := ""
  for _ in List.range (FileTree.maxPath / 3) do
    if let some content ← content? (above ++ Config.environmentFile) then
      found := found ++ [(Config.environmentFile, Entry.file content)]
      break
    above := above ++ "../"
  return .ofPaths found

def refuse (fault : UsageFault) : IO UInt32 := do
  IO.eprintln ("error: " ++ fault.message)
  IO.eprintln "\nFor more information, try '--help'."
  return 2

def announce (c : Config) : IO UInt32 := do
  c.announcement.forM IO.println
  return 0

def start (o : Options) (environment : Settings.Environment) : IO UInt32 := do
  let name := (pathComponents o.configPath).getLast?.getD ""
  let files ← files o.configPath name
  match Config.load files environment (shelf ++ name) with
  | .ok config => announce (o.apply config)
  | .error fault =>
    IO.eprintln ("Error: " ++ fault.message)
    return 1

end PoolGauge.Program

def main (args : List String) : IO UInt32 := do
  let environment ← PoolGauge.Program.environment
  match PoolGauge.Options.read environment args with
  | .error fault => PoolGauge.Program.refuse fault
  | .ok .help =>
    IO.println PoolGauge.Options.help
    return 0
  | .ok .version =>
    IO.println "zfs-exporter 0.1.0"
    return 0
  | .ok (.run options) => PoolGauge.Program.start options environment

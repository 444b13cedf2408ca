import PoolGauge.Metrics.Family

/-!
# The text exposition format

For every family with a series a line of help, a line with the type, and a line for each series.
Backslashes, double quotes and newlines in label values are escaped, so that a series is one line.
-/
namespace PoolGauge.Metrics

def escapeChar : Char → List Char
  | '\\' => ['\\', '\\']
  | '"' => ['\\', '"']
  | '\n' => ['\\', 'n']
  | c => [c]

def escape (text : List Char) : List Char :=
  text.flatMap escapeChar

def LabelPair.text (pair : LabelPair) : List Char :=
  pair.name.toList ++ ['=', '"'] ++ escape pair.value.toList ++ ['"']

/-- The labels of a series in braces; without labels there are no braces. -/
def labelsText : List LabelPair → List Char
  | [] => []
  | first :: rest =>
    '\x7b' :: first.text ++ rest.flatMap (fun pair => ',' :: pair.text) ++ ['\x7d']

def Series.line (name : String) (series : Series) : List Char :=
  name.toList ++ labelsText series.labels ++ ' ' :: Number.floatText series.value

def Family.lines {ε : Type} (family : Family ε) (source : ε) : List (List Char) :=
  match family.series source with
  | [] => []
  | series =>
    ("# HELP " ++ family.name ++ " " ++ family.help).toList ::
      ("# TYPE " ++ family.name ++ " " ++ family.measure.word).toList ::
      series.map (·.line family.name)

/-- The text of lines, each ended by a newline. -/
def textOfLines (lines : List (List Char)) : String :=
  String.ofList (lines.flatMap (· ++ ['\n']))

def familiesLines {ε : Type} (families : List (Family ε)) (source : ε) : List (List Char) :=
  families.flatMap (·.lines source)

end PoolGauge.Metrics

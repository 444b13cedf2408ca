import PoolGauge.Number.Whole
import PoolGauge.Text.Unprintable

/-!
# Quoted text

The form in which messages show a piece of input: in double quotes, with a short escape for the
common controls and a numbered one for every other character that shows nothing by itself.
-/
namespace PoolGauge.Text

def numberedEscape (c : Char) : List Char :=
  ['\\', 'u', '\x7b'] ++ Number.hexadecimal c.toNat ++ ['\x7d']

def quoteChar (c : Char) : List Char :=
  match c with
  | '\x00' => ['\\', '0']
  | '\t' => ['\\', 't']
  | '\r' => ['\\', 'r']
  | '\n' => ['\\', 'n']
  | '\\' => ['\\', '\\']
  | '"' => ['\\', '"']
  | _ => if isUnprintable c then numberedEscape c else [c]

def quoted (text : List Char) : List Char :=
  '"' :: text.flatMap quoteChar ++ ['"']

end PoolGauge.Text

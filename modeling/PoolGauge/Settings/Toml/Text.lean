import PoolGauge.Number.Radix
import PoolGauge.Text.Reader

/-!
# Lines, comments and quoted texts of TOML

A text stands in single quotes as it is, or in double quotes with escapes; three quotes let it go
over several lines.
-/
namespace PoolGauge.Settings.Toml

open Text

/-- Whether the character is a blank inside a line. -/
def isSpace (c : Char) : Bool :=
  c == ' ' || c == '\t'

/-- Whether the character may stand in a line as it is. -/
def isLineChar (c : Char) : Bool :=
  c == '\t' || (0x20 ≤ c.toNat && c.toNat != 0x7F)

def spaces : Reader Unit :=
  Reader.skipWhile isSpace

def newline : Reader Unit :=
  Reader.exactly ['\n'] <|> Reader.exactly ['\r', '\n']

def comment : Reader Unit :=
  Reader.exactly ['#'] <* Reader.skipWhile isLineChar

/-- Skips a comment if there is one, with the blanks before it. -/
def restOfLine : Reader Unit := do
  spaces
  let _ ← Reader.optional comment

/-- Skips blanks, comments and ends of lines. -/
def filler : Reader Unit := do
  restOfLine
  let _ ← Reader.many (newline <* restOfLine)

/-! ## Escapes -/

def numberedCharacter (length : Nat) : Reader Char := do
  let n ← Number.takeHex length
  if n.isValidChar then return Char.ofNat n else failure

def escaped : Reader Char := do
  match ← Reader.next with
  | '"' => return '"'
  | '\\' => return '\\'
  | 'b' => return '\x08'
  | 'e' => return '\x1b'
  | 'f' => return '\x0c'
  | 'n' => return '\n'
  | 'r' => return '\r'
  | 't' => return '\t'
  | 'x' => numberedCharacter 2
  | 'u' => numberedCharacter 4
  | 'U' => numberedCharacter 8
  | _ => failure

/-! ## Texts on one line -/

def character : Reader Char := do
  match ← Reader.next with
  | '\\' => escaped
  | c => if isLineChar c && c != '"' then return c else failure

def escapedText : Reader (List Char) :=
  Reader.exactly ['"'] *> Reader.many character <* Reader.exactly ['"']

/-- Takes a text in single quotes. -/
def literalText : Reader (List Char) :=
  Reader.exactly ['\''] *> Reader.takeWhile (fun c => isLineChar c && c != '\'') <*
    Reader.exactly ['\'']

/-! ## Texts over several lines -/

/-- Takes one or two quotes that do not end the text. -/
def innerQuotes (quote : Char) : Reader (List Char) := do
  let quotes ← Reader.takeWhile1 (· == quote)
  if quotes.length < 3 then return quotes else failure

/-- Takes the quotes that end the text, with up to two that belong to it. -/
def closingQuotes (quote : Char) : Reader (List Char) := do
  let ending := Reader.exactly [quote, quote, quote]
  ((Reader.exactly [quote, quote] *> ending) *> return [quote, quote]) <|>
    ((Reader.exactly [quote] *> ending) *> return [quote]) <|>
    (ending *> return [])

/-- Takes a piece of a line that has neither quotes nor escapes, or the end of a line. -/
def plainPiece (stops : Char → Bool) : Reader (List Char) :=
  Reader.takeWhile1 (fun c => isLineChar c && !stops c) <|> (newline *> return ['\n'])

/-- Takes a backslash at the end of a line, with all blanks and ends of lines after it. -/
def continuation : Reader (List Char) := do
  Reader.exactly ['\\'] <* spaces
  newline
  let _ ← Reader.many (Reader.satisfy isSpace *> pure () <|> newline)
  return []

/-- Takes the pieces of a text between three quotes on either side. An end of a line right at the
beginning does not belong to it. -/
def longText (quote : Char) (piece : Reader (List Char)) : Reader (List Char) := do
  Reader.exactly [quote, quote, quote]
  let _ ← Reader.optional newline
  let pieces ← Reader.many (innerQuotes quote <|> piece)
  let ending ← closingQuotes quote
  return pieces.flatten ++ ending

def longEscapedText : Reader (List Char) :=
  longText '"' <|
    plainPiece (fun c => c == '"' || c == '\\') <|> continuation <|>
      (do Reader.exactly ['\\']; return [← escaped])

def longLiteralText : Reader (List Char) :=
  longText '\'' (plainPiece (· == '\''))

def text : Reader String := do
  let content ← longEscapedText <|> longLiteralText <|> escapedText <|> literalText
  return String.ofList content

end PoolGauge.Settings.Toml

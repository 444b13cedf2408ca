import PoolGauge.Number.Reading
import PoolGauge.Settings.Basic
import PoolGauge.Settings.Toml.Text
import PoolGauge.Text.Split

/-!
# Plain values of TOML

Flags, whole numbers, doubles, dates and times. A date or time is a setting in its own text.
-/
namespace PoolGauge.Settings.Toml

open Text

/-! ## Numbers -/

/-- The digits of a row in which underscores may stand between digits. -/
def digitRow? (isDigit : Char → Bool) (row : List Char) : Option (List Char) :=
  let groups := splitWhere (· == '_') row
  if groups.all (fun group => !group.isEmpty && group.all isDigit) then some groups.flatten
  else none

/-- The digits of a row that starts with a zero only if there is no other digit. -/
def wholeRow? (row : List Char) : Option (List Char) :=
  match digitRow? Char.isDigit row with
  | some ['0'] => some ['0']
  | some ('0' :: _) => none
  | other => other

/-- The sign that a text starts with, whether it is negative, and the rest. -/
def splitSign : List Char → Bool × List Char
  | '-' :: rest => (true, rest)
  | '+' :: rest => (false, rest)
  | text => (false, text)

def fitsWord (n : Int) : Bool :=
  -(Number.signedBound : Int) ≤ n && n < Number.signedBound

/-- Reads a whole number in a radix other than ten, which has no sign. -/
def readRadix (radix : Nat) (row : List Char) : Option Int :=
  ((digitRow? (fun c => (Number.digitIn? radix c).isSome) row).bind (Number.readIn radix)).map
    fun n => (n : Int)

def readInteger (text : List Char) : Option Int :=
  let n := match text with
    | '0' :: 'x' :: row => readRadix 16 row
    | '0' :: 'o' :: row => readRadix 8 row
    | '0' :: 'b' :: row => readRadix 2 row
    | _ =>
      let (negative, row) := splitSign text
      ((wholeRow? row).bind Number.readNat).map fun n => if negative then -(n : Int) else n
  n.filter fitsWord

/-- The fraction that a text starts with, its point included, and the rest. -/
def splitFraction? (text : List Char) : Option (List Char × List Char) :=
  match text with
  | '.' :: rest =>
    let row := rest.takeWhile fun c => c.isDigit || c == '_'
    (digitRow? Char.isDigit row).map fun digits => ('.' :: digits, rest.drop row.length)
  | _ => some ([], text)

def readExponent? (text : List Char) : Option (List Char) :=
  match text with
  | [] => some []
  | c :: rest =>
    if c == 'e' || c == 'E' then
      let (negative, row) := splitSign rest
      (digitRow? Char.isDigit row).map fun digits =>
        'e' :: (if negative then '-' :: digits else digits)
    else none

/-- Reads a double with a fraction or an exponent. A number too great for a double is refused. -/
def readDecimal (text : List Char) : Option Float := do
  let (negative, unsigned) := splitSign text
  let row := unsigned.takeWhile fun c => c.isDigit || c == '_'
  let whole ← wholeRow? row
  let (fraction, rest) ← splitFraction? (unsigned.drop row.length)
  let exponent ← readExponent? rest
  if fraction.isEmpty && exponent.isEmpty then none
  else
    let x ← Number.readFloat (whole ++ fraction ++ exponent)
    if x.isFinite then some (if negative then -x else x) else none

/-- Reads a word for infinity or for an undefined value, with an optional sign. -/
def readSpecial (text : List Char) : Option Float :=
  let (negative, word) := splitSign text
  if word = ['i', 'n', 'f'] ∨ word = ['n', 'a', 'n'] then
    (Number.readFloat word).map fun x => if negative then -x else x
  else none

/-! ## Dates and times -/

def daysIn (year month : Nat) : Nat :=
  if month = 2 then
    if year % 4 = 0 ∧ (year % 100 ≠ 0 ∨ year % 400 = 0) then 29 else 28
  else if month = 4 ∨ month = 6 ∨ month = 9 ∨ month = 11 then 30
  else 31

/-- Takes a number of two or four digits. -/
def places (length : Nat) : Reader (List Char × Nat) := do
  let row ← Reader.count Char.isDigit length
  return (row, (Number.readNat row).getD 0)

def date : Reader (List Char) := do
  let (year, y) ← places 4
  Reader.exactly ['-']
  let (month, m) ← places 2
  Reader.exactly ['-']
  let (day, d) ← places 2
  if 1 ≤ m ∧ m ≤ 12 ∧ 1 ≤ d ∧ d ≤ daysIn y m then
    return year ++ '-' :: month ++ '-' :: day
  else failure

/-- Takes the fraction of a second. Nine places count, and zeros at the end are dropped as long as
another place is left. -/
def secondFraction : Reader (List Char) := do
  Reader.exactly ['.']
  let row ← Reader.takeWhile1 Char.isDigit
  let shown := ((row.take 9).reverse.dropWhile (· == '0')).reverse
  return '.' :: if shown.isEmpty then ['0'] else shown

/-- Takes a time of day. The seconds may be missing. -/
def time : Reader (List Char) := do
  let (hour, h) ← places 2
  Reader.exactly [':']
  let (minute, m) ← places 2
  if 23 < h ∨ 59 < m then failure
  match ← Reader.optional (Reader.exactly [':'] *> places 2) with
  | none => return hour ++ ':' :: minute
  | some (second, s) =>
    if 60 < s then failure
    let fraction ← Reader.optional secondFraction
    return hour ++ ':' :: minute ++ ':' :: second ++ fraction.getD []

/-- Takes the distance from universal time. -/
def offset : Reader (List Char) :=
  (do let _ ← Reader.satisfy fun c => c == 'Z' || c == 'z'
      return ['Z']) <|>
    (do let sign ← Reader.satisfy fun c => c == '+' || c == '-'
        let (hour, h) ← places 2
        Reader.exactly [':']
        let (minute, m) ← places 2
        if 23 < h ∨ 59 < m then failure
        return (if h = 0 ∧ m = 0 then '+' else sign) :: hour ++ ':' :: minute)

/-- Takes a date, a time of day, or a date with a time of day. -/
def moment : Reader (List Char) :=
  (do let day ← date
      let clock ← Reader.optional do
        let _ ← Reader.satisfy fun c => c == 'T' || c == 't' || c == ' '
        let clock ← time
        let zone ← Reader.optional offset
        return 'T' :: clock ++ zone.getD []
      return day ++ clock.getD []) <|> time

/-! ## Values -/

def isPlainChar (c : Char) : Bool :=
  c.isAlphanum || c == '_' || c == '+' || c == '-' || c == '.' || c == ':'

def plainRow : Reader (List Char) :=
  Reader.takeWhile1 isPlainChar

def plainOf? (row : List Char) : Option Setting :=
  if row = ['t', 'r', 'u', 'e'] then some (.flag true)
  else if row = ['f', 'a', 'l', 's', 'e'] then some (.flag false)
  else (readInteger row).map Setting.integer <|>
    (readDecimal row).map Setting.number <|> (readSpecial row).map Setting.number

def plain : Reader Setting := do
  match plainOf? (← plainRow) with
  | some setting => return setting
  | none => failure

/-- Takes a date or time that is not part of a longer row. -/
def plainMoment : Reader Setting := do
  let row ← moment
  match ← Reader.optional (Reader.satisfy isPlainChar) with
  | some _ => failure
  | none => return .text (String.ofList row)

def scalar : Reader Setting :=
  (do return .text (← text)) <|> plainMoment <|> plain

end PoolGauge.Settings.Toml

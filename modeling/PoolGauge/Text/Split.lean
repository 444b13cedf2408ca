import PoolGauge.Text.Blank

/-!
# Lines, fields and words

How the text of the storage tools is cut: lines at newlines, fields at tabs, words at blanks.
-/
namespace PoolGauge.Text

/-- Cuts the text at every character of the class; there is always one piece more than cuts. -/
def splitWhere (cut : Char → Bool) (text : List Char) : List (List Char) :=
  text.foldr (fun c pieces =>
    if cut c then [] :: pieces
    else match pieces with
      | [] => [[c]]
      | piece :: rest => (c :: piece) :: rest) [[]]

/-- Drops one carriage return at the end. -/
def dropCarriageReturn (line : List Char) : List Char :=
  match line.getLast? with
  | some '\r' => line.dropLast
  | _ => line

/-- Closes every piece that a newline ends; what follows the last newline counts only if it is
not empty, and keeps its carriage return. -/
def closeLines : List (List Char) → List (List Char)
  | [] => []
  | [last] => if last.isEmpty then [] else [last]
  | line :: rest => dropCarriageReturn line :: closeLines rest

/-- The lines of a text. A line ends at a newline, and a carriage return before it belongs to
the ending. -/
def lines (text : List Char) : List (List Char) :=
  closeLines (splitWhere (· == '\n') text)

/-- The fields of a line, which tabs separate. -/
def fields (line : List Char) : List (List Char) :=
  splitWhere (· == '\t') line

/-- The words of a line, which blanks separate. -/
def words (line : List Char) : List (List Char) :=
  (splitWhere isBlank line).filter (!·.isEmpty)

@[simp] theorem splitWhere_nil (cut : Char → Bool) : splitWhere cut [] = [[]] := rfl

theorem splitWhere_ne_nil (cut : Char → Bool) (text : List Char) : splitWhere cut text ≠ [] := by
  cases text with
  | nil => simp
  | cons c rest =>
    simp only [splitWhere, List.foldr_cons]
    split
    · simp
    · split <;> simp

theorem splitWhere_cons_of_cut {cut : Char → Bool} {c : Char} (h : cut c = true)
    (text : List Char) : splitWhere cut (c :: text) = [] :: splitWhere cut text := by
  simp [splitWhere, h]

@[simp] theorem lines_nil : lines [] = [] := rfl

@[simp] theorem words_nil : words [] = [] := rfl

end PoolGauge.Text

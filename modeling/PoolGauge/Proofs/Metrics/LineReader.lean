import PoolGauge.Metrics.Registry

/-!
# Reading the line of a series

A line is read one character at a time: the name of the family, each label with its value, and the
value of the series. In the value of a label a backslash and the character after it stand for one
character. What a series is written as is read as this series, whatever its labels hold.
-/
namespace PoolGauge.Metrics

structure Reading where
  family : String
  labels : List LabelPair
  value : List Char
deriving DecidableEq

/-- What a series of a family is read as. -/
def Series.reading (family : String) (series : Series) : Reading :=
  ⟨family, series.labels, Number.floatText series.value⟩

/-- What is being read, with what was read of it and of the line before it. -/
inductive LineReader where
  | family (name : List Char)
  | label (said : Reading) (name : List Char)
  | quote (said : Reading) (name : List Char)
  | value (said : Reading) (name text : List Char)
  | escape (said : Reading) (name text : List Char)
  | next (said : Reading)
  | space (said : Reading)
  | number (said : Reading)
  | refused

def isNameChar (c : Char) : Bool :=
  c.isAlphanum || c == '_' || c == ':'

namespace LineReader

def step : LineReader → Char → LineReader
  | family name, c =>
    if isNameChar c then family (name ++ [c])
    else if c = '\x7b' then label ⟨String.ofList name, [], []⟩ []
    else if c = ' ' then number ⟨String.ofList name, [], []⟩
    else refused
  | label said name, c =>
    if isNameChar c then label said (name ++ [c])
    else if c = '=' then quote said name
    else refused
  | quote said name, c => if c = '"' then value said name [] else refused
  | value said name text, c =>
    if c = '"' then
      next { said with labels := said.labels ++ [⟨String.ofList name, String.ofList text⟩] }
    else if c = '\\' then escape said name text
    else value said name (text ++ [c])
  | escape said name text, c =>
    if c = 'n' then value said name (text ++ ['\n'])
    else if c = '\\' ∨ c = '"' then value said name (text ++ [c])
    else refused
  | next said, c =>
    if c = ',' then label said [] else if c = '\x7d' then space said else refused
  | space said, c => if c = ' ' then number said else refused
  | number said, c => number { said with value := said.value ++ [c] }
  | refused, _ => refused

def read (reader : LineReader) (text : List Char) : LineReader :=
  text.foldl step reader

@[simp]
theorem read_nil (reader : LineReader) : reader.read [] = reader := rfl

@[simp]
theorem read_cons (reader : LineReader) (c : Char) (text : List Char) :
    reader.read (c :: text) = (reader.step c).read text := rfl

@[simp]
theorem read_append (reader : LineReader) (a b : List Char) :
    reader.read (a ++ b) = (reader.read a).read b :=
  List.foldl_append

variable {said : Reading} {name text : List Char}

theorem read_family (h : ∀ c ∈ text, isNameChar c = true) :
    (family name).read text = family (name ++ text) := by
  induction text generalizing name with
  | nil => simp
  | cons c text ih =>
    obtain ⟨hc, htext⟩ := List.forall_mem_cons.mp h
    rw [read_cons, step, if_pos hc, ih htext, List.append_assoc, List.singleton_append]

theorem read_label (h : ∀ c ∈ text, isNameChar c = true) :
    (label said name).read text = label said (name ++ text) := by
  induction text generalizing name with
  | nil => simp
  | cons c text ih =>
    obtain ⟨hc, htext⟩ := List.forall_mem_cons.mp h
    rw [read_cons, step, if_pos hc, ih htext, List.append_assoc, List.singleton_append]

/-- The form of a character is read as this character. -/
theorem read_escapeChar (c : Char) :
    (value said name text).read (escapeChar c) = value said name (text ++ [c]) := by
  by_cases hslash : c = '\\'
  · subst hslash
    simp [escapeChar, step]
  by_cases hquote : c = '"'
  · subst hquote
    simp [escapeChar, step]
  by_cases hnewline : c = '\n'
  · subst hnewline
    simp [escapeChar, step]
  simp [escapeChar, step, hslash, hquote]

theorem read_escape (more : List Char) :
    (value said name text).read (Metrics.escape more) = value said name (text ++ more) := by
  induction more generalizing text with
  | nil => simp [Metrics.escape]
  | cons c more ih =>
    rw [Metrics.escape, List.flatMap_cons, read_append, read_escapeChar, ← Metrics.escape, ih,
      List.append_assoc, List.singleton_append]

/-- A label is read up to the quote that ends its value. -/
theorem read_pair {pair : LabelPair} (h : ∀ c ∈ pair.name.toList, isNameChar c = true) :
    (label said []).read pair.text = next { said with labels := said.labels ++ [pair] } := by
  have hequals : isNameChar '=' = false := by decide
  rw [LabelPair.text, read_append, read_append, read_append, read_label h]
  simp [step, hequals, read_escape]

theorem read_pairs {pairs : List LabelPair}
    (h : ∀ pair ∈ pairs, ∀ c ∈ pair.name.toList, isNameChar c = true) :
    (next said).read (pairs.flatMap fun pair => ',' :: pair.text) =
      next { said with labels := said.labels ++ pairs } := by
  induction pairs generalizing said with
  | nil => simp
  | cons pair pairs ih =>
    obtain ⟨hpair, hpairs⟩ := List.forall_mem_cons.mp h
    have hcomma : (next said).step ',' = label said [] := by simp [step]
    rw [List.flatMap_cons, read_append, read_cons, hcomma, read_pair hpair, ih hpairs]
    simp

theorem read_number : (number said).read text =
    number { said with value := said.value ++ text } := by
  induction text generalizing said with
  | nil => simp
  | cons c text ih => simp [step, ih]

theorem read_refused : refused.read text = refused := by
  induction text with
  | nil => rfl
  | cons c text ih => exact ih

end LineReader

/-- What a line says if it is that of a series. -/
def readSeries (line : List Char) : Option Reading :=
  match (LineReader.family []).read line with
  | .number said => some said
  | _ => none

theorem isNameChar_of_isFamilyName {name : String} (h : isFamilyName name = true) :
    ∀ c ∈ name.toList, isNameChar c = true := by
  rw [isFamilyName] at h
  cases htext : name.toList with
  | nil => nofun
  | cons first rest =>
    simp only [htext, Bool.and_eq_true, List.all_eq_true] at h
    obtain ⟨hfirst, hrest⟩ := h
    refine List.forall_mem_cons.mpr ⟨?_, hrest⟩
    simp only [isNameChar, Char.isAlphanum, Bool.or_eq_true] at hfirst ⊢
    rcases hfirst with (halpha | hline) | hcolon
    · exact .inl (.inl (.inl halpha))
    · exact .inl (.inr hline)
    · exact .inr hcolon

theorem isFamilyName_of_isLabelName {name : String} (h : isLabelName name = true) :
    isFamilyName name = true := by
  rw [isLabelName] at h
  rw [isFamilyName]
  split at h
  · contradiction
  · simp only [Bool.and_eq_true, Bool.or_eq_true, List.all_eq_true] at h ⊢
    exact ⟨.inl h.1, fun c hc => .inl (h.2 c hc)⟩

/-- The line of a series is read as the series. -/
theorem readSeries_line {name : String} (hname : isFamilyName name = true) {series : Series}
    (hlabels : ∀ pair ∈ series.labels, isLabelName pair.name = true) :
    readSeries (series.line name) = some (series.reading name) := by
  have hfamily := isNameChar_of_isFamilyName hname
  have hpairs : ∀ pair ∈ series.labels, ∀ c ∈ pair.name.toList, isNameChar c = true :=
    fun pair hpair => isNameChar_of_isFamilyName (isFamilyName_of_isLabelName (hlabels pair hpair))
  have hbrace : isNameChar '\x7b' = false := by decide
  have hblank : isNameChar ' ' = false := by decide
  have hread : (LineReader.family []).read (series.line name) = .number (series.reading name) := by
    rw [Series.line, LineReader.read_append, LineReader.read_append,
      LineReader.read_family hfamily]
    cases hall : series.labels with
    | nil =>
      simp [labelsText, LineReader.step, hblank, LineReader.read_number, Series.reading, hall]
    | cons first rest =>
      rw [hall, List.forall_mem_cons] at hpairs
      simp [labelsText, LineReader.step, hbrace, LineReader.read_pair hpairs.1,
        LineReader.read_pairs hpairs.2, LineReader.read_number, Series.reading, hall]
  rw [readSeries, hread]

/-- A name with quotes, a backslash and a newline ends neither its label nor its line. -/
example : readSeries (Series.line "up" ⟨[⟨"pool", "a\"\x7d 1\n\\"⟩], 0⟩) =
    some ⟨"up", [⟨"pool", "a\"\x7d 1\n\\"⟩], ['0']⟩ := by
  decide +kernel

theorem readSeries_comment (text : String) : readSeries ("# " ++ text).toList = none := by
  have hhash : isNameChar '#' = false := by decide
  rw [String.toList_append, readSeries]
  simp [LineReader.step, hhash, LineReader.read_refused]

end PoolGauge.Metrics

import PoolGauge.Text.Split

/-!
# Lines of fields

A line of three fields tells the value of a property of something that has a name. Two lines with
different names or properties do not tell the same thing.
-/
namespace PoolGauge.Text

/-- A field of a line, without the blanks around it. -/
def field? (line : List Char) (i : Nat) : Option (List Char) :=
  (fields line)[i]?.map trim

/-- The value that a line tells of a property of what has a name. -/
def toldValue? (name property : String) (line : List Char) : Option (List Char) :=
  if field? line 0 = some name.toList ∧ field? line 1 = some property.toList then field? line 2
  else none

variable {line a b : List Char} {name property : String}

theorem field?_isSome_iff {i : Nat} : (field? line i).isSome ↔ i < (fields line).length := by
  simp [field?]

/-- The fields of a line that has three. -/
theorem field?_of_fields {first second third : List Char} {rest : List (List Char)}
    (h : fields line = first :: second :: third :: rest) :
    field? line 0 = some (trim first) ∧ field? line 1 = some (trim second) ∧
      field? line 2 = some (trim third) := by
  simp [field?, h]

/-- A line has no third field if it is not cut into three. -/
theorem field?_two_eq_none (h : ∀ first second third rest,
    fields line ≠ first :: second :: third :: rest) : field? line 2 = none := by
  rw [field?]
  match hline : fields line with
  | [] | [_] | [_, _] => rfl
  | first :: second :: third :: rest => exact absurd hline (h first second third rest)

/-- Of two lines that are not about the same property of the same name one tells no value. -/
theorem toldValue?_eq_none_or (h : field? a 0 ≠ field? b 0 ∨ field? a 1 ≠ field? b 1) :
    toldValue? name property a = none ∨ toldValue? name property b = none := by
  by_cases ha : field? a 0 = some name.toList ∧ field? a 1 = some property.toList
  · refine .inr (if_neg fun hb => ?_)
    rcases h with hfirst | hsecond
    · exact hfirst (ha.1.trans hb.1.symm)
    · exact hsecond (ha.2.trans hb.2.symm)
  · exact .inl (if_neg ha)

end PoolGauge.Text

import SourceNavigator.Data.Check

/-!
# Matches

A place where a pattern occurs: the file relative to the root, the line counted from one, the offset
of the first occurrence in the line, and the trimmed text of the line.
-/

namespace SourceNavigator.Search

open Data (Rule Validated Datum)

/-- An occurrence of a pattern. -/
structure Match where
  file : String
  line : Int
  column : Int
  text : String
  deriving DecidableEq, Repr

namespace Match

def location (m : Match) : String := m.file ++ ":" ++ toString m.line

def summary (m : Match) : String := m.location ++ ": " ++ m.text

def modelName : String := "SearchMatch"

def fields (entries : List (Datum × Datum)) : Validated Match :=
  Match.mk
    <$> Rule.field "file" none Rule.someText entries
    <*> Rule.field "line" none (Rule.integerFrom 1) entries
    <*> Rule.field "column" (some 0) (Rule.integerFrom 0) entries
    <*> Rule.field "matched_text" (some "") Rule.text entries

def check : Rule Match := Rule.record modelName fields

/-- The refusal to change a field of a match. Names that start with an underscore are no fields. -/
def change (name : String) (m : Match) : Validated Match :=
  if name.toList.head? = some '_' then .valid m
  else .invalid [⟨[.field name], .frozen⟩]

end Match

end SourceNavigator.Search

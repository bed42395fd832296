import SourceNavigator.Proofs.Excerpt.Symbol
import SourceNavigator.Proofs.Json.ShortNumbers
import SourceNavigator.Proofs.Search.Reduction

set_option autoImplicit false

/-! # Numbers of lines that are reported

The number of the line of a match goes into the words of failures. It is never too long for them: whole
numbers that are read are short, and so are those that the check of a record takes other data for
(`isLineNumber_of_parse`). So the matches of a search have numbers of lines
(`areNumbered_of_gives_search`).
-/

namespace SourceNavigator.Search

open Data (Datum HasShortNumbers Rule Validated hasShortNumbers_map)
open Excerpt (IsLineNumber)
open SourceNavigator.Path (Route)

/-! ## Records -/

theorem hasShortNumbers_of_lineOf {data d : Datum} (hdata : HasShortNumbers data)
    (h : lineOf data = .ok d) : HasShortNumbers d := by
  unfold lineOf at h
  split at h
  · split at h
    · rename_i hlookup
      cases h
      exact hdata.lookup hlookup
    · cases h
  · cases h

theorem hasShortNumbers_entryOrNothing {entries : List (Datum × Datum)}
    (h : HasShortNumbers (.map entries)) (name : String) :
    HasShortNumbers (entryOrNothing entries name) := by
  have hnothing : HasShortNumbers (.map []) :=
    hasShortNumbers_map fun e he => absurd he List.not_mem_nil
  unfold entryOrNothing
  split
  · rename_i hlookup
    split
    · exact h.lookup hlookup
    · exact hnothing
  · exact hnothing

theorem isLineNumber_of_checked {name : String} {d : Datum} {n : Int} (hd : HasShortNumbers d)
    (h : checked name (Rule.integerFrom 1) d = .valid n) : IsLineNumber n := by
  have hrule := Validated.under_eq_valid h
  obtain ⟨m, hinteger, hm⟩ := Rule.thenCheck_eq_valid hrule
  have hlow := Rule.le_of_integerFrom hrule
  obtain rfl : m = n := by
    split at hm
    · exact Validated.valid.inj hm
    · cases hm
  refine ⟨hlow, Rule.isWritable_of_integer hinteger ?_⟩
  rintro k rfl
  exact hd k .here

/-- The line of a match record is checked. -/
theorem isLineNumber_of_matchRecord {path line column text : Datum} {r : Record} {f : Frame} {m : Match}
    (hline : HasShortNumbers line) (h : matchRecord path line column text = .valid r)
    (hm : r.match? f = some m) : IsLineNumber m.line := by
  obtain ⟨_, shown, hthree, -, rfl⟩ := Validated.seq_eq_valid h
  obtain ⟨_, place, htwo, -, rfl⟩ := Validated.seq_eq_valid hthree
  obtain ⟨start, n, hstart, hn, rfl⟩ := Validated.seq_eq_valid htwo
  have hnumber := isLineNumber_of_checked hline hn
  have hstart := Validated.under_eq_valid hstart
  -- the record starts with a path of characters, or with one that holds halves
  have hways : (∃ path, start = .found path) ∨ ∃ points, start = .misnamed points := by
    unfold matchPath at hstart
    split at hstart
    · exact Or.inr ⟨_, (Validated.valid.inj hstart).symm⟩
    · obtain ⟨path, -, hpath⟩ := Validated.map_eq_valid hstart
      exact Or.inl ⟨path, hpath⟩
  rcases hways with ⟨path, rfl⟩ | ⟨points, rfl⟩
  · rw [Record.match?] at hm
    split at hm
    · cases hm
    · cases hm
      exact hnumber
  · obtain ⟨file, -, rfl⟩ := Option.map_eq_some_iff.mp hm
    exact hnumber

theorem exists_matchParts_of_ofEntries {entries : List (Datum × Datum)} {r : Record}
    (h : Record.ofEntries entries = .ok r) (hmatch : r.isMatch = true) :
    ∃ path line column text,
      matchParts (entryOrNothing entries "data") = .ok (path, line, column, text) ∧
        matchRecord path line column text = .valid r := by
  unfold Record.ofEntries at h
  simp only at h
  split at h
  · split at h
    · split at h
      · cases h
      · rename_i hparts
        unfold settle at h
        split at h
        · cases h
          exact ⟨_, _, _, _, hparts, ‹_›⟩
        · cases h
    · split at h
      · split at h
        · cases h
        · unfold settle at h
          split at h
          · rename_i hvalid
            cases h
            -- what is made of the parts of a line of context is no match
            obtain ⟨_, shown, htwo, -, rfl⟩ := Validated.seq_eq_valid hvalid
            obtain ⟨_, number, hone, -, rfl⟩ := Validated.seq_eq_valid htwo
            obtain ⟨file, -, rfl⟩ := Validated.map_eq_valid hone
            cases hmatch
          · cases h
      · cases h
        cases hmatch
  · cases h
    cases hmatch

theorem isMatch_of_match? {f : Frame} {r : Record} {m : Match} (h : r.match? f = some m) :
    r.isMatch = true := by
  cases hmatch : r.isMatch with
  | true => rfl
  | false =>
      rw [match?_of_not_isMatch hmatch] at h
      cases h

/-- **A match that is reported has the number of a line.** -/
theorem isLineNumber_of_parse {cs : List Char} {r : Record} {f : Frame} {m : Match}
    (h : Record.parse cs = .ok r) (hm : r.match? f = some m) : IsLineNumber m.line := by
  unfold Record.parse at h
  split at h
  · cases h
  · cases h
  · cases h
  · rename_i hread
    obtain ⟨path, line, column, text, hparts, hvalid⟩ :=
      exists_matchParts_of_ofEntries h (isMatch_of_match? hm)
    obtain ⟨_, -, hparts⟩ := exists_of_bind_eq_ok hparts
    obtain ⟨_, -, hparts⟩ := exists_of_bind_eq_ok hparts
    obtain ⟨_, hline, hparts⟩ := exists_of_bind_eq_ok hparts
    obtain ⟨_, -, hparts⟩ := exists_of_bind_eq_ok hparts
    cases hparts
    have hdata := hasShortNumbers_entryOrNothing (Json.hasShortNumbers_of_parse hread) "data"
    exact isLineNumber_of_matchRecord (hasShortNumbers_of_lineOf hdata hline) hvalid hm
  · cases h

/-! ## Matches -/

/-- The lines of all matches have numbers of lines. -/
def AreNumbered (found : List Match) : Prop := ∀ m ∈ found, IsLineNumber m.line

theorem areNumbered_reported (f : Frame) (lines : List (List Char)) :
    AreNumbered (reported f lines) := by
  intro m hm
  obtain ⟨line, -, hline⟩ := List.mem_filterMap.mp hm
  unfold lineMatch? at hline
  split at hline
  · cases hline
  · split at hline
    · exact isLineNumber_of_parse ‹_› hline
    · cases hline

/-- **The matches of a search have numbers of lines.** -/
theorem areNumbered_of_gives_search {base : Route} {root pattern : String} {o : Options}
    {engine : String} {found : List Match} (h : (search base pattern root o engine).Gives found) :
    AreNumbered found := by
  obtain ⟨lines, rfl⟩ := exists_found_of_gives_search h
  exact fun m hm => areNumbered_reported _ lines m (List.mem_of_mem_take hm)

end SourceNavigator.Search

import Mathlib.Data.List.DropRight
import Mathlib.Tactic
import SourceNavigator.Text.Blank

set_option autoImplicit false

/-! # Trimming

A text is trimmed if no blank stands at either end of it (`IsTrimmed`). Trimming leaves a trimmed text
(`isTrimmed_trim`), and leaves a trimmed text as it is (`trim_eq_self`).
-/

namespace SourceNavigator.Text

/-- No blank stands at the start or at the end. -/
structure IsTrimmed (cs : List Char) : Prop where
  head : ∀ c, cs.head? = some c → isBlank c = false
  last : ∀ c, cs.getLast? = some c → isBlank c = false

theorem dropEndWhile_eq_rdropWhile (p : Char → Bool) (cs : List Char) :
    dropEndWhile p cs = cs.rdropWhile p := rfl

section DropEnd

variable {p : Char → Bool} {cs : List Char} {c : Char}

/-- The first character is still the first one when an ending is dropped. -/
theorem head?_of_dropEndWhile (h : (dropEndWhile p cs).head? = some c) : cs.head? = some c := by
  obtain ⟨dropped, hdropped⟩ := List.rdropWhile_prefix p cs
  rw [← hdropped, List.head?_append]
  exact Option.or_eq_some_iff.mpr (Or.inl h)

theorem getLast?_dropEndWhile (h : (dropEndWhile p cs).getLast? = some c) : p c = false := by
  rw [dropEndWhile_eq_rdropWhile] at h
  have hne : cs.rdropWhile p ≠ [] := by
    intro hnil
    rw [hnil] at h
    cases h
  have hstop := List.rdropWhile_last_not p cs hne
  rw [List.getLast?_eq_some_getLast hne] at h
  rw [← Option.some.inj h]
  simpa using hstop

theorem dropEndWhile_eq_self (h : ∀ c, cs.getLast? = some c → p c = false) :
    dropEndWhile p cs = cs := by
  rw [dropEndWhile_eq_rdropWhile, List.rdropWhile_eq_self_iff]
  intro hne
  simp [h _ (List.getLast?_eq_some_getLast hne)]

theorem dropEndWhile_sublist (p : Char → Bool) (cs : List Char) :
    List.Sublist (dropEndWhile p cs) cs :=
  List.IsPrefix.sublist ( List.rdropWhile_prefix p cs)

end DropEnd

theorem trim_eq_self {cs : List Char} (h : IsTrimmed cs) : trim cs = cs := by
  have hstart : trimStart cs = cs := by
    cases cs with
    | nil => rfl
    | cons c cs => exact List.dropWhile_cons_of_neg (by simp [h.head c rfl])
  rw [trim, hstart, trimEnd, dropEndWhile_eq_self h.last]

theorem isTrimmed_trim (cs : List Char) : IsTrimmed (trim cs) := by
  constructor
  · intro c hc
    have hfirst : (trimStart cs).head? = some c := head?_of_dropEndWhile hc
    have hstop := List.head?_dropWhile_not isBlank cs
    rw [show cs.dropWhile isBlank = trimStart cs from rfl, hfirst] at hstop
    simpa using hstop
  · exact fun _ => getLast?_dropEndWhile

theorem trim_sublist (cs : List Char) : List.Sublist (trim cs) cs :=
  (dropEndWhile_sublist isBlank _).trans (List.dropWhile_sublist isBlank)

theorem trim_eq_self_iff {cs : List Char} : trim cs = cs ↔ IsTrimmed cs :=
  ⟨fun h => h ▸ isTrimmed_trim cs, trim_eq_self⟩

theorem trim_trim (cs : List Char) : trim (trim cs) = trim cs := trim_eq_self (isTrimmed_trim cs)

theorem strip_strip (s : String) : strip (strip s) = strip s := by
  rw [strip, strip, String.toList_ofList, trim_trim]

/-- A blank at the end is trimmed away. -/
theorem trim_concat {c : Char} (h : isBlank c = true) (cs : List Char) :
    trim (cs ++ [c]) = trim cs := by
  rw [trim, trim, trimStart, List.dropWhile_append]
  split
  · rename_i hnil
    rw [trimStart, List.isEmpty_iff.mp hnil, List.dropWhile_cons_of_pos h]
    rfl
  · exact List.rdropWhile_concat_pos isBlank _ _ h

/-- Blanks at the end are trimmed away. -/
theorem trim_dropEndWhile {p : Char → Bool} (h : ∀ c, p c = true → isBlank c = true) (cs : List Char) :
    trim (dropEndWhile p cs) = trim cs := by
  induction cs using List.reverseRecOn with
  | nil => rfl
  | append_singleton cs c ih =>
      rw [dropEndWhile_eq_rdropWhile]
      cases hc : p c with
      | true =>
          rw [List.rdropWhile_concat_pos p _ _ hc, trim_concat (h c hc)]
          exact ih
      | false => rw [List.rdropWhile_concat_neg p _ _ (by rw [hc]; decide)]

end SourceNavigator.Text

